import AgentStudio.Governance.Pipeline

/-!
# Versions that have regressed

`auto_rollback` marks the failing version as regressed, and the gate of the publish
route keeps it from being published until it is validated again. But a version is
also served as the baseline of a canary, and published again by a later rollback,
and both pick it by its number and its status: the version that was marked may be
the one that they pick.
-/

namespace AgentStudio.Promotion.Regression

structure Tenant where
  rows : List Row := []
  evals : Evals := fun _ => none
  /-- The versions that `auto_rollback` has marked and that were not validated since, for the
  record. -/
  regressed : List Nat := []

inductive Op where
  | createDraft (promotedBy : Option String)
  | setValidation (version : Nat) (status : Option Validation)
  | setEvalResult (version : Nat) (status : Evaluation)
  | publish (version : Nat) (promotedBy : Option String) (canaryPercent : Option Int)
  | autoRollback (failingVersion : Nat) (rolledBackBy : Option String)
  deriving DecidableEq, Repr

def Tenant.step (t : Tenant) : Op → Tenant
  | .createDraft promotedBy => { t with rows := createDraft t.rows promotedBy }
  | .setValidation version status =>
    { t with
      rows := setValidation t.rows version status
      regressed := if status = some .validated then t.regressed.filter (· ≠ version)
        else t.regressed }
  | .setEvalResult version status =>
    { t with evals := Function.update t.evals version (some status) }
  | .publish version promotedBy canaryPercent =>
    { t with rows := (publish t.rows t.evals version promotedBy canaryPercent).getD t.rows }
  | .autoRollback failingVersion rolledBackBy =>
    { t with
      rows := autoRollback t.rows failingVersion rolledBackBy
      regressed := if (rollbackTo t.rows failingVersion).isSome then failingVersion :: t.regressed
        else t.regressed }

abbrev Table := TenantId → Tenant

def Table.step (table : Table) (op : TenantId × Op) : Table :=
  Function.update table op.1 ((table op.1).step op.2)

/-- A sequence of operations, each on some tenant. -/
def run (ops : List (TenantId × Op)) : Table := ops.foldl Table.step fun _ => {}

/-- No key is served a version that has regressed. -/
def Unserved (digest : String → Nat) (key : Option String) (t : Tenant) : Prop :=
  ∀ r, getEffective digest t.rows key = some r → r.version ∉ t.regressed

/-- Of the versions that were ever published, this one left aside, each that has regressed is
numbered below one that has not. -/
def Shadowed (t : Tenant) (version : Nat) : Prop :=
  ∀ r ∈ t.rows, r.status ≠ .draft → r.version ≠ version → r.version ∈ t.regressed →
    ∃ a ∈ t.rows, a.status ≠ .draft ∧ a.version ≠ version ∧ a.version ∉ t.regressed ∧
      r.version < a.version

/-- What is asked of an operation: a validation that does not pass leaves the gate closed, and a
rollback of a published version finds the others that have regressed numbered below one that has
not. -/
def Sparing (t : Tenant) : Op → Prop
  | .setValidation version status =>
    version ∈ t.regressed → status = some .validated ∨ promotionGate status none = false
  | .autoRollback failingVersion _ =>
    (∃ r ∈ t.rows, r.version = failingVersion ∧ r.status = .published) → Shadowed t failingVersion
  | _ => True

/-- It is asked of each operation of the sequence, where it stands. -/
def Careful : Table → List (TenantId × Op) → Prop
  | _, [] => True
  | table, op :: ops => Sparing (table op.1) op.2 ∧ Careful (table.step op) ops

/-! ## What an operation keeps -/

/-- A version that has regressed is not published, and the gate is closed. -/
structure Tenant.Barred (t : Tenant) : Prop where
  distinct : (t.rows.map Row.version).Nodup
  known : ∀ version ∈ t.regressed, ∃ r ∈ t.rows, r.version = version
  unpublished : ∀ r ∈ t.rows, r.version ∈ t.regressed → r.status ≠ .published
  gated : ∀ r ∈ t.rows, r.version ∈ t.regressed → promotionGate r.validationStatus none = false

variable {t : Tenant} {digest : String → Nat} {key : Option String}

/-- The highest of the others has not regressed. -/
theorem Shadowed.spares {version : Nat} {previous : Row} (shadowed : Shadowed t version)
    (found : getPreviousPublished t.rows version = some previous) :
    previous.version ∉ t.regressed := by
  intro regressed
  obtain ⟨mem, undraft, other, most⟩ := getPreviousPublished_spec found
  obtain ⟨a, memA, undraftA, otherA, -, above⟩ := shadowed previous mem undraft other regressed
  have := most a memA undraftA otherA
  omega

/-- Where the highest of the others has not regressed, it is above those that have. -/
theorem shadowed_of_spares {version : Nat} (distinct : (t.rows.map Row.version).Nodup)
    (spares : ∀ previous, getPreviousPublished t.rows version = some previous →
      previous.version ∉ t.regressed) : Shadowed t version := by
  intro r mem undraft other regressed
  obtain ⟨previous, found⟩ := getPreviousPublished_some mem undraft other
  obtain ⟨memP, undraftP, otherP, most⟩ := getPreviousPublished_spec found
  have spared := spares previous found
  refine ⟨previous, memP, undraftP, otherP, spared, ?_⟩
  have le := most r mem undraft other
  have ne : r.version ≠ previous.version := fun same => spared (same ▸ regressed)
  omega

namespace Tenant.Barred

theorem createDraft (barred : t.Barred) (promotedBy : Option String) :
    (t.step (.createDraft promotedBy)).Barred := by
  have above {r : Row} (mem : r ∈ t.rows) : r.version < Log.top Row.version t.rows + 1 :=
    Nat.lt_succ_of_le (Log.le_top Row.version mem)
  have new : Log.top Row.version t.rows + 1 ∉ t.regressed := by
    intro mem
    obtain ⟨r, here, named⟩ := barred.known _ mem
    have := above here
    omega
  refine ⟨?_, fun version mem => ?_, fun r mem regressed => ?_, fun r mem regressed => ?_⟩
  · simp only [Tenant.step, Promotion.createDraft, List.map_append, List.map_cons, List.map_nil]
    refine List.Nodup.append barred.distinct (List.nodup_singleton _) ?_
    intro version mem top
    obtain ⟨r, here, rfl⟩ := List.mem_map.mp mem
    have := above here
    simp only [List.mem_singleton] at top
    omega
  · obtain ⟨r, here, named⟩ := barred.known version mem
    exact ⟨r, List.mem_append_left _ here, named⟩
  · rcases List.mem_append.mp mem with old | last
    · exact barred.unpublished r old regressed
    · rw [List.mem_singleton.mp last] at regressed
      exact absurd regressed new
  · rcases List.mem_append.mp mem with old | last
    · exact barred.gated r old regressed
    · rw [List.mem_singleton.mp last] at regressed
      exact absurd regressed new

theorem setValidation (barred : t.Barred) {version : Nat} {status : Option Validation}
    (sparing : Sparing t (.setValidation version status)) :
    (t.step (.setValidation version status)).Barred := by
  have versions := setValidation_versions t.rows version status
  -- what is still marked was marked, and is not the version that was validated
  have still {other : Nat} (mem : other ∈ (t.step (.setValidation version status)).regressed) :
      other ∈ t.regressed ∧ (other = version → status ≠ some .validated) := by
    simp only [Tenant.step] at mem
    split at mem
    next =>
      obtain ⟨old, ne⟩ := List.mem_filter.mp mem
      exact ⟨old, fun same => absurd same (by simpa using ne)⟩
    next unvalidated => exact ⟨mem, fun _ => unvalidated⟩
  refine ⟨versions ▸ barred.distinct, fun other mem => ?_, fun r mem regressed => ?_,
    fun r mem regressed => ?_⟩
  · exact mem_of_versions versions (barred.known other (still mem).1)
  · obtain ⟨old, -⟩ := still regressed
    rcases setRow_cases mem with ⟨a, memA, -, rfl⟩ | ⟨memR, -⟩
    · exact barred.unpublished a memA old
    · exact barred.unpublished r memR old
  · obtain ⟨old, unvalidated⟩ := still regressed
    rcases setRow_cases mem with ⟨a, memA, named, rfl⟩ | ⟨memR, -⟩
    · exact (sparing (named ▸ old)).resolve_left (unvalidated named)
    · exact barred.gated r memR old

theorem publish (barred : t.Barred) (version : Nat) (promotedBy : Option String)
    (canaryPercent : Option Int) :
    (t.step (.publish version promotedBy canaryPercent)).Barred := by
  cases published : Promotion.publish t.rows t.evals version promotedBy canaryPercent with
  | none =>
    have same : t.step (.publish version promotedBy canaryPercent) = t := by
      simp only [Tenant.step, published, Option.getD_none]
    exact same.symm ▸ barred
  | some rows =>
    obtain ⟨rfl, -, draft, memDraft, named, passes⟩ := publish_spec barred.distinct published
    have is : (t.step (.publish version promotedBy canaryPercent)) =
        { t with rows := promote t.rows version promotedBy canaryPercent } := by
      simp only [Tenant.step, published, Option.getD_some]
    have versions := promote_versions t.rows version promotedBy canaryPercent
    -- what passed the gate has not regressed
    have spared : version ∉ t.regressed := by
      intro regressed
      rw [barred.gated draft memDraft (named ▸ regressed)] at passes
      cases passes
    rw [is]
    refine ⟨versions ▸ barred.distinct, fun other mem => mem_of_versions versions (barred.known other mem),
      fun r mem regressed published => ?_, fun r mem regressed => ?_⟩
    · rcases promote_cases mem with its | ⟨a, memA, same, -, before⟩
      · exact spared (its ▸ regressed)
      · exact barred.unpublished a memA (same ▸ regressed) (before published)
    · rcases promote_cases mem with its | ⟨a, memA, same, validation, -⟩
      · exact absurd (its ▸ regressed) spared
      · exact validation ▸ barred.gated a memA (same ▸ regressed)

theorem autoRollback (barred : t.Barred) {failingVersion : Nat} {rolledBackBy : Option String}
    (sparing : Sparing t (.autoRollback failingVersion rolledBackBy)) :
    (t.step (.autoRollback failingVersion rolledBackBy)).Barred := by
  cases found : rollbackTo t.rows failingVersion with
  | none =>
    have same : t.step (.autoRollback failingVersion rolledBackBy) = t := by
      simp only [Tenant.step, Promotion.autoRollback, found, Option.isSome_none, Bool.false_eq_true,
        if_false]
    exact same.symm ▸ barred
  | some previous =>
    have versions := autoRollback_versions t.rows failingVersion rolledBackBy
    have is : t.step (.autoRollback failingVersion rolledBackBy) =
        { t with
          rows := Promotion.autoRollback t.rows failingVersion rolledBackBy
          regressed := failingVersion :: t.regressed } := by
      simp only [Tenant.step, found, Option.isSome_some, if_true]
    unfold rollbackTo at found
    split at found
    next failing =>
      have spared := (sparing failing).spares found
      obtain ⟨memP, -, other, -⟩ := getPreviousPublished_spec found
      have back : rollbackTo t.rows failingVersion = some previous := by
        rw [rollbackTo, if_pos failing, found]
      have apart {r : Row} (regressed : r.version ∈ failingVersion :: t.regressed) :
          r.version ≠ previous.version := by
        intro same
        rcases List.mem_cons.mp regressed with its | old
        · exact other (same.symm.trans its)
        · exact spared (same ▸ old)
      rw [is]
      refine ⟨versions ▸ barred.distinct, fun version mem => ?_, fun r mem regressed => ?_,
        fun r mem regressed => ?_⟩
      · rcases List.mem_cons.mp mem with rfl | old
        · obtain ⟨r, memR, named, -⟩ := failing
          exact mem_of_versions versions ⟨r, memR, named⟩
        · exact mem_of_versions versions (barred.known version old)
      · rcases autoRollback_cases back mem with ⟨its, -⟩ | ⟨-, unpublished, -⟩
        · exact absurd its (apart regressed)
        · exact unpublished
      · rcases autoRollback_cases back mem with
          ⟨its, -⟩ | ⟨-, -, ⟨-, marked⟩ | ⟨unnamed, a, memA, same, validation⟩⟩
        · exact absurd its (apart regressed)
        · rw [marked]
          rfl
        · rcases List.mem_cons.mp regressed with its | old
          · exact absurd its unnamed
          · exact validation ▸ barred.gated a memA (same ▸ old)
    next => cases found

end Tenant.Barred

theorem Tenant.Barred.step (barred : t.Barred) {op : Op} (sparing : Sparing t op) :
    (t.step op).Barred := by
  cases op with
  | createDraft promotedBy => exact barred.createDraft promotedBy
  | setValidation version status => exact barred.setValidation sparing
  | setEvalResult version status =>
    exact ⟨barred.distinct, barred.known, barred.unpublished, barred.gated⟩
  | publish version promotedBy canaryPercent =>
    exact barred.publish version promotedBy canaryPercent
  | autoRollback failingVersion rolledBackBy => exact barred.autoRollback sparing

theorem run_barred {ops : List (TenantId × Op)} (careful : Careful (fun _ => {}) ops)
    (id : TenantId) : (run ops id).Barred := by
  have go (ops : List (TenantId × Op)) (table : Table) (careful : Careful table ops)
      (barred : ∀ id, (table id).Barred) (id : TenantId) :
      (ops.foldl Table.step table id).Barred := by
    induction ops generalizing table with
    | nil => exact barred id
    | cons op ops ih =>
      refine ih (table.step op) careful.2 fun other => ?_
      by_cases same : other = op.1
      · subst same
        rw [Table.step, Function.update_self]
        exact (barred _).step careful.1
      · rw [Table.step, Function.update_of_ne same]
        exact barred other
  exact go ops _ careful (fun _ => ⟨List.nodup_nil, by simp, by simp, by simp⟩) id

/-! ## What is served -/

/-- In every run of such operations a key is not served a version that has regressed exactly where,
if it is outside the slice of a canary, the versions besides the canary that have regressed are
numbered below one that has not. -/
theorem unserved_iff (digest : String → Nat) (key : Option String) {ops : List (TenantId × Op)}
    (careful : Careful (fun _ => {}) ops) (id : TenantId) :
    Unserved digest key (run ops id) ↔
      ∀ canary percent, Canary (run ops id).rows canary percent → Outside digest key percent →
        Shadowed (run ops id) canary.version := by
  have barred := run_barred careful id
  generalize run ops id = t at barred
  constructor
  · intro unserved canary percent its outside
    refine shadowed_of_spares barred.distinct fun previous found => unserved previous ?_
    rw [getEffective_outside its outside, found, Option.getD_some]
  · intro shadowed r read regressed
    cases found : getLatestPublished t.rows with
    | none => simp [getEffective, found] at read
    | some latest =>
      obtain ⟨mem, published⟩ := getLatestPublished_spec found
      have current : latest.version ∉ t.regressed := fun marked =>
        barred.unpublished latest mem marked published
      rcases @getEffective_cases digest key _ _ found with
        ⟨percent, kept, outside, served⟩ | ⟨-, served⟩
      · rw [served, Option.some.injEq] at read
        subst read
        cases previous : getPreviousPublished t.rows latest.version with
        | none => exact current (by simpa [previous] using regressed)
        | some baseline =>
          have spares := (shadowed latest percent ⟨found, kept⟩ outside).spares previous
          exact spares (by simpa [previous] using regressed)
      · rw [served, Option.some.injEq] at read
        exact current (read ▸ regressed)

/-! ## A version that comes back -/

/-- A version is validated and published, and so is the next, which fails and is rolled back. -/
def rolledBack : List (TenantId × Op) :=
  [("acme", .createDraft none), ("acme", .setValidation 1 (some .validated)),
    ("acme", .publish 1 none none), ("acme", .createDraft none),
    ("acme", .setValidation 2 (some .validated)), ("acme", .publish 2 none none),
    ("acme", .autoRollback 2 none)]

theorem unserved_rolledBack :
    Unserved (fun _ => 99) (some "user") (run rolledBack "acme") ↔
      ∀ canary percent, Canary (run rolledBack "acme").rows canary percent →
        Outside (fun _ => 99) (some "user") percent →
          Shadowed (run rolledBack "acme") canary.version := by
  have careful : Careful (fun _ => {}) rolledBack := by
    refine ⟨trivial, fun mem => absurd mem (by decide), trivial, trivial,
      fun mem => absurd mem (by decide), trivial, ?_, trivial⟩
    intro _ r _ _ _ marked
    exact absurd (marked : r.version ∈ ([] : List Nat)) List.not_mem_nil
  exact unserved_iff (fun _ => 99) (some "user") careful "acme"

/-- The third version starts as a canary: its baseline is the second. -/
def canaried : List (TenantId × Op) :=
  rolledBack ++ [("acme", .createDraft none), ("acme", .setValidation 3 (some .validated)),
    ("acme", .publish 3 none (some 10))]

/-- It is rolled back too: the second is published again, for all. -/
def returned : List (TenantId × Op) := canaried ++ [("acme", .autoRollback 3 none)]

theorem regressed_served : ¬ Unserved (fun _ => 99) (some "user") (run canaried "acme") ∧
    ¬ Unserved (fun _ => 99) none (run returned "acme") := by
  constructor
  · intro unserved
    exact unserved { version := 2, status := .superseded, validationStatus := some .regressed }
      (by decide) (by decide)
  · intro unserved
    exact unserved { version := 2, status := .published, validationStatus := some .regressed }
      (by decide) (by decide)

end AgentStudio.Promotion.Regression
