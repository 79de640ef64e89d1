import AgentStudio.Governance.Promotion

/-!
# What a canary rollout serves

The baseline of a canary is found at read time: the highest version, other than
the canary, that was ever published. It is the version that was fully live when
that version is numbered above every other one that was published; a version
that was rolled back, or another canary, may be numbered above it.
-/

namespace AgentStudio.Promotion

/-! ## Runs -/

structure Tenant where
  rows : List Row := []
  /-- The version of the last full rollout, for the record. -/
  live : Option Nat := none

inductive Op where
  | createDraft (promotedBy : Option String)
  | promote (version : Nat) (promotedBy : Option String) (canaryPercent : Option Int)
  | autoRollback (failingVersion : Nat) (rolledBackBy : Option String)
  deriving DecidableEq, Repr

def Tenant.step (t : Tenant) : Op → Tenant
  | .createDraft promotedBy => { t with rows := createDraft t.rows promotedBy }
  | .promote version promotedBy canaryPercent =>
    { rows := promote t.rows version promotedBy canaryPercent
      live := if (∃ r ∈ t.rows, r.version = version) ∧ isFull canaryPercent then some version
        else t.live }
  | .autoRollback failingVersion rolledBackBy =>
    { rows := autoRollback t.rows failingVersion rolledBackBy
      live := ((rollbackTo t.rows failingVersion).map Row.version).or t.live }

abbrev Table := TenantId → Tenant

/-- A sequence of operations, each on some tenant. -/
def run (ops : List (TenantId × Op)) : Table :=
  ops.foldl (fun table op => Function.update table op.1 ((table op.1).step op.2)) fun _ => {}

/-- The live version is published, and nothing was superseded before there was one. -/
structure Tenant.Valid (t : Tenant) : Prop where
  distinct : (t.rows.map Row.version).Nodup
  live : ∀ version, t.live = some version → ∃ r ∈ t.rows, r.version = version ∧ r.status = .published
  unlive : t.live = none → ∀ r ∈ t.rows, r.status ≠ .superseded

/-! ## Rows -/

variable {rows : List Row} {r a : Row}

theorem newest_mem (h : newest rows = some r) : r ∈ rows ∧ ∀ a ∈ rows, a.version ≤ r.version := by
  induction rows generalizing r with
  | nil => cases h
  | cons b rest ih =>
    simp only [newest] at h
    split at h
    next none_ =>
      obtain rfl := Option.some.inj h
      have empty : rest = [] := by
        cases rest with
        | nil => rfl
        | cons c rest =>
          simp only [newest] at none_
          split at none_
          · cases none_
          · split at none_ <;> cases none_
      simp [empty]
    next best found =>
      obtain ⟨mem, most⟩ := ih found
      split at h
      next le =>
        obtain rfl := Option.some.inj h
        refine ⟨List.mem_cons_self, fun a here => ?_⟩
        rcases List.mem_cons.mp here with rfl | later
        · exact Nat.le_refl _
        · exact Nat.le_trans (most a later) le
      next lt =>
        obtain rfl := Option.some.inj h
        refine ⟨List.mem_cons_of_mem _ mem, fun a here => ?_⟩
        rcases List.mem_cons.mp here with rfl | later
        · omega
        · exact most a later

theorem newest_isSome (mem : r ∈ rows) : ∃ best, newest rows = some best := by
  cases rows with
  | nil => cases mem
  | cons b rest =>
    simp only [newest]
    split
    · exact ⟨b, rfl⟩
    · split
      · exact ⟨b, rfl⟩
      · exact ⟨_, rfl⟩

/-- A change that keeps the versions keeps which row is newest. -/
theorem newest_map {f : Row → Row} (keeps : ∀ r, (f r).version = r.version) (rows : List Row) :
    newest (rows.map f) = (newest rows).map f := by
  induction rows with
  | nil => rfl
  | cons b rest ih =>
    simp only [List.map_cons, newest, ih]
    cases newest rest with
    | none => rfl
    | some best =>
      simp only [Option.map_some, keeps]
      split <;> rfl

theorem distinct_eq (distinct : (rows.map Row.version).Nodup) (memR : r ∈ rows) (memA : a ∈ rows)
    (same : r.version = a.version) : r = a := List.inj_on_of_nodup_map distinct memR memA same

theorem getLatestPublished_spec (h : getLatestPublished rows = some r) :
    r ∈ rows ∧ r.status = .published := by
  have mem := (newest_mem h).1
  simpa using mem

theorem getPreviousPublished_spec {version : Nat} (h : getPreviousPublished rows version = some r) :
    r ∈ rows ∧ r.status ≠ .draft ∧ r.version ≠ version ∧
      ∀ a ∈ rows, a.status ≠ .draft → a.version ≠ version → a.version ≤ r.version := by
  obtain ⟨mem, most⟩ := newest_mem h
  simp only [List.mem_filter, decide_eq_true_eq] at mem most
  obtain ⟨here, status, other⟩ := mem
  refine ⟨here, ?_, other, fun a memA undraft otherA => most a ⟨memA, ?_, otherA⟩⟩
  · rcases status with status | status <;> simp [status]
  · cases status : a.status with
    | draft => exact absurd status undraft
    | published => exact .inl rfl
    | superseded => exact .inr rfl

theorem getPreviousPublished_some {version : Nat} (mem : a ∈ rows) (undraft : a.status ≠ .draft)
    (other : a.version ≠ version) : ∃ r, getPreviousPublished rows version = some r := by
  refine newest_isSome (r := a) ?_
  simp only [List.mem_filter, decide_eq_true_eq]
  refine ⟨mem, ?_, other⟩
  cases status : a.status with
  | draft => exact absurd status undraft
  | published => exact .inl rfl
  | superseded => exact .inr rfl

/-! ## What an operation leaves -/

theorem setRow_versions {version : Nat} {f : Row → Row} (keeps : ∀ r, (f r).version = r.version)
    (rows : List Row) : (setRow rows version f).map Row.version = rows.map Row.version := by
  rw [setRow, List.map_map]
  apply List.map_congr_left
  intro r _
  simp only [Function.comp]
  split
  · exact keeps r
  · rfl

theorem supersede_versions (rows : List Row) :
    (supersede rows).map Row.version = rows.map Row.version := by
  rw [supersede, List.map_map]
  apply List.map_congr_left
  intro r _
  simp only [Function.comp]
  split <;> rfl

theorem promote_versions (rows : List Row) (version : Nat) (promotedBy : Option String)
    (canaryPercent : Option Int) :
    (promote rows version promotedBy canaryPercent).map Row.version = rows.map Row.version := by
  unfold promote
  split
  · refine (setRow_versions (fun _ => by rfl) _).trans ?_
    split
    · exact supersede_versions rows
    · rfl
  · rfl

theorem autoRollback_versions (rows : List Row) (failingVersion : Nat)
    (rolledBackBy : Option String) :
    (autoRollback rows failingVersion rolledBackBy).map Row.version = rows.map Row.version := by
  unfold autoRollback
  split
  · rfl
  · refine (setRow_versions (fun _ => by rfl) _).trans ?_
    exact (supersede_versions _).trans (setRow_versions (fun _ => by rfl) rows)

/-- The row that is set is there under its version. -/
theorem setRow_here {version : Nat} {f : Row → Row}
    (here : ∃ r ∈ rows, r.version = version) :
    ∃ r ∈ rows, r.version = version ∧ f r ∈ setRow rows version f := by
  obtain ⟨r, mem, named⟩ := here
  refine ⟨r, mem, named, List.mem_map.mpr ⟨r, mem, ?_⟩⟩
  rw [if_pos named]

theorem mem_of_versions {old new : List Row} {version : Nat}
    (same : new.map Row.version = old.map Row.version) (here : ∃ r ∈ old, r.version = version) :
    ∃ r ∈ new, r.version = version := by
  have mem : version ∈ old.map Row.version := List.mem_map.mpr here
  rw [← same] at mem
  exact List.mem_map.mp mem

namespace Tenant.Valid

variable {t : Tenant}

theorem createDraft (valid : t.Valid) (promotedBy : Option String) :
    (t.step (.createDraft promotedBy)).Valid where
  distinct := by
    simp only [Tenant.step, Promotion.createDraft, List.map_append, List.map_cons, List.map_nil]
    refine List.Nodup.append valid.distinct (List.nodup_singleton _) ?_
    intro version mem top
    obtain ⟨r, here, rfl⟩ := List.mem_map.mp mem
    have bound := Log.le_top Row.version here
    simp only [List.mem_singleton] at top
    omega
  live version is := by
    obtain ⟨r, mem, named, published⟩ := valid.live version is
    exact ⟨r, List.mem_append_left _ mem, named, published⟩
  unlive none_ r mem := by
    rcases List.mem_append.mp mem with old | new
    · exact valid.unlive none_ r old
    · rw [List.mem_singleton.mp new]
      exact Status.noConfusion

theorem promote (valid : t.Valid) (version : Nat) (promotedBy : Option String)
    (canaryPercent : Option Int) :
    (t.step (.promote version promotedBy canaryPercent)).Valid := by
  by_cases here : ∃ r ∈ t.rows, r.version = version
  · cases full : isFull canaryPercent with
    | true =>
      refine ⟨?_, fun live is => ?_, fun none_ => ?_⟩
      · exact (promote_versions t.rows version promotedBy canaryPercent) ▸ valid.distinct
      · simp only [Tenant.step, full, and_true, if_pos here, Option.some.injEq] at is
        subst is
        obtain ⟨r, -, named, mem⟩ :=
          setRow_here (f := fun r => { r with
            status := .published, promotedBy := promotedBy, canaryPercent := none })
            (mem_of_versions (supersede_versions t.rows) here)
        simp only [Tenant.step, Promotion.promote, if_pos here, full, if_true]
        exact ⟨_, mem, named, rfl⟩
      · simp only [Tenant.step, full, and_true, if_pos here, reduceCtorEq] at none_
    | false =>
      have rows : (t.step (.promote version promotedBy canaryPercent)).rows =
          setRow t.rows version fun r => { r with
            status := .published, promotedBy := promotedBy, canaryPercent := canaryPercent } := by
        simp [Tenant.step, Promotion.promote, if_pos here, full]
      have kept : (t.step (.promote version promotedBy canaryPercent)).live = t.live := by
        simp [Tenant.step, full]
      refine ⟨?_, fun live is => ?_, fun none_ r mem => ?_⟩
      · exact (promote_versions t.rows version promotedBy canaryPercent) ▸ valid.distinct
      · obtain ⟨r, mem, named, published⟩ := valid.live live (kept ▸ is)
        rw [rows]
        refine ⟨_, List.mem_map.mpr ⟨r, mem, rfl⟩, ?_⟩
        by_cases its : r.version = version
        · rw [if_pos its]
          exact ⟨named, rfl⟩
        · rw [if_neg its]
          exact ⟨named, published⟩
      · rw [rows] at mem
        obtain ⟨a, memA, rfl⟩ := List.mem_map.mp mem
        split
        · exact Status.noConfusion
        · exact valid.unlive (kept ▸ none_) a memA
  · have same : t.step (.promote version promotedBy canaryPercent) = t := by
      simp only [Tenant.step, Promotion.promote, here, false_and, if_false]
    exact same.symm ▸ valid

theorem autoRollback (valid : t.Valid) (failingVersion : Nat) (rolledBackBy : Option String) :
    (t.step (.autoRollback failingVersion rolledBackBy)).Valid := by
  cases found : rollbackTo t.rows failingVersion with
  | none =>
    have same : t.step (.autoRollback failingVersion rolledBackBy) = t := by
      simp only [Tenant.step, Promotion.autoRollback, found, Option.map_none, Option.none_or]
    exact same.symm ▸ valid
  | some previous =>
    have memPrevious : previous ∈ t.rows := by
      unfold rollbackTo at found
      split at found
      · exact (getPreviousPublished_spec found).1
      · cases found
    refine ⟨?_, fun live is => ?_, fun none_ => ?_⟩
    · exact (autoRollback_versions t.rows failingVersion rolledBackBy) ▸ valid.distinct
    · simp only [Tenant.step, found, Option.map_some, Option.some_or, Option.some.injEq] at is
      subst is
      let marked := setRow t.rows failingVersion fun r =>
        { r with validationStatus := some .regressed }
      have versions : (supersede marked).map Row.version = t.rows.map Row.version :=
        (supersede_versions marked).trans (setRow_versions (fun _ => by rfl) t.rows)
      obtain ⟨r, -, named, mem⟩ :=
        setRow_here (f := fun r => { r with
          status := .published, canaryPercent := none
          promotedBy := (rolledBackBy.filter (· ≠ "")).or r.promotedBy })
          (mem_of_versions versions ⟨previous, memPrevious, rfl⟩)
      simp only [Tenant.step, Promotion.autoRollback, found]
      exact ⟨_, mem, named, rfl⟩
    · simp only [Tenant.step, found, Option.map_some, Option.some_or, reduceCtorEq] at none_

theorem step (valid : t.Valid) (op : Op) : (t.step op).Valid := by
  cases op with
  | createDraft promotedBy => exact valid.createDraft promotedBy
  | promote version promotedBy canaryPercent => exact valid.promote version promotedBy canaryPercent
  | autoRollback failingVersion rolledBackBy => exact valid.autoRollback failingVersion rolledBackBy

end Tenant.Valid

theorem run_valid (ops : List (TenantId × Op)) (id : TenantId) : (run ops id).Valid := by
  have step (table : Table) (valid : ∀ id, (table id).Valid) :
      ∀ id, (ops.foldl (fun table op => Function.update table op.1 ((table op.1).step op.2))
        table id).Valid := by
    induction ops generalizing table with
    | nil => exact valid
    | cons op ops ih =>
      apply ih
      intro other
      by_cases same : other = op.1
      · subst same
        simp only [Function.update_self]
        exact (valid _).step op.2
      · simp only [Function.update_of_ne same]
        exact valid other
  have start : Tenant.Valid {} :=
    ⟨List.nodup_nil, fun _ is => (nomatch is), fun _ _ mem => (nomatch mem)⟩
  exact step _ (fun _ => start) id

/-! ## What a key is served -/

variable (digest : String → Nat) (key : Option String)

/-- A key, and not one of the slice. The empty string is no key. -/
def Outside (percent : Int) : Prop :=
  key.any (· ≠ "") ∧ canaryBucket digest key (some percent) = false

/-- `canary` is the version that is read, and still a canary. -/
def Canary (rows : List Row) (canary : Row) (percent : Int) : Prop :=
  getLatestPublished rows = some canary ∧ canary.canaryPercent = some percent

def ServesPublished (t : Tenant) : Prop :=
  ∀ r, getEffective digest t.rows key = some r → r ∈ t.rows ∧ r.status = .published

/-- Outside the slice: what was fully live when the canary started. -/
def ServesLive (t : Tenant) : Prop :=
  ∀ canary percent, Canary t.rows canary percent → Outside digest key percent →
    ∀ live, t.live = some live → ∃ r, getEffective digest t.rows key = some r ∧ r.version = live

/-- Promoting a canary again, at no less: the keys it had it keeps. -/
def KeepsKeys (t : Tenant) : Prop :=
  ∀ canary ∈ t.rows, canary.status = .published → ∀ percent, canary.canaryPercent = some percent →
    ∀ promotedBy raised, (∀ more, raised = some more → percent ≤ more) →
      (∃ r, getEffective digest t.rows key = some r ∧ r.version = canary.version) →
      ∃ r, getEffective digest (promote t.rows canary.version promotedBy raised) key = some r ∧
        r.version = canary.version

/-- For a key outside the slice: no version was ever published, but for the
canary, that is numbered above the live one; and that is not the canary. -/
def Undisturbed (t : Tenant) : Prop :=
  ∀ canary percent, Canary t.rows canary percent → Outside digest key percent →
    ∀ live, t.live = some live → ∀ r ∈ t.rows, r.status ≠ .draft → r.version ≠ canary.version →
      r.version ≤ live ∧ live ≠ canary.version

variable {digest key} {t : Tenant} {canary : Row} {percent : Int}

theorem Outside.part (outside : Outside digest key percent) : percent < 100 := by
  by_contra full
  have always : canaryBucket digest key (some percent) = true := by
    simp [canaryBucket, show 100 ≤ percent by omega]
  rw [outside.2] at always
  cases always

/-- A larger slice holds the smaller. -/
theorem Outside.shrink {more : Int} (le : percent ≤ more) (outside : Outside digest key more) :
    Outside digest key percent := by
  have part := outside.part
  obtain ⟨named, out⟩ := outside
  refine ⟨named, ?_⟩
  cases key with
  | none => cases named
  | some key =>
    simp only [canaryBucket, show ¬ (100 : Int) ≤ more by omega,
      show ¬ (100 : Int) ≤ percent by omega, if_false] at out ⊢
    simp only [decide_eq_false_iff_not, not_and, not_lt, not_or] at out ⊢
    intro some_
    have bound := out ⟨by omega, some_.2⟩
    omega

/-- The three ways a read goes. -/
theorem getEffective_cases {rows : List Row} {latest : Row}
    (found : getLatestPublished rows = some latest) :
    (∃ percent, latest.canaryPercent = some percent ∧ Outside digest key percent ∧
      getEffective digest rows key = some ((getPreviousPublished rows latest.version).getD latest)) ∨
    (∀ percent, latest.canaryPercent = some percent → ¬ Outside digest key percent) ∧
      getEffective digest rows key = some latest := by
  unfold getEffective
  simp only [found]
  cases kept : latest.canaryPercent with
  | none => exact .inr ⟨fun _ is => (nomatch is), rfl⟩
  | some percent =>
    by_cases outside : Outside digest key percent
    · have part := outside.part
      refine .inl ⟨percent, rfl, outside, ?_⟩
      simp only [show ¬ (100 : Int) ≤ percent by omega, if_false, outside.1, outside.2,
        Bool.false_eq_true, not_false_eq_true, and_self, if_true]
      cases getPreviousPublished rows latest.version <;> rfl
    · refine .inr ⟨fun _ is => Option.some.inj is ▸ outside, ?_⟩
      dsimp only
      split
      · rfl
      · rw [if_neg]
        simpa [Outside] using outside

/-- Who is outside is served the baseline. -/
theorem getEffective_outside {rows : List Row} (its : Canary rows canary percent)
    (outside : Outside digest key percent) : getEffective digest rows key =
      some ((getPreviousPublished rows canary.version).getD canary) := by
  rcases @getEffective_cases digest key _ _ its.1 with ⟨_, _, _, served⟩ | ⟨inside, _⟩
  · exact served
  · exact absurd outside (inside percent its.2)

theorem servesLive_iff (valid : t.Valid) : ServesLive digest key t ↔ Undisturbed digest key t := by
  constructor
  · intro serves canary percent its outside live is r mem undraft other
    obtain ⟨baseline, found⟩ := getPreviousPublished_some mem undraft other
    obtain ⟨served, read, named⟩ := serves canary percent its outside live is
    rw [getEffective_outside its outside, found, Option.getD_some, Option.some.injEq] at read
    subst read named
    obtain ⟨-, -, apart, most⟩ := getPreviousPublished_spec found
    exact ⟨most r mem undraft other, apart⟩
  · intro undisturbed canary percent its outside live is
    refine ⟨_, getEffective_outside its outside, ?_⟩
    obtain ⟨row, memRow, named, published⟩ := valid.live live is
    have undraft : row.status ≠ .draft := by simp [published]
    by_cases same : row.version = canary.version
    · -- the live version is the canary: nothing else was ever published
      cases found : getPreviousPublished t.rows canary.version with
      | none => exact same.symm.trans named
      | some baseline =>
        obtain ⟨mem, undraftB, apart, -⟩ := getPreviousPublished_spec found
        have no := (undisturbed canary percent its outside live is baseline mem undraftB apart).2
        exact absurd (named.symm.trans same) no
    · obtain ⟨baseline, found⟩ := getPreviousPublished_some memRow undraft same
      obtain ⟨mem, undraftB, apart, most⟩ := getPreviousPublished_spec found
      have le := (undisturbed canary percent its outside live is baseline mem undraftB apart).1
      have ge := most row memRow undraft same
      rw [found, Option.getD_some]
      omega

theorem Undisturbed.published (valid : t.Valid) (undisturbed : Undisturbed digest key t) :
    ServesPublished digest key t := by
  intro r read
  cases found : getLatestPublished t.rows with
  | none => simp [getEffective, found] at read
  | some latest =>
    have current := getLatestPublished_spec found
    rcases @getEffective_cases digest key _ _ found with
      ⟨percent, kept, outside, served⟩ | ⟨-, served⟩
    · rw [served, Option.some.injEq] at read
      subst read
      cases previous : getPreviousPublished t.rows latest.version with
      | none => exact current
      | some baseline =>
        obtain ⟨mem, undraft, apart, most⟩ := getPreviousPublished_spec previous
        refine ⟨mem, ?_⟩
        rw [Option.getD_some]
        cases is : t.live with
        | none =>
          have kept := valid.unlive is baseline mem
          cases status : baseline.status with
          | draft => exact absurd status undraft
          | published => rfl
          | superseded => exact absurd status kept
        | some live =>
          obtain ⟨row, memRow, named, published⟩ := valid.live live is
          obtain ⟨le, other⟩ :=
            undisturbed latest percent ⟨found, kept⟩ outside live is baseline mem undraft apart
          have ge := most row memRow (by simp [published]) (named ▸ other)
          have same : baseline = row := distinct_eq valid.distinct mem memRow (by omega)
          exact same ▸ published
    · rw [served, Option.some.injEq] at read
      exact read ▸ current

/-! ## Raising the percentage -/

section Map

variable {rows : List Row} {g : Row → Row}

/-- A change that keeps versions and statuses keeps which row a query picks. -/
theorem newest_filter_map (versions : ∀ r, (g r).version = r.version) {p : Row → Bool}
    (same : ∀ r ∈ rows, p (g r) = p r) :
    newest ((rows.map g).filter p) = (newest (rows.filter p)).map g := by
  rw [List.filter_map, newest_map versions]
  exact congrArg (fun l => (newest l).map g) (List.filter_congr same)

theorem getLatestPublished_map (versions : ∀ r, (g r).version = r.version)
    (statuses : ∀ r ∈ rows, (g r).status = r.status) :
    getLatestPublished (rows.map g) = (getLatestPublished rows).map g := by
  apply newest_filter_map versions
  intro r mem
  rw [statuses r mem]

theorem getPreviousPublished_map (versions : ∀ r, (g r).version = r.version)
    (statuses : ∀ r ∈ rows, (g r).status = r.status) (version : Nat) :
    getPreviousPublished (rows.map g) version = (getPreviousPublished rows version).map g := by
  apply newest_filter_map versions
  intro r mem
  rw [statuses r mem, versions]

end Map

theorem getLatestPublished_only {rows : List Row} {r : Row} (mem : r ∈ rows)
    (published : r.status = .published) (only : ∀ a ∈ rows, a.status = .published → a = r) :
    getLatestPublished rows = some r := by
  have here : r ∈ rows.filter fun a => a.status = .published := by simp [mem, published]
  obtain ⟨best, found⟩ := newest_isSome here
  have current : getLatestPublished rows = some best := found
  have spec := getLatestPublished_spec current
  rw [current, only best spec.1 spec.2]

/-- A full rollout leaves one version published. -/
theorem promote_full {rows : List Row} (distinct : (rows.map Row.version).Nodup)
    (mem : canary ∈ rows) (promotedBy : Option String) {raised : Option Int}
    (full : isFull raised = true) :
    ∃ r, getLatestPublished (promote rows canary.version promotedBy raised) = some r ∧
      r.version = canary.version ∧ r.canaryPercent = none := by
  have here : ∃ r ∈ rows, r.version = canary.version := ⟨canary, mem, rfl⟩
  have versions := promote_versions rows canary.version promotedBy raised
  simp only [promote, if_pos here, full, if_true] at versions ⊢
  obtain ⟨r, -, named, set_⟩ :=
    setRow_here (f := fun r => { r with
      status := .published, promotedBy := promotedBy, canaryPercent := none })
      (mem_of_versions (supersede_versions rows) here)
  refine ⟨_, getLatestPublished_only set_ rfl ?_, named, rfl⟩
  intro a memA published
  refine distinct_eq (versions ▸ distinct) memA set_ ?_
  -- every other row is superseded by now
  obtain ⟨b, memB, rfl⟩ := List.mem_map.mp memA
  by_cases its : b.version = canary.version
  · rw [if_pos its]
    exact its.trans named.symm
  · rw [if_neg its] at published
    obtain ⟨c, -, rfl⟩ := List.mem_map.mp memB
    split at published
    · cases published
    · contradiction

/-- A canary promoted again as a canary: its row changes, no status does. -/
theorem promote_canary {rows : List Row} (distinct : (rows.map Row.version).Nodup)
    (mem : canary ∈ rows) (published : canary.status = .published) (promotedBy : Option String)
    {raised : Option Int} (part : isFull raised = false) :
    ∃ g : Row → Row, promote rows canary.version promotedBy raised = rows.map g ∧
      (∀ r, (g r).version = r.version) ∧ (∀ r ∈ rows, (g r).status = r.status) ∧
      (∀ r, r.version = canary.version → (g r).canaryPercent = raised) ∧
      ∀ r, r.version ≠ canary.version → (g r).canaryPercent = r.canaryPercent := by
  have here : ∃ r ∈ rows, r.version = canary.version := ⟨canary, mem, rfl⟩
  refine ⟨fun r => if r.version = canary.version then { r with
    status := .published, promotedBy := promotedBy, canaryPercent := raised } else r, ?_,
    fun r => ?_, fun r memR => ?_, fun r its => ?_, fun r other => ?_⟩
  · simp only [promote, if_pos here, part, Bool.false_eq_true, if_false]
    rfl
  · dsimp only
    split <;> rfl
  · dsimp only
    split
    next its =>
      have same : r = canary := distinct_eq distinct memR mem its
      rw [same, published]
    next => rfl
  · simp only [if_pos its]
  · simp only [if_neg other]

theorem keepsKeys (valid : t.Valid) : KeepsKeys digest key t := by
  intro canary mem published percent kept promotedBy raised more ⟨r, read, named⟩
  cases full : isFull raised with
  | true =>
    obtain ⟨latest, found, its, whole⟩ := promote_full valid.distinct mem promotedBy full
    rcases @getEffective_cases digest key _ _ found with
      ⟨_, percent, _⟩ | ⟨-, served⟩
    · rw [whole] at percent
      cases percent
    · exact ⟨latest, served, its⟩
  | false =>
    obtain ⟨g, rows, versions, statuses, its, others⟩ :=
      promote_canary valid.distinct mem published promotedBy full
    rw [rows]
    cases found : getLatestPublished t.rows with
    | none => simp [getEffective, found] at read
    | some latest =>
      have current := getLatestPublished_spec found
      have foundG : getLatestPublished (t.rows.map g) = some (g latest) := by
        rw [getLatestPublished_map versions statuses, found, Option.map_some]
      have previousG := getPreviousPublished_map versions statuses latest.version
      have before := @getEffective_cases digest key _ _ found
      have after := @getEffective_cases digest key _ _ foundG
      simp only [versions, previousG, Option.getD_map] at after
      by_cases same : latest.version = canary.version
      · -- the canary itself is read: a key outside the larger slice was outside the smaller
        have fresh := its latest same
        have percents : latest.canaryPercent = some percent := by
          rw [distinct_eq valid.distinct current.1 mem same, kept]
        suffices served : getEffective digest (t.rows.map g) key = some (g latest) from
          ⟨_, served, (versions latest).trans same⟩
        rcases after with ⟨q, is, outside, served⟩ | ⟨-, served⟩
        · have smaller : Outside digest key percent :=
            outside.shrink (more q (fresh.symm.trans is))
          rcases before with ⟨_, -, -, was⟩ | ⟨inside, -⟩
          · cases previous : getPreviousPublished t.rows latest.version with
            | none =>
              rw [previous] at served
              exact served
            | some baseline =>
              rw [previous, Option.getD_some, read, Option.some.injEq] at was
              have apart := (getPreviousPublished_spec previous).2.2.1
              exact absurd (same.trans (named.symm.trans (congrArg Row.version was))).symm apart
          · exact absurd smaller (inside percent percents)
        · exact served
      · -- the version is the baseline of another canary, whose slice is as before
        have kept := others latest same
        rcases before with ⟨q, is, outside, was⟩ | ⟨-, was⟩
        · rcases after with ⟨_, -, -, served⟩ | ⟨inside, -⟩
          · rw [read, Option.some.injEq] at was
            rw [← was] at served
            exact ⟨g r, served, (versions r).trans named⟩
          · exact absurd outside (inside q (kept.trans is))
        · rw [read, Option.some.injEq] at was
          exact absurd (was ▸ named) same

/-! ## The rollout -/

/-- After any operations, a read is right for a key exactly when no version but
the canary was published with a number above the live one's. -/
theorem rollout_iff (digest : String → Nat) (ops : List (TenantId × Op)) (id : TenantId)
    (key : Option String) :
    (ServesPublished digest key (run ops id) ∧ ServesLive digest key (run ops id) ∧
      KeepsKeys digest key (run ops id)) ↔ Undisturbed digest key (run ops id) := by
  have valid := run_valid ops id
  constructor
  · intro ⟨_, serves, _⟩
    exact (servesLive_iff valid).mp serves
  · intro undisturbed
    exact ⟨undisturbed.published valid, (servesLive_iff valid).mpr undisturbed, keepsKeys valid⟩

/-- Back to version 1, then a canary of version 3: outside it, version 2 is served. -/
def returned : List (TenantId × Op) :=
  [("t", .createDraft none), ("t", .promote 1 none none),
   ("t", .createDraft none), ("t", .promote 2 none none),
   ("t", .promote 1 none none),
   ("t", .createDraft none), ("t", .promote 3 none (some 10))]

theorem superseded_served :
    (run returned "t").live = some 1 ∧
      getEffective (fun _ => 50) (run returned "t").rows (some "user") =
        some { version := 2, status := .superseded } ∧
      ¬ (ServesPublished (fun _ => 50) (some "user") (run returned "t") ∧
        ServesLive (fun _ => 50) (some "user") (run returned "t") ∧
        KeepsKeys (fun _ => 50) (some "user") (run returned "t")) := by
  have read : getEffective (fun _ => 50) (run returned "t").rows (some "user") =
      some { version := 2, status := .superseded } := by decide +kernel
  refine ⟨by decide +kernel, read, ?_⟩
  intro ⟨published, _, _⟩
  have status := (published _ read).2
  cases status

end AgentStudio.Promotion
