import AgentStudio.Governance.Pipeline
import Mathlib.Data.Rat.Lemmas

/-!
# The canary monitor

`worker/canary_monitor.py`: the publish route starts a rollout, each request is
recorded for the canary or for the baseline, and a job rolls a canary back that
does worse than its baseline. The monitor keeps a percentage of its own: it is not
told of what is published or rolled back later, and to a request without a key it
is the baseline that served. A rollout whose rollback failed is no longer
monitored. Rates are exact here.
-/

namespace AgentStudio.Promotion.Monitor

/-! ## Rollouts -/

/-- `CanaryMetrics`. -/
structure Metrics where
  requests : Nat := 0
  errors : Nat := 0
  guardrailBlocks : Nat := 0
  deriving DecidableEq, Repr

namespace Metrics

def errorRate (m : Metrics) : ℚ := if 0 < m.requests then m.errors / m.requests else 0

def blockRate (m : Metrics) : ℚ := if 0 < m.requests then m.guardrailBlocks / m.requests else 0

def record (m : Metrics) (error blocked : Bool) : Metrics where
  requests := m.requests + 1
  errors := if error then m.errors + 1 else m.errors
  guardrailBlocks := if blocked then m.guardrailBlocks + 1 else m.guardrailBlocks

end Metrics

/-- `CanaryRollout`. -/
structure CanaryRollout where
  canaryVersion : Nat
  baselineVersion : Nat
  canaryPercent : Int
  baselineMetrics : Metrics := {}
  canaryMetrics : Metrics := {}
  errorRateThreshold : ℚ := 1 / 20
  blockRateThreshold : ℚ := 1 / 10
  minSamples : Nat := 50
  rolledBack : Bool := false
  promotedFull : Bool := false

namespace CanaryRollout

/-- `record_request`. -/
def recordRequest (r : CanaryRollout) (isCanary error blocked : Bool) : CanaryRollout :=
  if isCanary then { r with canaryMetrics := r.canaryMetrics.record error blocked }
  else { r with baselineMetrics := r.baselineMetrics.record error blocked }

/-- `evaluate`: whether to roll back. -/
def evaluate (r : CanaryRollout) : Bool :=
  if r.rolledBack ∨ r.promotedFull then false
  else if r.canaryMetrics.requests < r.minSamples ∨ r.baselineMetrics.requests < r.minSamples then
    false
  else
    r.errorRateThreshold < r.canaryMetrics.errorRate - r.baselineMetrics.errorRate ∨
      r.blockRateThreshold < r.canaryMetrics.blockRate - r.baselineMetrics.blockRate

end CanaryRollout

/-- `record_outcome`. -/
def recordOutcome (digest : String → Nat) (rollout : Option CanaryRollout)
    (requestKey : Option String) (error blocked : Bool) : Option CanaryRollout :=
  rollout.map fun r =>
    r.recordRequest (canaryBucket digest requestKey (some r.canaryPercent)) error blocked

/-- `end_canary`: the rollout that is no longer active. -/
def endCanary (rollout : Option CanaryRollout) (rolledBack : Bool) : Option CanaryRollout :=
  rollout.map fun r =>
    if rolledBack then { r with rolledBack := true } else { r with promotedFull := true }

/-! ## Histories -/

structure Tenant where
  rows : List Row := []
  evals : Evals := fun _ => none
  /-- `_active_rollouts`. -/
  rollout : Option CanaryRollout := none
  /-- The rollouts that were removed as rolled back, each with the versions at that time, for the
  record. -/
  removed : List (CanaryRollout × List Row) := []

inductive Op where
  | createDraft (promotedBy : Option String)
  | setValidation (version : Nat) (status : Option Validation)
  | setEvalResult (version : Nat) (status : Evaluation)
  | publish (version : Nat) (promotedBy : Option String) (canaryPercent : Option Int)
  | autoRollback (failingVersion : Nat) (rolledBackBy : Option String)
  | request (requestKey : Option String) (error blocked : Bool)
  /-- The job, and whether its database step raises. -/
  | evaluate (raises : Bool)
  deriving DecidableEq, Repr

/-- `start_canary`, as the publish route calls it. -/
def startCanary (rows : List Row) (version : Nat) (canaryPercent : Int) : CanaryRollout where
  canaryVersion := version
  baselineVersion := ((getPreviousPublished rows version).map Row.version).getD version
  canaryPercent := canaryPercent

/-- `handle_canary_evaluate`, for one tenant. -/
def handleCanaryEvaluate (t : Tenant) (raises : Bool) : Tenant :=
  match t.rollout with
  | none => t
  | some r =>
    if r.evaluate then
      let rows := if raises then t.rows else autoRollback t.rows r.canaryVersion (some "canary-monitor")
      { t with
        rows := rows
        rollout := none
        removed := t.removed ++ (endCanary (some r) true).toList.map fun r => (r, rows) }
    else t

def Tenant.step (digest : String → Nat) (t : Tenant) : Op → Tenant
  | .createDraft promotedBy => { t with rows := createDraft t.rows promotedBy }
  | .setValidation version status => { t with rows := setValidation t.rows version status }
  | .setEvalResult version status =>
    { t with evals := Function.update t.evals version (some status) }
  | .publish version promotedBy canaryPercent =>
    match publish t.rows t.evals version promotedBy canaryPercent with
    | none => t
    | some rows =>
      { t with
        rows := rows
        rollout :=
          match canaryPercent with
          | none => t.rollout
          | some percent =>
            if percent < 100 then some (startCanary rows version percent) else t.rollout }
  | .autoRollback failingVersion rolledBackBy =>
    { t with rows := autoRollback t.rows failingVersion rolledBackBy }
  | .request requestKey error blocked =>
    { t with rollout := recordOutcome digest t.rollout requestKey error blocked }
  | .evaluate raises => handleCanaryEvaluate t raises

abbrev Table := TenantId → Tenant

def Table.step (digest : String → Nat) (table : Table) (op : TenantId × Op) : Table :=
  Function.update table op.1 ((table op.1).step digest op.2)

/-- A history of operations, each on some tenant. -/
def run (digest : String → Nat) (ops : List (TenantId × Op)) : Table :=
  ops.foldl (Table.step digest) fun _ => {}

/-! ## What is asked of a history -/

/-- The request is recorded for the canary. -/
def Attributed (digest : String → Nat) (key : Option String) (r : CanaryRollout) : Prop :=
  ∀ error blocked, ∃ r', recordOutcome digest (some r) key error blocked = some r' ∧
    r'.canaryMetrics = r.canaryMetrics.record error blocked

/-- The key is served this version. -/
def Served (digest : String → Nat) (key : Option String) (rows : List Row) (version : Nat) : Prop :=
  ∃ r, getEffective digest rows key = some r ∧ r.version = version

/-- A canary is numbered above all that is published, and another version was ever published. While
a rollout is monitored nothing is published in full, and no route rolls back. The rollback of the
job does not raise. -/
def Steady (t : Tenant) : Op → Prop
  | .publish version _ canaryPercent =>
    if isFull canaryPercent then t.rollout = none
    else (∀ r ∈ t.rows, r.status = .published → r.version ≤ version) ∧
      ∃ r ∈ t.rows, r.status ≠ .draft ∧ r.version ≠ version
  | .autoRollback .. => t.rollout = none
  | .evaluate raises => raises = false
  | _ => True

def SteadyRun (digest : String → Nat) : Table → List (TenantId × Op) → Prop
  | _, [] => True
  | table, op :: ops =>
    Steady (table op.1) op.2 ∧ SteadyRun digest (table.step digest op) ops

/-! ## One copy of the state and the other -/

/-- What is monitored is what is served: the latest version, as a canary, over a baseline. -/
structure InStep (rows : List Row) (version : Nat) (percent : Int) : Prop where
  latest : ∃ canary, Canary rows canary percent ∧ canary.version = version
  part : percent < 100
  baseline : ∃ r ∈ rows, r.status ≠ .draft ∧ r.version ≠ version

variable {digest : String → Nat} {key : Option String} {rows : List Row} {version : Nat}
  {percent : Int} {r : CanaryRollout} {t : Tenant}

theorem attributed_iff :
    Attributed digest key r ↔ canaryBucket digest key (some r.canaryPercent) = true := by
  constructor
  · intro attributed
    obtain ⟨r', recorded, metrics⟩ := attributed false false
    by_contra outside
    obtain rfl := Option.some.inj recorded
    simp only [CanaryRollout.recordRequest, if_neg outside] at metrics
    have := congrArg Metrics.requests metrics
    simp [Metrics.record] at this
  · intro inside error blocked
    refine ⟨_, rfl, ?_⟩
    simp only [CanaryRollout.recordRequest, if_pos inside]

/-- A key is served the canary unless it is outside the slice. -/
theorem InStep.served_iff (inStep : InStep rows version percent) :
    Served digest key rows version ↔ ¬ Outside digest key percent := by
  obtain ⟨canary, its, rfl⟩ := inStep.latest
  constructor
  · rintro ⟨row, read, named⟩ outside
    obtain ⟨a, mem, undraft, other⟩ := inStep.baseline
    obtain ⟨baseline, found⟩ := getPreviousPublished_some mem undraft other
    rw [getEffective_outside its outside, found, Option.getD_some, Option.some.injEq] at read
    subst read
    exact (getPreviousPublished_spec found).2.2.1 named
  · intro inside
    rcases @getEffective_cases digest key _ _ its.1 with ⟨q, is, outside, -⟩ | ⟨-, served⟩
    · obtain rfl := Option.some.inj (its.2.symm.trans is)
      exact absurd outside inside
    · exact ⟨canary, served, rfl⟩

theorem bucket_keyless (part : percent < 100) (keyless : ¬ key.any (· ≠ "")) :
    canaryBucket digest key (some percent) = false := by
  have whole : ¬ (100 : Int) ≤ percent := by omega
  cases key with
  | none => simp only [canaryBucket, if_neg whole]
  | some key =>
    have empty : key = "" := by simpa using keyless
    simp only [canaryBucket, if_neg whole, empty, or_true, not_true_eq_false, false_and,
      decide_false]

/-- A request that has a key is recorded for what served it; one that has none is not. -/
theorem InStep.attributed_iff_served (inStep : InStep rows r.canaryVersion r.canaryPercent) :
    ((Attributed digest key r ↔ Served digest key rows r.canaryVersion) ↔
      key.any (· ≠ "") = true) := by
  rw [attributed_iff, inStep.served_iff]
  by_cases keyed : key.any (· ≠ "") = true
  · refine ⟨fun _ => keyed, fun _ => ?_⟩
    simp only [Outside, keyed, true_and, Bool.not_eq_false]
  · have inside : ¬ Outside digest key r.canaryPercent := fun outside => keyed outside.1
    refine ⟨fun agree => ?_, fun yes => absurd yes keyed⟩
    have recorded := agree.mpr inside
    rw [bucket_keyless inStep.part keyed] at recorded
    cases recorded

/-! ### What operations keep of it -/

theorem InStep.map {g : Row → Row} (versions : ∀ a, (g a).version = a.version)
    (statuses : ∀ a, (g a).status = a.status)
    (percents : ∀ a, (g a).canaryPercent = a.canaryPercent) (inStep : InStep rows version percent) :
    InStep (rows.map g) version percent := by
  obtain ⟨⟨canary, ⟨found, kept⟩, named⟩, part, a, mem, undraft, other⟩ := inStep
  refine ⟨⟨g canary, ⟨?_, (percents canary).trans kept⟩, (versions canary).trans named⟩, part, g a,
    List.mem_map_of_mem mem, ?_, ?_⟩
  · rw [getLatestPublished_map versions fun a _ => statuses a, found, Option.map_some]
  · rwa [statuses]
  · rwa [versions]

theorem InStep.createDraft (inStep : InStep rows version percent) (promotedBy : Option String) :
    InStep (createDraft rows promotedBy) version percent := by
  obtain ⟨⟨canary, ⟨found, kept⟩, named⟩, part, a, mem, undraft, other⟩ := inStep
  refine ⟨⟨canary, ⟨?_, kept⟩, named⟩, part, a, List.mem_append_left _ mem, undraft, other⟩
  simp only [getLatestPublished, Promotion.createDraft, List.filter_append] at found ⊢
  simpa using found

theorem InStep.setValidation (inStep : InStep rows version percent) (other : Nat)
    (status : Option Validation) :
    InStep (setValidation rows other status) version percent := by
  refine InStep.map ?_ ?_ ?_ inStep <;>
    · intro a
      dsimp only
      split <;> rfl

/-- A canary that is numbered above all that is published. -/
theorem inStep_promote (distinct : (rows.map Row.version).Nodup)
    (there : ∃ a ∈ rows, a.version = version) (promotedBy : Option String) (part : percent < 100)
    (above : ∀ a ∈ rows, a.status = .published → a.version ≤ version)
    (baseline : ∃ a ∈ rows, a.status ≠ .draft ∧ a.version ≠ version) :
    InStep (promote rows version promotedBy (some percent)) version percent := by
  have partly : isFull (some percent) = false := by simp [isFull, part]
  have versions := promote_versions rows version promotedBy (some percent)
  simp only [promote, if_pos there, partly, Bool.false_eq_true, if_false] at versions ⊢
  obtain ⟨a, -, named, mem⟩ := setRow_here (f := fun a => { a with
    status := .published, promotedBy := promotedBy, canaryPercent := some percent }) there
  set rows' := setRow rows version fun a => { a with
    status := .published, promotedBy := promotedBy, canaryPercent := some percent }
  refine ⟨?_, part, ?_⟩
  · have here : _ ∈ rows'.filter fun r => r.status = .published :=
      List.mem_filter.mpr ⟨mem, by simp⟩
    obtain ⟨best, found⟩ := newest_isSome here
    obtain ⟨memB, most⟩ := newest_mem found
    obtain ⟨memB, published⟩ := List.mem_filter.mp memB
    have le : best.version ≤ version := by
      rcases setRow_cases memB with ⟨b, -, its, same⟩ | ⟨old, -⟩
      · rw [same]
        exact its.le
      · exact above best old (by simpa using published)
    have ge := most _ here
    have same := distinct_eq (versions ▸ distinct) memB mem (le_antisymm (le.trans named.ge) ge)
    exact ⟨best, ⟨found, by rw [same]⟩, by rw [same]; exact named⟩
  · obtain ⟨b, memB, undraft, other⟩ := baseline
    refine ⟨b, List.mem_map.mpr ⟨b, memB, if_neg other⟩, undraft, other⟩

/-- A canary that was rolled back is served to nobody. -/
theorem InStep.unserved (inStep : InStep rows version percent) (rolledBackBy : Option String) :
    ¬ Served digest key (autoRollback rows version rolledBackBy) version := by
  obtain ⟨⟨canary, ⟨found, -⟩, named⟩, -, a, mem, undraft, other⟩ := inStep
  have current := getLatestPublished_spec found
  obtain ⟨previous, earlier⟩ := getPreviousPublished_some mem undraft other
  have back : rollbackTo rows version = some previous := by
    rw [rollbackTo, if_pos ⟨canary, current.1, named, current.2⟩, earlier]
  have apart := (getPreviousPublished_spec earlier).2.2.1
  rintro ⟨r, read, its⟩
  cases latest : getLatestPublished (autoRollback rows version rolledBackBy) with
  | none => simp [getEffective, latest] at read
  | some b =>
    obtain ⟨memB, published⟩ := getLatestPublished_spec latest
    rcases autoRollback_cases back memB with ⟨namedB, -, whole⟩ | ⟨-, unpublished, -⟩
    · rcases @getEffective_cases digest key _ _ latest with ⟨q, is, -⟩ | ⟨-, served⟩
      · cases whole.symm.trans is
      · obtain rfl := Option.some.inj (read.symm.trans served)
        exact apart (namedB.symm.trans its)
    · exact unpublished published

/-! ## Histories -/

/-- Each rollout is in step with what is served, and none that was removed as rolled back is
served. -/
structure Tenant.Sound (digest : String → Nat) (t : Tenant) : Prop where
  distinct : (t.rows.map Row.version).Nodup
  inStep : ∀ r, t.rollout = some r → InStep t.rows r.canaryVersion r.canaryPercent
  removed : ∀ e ∈ t.removed, ∀ key, ¬ Served digest key e.2 e.1.canaryVersion

namespace Tenant.Sound

theorem createDraft (sound : t.Sound digest) (promotedBy : Option String) :
    (t.step digest (.createDraft promotedBy)).Sound digest := by
  refine ⟨?_, fun r active => (sound.inStep r active).createDraft promotedBy, sound.removed⟩
  simp only [Tenant.step, Promotion.createDraft, List.map_append, List.map_cons, List.map_nil]
  refine List.Nodup.append sound.distinct (List.nodup_singleton _) ?_
  intro version mem top
  obtain ⟨r, here, rfl⟩ := List.mem_map.mp mem
  have bound := Log.le_top Row.version here
  simp only [List.mem_singleton] at top
  omega

theorem publish (sound : t.Sound digest) {version : Nat} {promotedBy : Option String}
    {canaryPercent : Option Int} (steady : Steady t (.publish version promotedBy canaryPercent)) :
    (t.step digest (.publish version promotedBy canaryPercent)).Sound digest := by
  simp only [Tenant.step]
  cases published : Promotion.publish t.rows t.evals version promotedBy canaryPercent with
  | none => exact sound
  | some rows =>
    obtain ⟨rfl, -, draft, memDraft, named, -⟩ := publish_spec sound.distinct published
    refine ⟨promote_versions t.rows version promotedBy canaryPercent ▸ sound.distinct, ?_,
      sound.removed⟩
    intro r active
    cases full : isFull canaryPercent with
    | true =>
      simp only [Steady, full, if_true] at steady
      cases canaryPercent with
      | none => cases steady.symm.trans active
      | some percent =>
        have whole : ¬ percent < 100 := by simpa [isFull] using full
        simp only [if_neg whole] at active
        cases steady.symm.trans active
    | false =>
      simp only [Steady, full, Bool.false_eq_true, if_false] at steady
      cases canaryPercent with
      | none => cases full
      | some percent =>
        have part : percent < 100 := by simpa [isFull] using full
        simp only [if_pos part, Option.some.injEq] at active
        subst active
        exact inStep_promote sound.distinct ⟨draft, memDraft, named⟩ promotedBy part steady.1 steady.2

theorem request (sound : t.Sound digest) (requestKey : Option String) (error blocked : Bool) :
    (t.step digest (.request requestKey error blocked)).Sound digest := by
  refine ⟨sound.distinct, fun r active => ?_, sound.removed⟩
  obtain ⟨before, was, rfl⟩ := Option.map_eq_some_iff.mp active
  have inStep := sound.inStep before was
  simp only [CanaryRollout.recordRequest]
  split <;> exact inStep

theorem evaluate (sound : t.Sound digest) :
    (t.step digest (.evaluate false)).Sound digest := by
  simp only [Tenant.step, handleCanaryEvaluate]
  cases active : t.rollout with
  | none => exact sound
  | some r =>
    dsimp only
    split
    next =>
      have unserved (key : Option String) : ¬ Served digest key
          (autoRollback t.rows r.canaryVersion (some "canary-monitor")) r.canaryVersion :=
        (sound.inStep r active).unserved _
      refine ⟨autoRollback_versions t.rows _ _ ▸ sound.distinct, by simp, fun e mem => ?_⟩
      rcases List.mem_append.mp mem with old | new
      · exact sound.removed e old
      · simp only [endCanary, Option.map_some, if_true, Option.toList_some, List.map_singleton,
          List.mem_singleton] at new
        subst new
        exact unserved
    next => exact sound

theorem step (sound : t.Sound digest) {op : Op} (steady : Steady t op) :
    (t.step digest op).Sound digest := by
  cases op with
  | createDraft promotedBy => exact sound.createDraft promotedBy
  | setValidation version status =>
    refine ⟨?_, fun r active => (sound.inStep r active).setValidation version status, sound.removed⟩
    exact setValidation_versions t.rows version status ▸ sound.distinct
  | setEvalResult version status => exact ⟨sound.distinct, sound.inStep, sound.removed⟩
  | publish version promotedBy canaryPercent => exact sound.publish steady
  | autoRollback failingVersion rolledBackBy =>
    refine ⟨autoRollback_versions t.rows _ _ ▸ sound.distinct, fun r active => ?_, sound.removed⟩
    cases (steady : t.rollout = none).symm.trans active
  | request requestKey error blocked => exact sound.request requestKey error blocked
  | evaluate raises =>
    obtain rfl : raises = false := steady
    exact sound.evaluate

end Tenant.Sound

theorem run_sound {ops : List (TenantId × Op)} (steady : SteadyRun digest (fun _ => {}) ops)
    (id : TenantId) : (run digest ops id).Sound digest := by
  have go (ops : List (TenantId × Op)) (table : Table) (steady : SteadyRun digest table ops)
      (sound : ∀ id, (table id).Sound digest) (id : TenantId) :
      (ops.foldl (Table.step digest) table id).Sound digest := by
    induction ops generalizing table with
    | nil => exact sound id
    | cons op ops ih =>
      refine ih (table.step digest op) steady.2 fun other => ?_
      by_cases same : other = op.1
      · subst same
        rw [Table.step, Function.update_self]
        exact (sound _).step steady.1
      · rw [Table.step, Function.update_of_ne same]
        exact sound other
  exact go ops _ steady (fun _ => ⟨List.nodup_nil, by simp, by simp⟩) id

/-- In a steady history a request is recorded for the canary exactly when it was served the canary,
if it has a key, and only then; and no rollout was removed as rolled back whose canary was served
then. -/
theorem monitored (digest : String → Nat) {ops : List (TenantId × Op)}
    (steady : SteadyRun digest (fun _ => {}) ops) (id : TenantId) :
    (∀ r, (run digest ops id).rollout = some r → ∀ key,
      ((Attributed digest key r ↔ Served digest key (run digest ops id).rows r.canaryVersion) ↔
        key.any (· ≠ "") = true)) ∧
      ∀ e ∈ (run digest ops id).removed, ∀ key, ¬ Served digest key e.2 e.1.canaryVersion := by
  have sound := run_sound steady id
  exact ⟨fun r active key => (sound.inStep r active).attributed_iff_served, sound.removed⟩

/-! ## A rollout that is out of step -/

/-- Version 1 is published in full, and version 2 as a canary. -/
def canaried : List (TenantId × Op) :=
  [("acme", .createDraft none), ("acme", .publish 1 none none),
    ("acme", .createDraft none), ("acme", .publish 2 none (some 10))]

theorem canaried_steady (digest : String → Nat) : SteadyRun digest (fun _ => {}) canaried := by
  refine ⟨trivial, rfl, trivial, ⟨?_, ?_⟩, trivial⟩
  · intro r mem published
    have rows : r ∈ [{ version := 1, status := .published }, { version := 2 }] := mem
    simp only [List.mem_cons, List.not_mem_nil, or_false] at rows
    rcases rows with rfl | rfl <;> decide
  · exact ⟨{ version := 1, status := .published }, List.mem_cons_self, by decide, by decide⟩

theorem monitored_canaried :
    (∀ r, (run (fun _ => 99) canaried "acme").rollout = some r → ∀ key,
      ((Attributed (fun _ => 99) key r ↔
          Served (fun _ => 99) key (run (fun _ => 99) canaried "acme").rows r.canaryVersion) ↔
        key.any (· ≠ "") = true)) ∧
      ∀ e ∈ (run (fun _ => 99) canaried "acme").removed, ∀ key,
        ¬ Served (fun _ => 99) key e.2 e.1.canaryVersion :=
  monitored (fun _ => 99) (canaried_steady _) "acme"

/-- The keys of the slice, and the others. -/
def halved (key : String) : Nat := if key = "in" then 0 else 99

/-- The canary fails fifty times, the baseline never, and the rollback raises. -/
def failing : List (TenantId × Op) :=
  canaried ++ List.replicate 50 ("acme", .request (some "in") true false) ++
    List.replicate 50 ("acme", .request (some "out") false false) ++ [("acme", .evaluate true)]

/-- A request without a key is served the canary and recorded for the baseline; a rollout is removed
as rolled back and its canary is served. -/
theorem out_of_step :
    (∃ r, (run halved canaried "acme").rollout = some r ∧
      ¬ (Attributed halved none r ↔ Served halved none (run halved canaried "acme").rows r.canaryVersion)) ∧
      ∃ e ∈ (run halved failing "acme").removed, Served halved none e.2 e.1.canaryVersion := by
  constructor
  · refine ⟨startCanary (run halved canaried "acme").rows 2 10, rfl, fun agree => ?_⟩
    have served : Served halved none (run halved canaried "acme").rows 2 :=
      ⟨{ version := 2, status := .published, canaryPercent := some 10 }, by decide, rfl⟩
    have recorded := attributed_iff.mp (agree.mpr served)
    revert recorded
    decide
  · have found : (run halved failing "acme").removed.any (fun e =>
        (getEffective halved e.2 none).any (fun r => r.version = e.1.canaryVersion)) = true := by
      decide +kernel
    obtain ⟨e, mem, read⟩ := List.any_eq_true.mp found
    obtain ⟨r, served, named⟩ := (Option.any_eq_true _ _).mp read
    exact ⟨e, mem, r, served, of_decide_eq_true named⟩

end AgentStudio.Promotion.Monitor
