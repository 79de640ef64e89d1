import AgentStudio.Governance.Rollout

/-!
# The promotion pipeline

`promotion_gate`, and the operations that record what it looks at: a version that
failed its validation or its eval suite, or has regressed, is not published. The
gate is in the publish route, in front of `promote`; the queries that pick a
version do not look at it.
-/

namespace AgentStudio.Promotion

/-- `EVAL_*`. -/
inductive Evaluation where
  | pending | running | passed | failed
  deriving DecidableEq, Repr

/-- `promotion_gate`. -/
def promotionGate (validation : Option Validation) (eval : Option Evaluation) : Bool :=
  if validation = some .failed ∨ validation = some .regressed then false
  else if eval = some .failed then false
  else true

/-- `validate_canary_percent`. -/
def validateCanaryPercent : Option Int → Bool
  | none => true
  | some percent => 0 ≤ percent ∧ percent ≤ 100

/-- `set_validation`; none is the empty string too. -/
def setValidation (rows : List Row) (version : Nat) (status : Option Validation) : List Row :=
  setRow rows version fun r => { r with validationStatus := status }

/-- The eval results, by version. -/
abbrev Evals := Nat → Option Evaluation

/-- The publish route, up to `promote`; none where it raises. -/
def publish (rows : List Row) (evals : Evals) (version : Nat) (promotedBy : Option String)
    (canaryPercent : Option Int) : Option (List Row) :=
  let draft := rows.find? fun r => r.version = version
  if promotionGate (draft.bind Row.validationStatus) (draft.bind fun r => evals r.version) then
    if validateCanaryPercent canaryPercent then
      if draft.isSome then some (promote rows version promotedBy canaryPercent) else none
    else none
  else none

variable {rows rows' : List Row} {evals : Evals} {r : Row}

theorem promotionGate_barred {validation : Option Validation} (eval : Option Evaluation)
    (barred : promotionGate validation none = false) : promotionGate validation eval = false := by
  unfold promotionGate at barred ⊢
  split
  · rfl
  next passes =>
    rw [if_neg passes] at barred
    simp at barred

/-- A row that is published passed the gate, and the percentage is one. -/
theorem publish_spec {version : Nat} {promotedBy : Option String} {canaryPercent : Option Int}
    (distinct : (rows.map Row.version).Nodup)
    (published : publish rows evals version promotedBy canaryPercent = some rows') :
    rows' = promote rows version promotedBy canaryPercent ∧
      validateCanaryPercent canaryPercent = true ∧
        ∃ r ∈ rows, r.version = version ∧ promotionGate r.validationStatus none = true := by
  unfold publish at published
  cases found : rows.find? (fun r => r.version = version) with
  | none =>
    simp only [found, Option.isSome_none, Bool.false_eq_true, if_false, ite_self] at published
    cases published
  | some draft =>
    simp only [found, Option.bind_some, Option.isSome_some, if_true] at published
    split at published
    next passes =>
      split at published
      next valid =>
        refine ⟨(Option.some.inj published).symm, valid, draft, List.mem_of_find?_eq_some found, ?_, ?_⟩
        · simpa using List.find?_some found
        · by_contra barred
          rw [promotionGate_barred _ (by simpa using barred)] at passes
          cases passes
      next => cases published
    next => cases published

theorem setValidation_versions (rows : List Row) (version : Nat) (status : Option Validation) :
    (setValidation rows version status).map Row.version = rows.map Row.version :=
  setRow_versions (fun _ => by rfl) rows

/-! ## What an operation makes of a row -/

theorem setRow_cases {version : Nat} {f : Row → Row} (mem : r ∈ setRow rows version f) :
    (∃ a ∈ rows, a.version = version ∧ r = f a) ∨ r ∈ rows ∧ r.version ≠ version := by
  obtain ⟨a, here, rfl⟩ := List.mem_map.mp mem
  by_cases named : a.version = version
  · exact .inl ⟨a, here, named, if_pos named⟩
  · rw [if_neg named]
    exact .inr ⟨here, named⟩

/-- A superseded row has its version, its percentage and its validation, and it is not published. -/
theorem supersede_cases (mem : r ∈ supersede rows) :
    r.status ≠ .published ∧ ∃ a ∈ rows, r.version = a.version ∧
      r.validationStatus = a.validationStatus := by
  obtain ⟨a, here, rfl⟩ := List.mem_map.mp mem
  split
  · exact ⟨Status.noConfusion, a, here, rfl, rfl⟩
  next status => exact ⟨status, a, here, rfl, rfl⟩

/-- A row of a promotion is the one that is promoted, or it was there under its status or is
superseded. -/
theorem promote_cases {version : Nat} {promotedBy : Option String} {canaryPercent : Option Int}
    (mem : r ∈ promote rows version promotedBy canaryPercent) :
    r.version = version ∨ ∃ a ∈ rows, r.version = a.version ∧
      r.validationStatus = a.validationStatus ∧ (r.status = .published → a.status = .published) := by
  unfold promote at mem
  split at mem
  next here =>
    rcases setRow_cases mem with ⟨a, kept, named, rfl⟩ | ⟨kept, other⟩
    · refine .inl ?_
      simpa using named
    · refine .inr ?_
      split at kept
      · obtain ⟨status, a, memA, version, validation⟩ := supersede_cases kept
        exact ⟨a, memA, version, validation, fun published => absurd published status⟩
      · exact ⟨r, kept, rfl, rfl, id⟩
  next => exact .inr ⟨r, mem, rfl, rfl, id⟩

/-- What a rollback leaves: the version that it returns to, published; the failing one, marked;
and the others, none of them published. -/
theorem autoRollback_cases {failingVersion : Nat} {rolledBackBy : Option String} {previous : Row}
    (found : rollbackTo rows failingVersion = some previous)
    (mem : r ∈ autoRollback rows failingVersion rolledBackBy) :
    r.version = previous.version ∧ r.status = .published ∧ r.canaryPercent = none ∨
      r.version ≠ previous.version ∧ r.status ≠ .published ∧
        (r.version = failingVersion ∧ r.validationStatus = some .regressed ∨
          r.version ≠ failingVersion ∧
            ∃ a ∈ rows, r.version = a.version ∧ r.validationStatus = a.validationStatus) := by
  simp only [autoRollback, found] at mem
  rcases setRow_cases mem with ⟨a, -, named, rfl⟩ | ⟨kept, other⟩
  · exact .inl ⟨named, rfl, rfl⟩
  · obtain ⟨status, a, memA, version, validation⟩ := supersede_cases kept
    refine .inr ⟨other, status, ?_⟩
    rcases setRow_cases memA with ⟨b, -, named, rfl⟩ | ⟨memA, unnamed⟩
    · exact .inl ⟨version.trans named, validation⟩
    · exact .inr ⟨version ▸ unnamed, a, memA, version, validation⟩

end AgentStudio.Promotion
