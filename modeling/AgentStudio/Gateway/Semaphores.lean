import AgentStudio.Gateway.Admission

/-!
# What the semaphores are left at

A semaphore's value and the number of calls that hold it add up to the value it was
made with. A call that has ended holds one only where an awaited step after the
first raised, other than by its timeout.
-/

namespace AgentStudio.Admission

open Async

/-- An answer after which a semaphore is never given back. -/
def Leaks : Event Calls Raised → Prop
  | ⟨.acquire .platform, .error e⟩ => e ≠ .timeout
  | ⟨.incr _, .error _⟩ | ⟨.decr _, .error _⟩ => True
  | _ => False

namespace Stage

def holdsTenant : Stage → Bool
  | entering | ended _ => false
  | _ => true

def holdsPlatform : Stage → Bool
  | entering | queued | leaving _ | ended _ | lostTenant _ => false
  | _ => true

/-- The semaphores that an admission has in this stage. -/
def Holds (tenantId : String) (stage : Stage) : Sem → Prop
  | .tenant t => t = tenantId ∧ stage.holdsTenant = true
  | .platform => stage.holdsPlatform = true

def lost : Stage → Bool
  | lostTenant _ | lostBoth _ => true
  | _ => false

end Stage

namespace Store

/-- The value of a semaphore and its holders make up what it was made with. -/
def Balanced (gate : Gate) (s : Store) : Prop :=
  ∀ worker sem, s.values worker sem + (s.holders worker sem).card = gate.initial sem

variable {gate : Gate} {s : Store} {worker w i : ℕ} {sem x : Sem}

theorem mem_take {j : ℕ} : j ∈ (s.take worker sem i).holders w x ↔
    j ∈ s.holders w x ∨ w = worker ∧ x = sem ∧ j = i := by
  by_cases here : w = worker ∧ x = sem
  · simp [take, here, or_comm]
  · simp only [take, if_neg here]
    tauto

theorem mem_give {j : ℕ} : j ∈ (s.give worker sem i).holders w x ↔
    j ∈ s.holders w x ∧ ¬ (w = worker ∧ x = sem ∧ j = i) := by
  by_cases here : w = worker ∧ x = sem
  · simp [give, here, and_comm]
  · simp only [give, if_neg here]
    tauto

theorem Balanced.take (h : s.Balanced gate) (free : 0 < s.values worker sem)
    (absent : i ∉ s.holders worker sem) : (s.take worker sem i).Balanced gate := by
  intro w x
  by_cases here : w = worker ∧ x = sem
  · obtain ⟨rfl, rfl⟩ := here
    have before := h w x
    simp only [Store.take, and_self, if_true, Finset.card_insert_of_notMem absent]
    omega
  · simp only [Store.take, if_neg here, h w x]

theorem Balanced.give (h : s.Balanced gate) (present : i ∈ s.holders worker sem) :
    (s.give worker sem i).Balanced gate := by
  intro w x
  by_cases here : w = worker ∧ x = sem
  · obtain ⟨rfl, rfl⟩ := here
    have before := h w x
    have some_ := Finset.card_pos.mpr ⟨i, present⟩
    simp only [Store.give, and_self, if_true, Finset.card_erase_of_mem present]
    omega
  · simp only [Store.give, if_neg here, h w x]

end Store

/-! ## What a call holds -/

/-- A call holds what its stage says, and is lost if one of its answers leaks. -/
structure Placed (gate : Gate) (i : ℕ) (task : Admitting) (s : Store) (stage : Stage) : Prop where
  rest : task.rest = stage.rest gate task.call.tenantId
  holds : ∀ worker sem, i ∈ s.holders worker sem ↔
    worker = task.call.worker ∧ stage.Holds task.call.tenantId sem
  leaked : (∃ ev ∈ task.trace, Leaks ev) ↔ stage.lost = true

/-- The same of any number: one that no call has yet holds nothing. -/
def Standing (gate : Gate) (i : ℕ) : Option Admitting → Store → Prop
  | none, s => ∀ worker sem, i ∉ s.holders worker sem
  | some task, s => ∃ stage, Placed gate i task s stage

section
variable {gate : Gate} {i : ℕ} {call : Call} {trace : Trace Calls Raised} {s s' : Store}
  {stage stage' : Stage} {op : Op} {r : Except Raised (Calls.Ans op)}

/-- The calls of `i` hold what its stage says, in a balanced store. -/
structure Store.Fits (gate : Gate) (i : ℕ) (call : Call) (stage : Stage) (s : Store) : Prop where
  balanced : s.Balanced gate
  holds : ∀ worker sem, i ∈ s.holders worker sem ↔
    worker = call.worker ∧ stage.Holds call.tenantId sem

theorem Store.Fits.same (h : s.Fits gate i call stage)
    (holds : ∀ sem, stage.Holds call.tenantId sem ↔ stage'.Holds call.tenantId sem) :
    s.Fits gate i call stage' :=
  ⟨h.balanced, fun worker sem => by rw [h.holds, holds]⟩

/-- The counters are no part of it. -/
theorem Store.Fits.setCounter (h : s.Fits gate i call stage) (key : String) (c : Counter) :
    (s.setCounter key c).Fits gate i call stage := ⟨h.balanced, h.holds⟩

theorem Store.Fits.take {sem : Sem} (h : s.Fits gate i call stage)
    (free : 0 < s.values call.worker sem) (absent : ¬ stage.Holds call.tenantId sem)
    (holds : ∀ x, stage'.Holds call.tenantId x ↔ stage.Holds call.tenantId x ∨ x = sem) :
    (s.take call.worker sem i).Fits gate i call stage' := by
  refine ⟨h.balanced.take free fun mem => absent ((h.holds _ _).mp mem).2, fun worker x => ?_⟩
  rw [Store.mem_take, h.holds, holds]
  tauto

theorem Store.Fits.give {sem : Sem} (h : s.Fits gate i call stage)
    (present : stage.Holds call.tenantId sem)
    (holds : ∀ x, stage'.Holds call.tenantId x ↔ stage.Holds call.tenantId x ∧ x ≠ sem) :
    (s.give call.worker sem i).Fits gate i call stage' := by
  refine ⟨h.balanced.give ((h.holds _ _).mpr ⟨rfl, present⟩), fun worker x => ?_⟩
  rw [Store.mem_give, h.holds, holds]
  tauto

/-- What one answer does to the semaphores. -/
theorem goes_fits (goes : Stage.Goes gate call.tenantId stage ⟨op, r⟩ stage')
    (reply : gate.replies i call op s r s') (h : s.Fits gate i call stage) :
    s'.Fits gate i call stage' := by
  cases goes with
  | enter =>
    obtain ⟨free, rfl⟩ := reply
    apply h.take free
    · simp [Stage.Holds, Stage.holdsTenant]
    · rintro (t | _) <;> simp [Stage.Holds, Stage.holdsTenant, Stage.holdsPlatform]
  | turnedAway =>
    obtain ⟨-, rfl⟩ := reply
    apply h.same
    rintro (t | _) <;> simp [Stage.Holds, Stage.holdsTenant, Stage.holdsPlatform]
  | count | uncounted =>
    obtain ⟨free, rfl⟩ := reply
    apply h.take free
    · simp [Stage.Holds, Stage.holdsPlatform]
    · rintro (t | _) <;> simp [Stage.Holds, Stage.holdsTenant, Stage.holdsPlatform]
  | waited | cancelled =>
    obtain ⟨-, rfl⟩ := reply
    exact h.same fun sem => by cases sem <;> rfl
  | granted | refused =>
    obtain ⟨-, rfl⟩ := reply
    exact (h.setCounter _ _).same fun sem => by cases sem <;> rfl
  | countFailed | undoFailed | returnFailed =>
    obtain ⟨-, rfl | rfl⟩ := reply
    · exact h.same fun sem => by cases sem <;> rfl
    · exact (h.setCounter _ _).same fun sem => by cases sem <;> rfl
  | undone | returned =>
    obtain rfl : s' = _ := reply
    exact (h.setCounter _ _).same fun sem => by cases sem <;> rfl
  | give | giveUncounted =>
    obtain ⟨-, rfl⟩ := reply
    exact h.same fun sem => by cases sem <;> rfl
  | clear =>
    obtain ⟨-, rfl⟩ := reply
    apply h.give
    · rfl
    · rintro (t | _) <;> simp [Stage.Holds, Stage.holdsTenant, Stage.holdsPlatform]
  | leave =>
    obtain ⟨-, rfl⟩ := reply
    apply h.give
    · exact ⟨rfl, rfl⟩
    · rintro (t | _) <;> simp [Stage.Holds, Stage.holdsTenant, Stage.holdsPlatform]

/-- A call is lost by an answer that leaks. -/
theorem goes_lost (goes : Stage.Goes gate call.tenantId stage ⟨op, r⟩ stage') :
    stage'.lost = true ↔ Leaks ⟨op, r⟩ := by
  cases goes <;> simp_all [Stage.lost, Leaks]

/-- No call goes on once it is lost. -/
theorem goes_unlost (goes : Stage.Goes gate call.tenantId stage ⟨op, r⟩ stage') :
    stage.lost = false := by
  cases goes <;> rfl

/-- What others are answered is nothing to a call. -/
theorem others_holders {j : ℕ} (reply : gate.replies i call op s r s') (other : j ≠ i)
    (worker : ℕ) (sem : Sem) : j ∈ s'.holders worker sem ↔ j ∈ s.holders worker sem := by
  cases op with
  | acquire x =>
    cases r with
    | ok =>
      obtain ⟨-, rfl⟩ := reply
      rw [Store.mem_take]
      tauto
    | error e =>
      obtain ⟨-, rfl⟩ := reply
      rfl
  | free x =>
    obtain ⟨-, rfl⟩ := reply
    rw [Store.mem_give]
    tauto
  | incr key =>
    cases r with
    | ok =>
      obtain ⟨-, rfl⟩ := reply
      rfl
    | error e => obtain ⟨-, rfl | rfl⟩ := reply <;> rfl
  | decr key =>
    cases r with
    | ok =>
      obtain rfl : s' = _ := reply
      rfl
    | error e => obtain ⟨-, rfl | rfl⟩ := reply <;> rfl
  | use =>
    obtain ⟨-, rfl⟩ := reply
    rfl

end

/-! ## Runs -/

theorem standing_kept (gate : Gate) :
    Pool.Kept gate.replies Lapses gate.body (Store.Balanced gate) (Standing gate) where
  env := by
    rintro s _ ⟨key, -, rfl⟩ balanced
    refine ⟨balanced, fun i task h => ?_⟩
    cases task with
    | none => exact h
    | some task =>
      obtain ⟨stage, rest, holds, leaked⟩ := h
      exact ⟨stage, rest, holds, leaked⟩
  start i call s absent := by
    refine ⟨.entering, gate.admission_eq call.tenantId, fun worker sem => ?_, ?_⟩
    · simp only [absent worker sem, false_iff, not_and]
      intro _
      cases sem <;> simp [Stage.Holds, Stage.holdsTenant, Stage.holdsPlatform]
    · simp [Stage.lost]
  own i call trace op k s r s' reply balanced standing := by
    obtain ⟨stage, rest, holds, leaked⟩ := standing
    obtain ⟨stage', goes, next⟩ := Stage.rest_goes rest.symm r
    obtain ⟨balanced', holds'⟩ := goes_fits goes reply ⟨balanced, holds⟩
    refine ⟨balanced', stage', next, holds', ?_⟩
    have before : ¬ ∃ ev ∈ trace, Leaks ev := by
      rw [leaked, goes_unlost goes]
      simp
    rw [goes_lost goes]
    simp only [List.mem_append, List.mem_singleton, or_and_right, exists_or, exists_eq_left]
    exact or_iff_right before
  others i call op s r s' reply j other task standing := by
    cases task with
    | none => exact fun worker sem => (others_holders reply other worker sem).not.mpr (standing worker sem)
    | some task =>
      obtain ⟨stage, rest, holds, leaked⟩ := standing
      exact ⟨stage, rest, fun worker sem => by rw [others_holders reply other, holds], leaked⟩

theorem reachable_standing {gate : Gate} {w : World} (run : gate.Reachable w) :
    w.store.Balanced gate ∧ ∀ i, Standing gate i w.tasks[i]? w.store :=
  Pool.turns_kept (standing_kept gate) run (fun worker sem => by simp [Gate.fresh])
    fun i => by simp [Gate.fresh, Standing]

/-- For every gate, in every state that any interleaving of calls of `admit` and `release`
reaches, with any Redis call raising and any waiting call cancelled: once none is under way,
the semaphores of a worker are all back at their initial values exactly when none of its calls
was raised at in a Redis call, or cancelled while it waited for the platform semaphore. -/
theorem semaphores_restored_iff (gate : Gate) (w : World) (run : gate.Reachable w) (idle : w.Idle)
    (worker : ℕ) :
    (∀ sem, w.store.values worker sem = gate.initial sem) ↔
      ∀ task ∈ w.tasks, task.call.worker = worker → ∀ ev ∈ task.trace, ¬ Leaks ev := by
  obtain ⟨balanced, standing⟩ := reachable_standing run
  constructor
  · intro restored task mem own ev at_ leaks
    obtain ⟨i, here⟩ := List.mem_iff_getElem?.mp mem
    obtain ⟨stage, rest, holds, leaked⟩ : Standing gate i (some task) w.store := here ▸ standing i
    have lost := leaked.mp ⟨ev, at_, leaks⟩
    have held : i ∈ w.store.holders worker (.tenant task.call.tenantId) := by
      have holding : stage.holdsTenant = true := by
        cases stage <;> first | rfl | cases lost
      exact (holds _ _).mpr ⟨own.symm, rfl, holding⟩
    have sum := balanced worker (.tenant task.call.tenantId)
    have some_ := Finset.card_pos.mpr ⟨i, held⟩
    rw [restored] at sum
    omega
  · intro sound sem
    have none_ : w.store.holders worker sem = ∅ := by
      apply Finset.eq_empty_of_forall_notMem
      intro i held
      have at_ := standing i
      cases here : w.tasks[i]? with
      | none =>
        rw [here] at at_
        exact at_ worker sem held
      | some task =>
        rw [here] at at_
        obtain ⟨stage, rest, holds, leaked⟩ := at_
        have mem := List.mem_of_getElem? here
        obtain ⟨own, holding⟩ := (holds worker sem).mp held
        obtain ⟨end_, done⟩ := idle task mem
        have unlost : ¬ stage.lost = true := by
          rw [← leaked]
          rintro ⟨ev, at_, leaks⟩
          exact sound task mem own.symm ev at_ leaks
        rw [done] at rest
        cases stage with
        | ended => cases sem <;> simp [Stage.Holds, Stage.holdsTenant, Stage.holdsPlatform] at holding
        | lostTenant | lostBoth => exact unlost rfl
        | _ => cases rest
    have sum := balanced worker sem
    rw [none_, Finset.card_empty, Nat.add_zero] at sum
    exact sum

/-- One call, given `n` answers while Redis is up or down. -/
def oneCall (down : Bool) (n : ℕ) : World :=
  (List.replicate n 0).foldl (Pool.serve (Gate.answer {} down))
    { (Gate.fresh {}) with tasks := [⟨⟨0, "acme"⟩, [], Gate.body {} ⟨0, "acme"⟩⟩] }

theorem oneCall_reachable (down : Bool) (n : ℕ) : Gate.Reachable {} (oneCall down n) :=
  .head (.start (Gate.fresh {}) ⟨0, "acme"⟩)
    (Pool.turns_serve (Gate.answer_replies {} down) _ (List.replicate n 0))

/-- A call that was admitted and has given everything back. -/
theorem restored_after_release : (oneCall false 7).Idle ∧ (oneCall false 7).tasks.length = 1 ∧
    ((∀ sem, (oneCall false 7).store.values 0 sem = Gate.initial {} sem) ↔
      ∀ task ∈ (oneCall false 7).tasks, task.call.worker = 0 → ∀ ev ∈ task.trace, ¬ Leaks ev) := by
  have idle : (oneCall false 7).Idle := Pool.idle_of_done (by decide +kernel)
  exact ⟨idle, by decide +kernel, semaphores_restored_iff {} _ (oneCall_reachable false 7) idle 0⟩

/-- When Redis cannot be reached, the call fails and both semaphores stay one short. -/
theorem semaphores_lost : (oneCall true 3).Idle ∧ (oneCall true 3).store.values 0 .platform = 49 ∧
    ¬ ∀ (gate : Gate) (w : World), gate.Reachable w → w.Idle → ∀ worker sem,
      w.store.values worker sem = gate.initial sem := by
  have idle : (oneCall true 3).Idle := Pool.idle_of_done (by decide +kernel)
  have short : (oneCall true 3).store.values 0 .platform = 49 := by decide +kernel
  refine ⟨idle, short, fun claim => ?_⟩
  have full := claim {} _ (oneCall_reachable true 3) idle 0 .platform
  rw [short] at full
  exact absurd full (by decide)

end AgentStudio.Admission
