import AgentStudio.Guardrails.Orchestrator
import Mathlib.Data.List.Infix

/-!
# A layer whose breaker has opened

The orchestrator does not enter a breaker that is open, and nothing but an entry takes a
breaker out of that state. So a breaker is closed or open, never half open, and open for
good from the evaluation on that made the failures in a row as many as the threshold.
-/

namespace AgentStudio.Guardrails

open Async

/-! ## Failures in a row -/

section
variable {n : Nat} {os : List Bool}

/-- How many of the last outcomes are failures. -/
def streak (os : List Bool) : Nat := (os.reverse.takeWhile fun succeeded => !succeeded).length

theorem streak_succeeded (os : List Bool) : streak (os ++ [true]) = 0 := by
  simp [streak]

theorem streak_failed (os : List Bool) : streak (os ++ [false]) = streak os + 1 := by
  simp [streak]

theorem suffix_iff : List.replicate n false <:+ os ↔ n ≤ streak os := by
  induction os using List.reverseRecOn generalizing n with
  | nil => simp [streak]
  | append_singleton os succeeded ih =>
    cases n with
    | zero => simp
    | succ n =>
      rw [List.replicate_succ', List.suffix_concat_iff]
      cases succeeded with
      | true => simp [streak_succeeded]
      | false =>
        rw [streak_failed, Nat.succ_le_succ_iff, ← ih]
        constructor
        · rintro (none_ | ⟨t, is, rest⟩)
          · simp at none_
          · rwa [List.append_cancel_right is]
        · exact fun rest => .inr ⟨_, rfl, rest⟩

theorem infix_succeeded (positive : 1 ≤ n) :
    List.replicate n false <:+: os ++ [true] ↔ List.replicate n false <:+: os := by
  rw [List.infix_concat_iff, suffix_iff, streak_succeeded]
  simp only [or_iff_right_iff_imp]
  omega

theorem infix_failed : List.replicate n false <:+: os ++ [false] ↔
    n ≤ streak os + 1 ∨ List.replicate n false <:+: os := by
  rw [List.infix_concat_iff, suffix_iff, streak_failed]

end

/-! ## What the record says of a layer -/

def Record.outcome (layer : GuardrailLayer) : Record → Option Bool
  | .arrived .. => none
  | .succeeded l => if l = layer then some true else none
  | .failed l _ => if l = layer then some false else none

def Record.failure (layer : GuardrailLayer) : Record → Option ℚ
  | .failed l now => if l = layer then some now else none
  | _ => none

/-- How the evaluations of a layer have ended. -/
def outcomes (layer : GuardrailLayer) (log : List Record) : List Bool :=
  log.filterMap (Record.outcome layer)

/-- When an evaluation of the layer last failed. -/
def lastFailure (layer : GuardrailLayer) (log : List Record) : Option ℚ :=
  (log.filterMap (Record.failure layer)).getLast?

/-- As many evaluations of the layer as the threshold have failed in a row. -/
def Tripped (config : BreakerConfig) (layer : GuardrailLayer) (log : List Record) : Prop :=
  List.replicate config.failureThreshold false <:+: outcomes layer log

/-- Whenever a request came to a layer and it was not evaluated, the recovery timeout had not
elapsed since its last failure. -/
def Recovers (config : BreakerConfig) (log : List Record) : Prop :=
  ∀ (before after : List Record) (layer : GuardrailLayer) (now : ℚ),
    log = before ++ .arrived layer now false :: after →
      ∃ t, lastFailure layer before = some t ∧ now < t + config.recoveryTimeout

section
variable {config : BreakerConfig} {layer layer' : GuardrailLayer} {log : List Record} {now : ℚ}

theorem outcomes_snoc (layer : GuardrailLayer) (log : List Record) (record : Record) :
    outcomes layer (log ++ [record]) = outcomes layer log ++ (record.outcome layer).toList := by
  simp [outcomes, List.filterMap_append, List.filterMap_cons]
  cases record.outcome layer <;> rfl

theorem lastFailure_snoc (layer : GuardrailLayer) (log : List Record) (record : Record) :
    lastFailure layer (log ++ [record]) = (record.failure layer).or (lastFailure layer log) := by
  simp [lastFailure, List.filterMap_append, List.filterMap_cons]
  cases record.failure layer <;> simp

/-! ## What a breaker is -/

/-- The breaker of a layer is what the record says. -/
structure Told (config : BreakerConfig) (layer : GuardrailLayer) (log : List Record)
    (b : CircuitBreaker) : Prop where
  state : (b.state = .opened ∧ Tripped config layer log) ∨
    (b.state = .closed ∧ ¬Tripped config layer log ∧ b.failureCount = streak (outcomes layer log))
  last : ∀ t, lastFailure layer log = some t → b.lastFailureTime = t

variable {b : CircuitBreaker}

/-- What is recorded of no outcome of the layer changes nothing. -/
theorem Told.quiet (h : Told config layer log b) {record : Record}
    (outcome : record.outcome layer = none) (failure : record.failure layer = none) :
    Told config layer (log ++ [record]) b := by
  have same : outcomes layer (log ++ [record]) = outcomes layer log := by
    rw [outcomes_snoc, outcome]
    exact List.append_nil _
  constructor
  · rw [Tripped, same]
    exact h.state
  · rw [lastFailure_snoc, failure]
    exact h.last

theorem Told.succeeded (h : Told config layer log b) :
    Told config layer (log ++ [.succeeded layer]) (b.recordSuccess config) := by
  have grown : outcomes layer (log ++ [.succeeded layer]) = outcomes layer log ++ [true] := by
    rw [outcomes_snoc]
    simp [Record.outcome]
  have tripped : Tripped config layer (log ++ [.succeeded layer]) ↔ Tripped config layer log := by
    rw [Tripped, grown]
    exact infix_succeeded config.positive
  have last : ∀ t, lastFailure layer (log ++ [.succeeded layer]) = some t → b.lastFailureTime = t := by
    rw [lastFailure_snoc]
    exact h.last
  obtain ⟨opened, is⟩ | ⟨closed, isnt, -⟩ := h.state
  · have same : b.recordSuccess config = b := by simp [CircuitBreaker.recordSuccess, opened]
    rw [same]
    exact ⟨.inl ⟨opened, tripped.mpr is⟩, last⟩
  · have reset : b.recordSuccess config = { b with failureCount := 0 } := by
      simp [CircuitBreaker.recordSuccess, closed]
    rw [reset]
    refine ⟨.inr ⟨closed, fun is => isnt (tripped.mp is), ?_⟩, last⟩
    rw [grown, streak_succeeded]

theorem Told.failed (h : Told config layer log b) (now : ℚ) :
    Told config layer (log ++ [.failed layer now]) (b.recordFailure config now) := by
  have grown : outcomes layer (log ++ [.failed layer now]) = outcomes layer log ++ [false] := by
    rw [outcomes_snoc]
    simp [Record.outcome]
  have tripped : Tripped config layer (log ++ [.failed layer now]) ↔
      config.failureThreshold ≤ streak (outcomes layer log) + 1 ∨ Tripped config layer log := by
    rw [Tripped, grown]
    exact infix_failed
  have last : ∀ t, lastFailure layer (log ++ [.failed layer now]) = some t → now = t := by
    rw [lastFailure_snoc]
    simp [Record.failure]
  obtain ⟨opened, is⟩ | ⟨closed, isnt, count⟩ := h.state
  · have marked : b.recordFailure config now = { b with lastFailureTime := now } := by
      simp [CircuitBreaker.recordFailure, opened]
    rw [marked]
    exact ⟨.inl ⟨opened, tripped.mpr (.inr is)⟩, last⟩
  · by_cases full : config.failureThreshold ≤ b.failureCount + 1
    · have opens : b.recordFailure config now = { b with
          lastFailureTime := now, failureCount := b.failureCount + 1, state := .opened } := by
        simp [CircuitBreaker.recordFailure, closed, full]
      rw [opens]
      exact ⟨.inl ⟨rfl, tripped.mpr (.inl (count ▸ full))⟩, last⟩
    · have counts : b.recordFailure config now = { b with
          lastFailureTime := now, failureCount := b.failureCount + 1 } := by
        simp [CircuitBreaker.recordFailure, closed, full]
      rw [counts]
      refine ⟨.inr ⟨closed, ?_, ?_⟩, last⟩
      · rintro is
        rcases tripped.mp is with many | is
        · exact full (count ▸ many)
        · exact isnt is
      · rw [grown, streak_failed, count]

/-- A breaker is entered, and the layer evaluated, while the failures have not reached the
threshold; then never again. -/
theorem Told.arrive (h : Told config layer log b) (now : ℚ) :
    ∃ entry, b.arrive config now = (entry, b) ∧ (entry = .evaluated ↔ ¬Tripped config layer log) := by
  obtain ⟨opened, is⟩ | ⟨closed, isnt, -⟩ := h.state
  · simp [CircuitBreaker.arrive, opened, is]
  · simp [CircuitBreaker.arrive, CircuitBreaker.enter, closed, isnt]

/-! ## Runs -/

/-- Every breaker is what the record says of its layer, and a layer was evaluated for those who
came before it had tripped. -/
structure Store.Kept (config : BreakerConfig) (s : Store) : Prop where
  told : ∀ layer, Told config layer s.log (s.breakers layer)
  arrived : ∀ (before after : List Record) (layer : GuardrailLayer) (now : ℚ) (evaluated : Bool),
    s.log = before ++ .arrived layer now evaluated :: after →
      (evaluated = true ↔ ¬Tripped config layer before)

theorem Store.Kept.put {s : Store} (h : s.Kept config) {b : CircuitBreaker} {record : Record}
    (own : Told config layer (s.log ++ [record]) b)
    (others : ∀ l, l ≠ layer → record.outcome l = none ∧ record.failure l = none)
    (arrived : ∀ l now evaluated, record = .arrived l now evaluated →
      (evaluated = true ↔ ¬Tripped config l s.log)) :
    (s.put layer b record).Kept config := by
  constructor
  · intro l
    by_cases here : l = layer
    · have is : (s.put layer b record).breakers l = b := by simp [Store.put, here]
      rw [is, here]
      exact own
    · have is : (s.put layer b record).breakers l = s.breakers l := by simp [Store.put, here]
      rw [is]
      exact (h.told l).quiet (others l here).1 (others l here).2
  · intro before after l now evaluated split
    rcases List.eq_nil_or_concat after with rfl | ⟨after, last, rfl⟩
    · obtain ⟨same, is⟩ := List.append_inj' split rfl
      rw [← same]
      exact arrived l now evaluated (List.singleton_inj.mp is)
    · have split : s.log ++ [record] = (before ++ .arrived l now evaluated :: after) ++ [last] := by
        simpa [Store.put] using split
      exact h.arrived before after l now evaluated (List.append_inj_left' split rfl)

theorem Answer.kept {i : Nat} {call : Orchestrator.Call} {op : Op} {s s' : Store}
    {r : Except Raised (Calls.Ans op)} (answer : Answer config i call op s r s')
    (h : s.Kept config) : s'.Kept config := by
  cases answer with
  | evaluate layer userInput => exact h
  | arrive layer =>
    obtain ⟨entry, is, evaluated⟩ := (h.told layer).arrive s.now
    have unmoved : (s.arrive config layer).2 =
        s.put layer (s.breakers layer) (.arrived layer s.now (entry = .evaluated)) := by
      rw [Store.arrive, is]
    rw [unmoved]
    refine h.put ((h.told layer).quiet rfl rfl) (fun l other => ⟨rfl, rfl⟩) ?_
    rintro l now flag ⟨⟩
    rw [decide_eq_true_eq]
    exact evaluated
  | recordSuccess layer =>
    refine h.put (h.told layer).succeeded (fun l other => ?_) (fun l now flag is => by cases is)
    exact ⟨if_neg other.symm, rfl⟩
  | recordFailure layer =>
    refine h.put ((h.told layer).failed s.now) (fun l other => ?_) (fun l now flag is => by cases is)
    exact ⟨if_neg other.symm, if_neg other.symm⟩

theorem reachable_kept {orchestrator : Orchestrator} {w : World}
    (run : orchestrator.Reachable w) : w.store.Kept orchestrator.breaker := by
  have kept : Pool.Kept (Answer orchestrator.breaker) Passes orchestrator.body
      (Store.Kept orchestrator.breaker) fun _ _ _ => True := by
    constructor
    · rintro s _ ⟨now, -, rfl⟩ h
      exact ⟨⟨h.told, h.arrived⟩, fun _ _ _ => trivial⟩
    · exact fun _ _ _ _ => trivial
    · exact fun i call trace op k s r s' answer h _ => ⟨answer.kept h, trivial⟩
    · exact fun _ _ _ _ _ _ _ _ _ _ _ => trivial
  refine (Pool.turns_kept kept run ⟨fun layer => ⟨.inr ⟨rfl, ?_, rfl⟩, ?_⟩, ?_⟩
    fun _ => trivial).1
  · intro tripped
    have positive := orchestrator.breaker.positive
    have empty : List.replicate orchestrator.breaker.failureThreshold false = [] :=
      List.infix_nil.mp tripped
    have none_ := congrArg List.length empty
    simp at none_
    omega
  · intro t is
    cases is
  · intro before after layer now evaluated split
    simp at split

end

/-- In every state that any number of requests reach, with any engine failing: no layer was
skipped although its recovery timeout had elapsed exactly when, after as many failures of a
layer in a row as the threshold, no request came to it the recovery timeout or more after its
last failure. -/
theorem recovers_iff (orchestrator : Orchestrator) (w : World) (run : orchestrator.Reachable w) :
    Recovers orchestrator.breaker w.store.log ↔
      ∀ (before after : List Record) (layer : GuardrailLayer) (now : ℚ) (evaluated : Bool),
        w.store.log = before ++ .arrived layer now evaluated :: after →
          Tripped orchestrator.breaker layer before →
            ∃ t, lastFailure layer before = some t ∧
              now < t + orchestrator.breaker.recoveryTimeout := by
  have arrived := (reachable_kept run).arrived
  constructor
  · intro recovers before after layer now evaluated split tripped
    cases evaluated with
    | true => exact absurd tripped ((arrived before after layer now true split).mp rfl)
    | false => exact recovers before after layer now split
  · intro early before after layer now split
    refine early before after layer now false split ?_
    by_contra isnt
    cases (arrived before after layer now false split).mpr isnt

/-! ## A layer that fails once -/

/-- One failure opens the breaker, and a layer without a result is passed over. -/
def strict : Orchestrator where
  breaker := { failureThreshold := 1 }
  engines := [.classifier]
  failOpenOnError := true

/-- The engine raises at every evaluation. -/
def raising (_ : Nat) (_ : Orchestrator.Call) :
    (op : Op) → Store → Except Raised (Calls.Ans op) × Store
  | .arrive layer, s => (.ok (s.arrive strict.breaker layer).1, (s.arrive strict.breaker layer).2)
  | .evaluate _ _, s => (.error (.error "connection reset"), s)
  | .recordSuccess layer, s => (.ok (), s.recordSuccess strict.breaker layer)
  | .recordFailure layer, s => (.ok (), s.recordFailure strict.breaker layer)

theorem raising_answers (i : Nat) (call : Orchestrator.Call) (op : Op) (s : Store) :
    Answer strict.breaker i call op s (raising i call op s).1 (raising i call op s).2 := by
  cases op with
  | arrive layer => exact .arrive layer s
  | evaluate layer userInput => exact .evaluate layer userInput s _
  | recordSuccess layer => exact .recordSuccess layer s
  | recordFailure layer => exact .recordFailure layer s

def hello : Orchestrator.Call := .layer .classifier "hello"

/-- A request finds the engine failing at time 0, and another one comes at time `now`. -/
def again (now : ℚ) : World :=
  let first := [0, 0, 0].foldl (Pool.serve raising) ⟨{}, [⟨hello, [], strict.body hello⟩]⟩
  [1].foldl (Pool.serve raising)
    ⟨{ first.store with now := now }, first.tasks ++ [⟨hello, [], strict.body hello⟩]⟩

theorem again_reachable {now : ℚ} (after : 0 ≤ now) : strict.Reachable (again now) := by
  have start (w : World) : Pool.Turn (Answer strict.breaker) Passes strict.body w
      { w with tasks := w.tasks ++ [⟨hello, [], strict.body hello⟩] } := .start w hello
  have first : Pool.Turns (Answer strict.breaker) Passes strict.body _ _ :=
    Pool.turns_serve raising_answers ⟨{}, [⟨hello, [], strict.body hello⟩]⟩ [0, 0, 0]
  exact (((Relation.ReflTransGen.single (start _)).trans first).tail (start _)).trans
    ((Relation.ReflTransGen.single (.env _ _ ⟨now, after, rfl⟩)).trans
      (Pool.turns_serve raising_answers _ [1]))

theorem again_log (now : ℚ) : (again now).store.log = [.arrived .classifier 0 true,
    .failed .classifier 0, .arrived .classifier now false] := rfl

/-- Ten seconds after the failure the layer is skipped as it should be. -/
theorem recovers_early : Recovers strict.breaker (again 10).store.log := by
  refine (recovers_iff strict (again 10) (again_reachable (by norm_num))).mpr ?_
  intro before after layer now evaluated split tripped
  rw [again_log] at split
  rcases before with _ | ⟨first, _ | ⟨second, _ | ⟨third, before⟩⟩⟩
  · have empty := List.infix_nil.mp tripped
    cases empty
  · cases split
  · cases split
    exact ⟨0, rfl, by norm_num [strict]⟩
  · simp at split

/-- A minute after it the layer is still skipped. -/
theorem skipped_late :
    strict.Reachable (again 60) ∧ ¬Recovers strict.breaker (again 60).store.log := by
  refine ⟨again_reachable (by norm_num), fun recovers => ?_⟩
  obtain ⟨t, last, early⟩ := recovers [.arrived .classifier 0 true, .failed .classifier 0] []
    .classifier 60 (again_log 60)
  cases last
  norm_num [strict] at early


end AgentStudio.Guardrails
