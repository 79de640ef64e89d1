import Mathlib.Data.Rat.Defs
import Mathlib.Algebra.Order.Ring.Rat
import Mathlib.Data.List.Infix
import Mathlib.Data.List.Count

/-!
# The circuit breaker

`infrastructure/patterns/circuit_breaker.py` with any configuration, and the calls that go through
one breaker, any number of them at once. The lock is never held over an await, and the wrapped
function starts in the step that lets it in: a call is two steps, one in which it is let in or
refused and one in which its outcome is recorded.

* `call_uncounted`, `finish_uncounted`, `run_uncounted`: no call of a half-open breaker is counted;
* `calls_bounded_iff`: no function is started while the breaker is open and its timeout runs, and
  how many are started while it is half-open is not limited.
-/

namespace AgentStudio.Patterns

inductive CircuitState where
  | closed | opened | halfOpen
  deriving DecidableEq, Repr

structure CircuitBreakerConfig where
  failureThreshold : ℤ := 5
  recoveryTimeout : ℚ := 30
  halfOpenMaxCalls : ℤ := 3
  consecutiveSuccessesToClose : ℤ := 2

structure CircuitBreaker where
  state : CircuitState := .closed
  failureCount : Nat := 0
  successCount : Nat := 0
  halfOpenCalls : Nat := 0
  lastFailureTime : ℚ := 0
  deriving DecidableEq

namespace CircuitBreaker

variable (config : CircuitBreakerConfig) (now : ℚ) (b : CircuitBreaker)

/-- The timeout of an open breaker runs. -/
def Waits : Prop := b.state = .opened ∧ now - b.lastFailureTime < config.recoveryTimeout

instance : Decidable (b.Waits config now) := inferInstanceAs (Decidable (_ ∧ _))

/-- The state that `call` finds once the timeout of an open breaker is over. -/
def probe : CircuitBreaker :=
  if b.state = .opened then { b with state := .halfOpen, halfOpenCalls := 0, successCount := 0 }
  else b

/-- The head of `call`, under the lock: whether the function is started, or until when
`CircuitBreakerOpenError` says that the breaker is open. -/
def enter : Except ℚ Unit × CircuitBreaker :=
  if b.Waits config now then (.error (b.lastFailureTime + config.recoveryTimeout), b)
  else if b.probe.state = .halfOpen ∧ config.halfOpenMaxCalls ≤ b.probe.halfOpenCalls then
    (.error (now + 5), b.probe)
  else (.ok (), b.probe)

/-- `_record_success`. -/
def recordSuccess : CircuitBreaker :=
  match b.state with
  | .halfOpen =>
    if config.consecutiveSuccessesToClose ≤ (b.successCount + 1 : Nat) then
      { b with state := .closed, failureCount := 0, successCount := 0, halfOpenCalls := 0 }
    else { b with successCount := b.successCount + 1 }
  | .closed => { b with failureCount := 0 }
  | .opened => b

/-- `_record_failure`. -/
def recordFailure : CircuitBreaker :=
  match b.state with
  | .halfOpen => { b with
      lastFailureTime := now, state := .opened, halfOpenCalls := 0, successCount := 0 }
  | .closed => { b with
      lastFailureTime := now
      failureCount := b.failureCount + 1
      state := if config.failureThreshold ≤ (b.failureCount + 1 : Nat) then .opened else .closed }
  | .opened => { b with lastFailureTime := now }

end CircuitBreaker

/-! ## Calls through one breaker -/

inductive Outcome where
  | returned | raised
  /-- What is no `Exception` is not recorded. -/
  | cancelled
  deriving DecidableEq, Repr

inductive Event where
  | call (now : ℚ)
  /-- One of the functions that were started ends. -/
  | finish (outcome : Outcome) (now : ℚ)

/-- What a step did, for the record; `started` is given for a call. -/
structure Record where
  before : CircuitBreaker
  after : CircuitBreaker
  now : ℚ
  started : Option Bool

structure World where
  breaker : CircuitBreaker := {}
  inFlight : Nat := 0
  log : List Record := []

variable (config : CircuitBreakerConfig)

def World.call (w : World) (now : ℚ) : World :=
  let (let_in, b) := w.breaker.enter config now
  { breaker := b
    inFlight := w.inFlight + if let_in.isOk then 1 else 0
    log := w.log ++ [⟨w.breaker, b, now, some let_in.isOk⟩] }

def World.finish (w : World) (outcome : Outcome) (now : ℚ) : World :=
  if w.inFlight = 0 then w
  else
    let b := match outcome with
      | .returned => w.breaker.recordSuccess config
      | .raised => w.breaker.recordFailure config now
      | .cancelled => w.breaker
    { breaker := b, inFlight := w.inFlight - 1, log := w.log ++ [⟨w.breaker, b, now, none⟩] }

def step (w : World) : Event → World
  | .call now => w.call config now
  | .finish outcome now => w.finish config outcome now

/-- Any number of calls, in any interleaving, at any times. -/
def run (events : List Event) : World := events.foldl (step config) {}

/-- The steps of a period in which the breaker is half-open: from the one that makes it so. -/
def Period (log period : List Record) : Prop :=
  period <:+: log ∧ ∀ r ∈ period, r.after.state = .halfOpen

/-- How many functions a period starts, and how many calls come in it. -/
def startedIn (period : List Record) : Nat := period.countP fun r => r.started = some true

def callsIn (period : List Record) : Nat := period.countP fun r => r.started.isSome

/-- No function is started while the breaker is open and its timeout runs. -/
def Late (log : List Record) : Prop :=
  ∀ r ∈ log, r.started = some true → ¬r.before.Waits config r.now ∧ r.after.state ≠ .opened

/-- In a period no more functions are started than may be. -/
def Bounded (log : List Record) : Prop :=
  ∀ period, Period log period → startedIn period ≤ config.halfOpenMaxCalls.toNat

/-! ## What a run has recorded -/

variable {config} {now : ℚ} {b : CircuitBreaker}

theorem probe_halfOpenCalls (none_ : b.halfOpenCalls = 0) : b.probe.halfOpenCalls = 0 := by
  unfold CircuitBreaker.probe
  split
  · rfl
  · exact none_

theorem probe_not_opened (b : CircuitBreaker) : b.probe.state ≠ .opened := by
  unfold CircuitBreaker.probe
  split
  · exact nofun
  · assumption

theorem recordSuccess_halfOpenCalls (none_ : b.halfOpenCalls = 0) :
    (b.recordSuccess config).halfOpenCalls = 0 := by
  unfold CircuitBreaker.recordSuccess
  split
  · split
    · rfl
    · exact none_
  · exact none_
  · exact none_

theorem recordFailure_halfOpenCalls (none_ : b.halfOpenCalls = 0) :
    (b.recordFailure config now).halfOpenCalls = 0 := by
  unfold CircuitBreaker.recordFailure
  split
  · rfl
  · exact none_
  · exact none_

/-- What the head of `call` does with a breaker that has no call counted. -/
theorem enter_cases (none_ : b.halfOpenCalls = 0) :
    (b.Waits config now ∧ (b.enter config now).1.isOk = false ∧ (b.enter config now).2 = b) ∨
    (¬b.Waits config now ∧ (b.enter config now).2 = b.probe ∧
      ((b.enter config now).1.isOk = true ↔
        (b.probe.state = .halfOpen → 0 < config.halfOpenMaxCalls))) := by
  by_cases waits : b.Waits config now
  · left
    rw [CircuitBreaker.enter, if_pos waits]
    exact ⟨waits, rfl, rfl⟩
  · right
    rw [CircuitBreaker.enter, if_neg waits, probe_halfOpenCalls none_]
    by_cases full : b.probe.state = .halfOpen ∧ config.halfOpenMaxCalls ≤ ((0 : Nat) : ℤ)
    · rw [if_pos full]
      refine ⟨waits, rfl, ?_⟩
      have none_left := full.2
      simp only [Except.isOk, Except.toBool, full.1, true_implies, Bool.false_eq_true, false_iff]
      omega
    · rw [if_neg full]
      refine ⟨waits, rfl, ?_⟩
      simp only [Except.isOk, Except.toBool, true_iff]
      intro half
      have some_left : ¬config.halfOpenMaxCalls ≤ ((0 : Nat) : ℤ) := fun le => full ⟨half, le⟩
      omega

/-- The calls of a half-open breaker are never counted. -/
structure Uncounted (config : CircuitBreakerConfig) (w : World) : Prop where
  calls : w.breaker.halfOpenCalls = 0
  late : Late config w.log
  half : ∀ r ∈ w.log, r.after.state = .halfOpen → r.started.isSome = true →
    r.started = some (decide (0 < config.halfOpenMaxCalls))

theorem mem_call_log {w : World} {now : ℚ} {r : Record} (r_in : r ∈ (w.call config now).log) :
    r ∈ w.log ∨ r = ⟨w.breaker, (w.breaker.enter config now).2, now,
      some (w.breaker.enter config now).1.isOk⟩ :=
  (List.mem_append.mp r_in).imp_right List.mem_singleton.mp

theorem call_uncounted {w : World} (h : Uncounted config w) (now : ℚ) :
    Uncounted config (w.call config now) := by
  rcases @enter_cases config now _ h.calls with
    ⟨waits, refused, same⟩ | ⟨free, next, started⟩
  · refine ⟨?_, ?_, ?_⟩
    · change (w.breaker.enter config now).2.halfOpenCalls = 0
      rw [same]
      exact h.calls
    · intro r r_in
      rcases mem_call_log r_in with old | rfl
      · exact h.late r old
      · intro ok
        rw [refused] at ok
        cases ok
    · intro r r_in
      rcases mem_call_log r_in with old | rfl
      · exact h.half r old
      · intro half
        rw [same, waits.1] at half
        exact absurd half (by decide)
  · refine ⟨?_, ?_, ?_⟩
    · change (w.breaker.enter config now).2.halfOpenCalls = 0
      rw [next]
      exact probe_halfOpenCalls h.calls
    · intro r r_in
      rcases mem_call_log r_in with old | rfl
      · exact h.late r old
      · intro _
        refine ⟨free, ?_⟩
        rw [next]
        exact probe_not_opened w.breaker
    · intro r r_in
      rcases mem_call_log r_in with old | rfl
      · exact h.half r old
      · intro half _
        rw [next] at half
        apply congrArg some
        rw [Bool.eq_iff_iff, started, decide_eq_true_iff]
        exact ⟨fun open_ => open_ half, fun some_left _ => some_left⟩

theorem finish_uncounted {w : World} (h : Uncounted config w) (outcome : Outcome) (now : ℚ) :
    Uncounted config (w.finish config outcome now) := by
  unfold World.finish
  by_cases idle : w.inFlight = 0
  · rw [if_pos idle]
    exact h
  · rw [if_neg idle]
    refine ⟨?_, ?_, ?_⟩
    · cases outcome with
      | returned => exact recordSuccess_halfOpenCalls h.calls
      | raised => exact recordFailure_halfOpenCalls h.calls
      | cancelled => exact h.calls
    · intro r r_in
      rcases List.mem_append.mp r_in with old | new
      · exact h.late r old
      · rw [List.mem_singleton.mp new]
        exact nofun
    · intro r r_in
      rcases List.mem_append.mp r_in with old | new
      · exact h.half r old
      · rw [List.mem_singleton.mp new]
        exact fun _ => nofun

theorem foldl_uncounted (events : List Event) {w : World} (h : Uncounted config w) :
    Uncounted config (events.foldl (step config) w) := by
  induction events generalizing w with
  | nil => exact h
  | cons event events ih =>
    apply ih
    cases event with
    | call now => exact call_uncounted h now
    | finish outcome now => exact finish_uncounted h outcome now

theorem run_uncounted (config : CircuitBreakerConfig) (events : List Event) :
    Uncounted config (run config events) :=
  foldl_uncounted events ⟨rfl, fun _ => nofun, fun _ => nofun⟩

/-! ## How many are started in a period -/

variable {w : World} {period : List Record}

/-- A half-open breaker starts every call of a period or none. -/
theorem startedIn_eq (h : Uncounted config w) (half : Period w.log period) :
    startedIn period = if 0 < config.halfOpenMaxCalls then callsIn period else 0 := by
  have calls : ∀ r ∈ period, r.started.isSome = true →
      r.started = some (decide (0 < config.halfOpenMaxCalls)) :=
    fun r r_in => h.half r (half.1.subset r_in) (half.2 r r_in)
  by_cases some_left : 0 < config.halfOpenMaxCalls
  · rw [if_pos some_left]
    apply List.countP_congr
    intro r r_in
    rw [decide_eq_true_iff]
    constructor
    · intro started
      rw [started]
      rfl
    · intro called
      rw [calls r r_in called, decide_eq_true some_left]
  · rw [if_neg some_left, startedIn, List.countP_eq_zero]
    intro r r_in started
    rw [decide_eq_true_iff] at started
    have called := calls r r_in (by rw [started]; rfl)
    rw [started, decide_eq_false some_left] at called
    exact absurd called (by decide)

/-- No function is ever started while the breaker is open and its timeout runs. In a half-open
period no more are started than may be exactly where none may be, or no more calls come than may
be started: a period's calls are not counted. -/
theorem calls_bounded_iff (config : CircuitBreakerConfig) (events : List Event) :
    (Late config (run config events).log ∧ Bounded config (run config events).log) ↔
      config.halfOpenMaxCalls ≤ 0 ∨
        ∀ period, Period (run config events).log period →
          callsIn period ≤ config.halfOpenMaxCalls.toNat := by
  have h := run_uncounted config events
  rw [and_iff_right h.late]
  by_cases some_left : 0 < config.halfOpenMaxCalls
  · rw [or_iff_right (not_le.mpr some_left)]
    apply forall₂_congr
    intro period half
    rw [startedIn_eq h half, if_pos some_left]
  · apply iff_of_true _ (Or.inl (not_lt.mp some_left))
    intro period half
    rw [startedIn_eq h half, if_neg some_left]
    exact Nat.zero_le _

/-- Five functions fail. Half a minute later four calls come at once, and all four are started
where three may be. -/
theorem four_probes : ¬∀ (config : CircuitBreakerConfig) (events : List Event),
    Late config (run config events).log ∧ Bounded config (run config events).log := by
  intro claim
  let fails : List Event := (List.replicate 5 [.call 0, .finish .raised 0]).flatten
  have bounded := (claim {} (fails ++ List.replicate 4 (.call 30))).2
  have few := bounded ((run {} (fails ++ List.replicate 4 (.call 30))).log.drop 10)
    ⟨(List.drop_suffix _ _).isInfix, by decide +kernel⟩
  exact absurd few (by decide +kernel)

end AgentStudio.Patterns
