import AgentStudio.Async.Turns

/-!
# The input guardrails

`modules/guardrails/orchestrator.py` and `infrastructure/patterns/circuit_breaker.py`: a
layer is evaluated through its circuit breaker. Between the orchestrator's look at the
state of the breaker and the start of the evaluation nothing is awaited (the lock of the
breaker is never held over an await), so the two are one step of the store.
-/

namespace AgentStudio.Guardrails

open Async

inductive GuardrailLayer where
  | regexFastpath | classifier | nemoRails | jailbreakScan | guardrailsAi | piiRedaction
  | spotlighting
  deriving DecidableEq, Repr

def GuardrailLayer.name : GuardrailLayer → String
  | regexFastpath => "REGEX_FASTPATH"
  | classifier => "CLASSIFIER"
  | nemoRails => "NEMO_RAILS"
  | jailbreakScan => "JAILBREAK_SCAN"
  | guardrailsAi => "GUARDRAILS_AI"
  | piiRedaction => "PII_REDACTION"
  | spotlighting => "SPOTLIGHTING"

/-! ## The circuit breaker -/

inductive CircuitState where
  | closed | opened | halfOpen
  deriving DecidableEq, Repr

/-- `CircuitBreakerConfig`; `validate` of the module's configuration has refused a threshold
below 1. -/
structure BreakerConfig where
  failureThreshold : Nat := 5
  recoveryTimeout : ℚ := 30
  halfOpenMaxCalls : Nat := 3
  consecutiveSuccessesToClose : Nat := 2
  positive : 1 ≤ failureThreshold := by decide

structure CircuitBreaker where
  state : CircuitState := .closed
  failureCount : Nat := 0
  successCount : Nat := 0
  halfOpenCalls : Nat := 0
  lastFailureTime : ℚ := 0
  deriving DecidableEq

/-- What a request finds at a layer: its breaker is open, or its `call` raises
`CircuitBreakerOpenError`, or the layer is evaluated. -/
inductive Entry where
  | skipped
  | intercepted (until_ : ℚ)
  | evaluated
  deriving DecidableEq

namespace CircuitBreaker

variable (config : BreakerConfig) (now : ℚ) (b : CircuitBreaker)

/-- The head of `call`, under the lock. -/
def enter : Entry × CircuitBreaker :=
  if b.state = .opened ∧ now - b.lastFailureTime < config.recoveryTimeout then
    (.intercepted (b.lastFailureTime + config.recoveryTimeout), b)
  else
    let b := if b.state = .opened then
      { b with state := .halfOpen, halfOpenCalls := 0, successCount := 0 } else b
    if b.state = .halfOpen ∧ config.halfOpenMaxCalls ≤ b.halfOpenCalls then
      (.intercepted (now + 5), b)
    else (.evaluated, b)

/-- `_record_success`. -/
def recordSuccess : CircuitBreaker :=
  match b.state with
  | .halfOpen =>
    if config.consecutiveSuccessesToClose ≤ b.successCount + 1 then
      { b with state := .closed, failureCount := 0, successCount := 0, halfOpenCalls := 0 }
    else { b with successCount := b.successCount + 1 }
  | .closed => { b with failureCount := 0 }
  | .opened => b

/-- `_record_failure`. -/
def recordFailure : CircuitBreaker :=
  let b := { b with lastFailureTime := now }
  match b.state with
  | .halfOpen => { b with state := .opened, halfOpenCalls := 0, successCount := 0 }
  | .closed =>
    if config.failureThreshold ≤ b.failureCount + 1 then
      { b with failureCount := b.failureCount + 1, state := .opened }
    else { b with failureCount := b.failureCount + 1 }
  | .opened => b

/-- The orchestrator looks at the state, and enters the breaker if it is not open. -/
def arrive : Entry × CircuitBreaker :=
  if b.state = .opened then (.skipped, b) else b.enter config now

end CircuitBreaker

/-! ## The orchestrator -/

inductive Raised where
  | timeout
  | cancelled
  | error (message : String)
  deriving DecidableEq

/-- A violation, and whether its severity is HIGH or CRITICAL. -/
structure SafetyViolation where
  high : Bool
  description : String
  deriving DecidableEq

structure SafetyCheckResult where
  passed : Bool
  violations : List SafetyViolation := []
  deriving DecidableEq

inductive GuardrailDecision where
  | allow | block | redirect
  deriving DecidableEq

structure GuardrailEvaluationResult where
  allowed : Bool
  decision : GuardrailDecision
  layerResults : List (GuardrailLayer × SafetyCheckResult) := []
  violations : List SafetyViolation := []
  deriving DecidableEq

/-- `arrive` and the two records are steps of the breaker of the layer; `evaluate` is awaited. -/
inductive Op where
  | arrive (layer : GuardrailLayer)
  | evaluate (layer : GuardrailLayer) (userInput : String)
  | recordSuccess (layer : GuardrailLayer)
  | recordFailure (layer : GuardrailLayer)

abbrev Calls : Interface where
  Op := Op
  Ans
    | .arrive _ => Entry
    | .evaluate _ _ => SafetyCheckResult
    | _ => Unit

structure Orchestrator where
  breaker : BreakerConfig := {}
  engines : List GuardrailLayer
  failOpenOnError : Bool := false

namespace Orchestrator

/-- `_layer_order`. -/
def layerOrder : List GuardrailLayer := [.regexFastpath, .classifier, .jailbreakScan, .nemoRails]

/-- Without violations the decision is to allow. -/
def allow : GuardrailEvaluationResult := { allowed := true, decision := .allow }

section

variable {σ : Type} (orchestrator : Orchestrator)

/-- A layer that gives no result is passed over, or blocks. -/
def without (description : String) : GuardrailEvaluationResult :=
  if orchestrator.failOpenOnError then allow
  else { allowed := false, decision := .block, violations := [⟨true, description⟩] }

/-- `call` past its head; a cancellation is no `Exception`. -/
def guarded (layer : GuardrailLayer) (userInput : String) : Coro Calls Raised σ SafetyCheckResult :=
  tryCatch
    (do
      let result ← Coro.call (I := Calls) (.evaluate layer userInput)
      Coro.call (I := Calls) (.recordSuccess layer)
      pure result)
    fun
    | .cancelled => throw .cancelled
    | e => do
      Coro.call (I := Calls) (.recordFailure layer)
      throw e

/-- `_evaluate_layer_safe`; every engine has a breaker. -/
def evaluateLayerSafe (layer : GuardrailLayer) (userInput : String) :
    Coro Calls Raised σ GuardrailEvaluationResult := do
  if layer ∈ orchestrator.engines then
    match ← Coro.call (I := Calls) (.arrive layer) with
    | .skipped =>
      pure (orchestrator.without ("Guardrail layer " ++ layer.name ++ " unavailable"))
    | .intercepted _ =>
      pure (orchestrator.without ("Circuit breaker '" ++ layer.name ++ "' is open"))
    | .evaluated =>
      tryCatch
        (do
          let check ← guarded layer userInput
          if check.passed then pure { allow with layerResults := [(layer, check)] }
          else pure {
            allowed := false, decision := .block, layerResults := [(layer, check)]
            violations := check.violations })
        fun
        | .timeout => pure (orchestrator.without ("Layer " ++ layer.name ++ " timed out"))
        | .cancelled => throw .cancelled
        | e => if orchestrator.failOpenOnError then pure allow else throw e
  else pure allow

/-- The end of `_run_input_pipeline`. -/
def conclude (violations : List SafetyViolation)
    (layerResults : List (GuardrailLayer × SafetyCheckResult)) : GuardrailEvaluationResult where
  allowed := violations.isEmpty
  decision := if violations = [] then .allow
    else if violations.any SafetyViolation.high then .block else .redirect
  layerResults := layerResults
  violations := violations

/-- The loop of `_run_input_pipeline`, without `parallel_layer_execution`. -/
def runLayers (userInput : String) : List GuardrailLayer → List SafetyViolation →
    List (GuardrailLayer × SafetyCheckResult) → Coro Calls Raised σ GuardrailEvaluationResult
  | [], violations, layerResults => pure (conclude violations layerResults)
  | layer :: layers, violations, layerResults => do
    if layer ∈ orchestrator.engines then
      let outcome ← orchestrator.evaluateLayerSafe layer userInput
      let violations := violations ++ outcome.violations
      let layerResults := layerResults ++ outcome.layerResults
      if !outcome.allowed ∧ outcome.decision = .block then pure (conclude violations layerResults)
      else runLayers userInput layers violations layerResults
    else runLayers userInput layers violations layerResults

end

/-- A request that takes the layers in turn, or one of the tasks that `gather` starts for a
request with `parallel_layer_execution`. -/
inductive Call where
  | input (userInput : String)
  | layer (layer : GuardrailLayer) (userInput : String)

variable (orchestrator : Orchestrator)

/-- A call of an orchestrator. -/
def body : Call → Tree Calls Raised (Except Raised GuardrailEvaluationResult × Unit)
  | .input userInput => orchestrator.runLayers userInput layerOrder [] [] ()
  | .layer layer userInput => orchestrator.evaluateLayerSafe layer userInput ()

end Orchestrator

/-! ## Runs -/

/-- For the record: when a request came to a layer, and whether the layer was evaluated; and
which evaluations were counted as successes and failures. -/
inductive Record where
  | arrived (layer : GuardrailLayer) (now : ℚ) (evaluated : Bool)
  | succeeded (layer : GuardrailLayer)
  | failed (layer : GuardrailLayer) (now : ℚ)
  deriving DecidableEq

structure Store where
  breakers : GuardrailLayer → CircuitBreaker := fun _ => {}
  now : ℚ := 0
  log : List Record := []

namespace Store

variable (s : Store) (config : BreakerConfig) (layer : GuardrailLayer)

def put (b : CircuitBreaker) (record : Record) : Store :=
  { s with breakers := Function.update s.breakers layer b, log := s.log ++ [record] }

def arrive : Entry × Store :=
  let (entry, b) := (s.breakers layer).arrive config s.now
  (entry, s.put layer b (.arrived layer s.now (entry = .evaluated)))

def recordSuccess : Store := s.put layer ((s.breakers layer).recordSuccess config) (.succeeded layer)

def recordFailure : Store :=
  s.put layer ((s.breakers layer).recordFailure config s.now) (.failed layer s.now)

end Store

/-- How a call is answered; an engine may answer anything, or raise. -/
inductive Answer (config : BreakerConfig) (i : Nat) (call : Orchestrator.Call) :
    (op : Op) → Store → Except Raised (Calls.Ans op) → Store → Prop
  | arrive (layer : GuardrailLayer) (s : Store) :
      Answer config i call (.arrive layer) s (.ok (s.arrive config layer).1)
        (s.arrive config layer).2
  | evaluate (layer : GuardrailLayer) (userInput : String) (s : Store)
      (r : Except Raised SafetyCheckResult) : Answer config i call (.evaluate layer userInput) s r s
  | recordSuccess (layer : GuardrailLayer) (s : Store) :
      Answer config i call (.recordSuccess layer) s (.ok ()) (s.recordSuccess config layer)
  | recordFailure (layer : GuardrailLayer) (s : Store) :
      Answer config i call (.recordFailure layer) s (.ok ()) (s.recordFailure config layer)

/-- Time goes on. -/
def Passes (s s' : Store) : Prop := ∃ now, s.now ≤ now ∧ s' = { s with now := now }

abbrev World := Pool Orchestrator.Call Calls Raised
  (Except Raised GuardrailEvaluationResult × Unit) Store

/-- The runs of any number of requests. -/
def Orchestrator.Reachable (orchestrator : Orchestrator) (w : World) : Prop :=
  Pool.Turns (Answer orchestrator.breaker) Passes orchestrator.body ⟨{}, []⟩ w

end AgentStudio.Guardrails
