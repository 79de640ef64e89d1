import AgentStudio.Async.Eval
import AgentStudio.Guardrails.Orchestrator

/-!
# The verdict of the input pipeline

`_run_input_pipeline` in its two modes, when every layer that is evaluated answers with a check:

* `evaluateLayerSafe_checked`: what a layer reports of its check;
* `runInputPipeline_parallel`, `runInputPipeline_sequential`: the verdict is drawn from the
  violations of the layers that failed, all of them or the first;
* `verdict_iff`: when that is the verdict of the layers.
-/

namespace AgentStudio.Guardrails.Orchestrator

open Async

variable (orchestrator : Orchestrator)

/-- The layers that a request goes through. -/
def layers : List GuardrailLayer := layerOrder.filter (· ∈ orchestrator.engines)

/-- What `gather` gave is taken up in the order of the layers. The `raise` is in no handler, and
a cancellation is no `Exception`. -/
def collect : List (Except Raised GuardrailEvaluationResult) → List SafetyViolation →
    List (GuardrailLayer × SafetyCheckResult) → Except Raised GuardrailEvaluationResult
  | [], violations, layerResults => .ok (conclude violations layerResults)
  | .ok outcome :: completed, violations, layerResults =>
    collect completed (violations ++ outcome.violations) (layerResults ++ outcome.layerResults)
  | .error .cancelled :: completed, violations, layerResults =>
    collect completed violations layerResults
  | .error _ :: completed, violations, layerResults =>
    if orchestrator.failOpenOnError then collect completed violations layerResults
    else .error (.error "No active exception to reraise")

/-- `_run_input_pipeline`, its calls answered by `env`; with `parallel_layer_execution` the layers
are evaluated each in a task of its own. -/
def runInputPipeline (parallelLayerExecution : Bool) (userInput : String)
    (env : (op : Op) → Except Raised (Calls.Ans op)) : Except Raised GuardrailEvaluationResult :=
  if parallelLayerExecution then
    orchestrator.collect (orchestrator.layers.map fun layer =>
      ((orchestrator.evaluateLayerSafe layer userInput).outcomeWith env ()).1) [] []
  else ((orchestrator.runLayers userInput layerOrder [] []).outcomeWith env ()).1

/-! ## With a check from every layer -/

/-- Every breaker lets the request through, and the engine of each layer gives its check. -/
def checked (checks : GuardrailLayer → SafetyCheckResult) :
    (op : Op) → Except Raised (Calls.Ans op)
  | .arrive _ => .ok .evaluated
  | .evaluate layer _ => .ok (checks layer)
  | .recordSuccess _ => .ok ()
  | .recordFailure _ => .ok ()

/-- What `_evaluate_layer_safe` makes of a check. -/
def report (layer : GuardrailLayer) (check : SafetyCheckResult) : GuardrailEvaluationResult :=
  if check.passed then { allow with layerResults := [(layer, check)] }
  else {
    allowed := false, decision := .block, layerResults := [(layer, check)]
    violations := check.violations }

variable (checks : GuardrailLayer → SafetyCheckResult)

/-- The layers whose check failed. -/
def failing (layers : List GuardrailLayer) : List GuardrailLayer :=
  layers.filter fun layer => !(checks layer).passed

def violationsOf (layers : List GuardrailLayer) : List SafetyViolation :=
  layers.flatMap fun layer => (checks layer).violations

variable {orchestrator checks} {userInput : String}

variable (checks) in
/-- How a coroutine ends with these checks. -/
def Ends {α : Type} (c : Coro Calls Raised Unit α) (result : α) : Prop :=
  c.Shows (checked checks) (fun _ => (none : Option Unit)) () [] (.ok result) ()

theorem guarded_checked (layer : GuardrailLayer) :
    Ends checks (guarded layer userInput) (checks layer) :=
  .tryCatch_ok (.quiet_bind (.unseen rfl rfl) (.quiet_bind (.unseen rfl rfl) (.pure _)))

theorem evaluateLayerSafe_checked {layer : GuardrailLayer} (here : layer ∈ orchestrator.engines) :
    Ends checks (orchestrator.evaluateLayerSafe layer userInput)
      (report layer (checks layer)) := by
  unfold evaluateLayerSafe
  rw [if_pos here]
  apply Coro.Shows.quiet_bind (.unseen rfl rfl)
  apply Coro.Shows.tryCatch_ok
  apply Coro.Shows.quiet_bind (guarded_checked layer)
  unfold report
  split
  · exact .pure _
  · exact .pure _

theorem report_violations (layer : GuardrailLayer) (check : SafetyCheckResult) :
    (report layer check).violations = if check.passed then [] else check.violations := by
  unfold report
  split <;> rfl

/-- A layer stops the others exactly if its check failed. -/
theorem report_stops (layer : GuardrailLayer) (check : SafetyCheckResult) :
    (!(report layer check).allowed ∧ (report layer check).decision = .block) ↔
      check.passed = false := by
  unfold report allow
  cases check.passed with
  | true => exact iff_of_false (fun stops => Bool.false_ne_true stops.1) Bool.noConfusion
  | false => exact iff_of_true ⟨rfl, rfl⟩ rfl

theorem failing_cons_passed {layer : GuardrailLayer} (passed : (checks layer).passed = true)
    (rest : List GuardrailLayer) : failing checks (layer :: rest) = failing checks rest := by
  unfold failing
  rw [List.filter_cons_of_neg]
  rw [passed]
  decide

theorem failing_cons_failed {layer : GuardrailLayer} (failed : (checks layer).passed = false)
    (rest : List GuardrailLayer) :
    failing checks (layer :: rest) = layer :: failing checks rest := by
  unfold failing
  rw [List.filter_cons_of_pos]
  rw [failed]
  rfl

/-- The loop gives the violations of the first layer that fails. -/
theorem runLayers_checked (order : List GuardrailLayer) (violations : List SafetyViolation)
    (layerResults : List (GuardrailLayer × SafetyCheckResult)) :
    ∃ results, Ends checks
      (orchestrator.runLayers userInput order violations layerResults)
      (conclude (violations ++ violationsOf checks
        ((failing checks (order.filter (· ∈ orchestrator.engines))).take 1)) results) := by
  induction order generalizing violations layerResults with
  | nil =>
    refine ⟨layerResults, ?_⟩
    rw [List.filter_nil, failing, List.filter_nil, violationsOf, List.take_nil, List.flatMap_nil,
      List.append_nil]
    exact .pure _
  | cons layer order ih =>
    by_cases here : layer ∈ orchestrator.engines
    · rw [List.filter_cons_of_pos (by exact decide_eq_true here)]
      have evaluated := @evaluateLayerSafe_checked orchestrator checks userInput layer here
      cases passed : (checks layer).passed with
      | true =>
        obtain ⟨results, rest⟩ :=
          ih violations (layerResults ++ (report layer (checks layer)).layerResults)
        refine ⟨results, ?_⟩
        rw [failing_cons_passed passed, runLayers, if_pos here]
        apply Coro.Shows.quiet_bind evaluated
        have goes_on := (report_stops layer (checks layer)).not.mpr (by rw [passed]; decide)
        rw [if_neg goes_on, report_violations, passed, if_pos rfl, List.append_nil]
        exact rest
      | false =>
        refine ⟨layerResults ++ (report layer (checks layer)).layerResults, ?_⟩
        rw [failing_cons_failed passed, runLayers, if_pos here]
        apply Coro.Shows.quiet_bind evaluated
        rw [if_pos ((report_stops _ _).mpr passed), report_violations, passed,
          if_neg Bool.false_ne_true]
        rw [List.take_succ_cons, List.take_zero, violationsOf, List.flatMap_singleton]
        exact .pure _
    · rw [List.filter_cons_of_neg (by rwa [decide_eq_true_iff])]
      obtain ⟨results, rest⟩ := ih violations layerResults
      refine ⟨results, ?_⟩
      rw [runLayers, if_neg here]
      exact rest

/-- The tasks give the violations of every layer that fails. -/
theorem collect_checked (layers : List GuardrailLayer) (violations : List SafetyViolation)
    (layerResults : List (GuardrailLayer × SafetyCheckResult)) :
    ∃ results, orchestrator.collect
      (layers.map fun layer => .ok (report layer (checks layer))) violations layerResults =
      .ok (conclude (violations ++ violationsOf checks (failing checks layers)) results) := by
  induction layers generalizing violations layerResults with
  | nil =>
    refine ⟨layerResults, ?_⟩
    rw [failing, List.filter_nil, violationsOf, List.flatMap_nil, List.append_nil]
    rfl
  | cons layer layers ih =>
    obtain ⟨results, rest⟩ := ih (violations ++ (report layer (checks layer)).violations)
      (layerResults ++ (report layer (checks layer)).layerResults)
    refine ⟨results, ?_⟩
    rw [List.map_cons, collect, rest, report_violations]
    cases passed : (checks layer).passed with
    | true => rw [failing_cons_passed passed, if_pos rfl, List.append_nil]
    | false =>
      rw [failing_cons_failed passed, if_neg (by decide), violationsOf, violationsOf,
        List.flatMap_cons, List.append_assoc]

theorem runInputPipeline_parallel :
    ∃ results, orchestrator.runInputPipeline true userInput (checked checks) =
      .ok (conclude (violationsOf checks (failing checks orchestrator.layers)) results) := by
  obtain ⟨results, collected⟩ := @collect_checked orchestrator checks orchestrator.layers [] []
  refine ⟨results, ?_⟩
  rw [List.nil_append] at collected
  rw [runInputPipeline, if_pos rfl, ← collected]
  congr 1
  apply List.map_congr_left
  intro layer layer_in
  have here := of_decide_eq_true (List.mem_filter.mp layer_in).2
  exact congrArg Prod.fst (evaluateLayerSafe_checked here).2

theorem runInputPipeline_sequential :
    ∃ results, orchestrator.runInputPipeline false userInput (checked checks) =
      .ok (conclude (violationsOf checks ((failing checks orchestrator.layers).take 1))
        results) := by
  obtain ⟨results, ran⟩ := @runLayers_checked orchestrator checks userInput layerOrder [] []
  refine ⟨results, ?_⟩
  rw [List.nil_append] at ran
  rw [runInputPipeline, if_neg (by decide)]
  exact congrArg Prod.fst ran.2

/-! ## The verdict -/

/-- Every layer passed. -/
def Passed (orchestrator : Orchestrator) (checks : GuardrailLayer → SafetyCheckResult) : Prop :=
  ∀ layer ∈ orchestrator.layers, (checks layer).passed = true

/-- In both modes a request is allowed exactly if every layer passed, and the two agree. -/
def Verdict (orchestrator : Orchestrator) (userInput : String)
    (checks : GuardrailLayer → SafetyCheckResult) : Prop :=
  ∃ parallel sequential,
    orchestrator.runInputPipeline true userInput (checked checks) = .ok parallel ∧
    orchestrator.runInputPipeline false userInput (checked checks) = .ok sequential ∧
    (parallel.allowed = true ↔ Passed orchestrator checks) ∧
    (sequential.allowed = true ↔ Passed orchestrator checks) ∧
    parallel.allowed = sequential.allowed ∧ parallel.decision = sequential.decision

/-- The first layer that fails has a violation, and a high one if a later one has. -/
def FirstTells (checks : GuardrailLayer → SafetyCheckResult) : List GuardrailLayer → Prop
  | [] => True
  | first :: rest => (checks first).violations ≠ [] ∧
    ((violationsOf checks rest).any SafetyViolation.high = true →
      (checks first).violations.any SafetyViolation.high = true)

theorem failing_eq_nil : failing checks orchestrator.layers = [] ↔ Passed orchestrator checks := by
  unfold failing Passed
  rw [List.filter_eq_nil_iff]
  apply forall₂_congr
  intro layer _
  cases (checks layer).passed <;> decide

theorem conclude_allowed {violations : List SafetyViolation}
    {results : List (GuardrailLayer × SafetyCheckResult)} :
    (conclude violations results).allowed = true ↔ violations = [] := List.isEmpty_iff

theorem conclude_decision {violations : List SafetyViolation}
    {results : List (GuardrailLayer × SafetyCheckResult)} (some_ : violations ≠ []) :
    (conclude violations results).decision =
      if violations.any SafetyViolation.high then .block else .redirect := if_neg some_

/-- Two verdicts with violations decide alike if both have a high one or neither. -/
theorem conclude_decision_eq {violations violations' : List SafetyViolation}
    {results results' : List (GuardrailLayer × SafetyCheckResult)} (some_ : violations ≠ [])
    (some' : violations' ≠ []) :
    (conclude violations results).decision = (conclude violations' results').decision ↔
      violations.any SafetyViolation.high = violations'.any SafetyViolation.high := by
  rw [conclude_decision some_, conclude_decision some']
  cases violations.any SafetyViolation.high <;> cases violations'.any SafetyViolation.high <;>
    decide

/-- The pipeline gives the verdict of the layers, and gives it in both modes, exactly if every
layer passes or the first that fails names a violation, and a high one if a later one does. -/
theorem verdict_iff (orchestrator : Orchestrator) (userInput : String)
    (checks : GuardrailLayer → SafetyCheckResult) :
    Verdict orchestrator userInput checks ↔
      FirstTells checks (failing checks orchestrator.layers) := by
  obtain ⟨results, whole⟩ := @runInputPipeline_parallel orchestrator checks userInput
  obtain ⟨results', first_⟩ := @runInputPipeline_sequential orchestrator checks userInput
  unfold Verdict
  rw [whole, first_, ← failing_eq_nil]
  generalize failing checks orchestrator.layers = layers
  cases layers with
  | nil =>
    apply iff_of_true _ trivial
    exact ⟨_, _, rfl, rfl, iff_of_true rfl rfl, iff_of_true rfl rfl, rfl, rfl⟩
  | cons layer rest =>
    have all : violationsOf checks (layer :: rest) =
        (checks layer).violations ++ violationsOf checks rest := List.flatMap_cons
    have one : violationsOf checks ((layer :: rest).take 1) = (checks layer).violations :=
      List.flatMap_singleton _ _
    rw [all, one]
    constructor
    · rintro ⟨parallel, sequential, ⟨⟩, ⟨⟩, -, sequential_allowed, -, same⟩
      rw [conclude_allowed, iff_false_right (List.cons_ne_nil _ _)] at sequential_allowed
      refine ⟨sequential_allowed, fun later => ?_⟩
      rw [conclude_decision_eq (List.append_ne_nil_of_left_ne_nil sequential_allowed _)
        sequential_allowed, List.any_append, later, Bool.or_true] at same
      exact same.symm
    · rintro ⟨told, high⟩
      have told_all := List.append_ne_nil_of_left_ne_nil told (violationsOf checks rest)
      refine ⟨_, _, rfl, rfl, ?_, ?_, ?_, ?_⟩
      · rw [conclude_allowed]
        exact iff_of_false told_all (List.cons_ne_nil _ _)
      · rw [conclude_allowed]
        exact iff_of_false told (List.cons_ne_nil _ _)
      · rw [Bool.eq_iff_iff, conclude_allowed, conclude_allowed]
        exact iff_of_false told_all told
      · rw [conclude_decision_eq told_all told, List.any_append]
        cases later : (violationsOf checks rest).any SafetyViolation.high with
        | true => rw [high later, Bool.or_true]
        | false => exact Bool.or_false _

/-- A layer that fails and names no violation lets the request through. -/
theorem failure_unnamed : ¬∀ (orchestrator : Orchestrator) (userInput : String)
    (checks : GuardrailLayer → SafetyCheckResult), Verdict orchestrator userInput checks := by
  intro claim
  have told := (claim { engines := [.classifier] } "" fun _ => { passed := false })
  obtain ⟨parallel, _, ran, _, allowed, _⟩ := told
  cases ran
  exact absurd (allowed.mp rfl .classifier (by decide)) Bool.false_ne_true

end AgentStudio.Guardrails.Orchestrator
