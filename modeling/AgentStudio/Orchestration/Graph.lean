import AgentStudio.Orchestration.Nodes

/-!
# The graph, the turn, and what the route releases

The compiled LangGraph: nodes follow the declared edges, one `dispatch` a visit,
at most as many visits as the recursion limit. Over it the two entry points of
the service, and the part of `process_conversation` that picks the text to
release.
-/

namespace AgentStudio.Orchestration
open Async Gateway

/-! ## Routing -/

/-- `_route_after_generate`. -/
def routeAfterGenerate (s : AgentState) : Node :=
  if s.toolCalls ≠ [] then .executeTools else .validateOutput

/-- `_route_after_validate`. -/
def routeAfterValidate (s : AgentState) : Node :=
  if (s.validationResult.map (·.valid)).getD true then .checkPolicy
  else if s.verifyExhausted then .prepareHandoff
  else .generateResponse

/-- The exits of `_route_after_policy`. -/
inductive PolicyExit where
  | allow | block | escalate | redact
  deriving DecidableEq

/-- `_route_after_policy`. -/
def routeAfterPolicy (svc : Service) (s : AgentState) : PolicyExit :=
  if s.budgetExceeded then .allow
  else
    match s.policyAction with
    | .block => .block
    | .escalate => .escalate
    | .redact => if (s.redactAttempts : ℤ) ≥ svc.budgets.maxRedactIterations then .allow else .redact
    | .allow => if s.handoffRequired then .escalate else .allow

/-- The edges of `_build_graph`; `none` is `END`. -/
def nextNode (svc : Service) (s : AgentState) : Node → Option Node
  | .processInput => some .retrieveContext
  | .retrieveContext => some .generateResponse
  | .generateResponse => some (routeAfterGenerate s)
  | .executeTools => some .generateResponse
  | .validateOutput => some (routeAfterValidate s)
  | .checkPolicy =>
    match routeAfterPolicy svc s with
    | .allow => none
    | .block | .escalate => some .prepareHandoff
    | .redact => some .generateResponse
  | .prepareHandoff => none

/-! ## Running the graph -/

def runNode (svc : Service) : Node → Action AgentState Unit
  | .processInput => processInput
  | .retrieveContext => retrieveContext svc
  | .generateResponse => generateResponse svc
  | .executeTools => executeTools svc
  | .validateOutput => validateOutput svc
  | .checkPolicy => checkPolicy svc
  | .prepareHandoff => prepareHandoff svc

/-- The graph from a node on, for so many visits; `false` when they were not enough. -/
def walk (svc : Service) : Nat → Node → Action AgentState Bool
  | 0, _ => pure false
  | n + 1, node => do
    Coro.call (I := Calls) (.dispatch node (← get))
    runNode svc node
    match nextNode svc (← get) node with
    | none => pure true
    | some node' => walk svc n node'

/-- `graph.ainvoke` under its recursion limit. -/
def ainvoke (svc : Service) : Action AgentState Unit := do
  if ← walk svc svc.budgets.maxGraphSteps .processInput then pure ()
  else throw (.exception ("Recursion limit of " ++ toString svc.budgets.maxGraphSteps ++
    " reached without hitting a stop condition."))

/-- The arguments of `process_message`. -/
structure TurnInput where
  userMessage : String := ""
  redactedMessage : String := ""
  sessionId : String := ""
  conversationHistory : List Turn := []
  context : Context := {}
  summary : Summary := {}

def TurnInput.state (input : TurnInput) : AgentState where
  sessionId := input.sessionId
  userMessage := input.userMessage
  redactedMessage := input.redactedMessage
  context := input.context
  conversationHistory := input.conversationHistory
  summary := input.summary

/-- `_emit_decision_evidence`. -/
def emitDecisionEvidence (svc : Service) (s : AgentState) : Action AgentState Unit :=
  if svc.hasEvidenceCallback then
    orDefault (Coro.call (I := Calls) (.evidence {
      sessionId := s.sessionId
      decision := s.policyAction
      confidence := s.confidence
      handoffRequired := s.handoffRequired
      redactAttempts := s.redactAttempts
      hasResponse := s.modelResponse.isSome })) ()
  else pure ()

/-- The body of `process_message`, on the initial state. -/
def graphTurn (svc : Service) : Action AgentState AgentState := do
  ainvoke svc
  let result ← get
  emitDecisionEvidence svc result
  pure result

/-- `process_message`. -/
def processMessage (svc : Service) (input : TurnInput) : Action Unit AgentState :=
  Coro.scope (graphTurn svc) input.state

/-! ## The non-streaming route -/

def withheldNotice : String := "[content withheld by compliance]"

/-- The texts `process_conversation` returns and stores. -/
structure Released where
  responseText : String
  responseRaw : String
  handoffRequired : Bool
  deriving DecidableEq

/-- `output_blocked`. -/
def AgentState.outputBlocked (s : AgentState) : Bool :=
  match s.context.outputValidation with
  | some v => !v.allowed
  | none => false

/-- What the route makes of the final state; `none` is the HTTP 500 of a turn that
ended in an error. -/
def release (s : AgentState) : Option Released :=
  if truthy s.error then none
  else if s.outputBlocked && s.handoffRequired then
    some ⟨withheldNotice, withheldNotice, s.handoffRequired⟩
  else
    let text := s.modelResponse.getD ""
    some ⟨text, Py.orElse s.context.outputRaw text, s.handoffRequired⟩

/-! ## The streaming turn -/

/-- The last event of `stream_message`. -/
inductive StreamEnd where
  | error (text : String)
  | result (response : String) (final : AgentState)

def streamEnd (s : AgentState) : StreamEnd :=
  match nonEmpty s.error with
  | some text => .error text
  | none => .result (s.modelResponse.getD "") s

/-- `stream_message` after its deltas: an exception of the graph becomes an error
event. The service has a stream callback for the turn. -/
def streamMessage (svc : Service) (input : TurnInput) : Action Unit StreamEnd := do
  let result ← tryCatch (processMessage { svc with streaming := true } input) fun e =>
    if e.isException then pure { input.state with context := {}, error := some e.text }
    else throw e
  pure (streamEnd result)

/-- The delta events `stream_message` yields: what the callback queued, in order. -/
def deltas : Trace Calls Raised → List String
  | [] => []
  | ⟨.delta chunk, _⟩ :: rest => chunk :: deltas rest
  | _ :: rest => deltas rest

end AgentStudio.Orchestration
