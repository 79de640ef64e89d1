import AgentStudio.Orchestration.State

/-!
# The nodes of the graph

`OrchestrationService`: each node as a coroutine on the state, the routing
functions, and the compiled graph under its recursion limit. Spans, metrics and
logging are left out.
-/

namespace AgentStudio.Orchestration
open Async Gateway

abbrev Action (σ α : Type) := Coro Calls Raised σ α

/-- `if value:` on an optional string. -/
def truthy (s : Option String) : Bool := (nonEmpty s).isSome

/-- `try: c except Exception: default`. -/
def orDefault {σ α : Type} (c : Action σ α) (default : α) : Action σ α :=
  tryCatch c fun e => if e.isException then pure default else throw e

/-! ## Input and retrieval -/

/-- `_process_input`: a fresh context; what the caller put there is gone. -/
def processInput : Action AgentState Unit := modify fun s => { s with context := {} }

def Doc.citation (doc : Doc) : Citation := ⟨doc.source, doc.documentId, doc.chunkId, doc.score⟩

/-- `_retrieve_context_impl`. -/
def retrieveContext (svc : Service) : Action AgentState Unit := do
  if !svc.hasRetrieval then modify fun s => { s with retrievedDocs := [] }
  else
    let query := (← get).redactedMessage
    match ← orDefault (some <$> Coro.call (I := Calls) (.retrieve query)) none with
    | some result =>
      modify fun s => { s with
        retrievedDocs := result.docs
        citations := result.docs.map Doc.citation
        context := if result.context = "" then s.context
          else { s.context with retrievalContext := some result.context } }
    | none => modify fun s => { s with retrievedDocs := [], citations := [] }

/-! ## Generation -/

/-- The state and the local variables of `_generate_response_impl`. -/
structure GenVars where
  state : AgentState
  compacted : Bool := false
  streamEmitted : Bool := false
  fallbackUsed : Bool := false
  response : Option Result := none

def joinOr (xs : List String) (default : String) : String :=
  Py.orElse (some (", ".intercalate xs)) default

/-- The default text of `_build_system_prompt`. -/
def defaultSystemPrompt (svc : Service) : String :=
  "You are a helpful assistant configured for a specific tenant.\n\nTenant Configuration:\n" ++
  "- Allowed topics: " ++ joinOr svc.allowedTopics "general" ++ "\n" ++
  "- Blocked topics: " ++ joinOr svc.blockedTopics "none" ++ "\n" ++
  "- Default provider: " ++ svc.defaultProvider ++ "\n" ++
  "- Default model: " ++ svc.defaultModel ++ "\n\nGuidelines:\n" ++
  "1. Stay within the allowed topics\n" ++
  "2. If asked about blocked topics, politely decline\n" ++
  "3. If you're unsure about something, acknowledge uncertainty\n" ++
  "4. Do not make up information\n" ++
  "5. Base your answer on the provided context when available\n" ++
  "6. Be consistent with the prior conversation in this session\n"

/-- `_build_system_prompt`. -/
def buildSystemPrompt (svc : Service) : Action GenVars String := do
  if svc.hasPromptResolver then
    let override ← orDefault (Coro.call (I := Calls) .resolvePrompt) none
    pure (Py.orElse override (defaultSystemPrompt svc))
  else pure (defaultSystemPrompt svc)

/-- The memory facts of `_assemble_context`. -/
def retrieveFacts (svc : Service) : Action GenVars (List String) := do
  if svc.hasMemory && svc.memoryFeature then
    let message := (← get).state.redactedMessage
    orDefault (Coro.call (I := Calls) (.memoryFacts message)) []
  else pure []

/-- `_assemble_context`. -/
def assembleContext (svc : Service) (systemPrompt : String) : Action GenVars Assembled := do
  let facts ← retrieveFacts svc
  let s := (← get).state
  Coro.call (I := Calls) (.assemble {
    provider := svc.defaultProvider
    model := svc.model
    systemPrompt := systemPrompt
    currentMessage := s.redactedMessage
    historyTurns := s.conversationHistory
    summary := s.summary
    retrievedDocs := s.retrievedDocs
    memoryFacts := facts
    clearToolPayloads := svc.toolClearFeature })

/-- Ask the compaction hook; whether it produced a checkpoint. -/
def compactWith (assembled : Option Assembled) (overflow : Bool) : Action GenVars Bool := do
  let checkpoint ← Coro.call (I := Calls) (.compact {
    estimatedTokens := assembled.map (·.totalTokens)
    budgetTokens := assembled.map (·.budgetTokens)
    hasSummary := (← get).state.summary.summary.isSome
    overflow := overflow })
  match checkpoint with
  | some summary =>
    modify fun v => { v with state := { v.state with summary := summary } }
    pure true
  | none => pure false

/-- Assembling, with one recovery from a local overflow; `none` goes round again. -/
def assembleOrRecover (svc : Service) (systemPrompt : String) :
    Action GenVars (Option Assembled) :=
  tryCatch (some <$> assembleContext svc systemPrompt) fun e =>
    match e with
    | .contextBudgetExceeded _ => do
      if (← get).compacted || !svc.hasCompaction then throw e
      else
        modify fun v => { v with compacted := true }
        if ← compactWith none true then pure none else throw e
    | e => throw e

/-- The trigger ahead of an overflow; `true` goes round again. -/
def preempt (svc : Service) (assembled : Assembled) : Action GenVars Bool := do
  if svc.hasCompaction && !(← get).compacted &&
      (assembled.totalTokens : ℚ) > assembled.budgetTokens * svc.preemptiveRatio then
    if ← compactWith (some assembled) false then
      modify fun v => { v with compacted := true }
      pure true
    else pure false
  else pure false

/-- `_render_tool_results`. -/
def renderToolResults (results : List ToolResult) : String :=
  "\n\n".intercalate (results.map fun r =>
    "[tool_result tool_use_id=" ++ r.toolUseId.getD "None" ++ " name=" ++ r.name.getD "None" ++
      " status=" ++ (if r.isError then "error" else "ok") ++ "]\n" ++ r.content ++
      "\n[/tool_result]")

/-- The messages of the request: what was assembled, the tool results, the note. -/
def requestMessages (s : AgentState) (assembled : Assembled) : List Message :=
  assembled.messages ++
    (if s.toolResults = [] then []
      else [{ role := "user", content := renderToolResults s.toolResults }]) ++
    match nonEmpty s.verifyNote with
    | some note => [{ role := "user", content := note }]
    | none => []

/-- The `GatewayRequest` of one generation. -/
def buildRequest (svc : Service) (s : AgentState) (assembled : Assembled) (requestId : String) :
    Request where
  tenantId := svc.tenantId
  messages := requestMessages s assembled
  requestId := requestId
  provider := svc.defaultProvider
  model := some svc.model
  strategy := "cost"
  temperature := 7 / 10
  tools := if s.toolBudgetExhausted then [] else svc.tools.getD []
  sessionId := some s.sessionId
  conversationId := s.context.conversationId
  surfaceId := svc.surfaceId
  endUserId := svc.endUserId
  timeoutSeconds := svc.budgets.llmTimeoutSeconds.filter (· ≠ 0)

/-- What `_generate_response_streaming` gathers from the events. -/
structure StreamAcc where
  parts : List String := []
  usage : Usage := []
  toolAcc : List (Nat × ToolEntry) := []
  provider : String := ""
  model : String := ""
  finishReason : Option String := none

/-- One entry of the orchestration's own `tool_acc`. -/
def StreamAcc.update (acc : StreamAcc) (ev : StreamEvent) (args : String) : StreamAcc :=
  let index := ev.index.getD 0
  let old := (acc.toolAcc.lookup index).getD {}
  let entry : ToolEntry := {
    id := Py.orElse ev.id old.id
    name := Py.orElse ev.name old.name
    args := old.args ++ args }
  if (acc.toolAcc.lookup index).isSome then
    { acc with toolAcc := acc.toolAcc.map fun e => if e.1 = index then (index, entry) else e }
  else { acc with toolAcc := acc.toolAcc ++ [(index, entry)] }

/-- `_finalize_stream_tool_calls`. -/
def finalizeStreamToolCalls (svc : Service) (toolAcc : List (Nat × ToolEntry)) :
    Option (List ToolCall) :=
  (toolAcc.insertionSort fun a b => a.1 ≤ b.1).mapM fun (_, entry) =>
    if entry.id = "" ∨ entry.name = "" then none
    else if entry.args = "" then some ⟨entry.id, entry.name, .object "{}"⟩
    else (svc.decodeObject entry.args).map fun json => ⟨entry.id, entry.name, .object json⟩

/-- What an `error` event raises. -/
def streamError (ev : StreamEvent) : Raised :=
  if ev.failureClass = some "chain_exhausted" then
    .chainExhausted (Py.orElse ev.provider "unknown") (Py.orElse ev.model "unknown")
      (Py.orElse ev.error "chain exhausted") .general 0
  else .gatewayError (Py.orElse ev.error "llm stream failed") (Py.orElse ev.failureClass "general")

/-- The `async for` over the gateway's events: text is passed on until a tool call
opens. -/
def forward : List StreamEvent → StreamAcc → Action GenVars StreamAcc
  | [], acc => pure acc
  | ev :: rest, acc => do
    match ev.type with
    | .delta =>
      if acc.toolAcc ≠ [] then forward rest acc
      else
        modify fun v => { v with streamEmitted := true }
        Coro.post (I := Calls) (.delta ev.content)
        forward rest { acc with parts := acc.parts ++ [ev.content] }
    | .toolUseStart => forward rest (acc.update ev "")
    | .toolUseDelta => forward rest (acc.update ev (ev.args.getD ""))
    | .usage =>
      let usage := (ev.usage.getD []).map fun (k, n) => (k, acc.usage.count k + n)
      forward rest { acc with usage := usage }
    | .done =>
      forward rest { acc with
        provider := Py.orElse ev.provider acc.provider
        model := Py.orElse ev.model acc.model
        finishReason := ev.finishReason
        usage := if ev.usage.getD [] = [] then acc.usage else ev.usage.getD [] }
    | .error => throw (streamError ev)
    | .toolUseEnd => forward rest acc

/-- `_generate_response_streaming`. -/
def generateStreaming (svc : Service) (request : Request) : Action GenVars Result := do
  match ← Coro.call (I := Calls) (.stream request) with
  | .coroutine =>
    throw (.exception "'async for' requires an object with __aiter__ method, got coroutine")
  | .events events ending =>
    let acc ← forward events {}
    match ending with
    | some e => throw e
    | none =>
      let result : Result := {
        content := String.join acc.parts
        model := Py.orElse (some acc.model) (request.model.getD "")
        provider := Py.orElse (some acc.provider) request.provider
        usage := acc.usage
        finishReason := acc.finishReason }
      if acc.toolAcc = [] then pure result
      else
        match finalizeStreamToolCalls svc acc.toolAcc with
        | none => throw (.streamToolParse "malformed tool arguments in stream")
        | some calls =>
          pure { result with
            finishReason := some (Py.orElse acc.finishReason "tool_use")
            toolCalls := some calls }

/-- One model call: the stream with its one fallback, or plain `generate`. -/
def callGateway (svc : Service) (request : Request) : Action GenVars Result :=
  if svc.streaming then
    tryCatch (generateStreaming svc request) fun e =>
      match e with
      | .streamToolParse _ => do
        if (← get).fallbackUsed then throw e
        else
          modify fun v => { v with fallbackUsed := true }
          Coro.call (I := Calls) (.generate request)
      | e => throw e
  else Coro.call (I := Calls) (.generate request)

/-- The markers of `_is_provider_overflow`. -/
def overflowMarkers : List String := [
  "maximum context length", "context length exceeded", "context window", "prompt is too long",
  "input is too long", "context_length_exceeded", "maximum tokens", "token limit exceeded"]

def isProviderOverflow (e : Raised) : Bool :=
  overflowMarkers.any (Py.contains (Py.lower e.text))

/-- The model call, with one recovery from a provider overflow before any byte was
sent; `none` goes round again. -/
def callOrRecover (svc : Service) (request : Request) (assembled : Assembled) :
    Action GenVars (Option Result) :=
  tryCatch (some <$> callGateway svc request) fun e => do
    let v ← get
    if e.isException && !v.compacted && !v.streamEmitted && svc.hasCompaction &&
        isProviderOverflow e then
      modify fun v => { v with compacted := true }
      if ← compactWith (some assembled) true then pure none else throw e
    else throw e

/-- The tool calls of a response; a late one in the tool-less generation is dropped. -/
def liveToolCalls (s : AgentState) (response : Result) : List ToolCall :=
  if s.toolBudgetExhausted then [] else response.toolCalls.getD []

/-- What becomes of the tool calls of a response; `none` goes round again, once,
with the tool budget spent. -/
def settleToolCalls (svc : Service) (response : Result) : Action GenVars (Option Unit) := do
  let s := (← get).state
  let calls := liveToolCalls s response
  if calls ≠ [] ∧ (s.toolSteps : ℤ) ≥ svc.budgets.maxToolSteps then
    modify fun v => { v with
      response := some response
      state := { v.state with toolBudgetExhausted := true, toolCalls := [] } }
    pure none
  else
    modify fun v => { v with
      response := some response
      state := { v.state with toolCalls := calls } }
    pure (some ())

/-- The note of a re-ask is consumed by the request it went into. -/
def GenVars.takeNote (v : GenVars) : GenVars :=
  { v with state := { v.state with
    verifyNote := if truthy v.state.verifyNote then none else v.state.verifyNote } }

/-- A pass from the request on. -/
def callModel (svc : Service) (assembled : Assembled) : Action GenVars (Option Unit) := do
  let s := (← get).state
  let requestId ← Coro.call (I := Calls) .uuid4
  modify GenVars.takeNote
  match ← callOrRecover svc (buildRequest svc s assembled requestId) assembled with
  | none => pure none
  | some response => settleToolCalls svc response

/-- One pass of the `while True` of `_generate_response_impl`. -/
def generationRound (svc : Service) (systemPrompt : String) :
    Action GenVars (Option Unit) := do
  match ← assembleOrRecover svc systemPrompt with
  | none => pure none
  | some assembled =>
    if ← preempt svc assembled then pure none
    else callModel svc assembled

/-- One compaction and one spent budget can each send the loop round again. -/
def generationFuel : Nat := 3

def uncertaintyPhrases : List String :=
  ["i'm not sure", "i don't know", "i cannot", "i can't", "unable to"]

/-- `_estimate_confidence`. -/
def estimateConfidence (content : String) : ℚ :=
  if content = "" then 0
  else if uncertaintyPhrases.any (Py.contains (Py.lower content)) then 3 / 10
  else if content.length < 20 then 1 / 2
  else 17 / 20

/-- `_record_usage`. -/
def recordUsage (svc : Service) (response : Result) : Action GenVars Unit := do
  if svc.hasUsageCallback then
    let s := (← get).state
    orDefault (Coro.call (I := Calls) (.usage {
      conversationId := s.context.conversationId
      sessionId := s.sessionId
      provider := Py.orElse (some response.provider) svc.defaultProvider
      model := Py.orElse (some response.model) svc.model
      usage := response.usage })) ()

/-- The `try` block of `_generate_response_impl`. -/
def generationBody (svc : Service) : Action GenVars Unit := do
  let systemPrompt ← buildSystemPrompt svc
  modify fun v => { v with state := { v.state with toolCalls := [] } }
  match ← Coro.iterate (generationRound svc systemPrompt) generationFuel with
  | none => throw .outOfFuel
  | some () =>
    match (← get).response with
    | none => throw .outOfFuel
    | some response =>
      modify fun v => { v with state := { v.state with
        modelResponse := some response.content
        confidence := estimateConfidence response.content } }
      recordUsage svc response

/-- `_generate_response_impl`: gateway errors are raised, others become the state's
error. -/
def generateResponse (svc : Service) : Action AgentState Unit :=
  Coro.zoom (fun s => { state := s }) (·.state)
    (tryCatch (generationBody svc) fun e =>
      if e.isGatewayError then throw e
      else if e.isException then
        modify fun v => { v with state := { v.state with error := some e.text, confidence := 0 } }
      else throw e)

/-! ## Tools -/

/-- Where a gathered `_run_one_tool` stands: at the await named. -/
inductive ToolPhase where
  | use | authorize | execute
  | persist (result : ToolResult)
  | finished
  deriving DecidableEq

/-- The state and the gathered calls of `_execute_tools`. -/
structure ToolVars where
  state : AgentState
  calls : List (ToolCall × ToolPhase)

/-- Where the gathered calls start. -/
def gatherStart (s : AgentState) : ToolVars where
  state := s
  calls := s.toolCalls.map fun c => (c, .use)

/-- The calls that have not finished, by position. -/
def ToolVars.running (v : ToolVars) : List Nat :=
  v.calls.findIdxs fun c => c.2 ≠ .finished

def ToolVars.setPhase (v : ToolVars) (i : Nat) (call : ToolCall) (phase : ToolPhase) : ToolVars :=
  { v with calls := v.calls.set i (call, phase) }

/-- `_emit_tool_part`. -/
def emitToolPart (svc : Service) (part : ToolPart) : Action ToolVars Unit :=
  if svc.hasToolCallback then orDefault (Coro.call (I := Calls) (.toolPart part)) () else pure ()

/-- `_authorize_tool`: no gate allows, a failing gate denies. -/
def authorizeTool (svc : Service) (call : ToolCall) : Action ToolVars Bool :=
  if svc.hasAuthorizer then orDefault (Coro.call (I := Calls) (.authorize call)) false
  else pure true

/-- `result.setdefault("tool_use_id", ...)` and the same for the name. -/
def ToolResult.of (call : ToolCall) (result : ToolResult) : ToolResult :=
  { result with
    toolUseId := some (result.toolUseId.getD call.id)
    name := some (result.name.getD call.name) }

/-- What follows the gate: the refusal, the bad arguments, or the execution. -/
def phaseAfterGate (call : ToolCall) (allowed : Bool) : ToolPhase :=
  if !allowed then
    .persist (.of call { content := "blocked by policy", isError := true, blocked := true })
  else
    match call.arguments with
    | .malformed _ => .persist (.of call { content := "malformed tool arguments", isError := true })
    | .object _ => .execute

/-- `tool_registry.execute`. -/
def executeTool (call : ToolCall) : Action ToolVars ToolResult :=
  match call.arguments with
  | .object arguments => Coro.call (I := Calls) (.executeTool call.name arguments)
  | .malformed raw => Coro.call (I := Calls) (.executeTool call.name raw)

/-- `_run_one_tool` from one await to the next. -/
def runOneTool (svc : Service) (i : Nat) (call : ToolCall) : ToolPhase → Action ToolVars Unit
  | .use => do
    emitToolPart svc (.use call)
    modify fun v => { v.setPhase i call .authorize with
      state := { v.state with toolParts := v.state.toolParts ++ [.use call] } }
  | .authorize => do
    let allowed ← authorizeTool svc call
    modify fun v => v.setPhase i call (phaseAfterGate call allowed)
  | .execute => do
    let result ← executeTool call
    modify fun v => v.setPhase i call (.persist (.of call result))
  | .persist result => do
    emitToolPart svc (.result result)
    modify fun v => { v.setPhase i call .finished with
      state := { v.state with
        toolParts := v.state.toolParts ++ [.result result]
        toolResults := v.state.toolResults ++ [result]
        toolSteps := v.state.toolSteps + 1 } }
  | .finished => pure ()

/-- One turn of the event loop: the environment names the call that goes on. -/
def resumeTool (svc : Service) : Action ToolVars (Option Unit) := do
  let running := (← get).running
  if running = [] then pure (some ())
  else
    let chosen ← Coro.call (I := Calls) (.schedule running)
    let i := if chosen ∈ running then chosen else running.headD 0
    match (← get).calls[i]? with
    | some (call, phase) =>
      runOneTool svc i call phase
      pure none
    | none => pure (some ())

/-- Each call takes at most four steps. -/
def gatherFuel (calls : List ToolCall) : Nat := 4 * calls.length + 1

/-- `asyncio.gather` over the calls. -/
def gatherTools (svc : Service) (calls : List ToolCall) : Action ToolVars Unit := do
  match ← Coro.iterate (resumeTool svc) (gatherFuel calls) with
  | none => throw .outOfFuel
  | some () => pure ()

/-- `_execute_tools`. -/
def executeTools (svc : Service) : Action AgentState Unit := do
  let s ← get
  if s.toolCalls = [] ∨ (s.toolSteps : ℤ) ≥ svc.budgets.maxToolSteps ∨ svc.tools = none then
    modify fun s => { s with toolBudgetExhausted := true, toolCalls := [] }
  else
    Coro.zoom gatherStart ToolVars.state (gatherTools svc s.toolCalls)
    modify fun s => { s with toolCalls := [] }

/-! ## Verification -/

/-- What a check of the output found. -/
inductive Verdict where
  | valid
  | invalid (reason : String)
  deriving DecidableEq

def AgentState.withFaithfulness (s : AgentState) (f : Faithfulness) : AgentState :=
  { s with context := { s.context with faithfulness := some f } }

def Check.faithfulness (check : Check) : Faithfulness :=
  ⟨check.score, check.grounded, check.sourceCount, check.checked⟩

/-- The grounding check of `_validate_output_impl`. -/
def ground (response : String) : Action AgentState Verdict := do
  let docs := (← get).retrievedDocs
  if docs = [] then
    modify (·.withFaithfulness { score := 1, grounded := true, checked := false })
    pure .valid
  else
    let check ← Coro.call (I := Calls) (.faithfulness response docs)
    modify (·.withFaithfulness check.faithfulness)
    if check.checked && !check.grounded then
      pure (.invalid ("low_faithfulness=" ++ check.scoreText))
    else pure .valid

/-- What the validator's answer does to the state. -/
def AgentState.withOutputCheck (s : AgentState) (check : OutputCheck) : AgentState :=
  let s := match nonEmpty check.redactedText with
    | some redacted => { s with
        context := { s.context with outputRaw := s.modelResponse }
        modelResponse := some redacted }
    | none => s
  { s with context := { s.context with
      outputValidation := some ⟨check.allowed, check.decision, check.violations⟩ } }

/-- The full-output gate; a validator that raises allows. -/
def gateOutput (svc : Service) (response : String) : Action AgentState Verdict := do
  if svc.hasValidator then
    match ← orDefault (some <$> Coro.call (I := Calls) (.validate response)) none with
    | some check =>
      modify fun s => s.withOutputCheck check
      pure (if check.allowed then .valid else .invalid "output_moderation_blocked")
    | none => pure .valid
  else pure .valid

/-- Grounding, then the gate. -/
def verify (svc : Service) (response : String) : Action AgentState Verdict := do
  if response = "" then pure (.invalid "empty_response")
  else
    match ← ground response with
    | .valid => gateOutput svc response
    | .invalid reason => pure (.invalid reason)

/-- The corrective instruction of a re-ask. -/
def reaskNote (reason : String) : String :=
  "Your previous reply failed verification (reason: " ++ reason ++ "). " ++
  "Re-answer the user's question faithfully, based on the " ++
  "provided context. Do not repeat the failed reply."

/-- The end of `_validate_output_impl`. -/
def AgentState.verified (s : AgentState) (svc : Service) (response : String) (verdict : Verdict) :
    AgentState :=
  let s := { s with validationResult := some {
    valid := verdict == Verdict.valid
    length := response.length
    hasContent := Py.strip response ≠ "" } }
  match verdict with
  | .valid => { s with verifyRetries := 0 }
  | .invalid reason =>
    let s := { s with verifyRetries := s.verifyRetries + 1 }
    if (s.verifyRetries : ℤ) ≥ svc.budgets.maxVerifyRetries then
      { s with verifyExhausted := true, handoffRequired := true }
    else { s with verifyNote := some (reaskNote reason) }

/-- `_validate_output_impl`. -/
def validateOutput (svc : Service) : Action AgentState Unit := do
  let response := (← get).modelResponse.getD ""
  let verdict ← verify svc response
  modify fun s => s.verified svc response verdict

/-! ## Policy and handoff -/

def AgentState.policyContext (s : AgentState) : PolicyContext where
  response := s.modelResponse
  confidence := s.confidence
  validation := s.validationResult

/-- `_check_policy`. -/
def AgentState.policyChecked (s : AgentState) (svc : Service) : AgentState :=
  let action := svc.policySet.evaluate s.policyContext
  let s := { s with policyAction := action }
  let s :=
    if action = .redact then
      let s := { s with redactAttempts := s.redactAttempts + 1 }
      if (s.redactAttempts : ℤ) ≥ svc.budgets.maxRedactIterations then
        { s with budgetExceeded := true }
      else s
    else s
  if s.confidence < svc.escalationThreshold then { s with handoffRequired := true } else s

def checkPolicy (svc : Service) : Action AgentState Unit := modify (·.policyChecked svc)

/-- The reason text of a handoff. -/
def handoffReason (svc : Service) (s : AgentState) : String :=
  if s.confidence < svc.escalationThreshold then
    "low_confidence=" ++ usd2 s.confidence ++ " (threshold=" ++
      toString svc.escalationThreshold ++ ")"
  else "policy_action=" ++ s.policyAction.name

/-- `_prepare_handoff_impl`. -/
def prepareHandoff (svc : Service) : Action AgentState Unit := do
  modify fun s => { s with handoffRequired := true }
  if svc.hasEscalation then
    let s ← get
    let handoff ← tryCatch
      (Coro.call (I := Calls) (.createHandoff {
        sessionId := s.sessionId
        userMessage := s.redactedMessage
        confidence := s.confidence
        reason := handoffReason svc s
        policyAction := s.policyAction
        history := s.conversationHistory.filter (·.content ≠ "")
        modelResponse := s.modelResponse
        conversationId := s.context.conversationId }))
      fun e => if e.isException then pure { success := false, message := e.text } else throw e
    modify fun s => { s with context := { s.context with handoff := some handoff } }

end AgentStudio.Orchestration
