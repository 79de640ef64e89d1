import AgentStudio.Gateway.Router

/-!
# The orchestration service: state and environment

`application/orchestration/service.py` and `domain/policy`: the state that flows
through the graph, the tenant's settings, and the calls that leave the service.
-/

namespace AgentStudio.Orchestration
open Async Gateway

/-! ## Policy -/

inductive PolicyAction where
  | allow | block | escalate | redact
  deriving DecidableEq, Repr

def PolicyAction.name : PolicyAction → String
  | .allow => "ALLOW"
  | .block => "BLOCK"
  | .escalate => "ESCALATE"
  | .redact => "REDACT"

/-- `state["validation_result"]`. -/
structure Validation where
  valid : Bool
  length : Nat
  hasContent : Bool
  deriving DecidableEq

/-- A value a rule's condition compares with; `other` is any value that equals
none of the context's. -/
inductive Value where
  | none
  | text (s : String)
  | number (q : ℚ)
  | validation (v : Option Validation)
  | other (json : String)
  deriving DecidableEq

/-- The context handed to the policy set. -/
structure PolicyContext where
  response : Option String
  confidence : ℚ
  validation : Option Validation

/-- `context.get(key)`. -/
def PolicyContext.get (context : PolicyContext) : String → Value
  | "response" =>
    match context.response with
    | some s => .text s
    | none => .none
  | "confidence" => .number context.confidence
  | "validation" => .validation context.validation
  | _ => .none

structure PolicyRule where
  name : String := ""
  action : PolicyAction := .allow
  conditions : List (String × Value) := []
  priority : ℤ := 0

/-- `PolicyRule.matches`. -/
def PolicyRule.hits (rule : PolicyRule) (context : PolicyContext) : Bool :=
  rule.conditions.all fun c => context.get c.1 = c.2

structure PolicySet where
  rules : List PolicyRule := []

/-- `evaluate_with_results`: the matching rule of highest priority, deny by default. -/
def PolicySet.evaluate (set : PolicySet) (context : PolicyContext) : PolicyAction :=
  let matching := set.rules.filter fun rule => rule.hits context
  match matching.insertionSort fun a b => a.priority ≥ b.priority with
  | [] => .block
  | rule :: _ => rule.action

/-! ## State -/

/-- A retrieved document, with the metadata its citation shows. -/
structure Doc where
  content : String
  score : ℚ := 0
  source : Option String := none
  documentId : Option String := none
  chunkId : Option String := none

structure Citation where
  source : Option String
  documentId : Option String
  chunkId : Option String
  score : ℚ

structure Turn where
  role : String
  content : String
  seq : Option ℤ := none

/-- A compaction checkpoint. -/
structure Summary where
  summary : Option String := none
  position : Option ℤ := none
  layers : Option (List String) := none

structure ToolResult where
  content : String
  isError : Bool := false
  blocked : Bool := false
  toolUseId : Option String := none
  name : Option String := none
  deriving DecidableEq

inductive ToolPart where
  | use (call : ToolCall)
  | result (r : ToolResult)
  deriving DecidableEq

/-- `state["context"]["faithfulness"]`. -/
structure Faithfulness where
  score : ℚ
  grounded : Bool
  sourceCount : Nat := 0
  checked : Bool
  deriving DecidableEq

/-- `state["context"]["output_validation"]`, written only when the validator
answered. -/
structure OutputValidation where
  allowed : Bool
  decision : Option String := none
  violations : List String := []
  deriving DecidableEq

structure HandoffResult where
  success : Bool
  ticketId : Option String := none
  message : String := ""
  deriving DecidableEq

/-- `state["context"]`. -/
structure Context where
  conversationId : Option String := none
  retrievalContext : Option String := none
  faithfulness : Option Faithfulness := none
  outputRaw : Option String := none
  outputValidation : Option OutputValidation := none
  handoff : Option HandoffResult := none

/-- `AgentState`. -/
structure AgentState where
  sessionId : String := ""
  userMessage : String := ""
  redactedMessage : String := ""
  context : Context := {}
  conversationHistory : List Turn := []
  retrievedDocs : List Doc := []
  citations : List Citation := []
  modelResponse : Option String := none
  validationResult : Option Validation := none
  policyAction : PolicyAction := .allow
  confidence : ℚ := 0
  handoffRequired : Bool := false
  redactAttempts : Nat := 0
  budgetExceeded : Bool := false
  summary : Summary := {}
  error : Option String := none
  toolCalls : List ToolCall := []
  toolParts : List ToolPart := []
  toolResults : List ToolResult := []
  toolSteps : Nat := 0
  toolBudgetExhausted : Bool := false
  verifyRetries : Nat := 0
  verifyNote : Option String := none
  verifyExhausted : Bool := false

/-! ## Settings -/

/-- The budgets the graph reads, with their defaults. -/
structure Budgets where
  maxToolSteps : ℤ := 4
  maxVerifyRetries : ℤ := 2
  maxRedactIterations : ℤ := 2
  maxGraphSteps : Nat := 50
  llmTimeoutSeconds : Option ℚ := none

/-- The service with its tenant and its hooks; a hook is there or it is not. -/
structure Service where
  tenantId : String
  defaultProvider : String := "openai"
  defaultModel : String := "gpt-4"
  allowedTopics : List String := []
  blockedTopics : List String := []
  escalationThreshold : ℚ := 7 / 10
  budgets : Budgets := {}
  memoryFeature : Bool := false
  toolClearFeature : Bool := false
  policySet : PolicySet := {}
  gatewayCfg : Cfg := {}
  modelOverride : Option String := none
  surfaceId : Option String := none
  endUserId : Option String := none
  tools : Option (List Schema) := none
  hasRetrieval : Bool := false
  hasEscalation : Bool := false
  hasCompaction : Bool := false
  hasMemory : Bool := false
  hasAuthorizer : Bool := false
  hasToolCallback : Bool := false
  hasUsageCallback : Bool := false
  hasEvidenceCallback : Bool := false
  hasValidator : Bool := false
  hasPromptResolver : Bool := false
  streaming : Bool := false
  preemptiveRatio : ℚ := 7 / 10
  decodeObject : String → Option String := some

/-- `self.model_override or self.tenant_config.default_model`. -/
def Service.model (svc : Service) : String := Py.orElse svc.modelOverride svc.defaultModel

/-! ## The environment -/

structure RetrievalResult where
  docs : List Doc
  context : String := ""

/-- What the context loader is asked to render. -/
structure AssembleArgs where
  provider : String
  model : String
  systemPrompt : String
  currentMessage : String
  historyTurns : List Turn
  summary : Summary
  retrievedDocs : List Doc
  memoryFacts : List String
  clearToolPayloads : Bool

structure Assembled where
  messages : List Message
  totalTokens : Nat := 0
  budgetTokens : Nat := 0

structure CompactArgs where
  estimatedTokens : Option Nat
  budgetTokens : Option Nat
  hasSummary : Bool
  overflow : Bool

/-- What `gateway.stream(...)` is, for `async for`: an asynchronous iterator with
its events and its end, or a coroutine, which cannot be iterated. -/
inductive StreamReply where
  | coroutine
  | events (events : List StreamEvent) (ending : Option Raised)

structure Check where
  score : ℚ
  scoreText : String
  grounded : Bool
  sourceCount : Nat
  checked : Bool

/-- What the output validator returned; a validator that returns nothing allows. -/
structure OutputCheck where
  allowed : Bool := true
  redactedText : Option String := none
  decision : Option String := none
  violations : List String := []

structure HandoffArgs where
  sessionId : String
  userMessage : String
  confidence : ℚ
  reason : String
  policyAction : PolicyAction
  history : List Turn
  modelResponse : Option String
  conversationId : Option String

structure UsageRecord where
  conversationId : Option String
  sessionId : String
  provider : String
  model : String
  usage : Usage

structure Evidence where
  sessionId : String
  decision : PolicyAction
  confidence : ℚ
  handoffRequired : Bool
  redactAttempts : Nat
  hasResponse : Bool

/-- The nodes of the graph. -/
inductive Node where
  | processInput | retrieveContext | generateResponse | executeTools | validateOutput
  | checkPolicy | prepareHandoff
  deriving DecidableEq, Repr

/-- The calls that leave the service. `dispatch` is LangGraph starting a node,
`schedule` the event loop resuming one of the gathered tool calls, `delta` the
stream callback. -/
inductive Op where
  | dispatch (node : Node) (state : AgentState)
  | retrieve (query : String)
  | resolvePrompt
  | memoryFacts (message : String)
  | assemble (args : AssembleArgs)
  | compact (args : CompactArgs)
  | uuid4
  | generate (request : Request)
  | stream (request : Request)
  | delta (chunk : String)
  | usage (record : UsageRecord)
  | schedule (running : List Nat)
  | toolPart (part : ToolPart)
  | authorize (call : ToolCall)
  | executeTool (name : String) (arguments : String)
  | faithfulness (response : String) (docs : List Doc)
  | validate (text : String)
  | createHandoff (args : HandoffArgs)
  | evidence (record : Evidence)

abbrev Calls : Interface where
  Op := Op
  Ans
    | .retrieve _ => RetrievalResult
    | .resolvePrompt => Option String
    | .memoryFacts _ => List String
    | .assemble _ => Assembled
    | .compact _ => Option Summary
    | .uuid4 => String
    | .generate _ => Result
    | .stream _ => StreamReply
    | .schedule _ => Nat
    | .authorize _ => Bool
    | .executeTool .. => ToolResult
    | .faithfulness .. => Check
    | .validate _ => OutputCheck
    | .createHandoff _ => HandoffResult
    | _ => Unit

end AgentStudio.Orchestration
