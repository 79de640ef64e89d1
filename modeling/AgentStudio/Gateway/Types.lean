import AgentStudio.Async.Coro
import AgentStudio.Py.Text

/-!
# Gateway contract types

`gateway/types.py` and the exceptions that cross the gateway's boundary. Money
is an exact rational number of US dollars.
-/

namespace AgentStudio

/-- `_LEVELS`: the budget hierarchy, outermost first. -/
inductive Level where
  | platform | tenant | surface | endUser
  deriving DecidableEq, Repr

def Level.all : List Level := [.platform, .tenant, .surface, .endUser]

def Level.name : Level → String
  | .platform => "platform"
  | .tenant => "tenant"
  | .surface => "surface"
  | .endUser => "end_user"

/-- The fallback classes of `gateway/fallback.py`. -/
inductive FailureClass where
  | general | contentPolicy | contextWindow
  deriving DecidableEq, Repr

def FailureClass.name : FailureClass → String
  | .general => "general"
  | .contentPolicy => "content_policy"
  | .contextWindow => "context_window"

/-- `f"{q:.2f}"`. -/
def usd2 (q : ℚ) : String := Py.fixed2 q

/-- What an await can throw. `cancelled` and `generatorExit` are the two
`BaseException`s that no `except Exception` catches; `outOfFuel` marks a loop
of the model that ran dry and is caught by nothing. -/
inductive Raised where
  | cancelled
  | generatorExit
  | outOfFuel
  | quotaExceeded (level : Level) (limitUsd projectedUsd : ℚ)
  | configuration (message : String)
  | chainExhausted (provider model reason : String) (failureClass : FailureClass) (attempts : Nat)
  | gatewayError (message kind : String)
  | providerCall (failureClass : FailureClass) (provider model cause : String)
  | contextBudgetExceeded (message : String)
  | streamToolParse (message : String)
  | exception (message : String)
  deriving DecidableEq, Repr

namespace Raised

/-- `isinstance(e, Exception)`. -/
def isException : Raised → Bool
  | .cancelled | .generatorExit | .outOfFuel => false
  | _ => true

/-- `isinstance(e, GatewayError)`. -/
def isGatewayError : Raised → Bool
  | .quotaExceeded .. | .configuration _ | .chainExhausted .. | .gatewayError .. => true
  | _ => false

def isQuotaExceeded : Raised → Bool
  | .quotaExceeded .. => true
  | _ => false

/-- `str(e)`. -/
def text : Raised → String
  | .cancelled | .generatorExit | .outOfFuel => ""
  | .quotaExceeded level limitUsd projectedUsd =>
    "quota_exceeded level=" ++ level.name ++ " limit_usd=" ++ usd2 limitUsd ++
      " projected_usd=" ++ usd2 projectedUsd
  | .configuration message => message
  | .chainExhausted provider model reason failureClass attempts =>
    "llm_chain_exhausted provider=" ++ provider ++ " model=" ++ model ++ " class=" ++
      failureClass.name ++ " attempts=" ++ toString attempts ++ ": " ++ reason
  | .gatewayError message _ => message
  | .providerCall failureClass provider model cause =>
    provider ++ ":" ++ model ++ " " ++ failureClass.name ++ ": " ++ cause
  | .contextBudgetExceeded message => message
  | .streamToolParse message => message
  | .exception message => message

end Raised

namespace Gateway

/-- A chat message, as the assembler hands it over. -/
structure Message where
  role : String := "user"
  content : String := ""
  metadata : List (String × String) := []
  deriving DecidableEq, Repr

/-- The JSON text of a tool or output schema. -/
abbrev Schema := String

/-- The arguments of a tool call: a JSON object, or the text that did not decode. -/
inductive Args where
  | object (json : String)
  | malformed (raw : String)
  deriving DecidableEq, Repr

structure ToolCall where
  id : String
  name : String
  arguments : Args
  deriving DecidableEq, Repr

/-- A usage dict: canonical key to token count. -/
abbrev Usage := List (String × ℤ)

/-- `usage.get(key, 0)`. -/
def Usage.count (usage : Usage) (key : String) : ℤ := (usage.lookup key).getD 0

/-- `GatewayRequest`. A structured-output schema of `none` also stands for `{}`. -/
structure Request where
  tenantId : String
  messages : List Message
  requestId : String := ""
  provider : String := "openai"
  model : Option String := none
  strategy : String := "cost"
  temperature : ℚ := 7 / 10
  maxTokens : Option Nat := none
  tools : List Schema := []
  structuredOutput : Option Schema := none
  surfaceId : Option String := none
  endUserId : Option String := none
  conversationId : Option String := none
  sessionId : Option String := none
  tiered : Bool := false
  simpleQuery : Bool := false
  estimatedInputTokens : Option Nat := none
  timeoutSeconds : Option ℚ := none
  pinned : Option String := none

/-- `GatewayResult`. -/
structure Result where
  content : String
  model : String
  provider : String
  usage : Usage := []
  finishReason : Option String := none
  toolCalls : Option (List ToolCall) := none
  routedVia : String := ""
  attempts : Nat := 1
  cached : Bool := false
  deriving DecidableEq, Repr

/-- The `type` of a stream event. -/
inductive EventType where
  | delta | toolUseStart | toolUseDelta | toolUseEnd | usage | done | error
  deriving DecidableEq, Repr

/-- `GatewayStreamEvent`. -/
structure StreamEvent where
  type : EventType
  content : String := ""
  index : Option Nat := none
  id : Option String := none
  name : Option String := none
  args : Option String := none
  arguments : Option Args := none
  usage : Option Usage := none
  finishReason : Option String := none
  error : Option String := none
  failureClass : Option String := none
  provider : Option String := none
  model : Option String := none
  deriving DecidableEq, Repr

/-- A tool call as it builds up in a stream: one entry of a `tool_acc`. -/
structure ToolEntry where
  id : String := ""
  name : String := ""
  args : String := ""
  deriving DecidableEq

/-- The gateway keys of the tenant's config; an absent key has its default. -/
structure Cfg where
  cheapModel : Option String := some "gpt-4o-mini"
  fallbackModels : List String := []
  caching : Bool := true
  promptVersion : String := "v1"
  crossFamilyFallback : Bool := true
  quotaPlatformUsd : Option ℚ := none
  quotaTenantUsd : Option ℚ := none
  quotaSurfaceUsd : Option ℚ := none
  quotaEndUserUsd : Option ℚ := none

/-- The tenant's config as the gateway reads it. -/
structure TenantConfig where
  id : String
  llmTimeoutSeconds : Option ℚ := none

end Gateway

end AgentStudio
