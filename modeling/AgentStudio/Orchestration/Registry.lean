import AgentStudio.Async.Handle
import AgentStudio.Orchestration.Effects

/-!
# The tool registry

`application/tools/registry.py`: a call's arguments are checked against the tool's
JSON schema, and what its executor returns or raises becomes a result. The schemas
are read by the `jsonschema` package.
-/

namespace AgentStudio.Orchestration
open Async Gateway

/-! ## Further down -/

/-- `build_tool_gate_packet`, without the digest of the tool's name. -/
structure ToolGatePacket where
  tenantId : String
  sessionId : String
  conversationId : Option String
  toolName : String
  reason : String
  surfaceId : String

/-- What an executor returns: a dict, or anything else, of which the text is kept. -/
inductive Outcome where
  | dict (result : ToolResult)
  | other (text : String)

/-- The calls below the service: its own, the denials stored as evidence, and the
executors started. -/
inductive WireOp where
  | service (op : Op)
  | addEvidence (packet : ToolGatePacket)
  | tool (name arguments : String)

def WireOp.isEvidence : WireOp → Bool
  | .addEvidence _ => true
  | _ => false

abbrev Wire : Interface where
  Op := WireOp
  Ans
    | .service op => Calls.Ans op
    | .addEvidence _ => Unit
    | .tool .. => Outcome

abbrev WireRun := Trace Wire Raised

/-! ## Schemas -/

/-- A tool's `parameters`. Of a JSON object it matters first whether it names any
properties. -/
inductive Parameters where
  | absent
  | object (json : String) (properties : Bool)
  | other (json : String)

inductive PathKey where
  | name (key : String)
  | index (i : Nat)
  deriving DecidableEq

/-- The keys of one place: those of an object, or those of an array. -/
def PathKey.lt : PathKey → PathKey → Bool
  | .name a, .name b => a < b
  | .index i, .index j => i < j
  | _, _ => false

/-- `list(a.path) <= list(b.path)`. -/
def pathLe : List PathKey → List PathKey → Bool
  | [], _ => true
  | _ :: _, [] => false
  | a :: p, b :: q => if a = b then pathLe p q else a.lt b

structure ValidationError where
  path : List PathKey
  message : String

def PathKey.text : PathKey → String
  | .name key => key
  | .index i => toString i

def ValidationError.text (e : ValidationError) : String :=
  Py.orElse (some (".".intercalate (e.path.map PathKey.text))) "(root)" ++ ": " ++ e.message

structure ToolSpec where
  name : String
  description : String := ""
  parameters : Parameters := .object "\x7b\"type\": \"object\"\x7d" false

/-- `iterErrors` is `Draft7Validator(schema).iter_errors`, which raises on a schema
it cannot read. -/
structure ToolRegistry where
  tools : List ToolSpec := []
  iterErrors : String → String → Except Raised (List ValidationError) := fun _ _ => .ok []

/-- `get`. -/
def ToolRegistry.get (registry : ToolRegistry) (name : String) : Option ToolSpec :=
  registry.tools.find? fun spec => spec.name = name

/-- `validate_arguments`. A schema of no properties, the empty one among them, accepts
anything. -/
def ToolRegistry.validateArguments (registry : ToolRegistry) (spec : ToolSpec) :
    Args → Except Raised (List String)
  | .malformed _ => .ok ["arguments must be a JSON object"]
  | .object arguments =>
    match spec.parameters with
    | .absent => .ok []
    | .other _ => .error (.exception "object has no attribute 'get'")
    | .object json properties =>
      if !properties then .ok []
      else do
        let errors ← registry.iterErrors json arguments
        pure ((errors.insertionSort fun a b => pathLe a.path b.path).map ValidationError.text)

/-! ## Execution -/

/-- `dict(outcome)` with its defaults, or the text of what is not a dict. -/
def Outcome.result : Outcome → ToolResult
  | .dict result => result
  | .other text => { content := text }

def ToolResult.failure (content : String) : ToolResult := { content, isError := true }

/-- The text of the arguments an executor is handed. -/
def handedText : Args → String
  | .object json => json
  | .malformed raw => raw

/-- `execute`. -/
def ToolRegistry.execute (registry : ToolRegistry) (name : String) (arguments : Args) :
    Coro Wire Raised Unit ToolResult :=
  match registry.get name with
  | none => pure (.failure ("unknown tool: " ++ name))
  | some spec =>
    match registry.validateArguments spec arguments with
    | .error e => throw e
    | .ok [] =>
      tryCatch
        (Outcome.result <$> Coro.call (I := Wire) (.tool name (handedText arguments)))
        fun e => if e.isException then pure (.failure ("tool error: " ++ e.text)) else throw e
    | .ok errors =>
      pure (.failure ("tool " ++ name ++ ": invalid arguments: " ++
        "; ".intercalate (errors.take 5)))

/-! ## The service and what is below it -/

theorem set_here {α : Type} {l : List α} {i : Nat} {x : α} (here : l[i]? = some x) :
    l.set i x = l := by
  obtain ⟨lt, rfl⟩ := List.getElem?_eq_some_iff.mp here
  exact List.set_getElem_self lt

/-- What becomes of each call of the service: the authorizer, the registry, or the call
itself. -/
def below (authorizer : ToolCall → Tree Wire Raised (Except Raised Bool))
    (registry : ToolRegistry) : (op : Op) → Tree Wire Raised (Except Raised (Calls.Ans op))
  | .authorize call => authorizer call
  | .executeTool name arguments => (registry.execute name (.object arguments)).tree ()
  | op => .await (.service op) .done

/-- Neither the gate nor the registry. -/
def Op.plain : Op → Bool
  | .authorize _ | .executeTool .. => false
  | _ => true

theorem below_plain {authorizer : ToolCall → Tree Wire Raised (Except Raised Bool)}
    {registry : ToolRegistry} {op : Op} {d : WireRun} {r : Except Raised (Calls.Ans op)}
    (is : op.plain = true) :
    (below authorizer registry op).Runs d r ↔ d = [⟨.service op, r⟩] := by
  have here : below authorizer registry op = .await (.service op) .done := by
    cases op with
    | authorize call => cases is
    | executeTool name arguments => cases is
    | _ => rfl
  rw [here]
  constructor
  · intro run
    cases run with
    | await _ _ _ rest =>
      cases rest
      rfl
  · rintro rfl
    exact Tree.Runs.await (I := Wire) (.service op) _ r (.done r)

end AgentStudio.Orchestration
