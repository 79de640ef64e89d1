import AgentStudio.Gateway.Catalog
import AgentStudio.Gateway.Types

/-!
# The context assembler

`context/assembler.py`: one prompt is the system prompt, the summary, the
end-user facts, the newest turns that fit, the retrieved documents and the
current message. What must be there and does not fit raises; the summary, the
facts, a turn or a document that does not fit is left out.
-/

namespace AgentStudio.Context

open Gateway

def summaryBlockHeader : String :=
  "Summary of the conversation so far (compaction checkpoint; immutable)."

def memoryBlockHeader : String := "End-user memory (opt-in facts about the customer):"

def toolResultPlaceholder : String := "[tool result cleared; re-fetch on demand]"

structure ContextTurn where
  role : String
  content : String
  seq : Option ℤ := none
  messageId : Option String := none
  hasToolPayload : Bool := false
  rawContent : Option String := none
  deriving DecidableEq

structure Doc where
  content : String := ""
  score : ℚ := 0
  deriving DecidableEq

/-- The parts of a prompt, in order. -/
inductive Block where
  | system | summary | memory | tail | knowledge | current
  deriving DecidableEq, Repr

/-- A provider message. `cacheControl` is the key of its metadata, and `block`, for the record,
the part of the prompt that it belongs to. -/
structure Message where
  block : Block
  role : String
  content : String
  cacheControl : Bool := false
  deriving DecidableEq

structure AssembledContext where
  messages : List Message := []
  tokenCounts : List (String × Nat) := []
  omittedTurns : List String := []
  omittedDocs : List Nat := []
  omittedBlocks : List String := []
  totalTokens : Nat := 0
  contextWindow : Nat := 0
  budgetTokens : Nat := 0
  deriving DecidableEq

inductive AssemblyError where
  | contextBudgetExceeded (message : String)
  | redactionViolation (message : String)
  deriving DecidableEq

/-- The loader with its collaborators; the estimator reads the text, the provider and the
model. -/
structure Loader where
  estimate : String → String → String → Nat
  catalog : Catalog := Catalog.seed
  outputReserveTokens : Nat
  cacheMarkers : Bool

/-- The arguments of `assemble`. -/
structure Request where
  provider : String
  model : String
  systemPrompt : String
  currentMessage : String
  historyTurns : List ContextTurn := []
  summary : Option String := none
  summaryPosition : Option ℤ := none
  summaryLayers : Option (List String) := none
  memoryFacts : List String := []
  retrievedDocs : List Doc := []
  clearToolPayloads : Bool := false
  contextWindowOverride : Option Nat := none
  cacheMarkers : Option Bool := none

/-- `_normalize_layers`: the contents of the layers. -/
def normalizeLayers (summaryLayers : Option (List String)) (summary : Option String) :
    List String :=
  match summaryLayers with
  | some (layer :: layers) => layer :: layers
  | _ =>
    match summary with
    | some text => if text = "" then [] else [text]
    | none => []

/-- `_recent_turns_first`: by seq, then by place, the newest first. -/
def recentTurnsFirst (turns : List ContextTurn) : List ContextTurn :=
  let eligible := turns.zipIdx.filter fun p => p.1.role = "user" ∨ p.1.role = "assistant"
  let ordered := eligible.insertionSort fun a b =>
    b.1.seq.getD 0 < a.1.seq.getD 0 ∨ b.1.seq.getD 0 = a.1.seq.getD 0 ∧ b.2 ≤ a.2
  ordered.map Prod.fst

/-- `turn.message_id or …`. -/
def ContextTurn.label (turn : ContextTurn) : String :=
  Py.orElse turn.messageId (turn.seq.elim "?" fun seq => "seq:" ++ toString seq)

/-- `_turn_content`. -/
def turnContent (turn : ContextTurn) (clearToolPayloads : Bool) : Except AssemblyError String :=
  if clearToolPayloads ∧ turn.hasToolPayload then pure toolResultPlaceholder
  else if turn.content ≠ "" then pure turn.content
  else if turn.rawContent.getD "" ≠ "" then
    let name := Py.orElse turn.messageId
      ((turn.seq.filter (· ≠ 0)).elim "?" fun seq => toString seq)
    throw (.redactionViolation
      ("Turn " ++ name ++ " carries raw content with no redacted content"))
  else pure ""

/-- The position check of the tail: the turn is in the head that the summary stands for. -/
def skipped (summaryPosition : Option ℤ) (turn : ContextTurn) : Bool :=
  match summaryPosition, turn.seq with
  | some position, some seq => seq ≤ position
  | _, _ => false

/-- `_sorted_docs`. -/
def sortedDocs (docs : List Doc) : List Doc := docs.insertionSort fun a b => b.score ≤ a.score

/-- A prompt under way, and the tokens that are left. -/
structure Draft where
  ctx : AssembledContext
  remaining : Nat

namespace Draft

/-- A part that fits. -/
def add (draft : Draft) (name : String) (tokens : Nat) (messages : List Message) : Draft where
  ctx := { draft.ctx with
    messages := draft.ctx.messages ++ messages
    tokenCounts := draft.ctx.tokenCounts ++ [(name, tokens)] }
  remaining := draft.remaining - tokens

def omitBlock (draft : Draft) (name : String) : Draft :=
  { draft with ctx := { draft.ctx with omittedBlocks := draft.ctx.omittedBlocks ++ [name] } }

end Draft

section

variable (loader : Loader) (request : Request)

def Loader.tokens (text : String) : Nat := loader.estimate text request.provider request.model

def Loader.markers : Bool := request.cacheMarkers.getD loader.cacheMarkers

/-- `context_window_override or …`; a model that the catalog does not know has the default. -/
def Loader.window : Nat :=
  match request.contextWindowOverride.filter (· ≠ 0) with
  | some window => window
  | none => ((loader.catalog.get request.provider request.model).map
      ModelSpec.contextWindow).getD 128000

def layers : List String := normalizeLayers request.summaryLayers request.summary

/-- The messages of the summary block: one for each layer, the first under the header. -/
def summaryMessages : List Message :=
  (layers request).mapIdx fun idx content => {
    block := .summary, role := "system"
    content := if idx = 0 then summaryBlockHeader ++ "\n" ++ content else content
    cacheControl := loader.markers request }

def summaryTokens : Nat :=
  ((summaryMessages loader request).map fun m => loader.tokens request m.content).sum

/-- The summary block goes in whole, or not at all. -/
def addSummary (draft : Draft) : Draft :=
  if layers request = [] then draft
  else if summaryTokens loader request ≤ draft.remaining then
    draft.add "summary" (summaryTokens loader request) (summaryMessages loader request)
  else draft.omitBlock "summary"

def memoryText : String :=
  memoryBlockHeader ++ "\n" ++ "\n".intercalate (request.memoryFacts.map ("- " ++ ·))

def addMemory (draft : Draft) : Draft :=
  if request.memoryFacts = [] then draft
  else
    let tokens := loader.tokens request (memoryText request)
    if tokens ≤ draft.remaining then
      draft.add "memory" tokens
        [{ block := .memory, role := "system", content := memoryText request }]
    else draft.omitBlock "memory"

/-- What the loop over the turns keeps: the messages oldest first, their tokens. -/
structure Tail where
  messages : List Message := []
  tokens : Nat := 0
  remaining : Nat
  omitted : List String := []

/-- The loop over the turns, newest first. -/
def walkTail : List ContextTurn → Tail → Except AssemblyError Tail
  | [], tail => pure tail
  | turn :: rest, tail =>
    if skipped request.summaryPosition turn then walkTail rest tail
    else do
      let content ← turnContent turn request.clearToolPayloads
      let tokens := loader.tokens request content
      if content = "" then walkTail rest tail
      else if tail.remaining < tokens then
        walkTail rest { tail with omitted := tail.omitted ++ [turn.label] }
      else walkTail rest { tail with
        messages := { block := .tail, role := turn.role, content := content } :: tail.messages
        tokens := tail.tokens + tokens
        remaining := tail.remaining - tokens }

def addTail (draft : Draft) : Except AssemblyError Draft := do
  let tail ← walkTail loader request (recentTurnsFirst request.historyTurns)
    { remaining := draft.remaining }
  let ctx := { draft.ctx with omittedTurns := tail.omitted }
  if tail.messages = [] then pure { draft with ctx := ctx }
  else pure (Draft.add { draft with ctx := ctx } "tail" tail.tokens tail.messages)

def docText (idx : Nat) (doc : Doc) : String :=
  "[Source " ++ toString (idx + 1) ++ "] (Score: " ++ Py.fixed2 doc.score ++ ")\n" ++ doc.content

/-- How many documents fit, from the `idx`-th on, and their tokens. -/
def fittingDocs : Nat → List Doc → Nat → Nat × Nat
  | _, [], _ => (0, 0)
  | idx, doc :: rest, remaining =>
    let tokens := loader.tokens request (docText idx doc)
    if remaining < tokens then (0, 0)
    else
      let (count, more) := fittingDocs (idx + 1) rest (remaining - tokens)
      (count + 1, tokens + more)

def addKnowledge (draft : Draft) : Draft :=
  let docs := sortedDocs request.retrievedDocs
  let (count, tokens) := fittingDocs loader request 0 docs draft.remaining
  let omitted := (List.range docs.length).drop count
  let draft := { draft with ctx := { draft.ctx with omittedDocs := omitted } }
  if count = 0 then draft
  else draft.add "knowledge" tokens ((docs.take count).mapIdx fun idx doc =>
    { block := .knowledge, role := "system", content := docText idx doc })

def Loader.budget : Nat := loader.window request - loader.outputReserveTokens

/-- The system prompt, first in every prompt. -/
def withSystem : Draft :=
  let start : AssembledContext :=
    { contextWindow := loader.window request, budgetTokens := loader.budget request }
  Draft.add ⟨start, loader.budget request⟩ "system" (loader.tokens request request.systemPrompt) [{
    block := .system, role := "system", content := request.systemPrompt
    cacheControl := loader.markers request }]

/-- The current message, last in every prompt. -/
def addCurrent (draft : Draft) : Except AssemblyError AssembledContext :=
  let tokens := loader.tokens request request.currentMessage
  if draft.remaining < tokens then
    throw (.contextBudgetExceeded ("Current message (" ++ toString tokens ++
      " tokens) exceeds remaining context budget " ++ toString draft.remaining ++
      "; compaction required (Arch 8.2)"))
  else
    let full := draft.add "current" tokens
      [{ block := .current, role := "user", content := request.currentMessage }]
    pure { full.ctx with totalTokens := (full.ctx.tokenCounts.map Prod.snd).sum }

/-- `assemble`. -/
def Loader.assemble : Except AssemblyError AssembledContext :=
  let sysTokens := loader.tokens request request.systemPrompt
  if loader.window request ≤ loader.outputReserveTokens then
    throw (.contextBudgetExceeded ("Context window " ++ toString (loader.window request) ++
      " does not exceed output reserve " ++ toString loader.outputReserveTokens))
  else if loader.budget request < sysTokens then
    throw (.contextBudgetExceeded ("System prompt (" ++ toString sysTokens ++
      " tokens) exceeds context budget " ++ toString (loader.budget request)))
  else do
    let head := addMemory loader request (addSummary loader request (withSystem loader request))
    let draft ← addTail loader request head
    addCurrent loader request (addKnowledge loader request draft)

end

end AgentStudio.Context
