import AgentStudio.Async.Eval
import AgentStudio.Compaction.Service

/-!
# The summary generator

`LLMSummaryGenerator` of `application/compaction/service.py`, with `TokenEstimator`. A head
is packed into chunks by what its contents are estimated at, each chunk is summarized by one
call of the model, and the summaries are merged in the same way. What `json.loads` makes of
a text is a parameter.
-/

namespace AgentStudio.Compaction.Generator

open Async
open Threads (Payload)

/-- A turn; `none` for a key that is absent. -/
structure Turn where
  role : Option String := none
  redactedContent : Option String
  deriving DecidableEq

namespace Turn

variable (turn : Turn)

/-- `turn.get("role", "user")`. -/
def speaker : String := turn.role.getD "user"

/-- `turn.get("redacted_content") or ""`. -/
def content : String := turn.redactedContent.getD ""

end Turn

inductive Raised where
  | aborted (message : String)
  | invalid (message : String)
  | cancelled
  | error (message : String)
  deriving DecidableEq

/-- What `json.loads` raises: a `JSONDecodeError`, or another exception. -/
inductive LoadsError where
  | decode (message : String)
  | other (message : String)
  deriving DecidableEq

/-- A prompt with one placeholder, as `format` reads it: the text before and after. -/
structure Template where
  before : String
  after : String

/-- `_SUMMARY_PROMPT`. -/
def summaryPrompt : Template where
  before := "You are a conversation summarizer for a customer-support agent.\n" ++
    "Summarize the conversation below into a structured JSON payload.\n\n" ++
    "Follow this schema exactly. Output JSON only — no markdown, no code fences:\n\x7b\n" ++
    "  \"objective\": \"string\",\n  \"key_facts\": [\"string\"],\n" ++
    "  \"decisions\": [\"string\"],\n  \"pending_work\": [\"string\"],\n" ++
    "  \"next_moves\": [\"string\"]\n\x7d\n\nRules:\n" ++
    "- Use only the conversation content provided; never invent facts.\n" ++
    "- Keep facts terse and specific.\n" ++
    "- Omit personally identifiable information that is not needed.\n\nConversation:\n"
  after := "\n"

/-- `contextWindow` is what the catalog has of the adapter's model. -/
structure Config where
  contextWindow : Int
  maxOutputTokens : Int := 4096
  maxMergeDepth : Nat := 4
  charsPerToken : ℚ := 4
  prompt : Template := summaryPrompt
  loads : String → Except LoadsError (Option Payload)

/-- A call of `chat`; with the depth of the merge and the turns that the prompt was made of, for
the record. -/
structure Op where
  depth : Nat
  turns : List Turn
  prompt : String

/-- The content of the response. -/
abbrev Calls : Interface := ⟨Op, fun _ => String⟩

abbrev Action := Coro Calls Raised Unit

/-- `SummarySchema.validate` on what `json.loads` returns. -/
def violations : Option Payload → List String
  | none => ["summary payload must be a JSON object"]
  | some payload => validate payload

/-- The text without the fences of a code block. -/
def unfenced (text : String) : String :=
  let cleaned := Py.strip text
  if cleaned.startsWith "```" then
    let cleaned := String.ofList
      (((cleaned.toList.dropWhile (· = '`')).reverse.dropWhile (· = '`')).reverse)
    if (Py.lower cleaned).startsWith "json" then Py.strip (String.ofList (cleaned.toList.drop 4))
    else cleaned
  else cleaned

namespace Config

variable (config : Config)

/-- `TokenEstimator.estimate`. -/
def estimate (text : String) : Nat :=
  if text = "" ∨ config.charsPerToken ≤ 0 then 0 else ⌈text.length / config.charsPerToken⌉₊

/-- What is left of the window when the answer is written. -/
def limit : Int := config.contextWindow - config.maxOutputTokens

/-- `summarizer_window`. -/
def summarizerWindow : Int := config.limit - 4096

/-- The loop of `_chunk_turns`. -/
def chunkFrom : List Turn → List (List Turn) → List Turn → Nat → Except Raised (List (List Turn))
  | [], chunks, current, _ => .ok (if current = [] then chunks else chunks ++ [current])
  | turn :: turns, chunks, current, acc =>
    let tokens := config.estimate turn.content
    if config.summarizerWindow < tokens then
      .error (.aborted ("single turn (" ++ toString tokens ++ " tokens) exceeds summarizer context (" ++
        toString config.summarizerWindow ++ ")"))
    else if current ≠ [] ∧ config.summarizerWindow < (acc + tokens : Nat) then
      chunkFrom turns (chunks ++ [current]) [turn] tokens
    else chunkFrom turns chunks (current ++ [turn]) (acc + tokens)

/-- `_chunk_turns`. -/
def chunkTurns (turns : List Turn) : Except Raised (List (List Turn)) :=
  config.chunkFrom turns [] [] 0

/-- The lines of the conversation. -/
def lines (turns : List Turn) : List String :=
  (turns.filter fun turn => turn.content ≠ "").map fun turn => turn.speaker ++ ": " ++ turn.content

/-- The prompt for a chunk. -/
def promptOf (turns : List Turn) : String :=
  config.prompt.before ++ Py.join "\n" (lines turns) ++ config.prompt.after

/-- `_parse_json`. -/
def parseJson (text : String) : Action (Option Payload) :=
  match config.loads (unfenced text) with
  | .ok payload => pure payload
  | .error (.decode message) => throw (.invalid ("summarizer returned invalid JSON: " ++ message))
  | .error (.other message) => throw (.error message)

/-- `_summarize_turns`; a cancellation is no `Exception`. -/
def summarizeTurns (depth : Nat) (turns : List Turn) : Action Payload := do
  let text ← tryCatch (Coro.call (I := Calls) ⟨depth, turns, config.promptOf turns⟩) fun
    | .cancelled => throw .cancelled
    | .aborted message | .invalid message | .error message =>
      throw (.aborted ("summarizer call failed: " ++ message))
  let payload ← config.parseJson text
  match violations payload, payload with
  | [], some payload => pure payload
  | errors, _ => throw (.invalid (Py.join "; " errors))

/-- Each chunk in turn. -/
def summarizeAll (depth : Nat) : List (List Turn) → Action (List String)
  | [] => pure []
  | chunk :: chunks => do
    let payload ← config.summarizeTurns depth chunk
    let rendered ← summarizeAll depth chunks
    pure (render payload :: rendered)

/-- `_merge`, with the number of rounds that `max_merge_depth` leaves. -/
def merge : Nat → List Turn → Action Payload
  | rounds, turns =>
    let depth := config.maxMergeDepth - rounds
    match config.chunkTurns turns with
    | .error e => throw e
    | .ok [chunk] => config.summarizeTurns depth chunk
    | .ok chunks =>
      match rounds with
      | 0 => throw (.aborted ("chunk-and-merge did not converge (depth " ++ toString depth ++
          ", chunks " ++ toString chunks.length ++ ")"))
      | rounds + 1 => do
        let rendered ← config.summarizeAll depth chunks
        merge rounds (rendered.map fun text => ⟨some "summary", some text⟩)

/-- `summarize`. -/
def summarize (headTurns : List Turn) : Action Payload :=
  let turns := headTurns.filter fun turn => turn.content ≠ ""
  if turns = [] then throw (.aborted "nothing to summarize (empty head)")
  else config.merge config.maxMergeDepth turns

/-- The run in which the model answers the `n`-th call as `model` says. -/
def run (model : Nat → (op : Op) → Except Raised String) (headTurns : List Turn) :
    Trace Calls Raised × Except Raised Payload :=
  let r := (config.summarize headTurns ()).run model 0
  (r.1, r.2.1)

end Config

end AgentStudio.Compaction.Generator
