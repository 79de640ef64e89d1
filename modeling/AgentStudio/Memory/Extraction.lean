import AgentStudio.Async.Halts
import AgentStudio.Gateway.Types
import AgentStudio.Memory.Facts
import AgentStudio.Py.Text

/-!
# Memory extraction

`extract_thread_memory`: the turns of a thread above its watermark, but for the newest message,
go to an extractor, and the facts that come back are stored one by one. The watermark is the
greatest `source_seq` among the stored facts.
-/

namespace AgentStudio.Memory

open Async Threads

/-! ## The calls -/

/-- What the extractor is given of a turn. -/
structure ClosedTurn where
  role : String
  redactedContent : String
  deriving DecidableEq, Repr

def closedTurn (m : MessageRow) : ClosedTurn := ⟨m.role, m.redactedContent⟩

/-- What `extract_thread_memory` awaits; the messages that the turns come from go with them,
for the record. -/
inductive Op where
  | getThread
  | maxSourceSeq
  | listMessages (afterSeq limit : Nat)
  | extract (closed : List ClosedTurn) (turns : List MessageRow)
  | add (row : MemoryRow)
  deriving DecidableEq

def Op.Answer : Op → Type
  | getThread => Option ThreadRow
  | maxSourceSeq => Nat
  | listMessages .. => Log.Page MessageRow
  | extract .. => List String
  | add _ => Unit

abbrev Calls : Interface := ⟨Op, Op.Answer⟩

abbrev Action := Coro Calls Raised Unit

/-- The redacted text of `process_message`, where there is a PII service, and the settings. -/
structure Extraction where
  redact : Option (String → Except Raised String) := none
  expiryDays : ℤ := 30

structure Result where
  extracted : Nat := 0
  reason : String
  sourceSeq : Option Nat := none
  watermarkFrom : Option Nat := none
  deriving DecidableEq, Repr

section

variable (ex : Extraction) (now : ℚ) (tenantId threadId : Uuid)

/-- A fact as it is stored, when anything is left of it. -/
def Extraction.clean (fact : String) : Except Raised String :=
  match ex.redact with
  | none => .ok fact
  | some redact => (redact fact).map Py.strip

def Extraction.expiresAt : Option ℚ :=
  if 0 < ex.expiryDays then some (now + ex.expiryDays * 86400) else none

/-- What `add` stores. -/
def Extraction.row (endUserId : Option String) (sourceSeq : Nat) (text : String) : MemoryRow where
  tenantId := tenantId
  endUserId := endUserId
  threadId := threadId
  sourceSeq := sourceSeq
  content := text
  expiresAt := ex.expiresAt now

/-- The loop over the pages. What goes round more than `rounds` times is not followed further. -/
def readTurns : Nat → List MessageRow → Nat → Action (List MessageRow)
  | 0, _, _ => throw .outOfFuel
  | rounds + 1, turns, after => do
    let page ← Coro.call (I := Calls) (.listMessages after 200)
    if page.hasMore then
      readTurns rounds (turns ++ page.rows) ((page.rows.getLast?.map MessageRow.seq).getD after)
    else pure (turns ++ page.rows)

/-- The loop over the facts; `stored` is how many are stored. -/
def storeFacts (endUserId : Option String) (sourceSeq : Nat) : List String → Nat → Action Nat
  | [], stored => pure stored
  | fact :: facts, stored =>
    match ex.clean fact with
    | .error e => throw e
    | .ok text =>
      if text = "" then storeFacts endUserId sourceSeq facts stored
      else do
        Coro.call (I := Calls) (.add (ex.row now tenantId threadId endUserId sourceSeq text))
        storeFacts endUserId sourceSeq facts (stored + 1)

/-- `extract_thread_memory` once the messages above the watermark are read. -/
def extractTurns (endUserId : Option String) (watermark : Nat) (read : List MessageRow) :
    Action Result :=
  match read.dropLast.getLast? with
  | none => pure { reason := if read = [] then "no_new_turns" else "no_closed_turns" }
  | some newest =>
    let turns := read.dropLast.filter fun m => m.redactedContent != ""
    if turns = [] then pure { reason := "no_closed_turns" }
    else do
      let facts ← Coro.call (I := Calls) (.extract (turns.map closedTurn) turns)
      let stored ← storeFacts ex now tenantId threadId endUserId newest.seq facts 0
      pure {
        extracted := stored, reason := if stored = 0 then "no_facts" else "extracted"
        sourceSeq := some newest.seq, watermarkFrom := some watermark }

/-- `extract_thread_memory`. -/
def extractThreadMemory (rounds : Nat) : Action Result := do
  let row ← Coro.call (I := Calls) .getThread
  match row with
  | none => pure { reason := "thread_not_found" }
  | some thread => do
    let watermark ← Coro.call (I := Calls) .maxSourceSeq
    let read ← readTurns rounds [] watermark
    extractTurns ex now tenantId threadId thread.endUserId watermark read

end

/-- The texts that are stored of what the extractor returned. -/
def Extraction.kept (ex : Extraction) : List String → Except Raised (List String)
  | [] => .ok []
  | fact :: facts => do
    let text ← ex.clean fact
    let more ← kept ex facts
    pure (if text = "" then more else text :: more)

end AgentStudio.Memory
