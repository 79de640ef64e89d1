import AgentStudio.Async.Shared
import AgentStudio.Gateway.Types
import AgentStudio.Py.Text
import AgentStudio.Threads.Store

/-!
# The compaction service

`application/compaction/service.py`: `compact` reads the thread from its oldest
message on, keeps the newest messages that fit `keep_tokens` live, has the older
ones summarized, and swaps the checkpoint of the thread row. While the breaker
of the thread is open it drops the older messages instead.
-/

namespace AgentStudio.Compaction

open Async Threads

structure Config where
  keepTokens : Nat := 8000
  maxSnapshotMessages : Nat := 1000
  truncationKeepTurns : Nat := 10
  maxSummaryLayers : Nat := 5
  qualityCheck : Bool := false
  deriving DecidableEq, Repr

/-- `TokenEstimator.estimate` at the default of four characters a token. -/
def estimate (text : String) : Nat := (text.length + 3) / 4

structure Service where
  config : Config := {}
  estimate : String → Nat := estimate

def degradedSummaryContent : String :=
  "Summary unavailable (compaction degraded; older context truncated)."

/-! ## The summary schema -/

def summaryFields : List (String × String) :=
  [("key_facts", "Key Facts"), ("decisions", "Decisions"), ("pending_work", "Pending Work"),
   ("next_moves", "Next Moves")]

/-- `SummarySchema.validate` on a JSON object. -/
def validate (payload : Payload) : List String :=
  let objective :=
    match payload.lookup "objective" with
    | none => ["missing field 'objective'"]
    | some (.text value) =>
      if Py.strip value = "" then ["'objective' must be a non-empty string"] else []
    | some _ => ["'objective' must be a non-empty string"]
  objective ++ summaryFields.flatMap fun field =>
    match payload.lookup field.1 with
    | none => ["missing field '" ++ field.1 ++ "'"]
    | some (.texts _) => []
    | some _ => ["'" ++ field.1 ++ "' must be a list of strings"]

/-- `SummarySchema.render`; what is no list of strings does not pass `validate`. -/
def render (payload : Payload) : String :=
  let objective :=
    match payload.lookup "objective" with
    | some (.text value) => value
    | _ => ""
  "\n".intercalate (("Objective: " ++ objective) :: summaryFields.flatMap fun field =>
    match payload.lookup field.1 with
    | some (.texts (value :: values)) => (field.2 ++ ":") :: (value :: values).map ("- " ++ ·)
    | _ => [])

/-! ## Splitting -/

def Service.tokens (svc : Service) (m : MessageRow) : Nat := svc.estimate m.redactedContent

/-- The loop of `_split`, over the messages newest first: where the tail begins. -/
def tailIdx (tokens : MessageRow → Nat) (keepTokens : Nat) : List MessageRow → Nat → Nat
  | [], _ => 0
  | m :: older, acc =>
    if keepTokens < acc + tokens m then older.length + 1
    else tailIdx tokens keepTokens older (acc + tokens m)

def Service.split (svc : Service) (messages : List MessageRow) :
    List MessageRow × List MessageRow :=
  let idx := tailIdx svc.tokens svc.config.keepTokens messages.reverse 0
  (messages.take idx, messages.drop idx)

/-- `_current_layers`: a block without layers counts as one. -/
def currentLayers (row : ThreadRow) : List Layer :=
  match row.summaryBlock with
  | none => []
  | some block =>
    match block.layers with
    | some (layer :: layers) => layer :: layers
    | _ =>
      if block.content = "" then []
      else [⟨row.summaryPosition.getD 0, block.content, block.payload⟩]

/-- The seq covered by the last layer, 0 when there is none. -/
def prevPosition (layers : List Layer) : Nat := (layers.getLast?.map Layer.position).getD 0

/-! ## The calls -/

/-- What `compact` awaits. The messages that a checkpoint was made from go with it, and
those that were read with the question for the breaker, for the record. -/
inductive Op where
  | listMessages (afterSeq limit : Nat)
  | isTripped (snapshot : List MessageRow)
  | getThread
  | summarize (turns : List MessageRow)
  | qualityCheck (turns : List MessageRow) (rendered : String)
  | setSummary (args : SummaryArgs) (turns : List MessageRow)
  | recordFailure
  | recordSuccess

/-- A summarizer may return what is no JSON object. -/
def Op.Answer : Op → Type
  | listMessages .. => Log.Page MessageRow
  | isTripped _ => Bool
  | getThread => Option ThreadRow
  | summarize _ => Option Payload
  | setSummary .. => Nat × Nat
  | qualityCheck .. | recordFailure | recordSuccess => Unit

abbrev Calls : Interface := ⟨Op, Op.Answer⟩

structure Result where
  compacted : Bool := false
  summary : Option String := none
  summaryVersion : Option Nat := none
  summaryPosition : Option Nat := none
  degraded : Bool := false
  layers : Option (List Layer) := none
  deriving DecidableEq, Repr

def noopResult : Result := {}

abbrev Action := Coro Calls Raised Unit

section

variable (svc : Service) (tenantId threadId : Uuid) (requestId : Option String)

/-- The loop of `_snapshot`. Each page adds a message, so it goes round at most
`max_snapshot_messages` times. -/
def snapshotFrom : Nat → List MessageRow → Nat → Action (List MessageRow)
  | 0, messages, _ => pure messages
  | rounds + 1, messages, afterSeq =>
    if messages.length < svc.config.maxSnapshotMessages then do
      let page ← Coro.call (I := Calls) (.listMessages afterSeq 200)
      match page.rows.getLast? with
      | none => pure messages
      | some last =>
        if page.hasMore then snapshotFrom rounds (messages ++ page.rows) last.seq
        else pure (messages ++ page.rows)
    else pure messages

def snapshot : Action (List MessageRow) := snapshotFrom svc svc.config.maxSnapshotMessages [] 0

/-- `_truncate_fallback`: keep the newest `truncation_keep_turns` of what was read. -/
def truncateFallback (snapshot : List MessageRow) : Action Result :=
  let keep := svc.config.truncationKeepTurns
  if snapshot.length ≤ keep then pure noopResult
  else
    match snapshot[snapshot.length - (keep + 1)]? with
    | none => pure noopResult
    | some boundary => do
      let checkpoint ← Coro.call (I := Calls) (.setSummary {
        tenantId := tenantId, threadId := threadId
        summaryBlock := {
          content := degradedSummaryContent, headUntilSeq := boundary.seq, degraded := true,
          layers := some [] }
        summaryPosition := boundary.seq, boundaryMessageId := boundary.id,
        requestId := requestId, degraded := true } [])
      pure {
        compacted := true, summary := some degradedSummaryContent,
        summaryVersion := some checkpoint.1, summaryPosition := some checkpoint.2,
        degraded := true }

/-- The turns a new layer is made from: the whole head when the layers are consolidated. -/
def sourceTurns (oldLayers : List Layer) (head headSlice : List MessageRow) : List MessageRow :=
  if svc.config.maxSummaryLayers ≤ oldLayers.length then head else headSlice

def newLayers (oldLayers : List Layer) (layer : Layer) : List Layer :=
  if svc.config.maxSummaryLayers ≤ oldLayers.length then [layer] else oldLayers ++ [layer]

/-- The checkpoint at the end of the `try` block of `compact`; `rendered` is the last layer's
content. -/
def checkpoint (layers : List Layer) (payload : Payload) (turns : List MessageRow)
    (boundary : MessageRow) : Action Result := do
  let checkpoint ← Coro.call (I := Calls) (.setSummary {
    tenantId := tenantId, threadId := threadId
    summaryBlock := {
      content := "\n\n".intercalate (layers.map Layer.content), payload := payload,
      headUntilSeq := boundary.seq, layers := some layers }
    summaryPosition := boundary.seq, boundaryMessageId := boundary.id,
    requestId := requestId } turns)
  pure {
    compacted := true, summary := some (render payload), summaryVersion := some checkpoint.1,
    summaryPosition := some checkpoint.2, layers := some layers }

/-- The `try` block of `compact`: summarize, validate, swap. -/
def swap (oldLayers : List Layer) (turns : List MessageRow) (boundary : MessageRow) :
    Action Result := do
  match ← Coro.call (I := Calls) (.summarize turns) with
  | none => throw (.exception "summary payload must be a JSON object")
  | some payload =>
    let layers := newLayers svc oldLayers ⟨boundary.seq, render payload, payload⟩
    if validate payload = [] then
      if svc.config.qualityCheck then
        Coro.call (I := Calls) (.qualityCheck turns (render payload))
      checkpoint tenantId threadId requestId layers payload turns boundary
    else throw (.exception ("; ".intercalate (validate payload)))

/-- `compact` once the head is known not to be empty and the breaker to be closed. -/
def compactHead (head : List MessageRow) : Action Result := do
  let row ← Coro.call (I := Calls) .getThread
  let oldLayers := (row.map currentLayers).getD []
  let headSlice := head.filter fun m => prevPosition oldLayers < m.seq
  match headSlice.getLast? with
  | none => pure noopResult
  | some boundary =>
    let result ← tryCatch
      (swap svc tenantId threadId requestId oldLayers (sourceTurns svc oldLayers head headSlice)
        boundary)
      fun e =>
        if e.isException then do
          Coro.call (I := Calls) .recordFailure
          throw e
        else throw e
    Coro.call (I := Calls) .recordSuccess
    pure result

def compact : Action Result := do
  let snapshot ← snapshot svc
  let head := (svc.split snapshot).1
  if head = [] then pure noopResult
  else do
    let tripped : Bool ← Coro.call (I := Calls) (.isTripped snapshot)
    if tripped then truncateFallback svc tenantId threadId requestId snapshot
    else compactHead svc tenantId threadId requestId head

end

end AgentStudio.Compaction
