import AgentStudio.Orchestration.Streaming

/-!
# The streaming route

`event_generator` of `stream_conversation` from its consumer loop on, with the rolling
window of `application/validation/streaming.py`, the ids of the stream buffer, and what
the widget makes of the frames. Heartbeat frames are left out: no one acts on them.
-/

namespace AgentStudio.Api
open Async Orchestration

/-! ## Calls -/

/-- What `evaluate_output` returned. -/
structure Moderation where
  allowed : Bool := true
  redactedText : Option String := none
  violations : List String := []

/-- One delta of the turn. `own` marks the deltas of the reply in question: nothing in
the route reads it. -/
structure Chunk where
  text : String
  own : Bool
  deriving DecidableEq

def spelled (window : List Chunk) : String := String.join (window.map Chunk.text)

/-- The SSE frames. `window` is not sent: the deltas a `delta` frame was made from. -/
inductive Frame where
  | delta (content : String) (eventId : Nat) (window : List Chunk)
  | redaction (violations : List String)
  | retraction (violations : List String) (retractFrom : Option Nat)
  | error (text : String)
  | result (response : String) (handoffRequired : Bool)

/-- The side effects that never fail the request. -/
inductive Chore where
  | refreshHotTail | enqueueToolClear | enqueueMemoryExtract
  | publishWebhook (event : String)

/-- The calls that leave the route. `moderate` and `evaluateOutput` are the guardrails on
a window and on the whole response; `append` is the stream buffer. -/
inductive Op where
  | moderate (window : String)
  | evaluateOutput (response : String)
  | append (type : String) (content : String)
  | addMessage (content redactedContent : String)
  | appendMessage (content redactedContent : String)
  | markEscalated
  | chore (chore : Chore)
  | yield (frame : Frame)

/-- The buffer's counter is shared: `append` answers how many ids other streams took
since the last one. -/
abbrev Calls : Interface where
  Op := Op
  Ans
    | .moderate _ | .evaluateOutput _ => Moderation
    | .append .. => Nat
    | _ => Unit

/-- The local variables of `event_generator`, the window's and the buffer's. -/
structure Vars where
  pending : List Chunk := []
  truncated : Bool := false
  lastReleasedEventId : Option Nat := none
  seq : Nat := 0

abbrev Step (α : Type) := Coro Calls Raised Vars α

/-- `ENABLE_PRESIDIO` with the tenant's window size, or off. -/
structure Route where
  window : Option Nat := none

/-- Exceptions are logged and dropped. -/
def neverFatal {α : Type} (c : Step α) (default : α) : Step α :=
  tryCatch c fun e => if e.isException then pure default else throw e

/-- A `yield`: only a disconnect is raised there. -/
def send (frame : Frame) : Step Unit := neverFatal (Coro.call (I := Calls) (.yield frame)) ()

/-- `StreamBuffer.append`: the id is drawn first, a Redis failure falls back to memory. -/
def append (type content : String) : Step Nat := do
  let others ← neverFatal (Coro.call (I := Calls) (.append type content)) (0 : Nat)
  modify fun v => { v with seq := v.seq + others + 1 }
  pure (← get).seq

/-- `mark_terminal`. -/
def markTerminal (type content : String) : Step Unit := do
  let _ ← append type content

def doChore (chore : Chore) : Step Unit := neverFatal (Coro.call (I := Calls) (.chore chore)) ()

/-! ## The rolling window -/

/-- `WindowRelease`, with the deltas it was made from. -/
structure WindowRelease where
  text : String
  truncated : Bool := false
  violations : List String := []
  window : List Chunk

/-- `_validate_window`: a validator that raises fails open. -/
def validateWindow : Step WindowRelease := do
  let pending := (← get).pending
  modify fun v => { v with pending := [] }
  neverFatal
    (do
      let result ← Coro.call (I := Calls) (.moderate (spelled pending))
      if result.allowed then
        pure { text := result.redactedText.getD (spelled pending), window := pending }
      else
        modify fun v => { v with truncated := true }
        pure {
          text := "[content withheld]"
          truncated := true
          violations := result.violations
          window := pending })
    { text := spelled pending, window := pending }

/-- `push`: `none` while the window is held. -/
def push (route : Route) (chunk : Chunk) : Step (Option WindowRelease) := do
  if (← get).truncated then pure none
  else
    match route.window with
    | none => pure (some { text := chunk.text, window := [chunk] })
    | some size =>
      modify fun v => { v with pending := v.pending ++ [chunk] }
      if (spelled (← get).pending).length < size then pure none
      else some <$> validateWindow

/-- `finish`. -/
def finish : Step (Option WindowRelease) := do
  if (← get).truncated || spelled (← get).pending = "" then pure none
  else some <$> validateWindow

/-! ## The generator -/

/-- Blocked content: the stream ends with a redaction and a retraction. -/
def truncate (release : WindowRelease) : Step Unit := do
  markTerminal "error" "output_moderation_redaction"
  send (.redaction release.violations)
  send (.retraction release.violations (← get).lastReleasedEventId)
  doChore (.publishWebhook "guardrail.blocked")

/-- The consumer loop over the deltas; `false` when it ended the stream. -/
def releaseDeltas (route : Route) : List Chunk → Step Bool
  | [] => pure true
  | chunk :: rest => do
    match ← push route chunk with
    | none => releaseDeltas route rest
    | some release =>
      if release.truncated then
        truncate release
        pure false
      else
        let seq ← append "delta" release.text
        modify fun v => { v with lastReleasedEventId := some seq }
        send (.delta release.text seq release.window)
        releaseDeltas route rest

/-- What the result frame carries: the guardrails may replace the response. -/
def closingText (route : Route) (response : String) : Step String := do
  if route.window.isSome && response ≠ "" then
    let result ← Coro.call (I := Calls) (.evaluateOutput response)
    pure (Py.orElse result.redactedText response)
  else pure response

/-- From the result event's text on. -/
def storeAndClose (route : Route) (response : String) (handoffRequired : Bool) : Step Unit := do
  let text ← closingText route response
  Coro.call (I := Calls) (.addMessage response text)
  Coro.call (I := Calls) (.appendMessage response text)
  doChore .refreshHotTail
  doChore .enqueueToolClear
  doChore .enqueueMemoryExtract
  if handoffRequired then
    Coro.call (I := Calls) .markEscalated
    doChore (.publishWebhook "escalation.raised")
  doChore (.publishWebhook "conversation.completed")
  markTerminal "result" text
  send (.result text handoffRequired)

/-- From the result event on: the window is flushed first. -/
def closeStream (route : Route) (response : String) (handoffRequired : Bool) : Step Unit := do
  match ← finish with
  | none => storeAndClose route response handoffRequired
  | some tail =>
    if tail.truncated then truncate tail
    else if tail.text = "" then storeAndClose route response handoffRequired
    else
      let seq ← append "delta" tail.text
      send (.delta tail.text seq tail.window)
      storeAndClose route response handoffRequired

/-- A failure as the last frame. -/
def sendError (text : String) : Step Unit := do
  markTerminal "error" text
  send (.error text)

/-- `event_generator` on the events of a turn. -/
def eventGenerator (route : Route) (chunks : List Chunk) (ending : StreamEnd) : Step Unit :=
  tryCatch
    (do
      if ← releaseDeltas route chunks then
        match ending with
        | .error text => sendError text
        | .result response final => closeStream route response final.handoffRequired)
    fun e => if e.isException then sendError e.text else throw e

/-! ## The client -/

/-- A delta that the client has. -/
structure Shown where
  eventId : Nat
  window : List Chunk

/-- What a frame does to the deltas the client has. -/
def Frame.show (shown : List Shown) : Frame → List Shown
  | .delta _ eventId window => shown ++ [⟨eventId, window⟩]
  | .retraction _ (some retractFrom) => shown.filter fun d => d.eventId < retractFrom
  | .retraction _ none => []
  | _ => shown

/-- The deltas the client has after the calls of a run. -/
def shownAfter (shown : List Shown) : Trace Calls Raised → List Shown
  | [] => shown
  | ⟨.yield frame, _⟩ :: rest => shownAfter (frame.show shown) rest
  | _ :: rest => shownAfter shown rest

/-- The response of the result frame, if one was sent. -/
def resultSent : Trace Calls Raised → Option String
  | [] => none
  | ⟨.yield (.result response _), _⟩ :: _ => some response
  | _ :: rest => resultSent rest

end AgentStudio.Api
