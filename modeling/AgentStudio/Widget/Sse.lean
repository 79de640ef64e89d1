import AgentStudio.Widget.Frames

/-!
# The SSE transport of the widget

`openSSEStream` of `transport/sse.ts`: one connection after the other, each attempt given by what
the server did in it. What the callbacks are told, the attempts and the frames are in a log, in
order. Nobody aborts the stream.
-/

namespace AgentStudio.Widget

/-- The fields of a payload that are read, of the types that are declared for them. -/
structure Payload where
  sessionId : Option String := none
  threadId : Option String := none
  content : Option String := none
  retractFromEventId : Option ℤ := none
  response : Option String := none
  confidence : Option ℚ := none
  handoffRequired : Option Bool := none
  error : Option String := none
  status : Option ℤ := none
  level : Option String := none
  deriving DecidableEq

structure SSECompletePayload where
  response : String
  threadId : Option String
  sessionId : String
  confidence : ℚ := 0
  handoffRequired : Bool := false
  deriving DecidableEq

structure SSEError where
  status : ℤ
  detail : String
  retryable : Bool := false
  budgetRejected : Bool := false
  deriving DecidableEq, Repr

inductive SSEConnectionState where
  | connecting | streaming | reconnecting | closed
  deriving DecidableEq, Repr

def maxReconnectAttempts : Nat := 5

inductive Event where
  | attempt (lastEventId : String)
  /-- A frame with data came in. -/
  | frame
  | onDelta (text : String)
  | onRedaction (text : String)
  | onSession (sessionId : String) (threadId : Option String)
  | onComplete (payload : SSECompletePayload)
  | onError (error : SSEError)
  | onStateChange (state : SSEConnectionState)
  deriving DecidableEq

structure Stream where
  lastEventId : String := ""
  reconnectAttempts : Nat := 0
  fullResponse : String := ""
  sessionId : String := ""
  threadId : Option String := none
  closed : Bool := false
  /-- By the `id:` line. -/
  releasedDeltas : List (String × String) := []
  log : List Event := []
  deriving DecidableEq

def Stream.tell (s : Stream) (e : Event) : Stream := { s with log := s.log ++ [e] }

/-- `parseInt(id, 10)`, where it is a number. -/
def parseInt (id : String) : Option ℤ :=
  let number (sign : ℤ) (text : Text) : Option ℤ :=
    match text.takeWhile Char.isDigit with
    | [] => none
    | digits => some (sign * (Nat.ofDigitChars 10 digits 0 : ℤ))
  match trimStart id.toList with
  | '-' :: text => number (-1) text
  | '+' :: text => number 1 text
  | text => number 1 text

/-- What a retraction from `threshold` on drops. -/
def retracts (threshold : ℤ) (delta : String × String) : Bool :=
  match parseInt delta.1 with
  | some id => threshold ≤ id
  | none => false

/-! ## Frames -/

section

variable (json : String → Option Payload)

def handleDelta (s : Stream) (id : String) (p : Payload) : Stream :=
  match p.content with
  | none => s
  | some content =>
    if content = "" then s
    else Stream.tell { s with
      fullResponse := s.fullResponse ++ content
      releasedDeltas := if id = "" then s.releasedDeltas else s.releasedDeltas ++ [(id, content)] }
      (.onDelta content)

def handleRetraction (s : Stream) (p : Payload) : Stream :=
  let threshold := p.retractFromEventId.getD (-1)
  let releasedDeltas := s.releasedDeltas.filter fun d => !retracts threshold d
  let fullResponse := String.join (releasedDeltas.map Prod.snd)
  Stream.tell { s with releasedDeltas := releasedDeltas, fullResponse := fullResponse }
    (.onRedaction fullResponse)

def handleResult (s : Stream) (p : Payload) : Stream :=
  (Stream.tell { s with closed := true } (.onStateChange .closed)).tell (.onComplete {
    response := p.response.getD s.fullResponse, threadId := p.threadId.or s.threadId,
    sessionId := s.sessionId, confidence := p.confidence.getD 0,
    handoffRequired := p.handoffRequired.getD false })

def handleError (s : Stream) (p : Payload) : Stream :=
  let status := p.status.getD 500
  (Stream.tell { s with closed := true } (.onStateChange .closed)).tell (.onError {
    status := status, detail := p.error.getD "Server error during streaming",
    retryable := 500 ≤ status || status == 429,
    budgetRejected := status == 402 || p.level.isSome })

/-- The switch of `handleFrame`. -/
def dispatch (s : Stream) (id event : String) (p : Payload) : Stream :=
  if event = "session" then
    let sessionId := p.sessionId.getD ""
    Stream.tell { s with sessionId := sessionId, threadId := p.threadId }
      (.onSession sessionId p.threadId)
  else if event = "delta" then handleDelta s id p
  else if event = "retraction" then handleRetraction s p
  else if event = "result" then handleResult s p
  else if event = "error" then handleError s p
  else s

/-- `handleFrame`. -/
def handleFrame (s : Stream) (frame : Frame) : Stream :=
  let s := { s with lastEventId := frame.id.getD s.lastEventId }
  if frame.data = [] then s
  else
    let s := s.tell .frame
    let data := "\n".intercalate frame.data
    if data = "[DONE]" then s
    else
      match json data with
      | none =>
        if data = "" then s
        else Stream.tell { s with fullResponse := s.fullResponse ++ data } (.onDelta data)
      | some p => dispatch s (frame.id.getD "") frame.event p

/-- The loop over the reads of a connection. -/
def readLoop : Stream → Text → List Text → Stream × Text
  | s, buffer, [] => (s, buffer)
  | s, buffer, chunk :: chunks =>
    let (frames, buffer) := readChunk buffer chunk
    readLoop (frames.foldl (handleFrame json) s) buffer chunks

/-! ## Connections -/

/-- What the server does in an attempt. -/
inductive Connection where
  | failed (message : String)
  /-- A status that is not ok, and the detail of the body, if it has one. -/
  | refused (status : ℤ) (detail : Option String)
  | noBody
  /-- What is read, and the error of the last read, if it does not end cleanly. -/
  | opened (chunks : List Text) (dropped : Option String)

/-- `handleReconnect`, and whether it connects again. -/
def handleReconnect (s : Stream) (error : SSEError) : Stream × Bool :=
  if s.closed then (s, false)
  else
    let s := { s with reconnectAttempts := s.reconnectAttempts + 1 }
    if maxReconnectAttempts < s.reconnectAttempts then
      let s := s.tell (.onError { status := error.status, detail := "Connection failed after " ++ toString maxReconnectAttempts ++
        " attempts: " ++ error.detail })
      (Stream.tell { s with closed := true } (.onStateChange .closed), false)
    else (s.tell (.onStateChange .reconnecting), true)

/-- A response that is not ok. -/
def handleRefused (s : Stream) (status : ℤ) (detail : Option String) : Stream × Bool :=
  let detail := (detail.filter (· ≠ "")).getD ("Request failed with status " ++ toString status)
  let budgetRejected := status == 402
  if 500 ≤ status || status == 429 then
    handleReconnect s ⟨status, detail, true, budgetRejected⟩
  else ({ s.tell (.onError ⟨status, detail, false, budgetRejected⟩) with closed := true }, false)

/-- The end of a stream that ended cleanly. -/
def finish (s : Stream) : Stream :=
  if s.closed then s
  else (Stream.tell { s with closed := true } (.onStateChange .closed)).tell (.onComplete {
    response := s.fullResponse, threadId := s.threadId, sessionId := s.sessionId })

/-- `connect`, and whether it connects again. -/
def connect (s : Stream) (c : Connection) : Stream × Bool :=
  if s.closed then (s, false)
  else
    let s := s.tell (.onStateChange
      (if 0 < s.reconnectAttempts then .reconnecting else .connecting))
    let s := s.tell (.attempt s.lastEventId)
    match c with
    | .failed message => handleReconnect s ⟨0, message, true, false⟩
    | .refused status detail => handleRefused s status detail
    | .noBody => ({ s.tell (.onError ⟨0, "Response body is null", false, false⟩) with closed := true }, false)
    | .opened chunks dropped =>
      let s := Stream.tell { s with reconnectAttempts := 0 } (.onStateChange .streaming)
      let (s, buffer) := readLoop json s [] chunks
      match dropped with
      | some message => handleReconnect s ⟨0, message, true, false⟩
      | none => (finish (if trim buffer = [] then s else handleFrame json s (parseFrame buffer)), false)

/-- `openSSEStream`: it connects until it need not connect again. -/
def openSSEStream : Stream → List Connection → Stream
  | s, [] => s
  | s, c :: later =>
    let (s, again) := connect json s c
    if again then openSSEStream s later else s

end

end AgentStudio.Widget
