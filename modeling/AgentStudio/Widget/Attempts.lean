import AgentStudio.Widget.Sse

/-!
# What an attempt does

What an attempt puts in the log is, but for the texts, a matter of what the server did in it.
-/

namespace AgentStudio.Widget

/-- An entry of the log without its texts. -/
inductive Kind where
  | attempt | frame | speech | terminal | other
  deriving DecidableEq, Repr

def Event.kind : Event → Kind
  | .attempt _ => .attempt
  | .frame => .frame
  | .onDelta _ | .onRedaction _ => .speech
  | .onComplete _ | .onError _ => .terminal
  | .onSession .. | .onStateChange _ => .other

def Stream.kinds (s : Stream) : List Kind := s.log.map Event.kind

section

variable (json : String → Option Payload)

/-! ## What the server does -/

def payloadKinds (event : String) (p : Payload) : List Kind :=
  if event = "session" then [.other]
  else if event = "delta" then if p.content.getD "" = "" then [] else [.speech]
  else if event = "retraction" then [.speech]
  else if event = "result" ∨ event = "error" then [.other, .terminal]
  else []

/-- What a frame tells the callbacks. -/
def Frame.kinds (frame : Frame) : List Kind :=
  if frame.data = [] then []
  else
    let data := "\n".intercalate frame.data
    .frame ::
      if data = "[DONE]" then []
      else
        match json data with
        | none => if data = "" then [] else [.speech]
        | some p => payloadKinds frame.event p

/-- A result or an error. -/
def Frame.closes (frame : Frame) : Bool := Kind.terminal ∈ frame.kinds json

/-- A delta with text, a retraction, a result or an error. -/
def Frame.speaks (frame : Frame) : Bool :=
  Kind.terminal ∈ frame.kinds json || Kind.speech ∈ frame.kinds json

/-- The frames of an attempt. What is left in the buffer is one where the stream ends cleanly. -/
def Connection.frames : Connection → List Frame
  | .opened chunks dropped =>
    let (frames, rest) := readChunks [] chunks
    frames ++ if dropped.isNone ∧ trim rest ≠ [] then [parseFrame rest] else []
  | _ => []

/-- After a result or an error comes no frame that tells the callbacks anything. -/
def Connection.Quiet (c : Connection) : Prop :=
  c.frames.Pairwise fun a b => a.closes json = true → b.speaks json = false

/-- A frame with data comes. -/
def Connection.delivers (c : Connection) : Bool := c.frames.any fun frame => frame.data != []

/-- It opens and drops before a frame with data comes. -/
def Connection.idles (c : Connection) : Bool :=
  match c with
  | .opened _ (some _) => !c.delivers
  | _ => false

/-- A stream and the attempts it makes, one after the other while it connects again. -/
inductive Run : List Connection → Stream → Bool → Prop
  | start : Run [] {} true
  | attempt {conns : List Connection} {s : Stream} (run : Run conns s true) (c : Connection) :
      Run (conns ++ [c]) (connect json s c).1 (connect json s c).2

variable {json}

theorem Run.opens_append {conns : List Connection} {s : Stream} {again : Bool}
    (run : Run json conns s again) (later : List Connection) :
    openSSEStream json {} (conns ++ later) = if again then openSSEStream json s later else s := by
  induction run generalizing later with
  | start => rfl
  | attempt run c ih =>
    rw [List.append_assoc, ih, if_pos rfl]
    rfl

/-- It is the stream that `openSSEStream` leaves. -/
theorem Run.opens {conns : List Connection} {s : Stream} {again : Bool}
    (run : Run json conns s again) : openSSEStream json {} conns = s := by
  have whole := run.opens_append []
  rw [List.append_nil] at whole
  rw [whole]
  split <;> rfl

/-! ## The log -/

@[simp] theorem kinds_tell (s : Stream) (e : Event) : (s.tell e).kinds = s.kinds ++ [e.kind] := by
  simp [Stream.kinds, Stream.tell]

/-- What frames do to a stream: `ks` is told, and it is closed where `ks` says so. -/
structure Told (s : Stream) (ks : List Kind) (s' : Stream) : Prop where
  kinds : s'.kinds = s.kinds ++ ks
  closed : s'.closed = (s.closed || decide (Kind.terminal ∈ ks))
  attempts : s'.reconnectAttempts = s.reconnectAttempts

theorem Told.nothing (s : Stream) : Told s [] s := ⟨by simp, by simp, rfl⟩

theorem Told.trans {s s' s'' : Stream} {ks ks' : List Kind} (h : Told s ks s')
    (h' : Told s' ks' s'') : Told s (ks ++ ks') s'' := by
  refine ⟨?_, ?_, h'.attempts.trans h.attempts⟩
  · rw [h'.kinds, h.kinds, List.append_assoc]
  · rw [h'.closed, h.closed]
    simp [Bool.or_assoc]

theorem dispatch_told (s : Stream) (id event : String) (p : Payload) :
    Told s (payloadKinds event p) (dispatch s id event p) := by
  unfold dispatch payloadKinds
  by_cases session : event = "session"
  · rw [if_pos session, if_pos session]
    exact ⟨kinds_tell _ _, by simp [Stream.tell], rfl⟩
  rw [if_neg session, if_neg session]
  by_cases delta : event = "delta"
  · rw [if_pos delta, if_pos delta]
    unfold handleDelta
    cases content : p.content with
    | none => exact .nothing s
    | some text =>
      by_cases empty : text = ""
      · simp only [empty, if_true, Option.getD_some]
        exact .nothing s
      · simp only [empty, if_false, Option.getD_some]
        exact ⟨kinds_tell _ _, by simp [Stream.tell], rfl⟩
  rw [if_neg delta, if_neg delta]
  by_cases retraction : event = "retraction"
  · rw [if_pos retraction, if_pos retraction]
    exact ⟨kinds_tell _ _, by simp [handleRetraction, Stream.tell], rfl⟩
  rw [if_neg retraction, if_neg retraction]
  by_cases result : event = "result"
  · rw [if_pos result, if_pos (.inl result)]
    exact ⟨by simp [handleResult, Stream.kinds, Stream.tell, Event.kind],
      by simp [handleResult, Stream.tell], rfl⟩
  rw [if_neg result]
  by_cases error : event = "error"
  · rw [if_pos error, if_pos (.inr error)]
    exact ⟨by simp [handleError, Stream.kinds, Stream.tell, Event.kind],
      by simp [handleError, Stream.tell], rfl⟩
  · rw [if_neg error, if_neg (by simp [result, error])]
    exact .nothing s

theorem handleFrame_told (s : Stream) (frame : Frame) :
    Told s (frame.kinds json) (handleFrame json s frame) := by
  unfold handleFrame Frame.kinds
  by_cases empty : frame.data = []
  · rw [if_pos empty, if_pos empty]
    exact ⟨by simp [Stream.kinds], by simp, rfl⟩
  rw [if_neg empty, if_neg empty]
  dsimp only
  have first : Told s [.frame]
      (Stream.tell { s with lastEventId := frame.id.getD s.lastEventId } .frame) :=
    ⟨kinds_tell _ _, by simp [Stream.tell], rfl⟩
  by_cases done : "\n".intercalate frame.data = "[DONE]"
  · rw [if_pos done, if_pos done]
    exact first
  rw [if_neg done, if_neg done]
  refine first.trans ?_
  cases json ("\n".intercalate frame.data) with
  | none =>
    dsimp only
    by_cases blank : "\n".intercalate frame.data = ""
    · rw [if_pos blank, if_pos blank]
      exact .nothing _
    · rw [if_neg blank, if_neg blank]
      exact ⟨kinds_tell _ _, by simp [Stream.tell], rfl⟩
  | some p => exact dispatch_told _ _ _ p

theorem handleFrames_told (s : Stream) (frames : List Frame) :
    Told s (frames.flatMap (Frame.kinds json)) (frames.foldl (handleFrame json) s) := by
  induction frames generalizing s with
  | nil => exact .nothing s
  | cons frame frames ih =>
    rw [List.foldl_cons, List.flatMap_cons]
    exact (handleFrame_told s frame).trans (ih _)

/-- The loop over the reads handles the frames that the reads are cut into. -/
theorem readLoop_eq (s : Stream) (buffer : Text) (chunks : List Text) :
    readLoop json s buffer chunks = ((readChunks buffer chunks).1.foldl (handleFrame json) s,
      (readChunks buffer chunks).2) := by
  induction chunks generalizing s buffer with
  | nil => rfl
  | cons chunk chunks ih =>
    simp only [readLoop, readChunks, ih, List.foldl_append]

/-! ## An attempt -/

/-- How an attempt ends, after its frames: in silence, with a callback, or by connecting again. -/
structure Attempted (json : String → Option Payload) (s : Stream) (c : Connection) (s' : Stream)
    (again : Bool) (opening ending : List Kind) : Prop where
  kinds : s'.kinds = s.kinds ++ .other :: .attempt ::
    (opening ++ (c.frames.flatMap (Frame.kinds json) ++ ending))
  opening : ∀ k ∈ opening, k = .other
  form : ending ∈ [[], [.other], [.terminal], [.terminal, .other], [.other, .terminal]]
  /-- A callback at the end comes where no frame has closed the stream. -/
  last : Kind.terminal ∈ ending → ∀ frame ∈ c.frames, frame.closes json = false
  goesOn : again = true → s'.closed = false ∧ ending = [.other] ∧
    (∀ frame ∈ c.frames, frame.closes json = false) ∧ s'.reconnectAttempts ≤ maxReconnectAttempts ∧
    (s'.reconnectAttempts = s.reconnectAttempts + 1 ∨
      s'.reconnectAttempts = 1 ∧ (c.idles = true ∨ c.delivers = true))

/-- What comes after the frames of an attempt. -/
structure Ended (s s' : Stream) (again : Bool) (ending : List Kind) : Prop where
  kinds : s'.kinds = s.kinds ++ ending
  form : ending ∈ [[], [.other], [.terminal], [.terminal, .other], [.other, .terminal]]
  last : Kind.terminal ∈ ending → s.closed = false
  goesOn : again = true → s.closed = false ∧ s'.closed = false ∧ ending = [.other] ∧
    s'.reconnectAttempts = s.reconnectAttempts + 1 ∧ s'.reconnectAttempts ≤ maxReconnectAttempts

theorem handleReconnect_ended (s : Stream) (error : SSEError) :
    ∃ ending, Ended s (handleReconnect s error).1 (handleReconnect s error).2 ending := by
  unfold handleReconnect
  by_cases closed : s.closed = true
  · rw [if_pos closed]
    exact ⟨[], by simp, by simp, by simp, by simp⟩
  · rw [if_neg closed]
    have open_ := Bool.eq_false_iff.mpr closed
    dsimp only
    by_cases many : maxReconnectAttempts < s.reconnectAttempts + 1
    · rw [if_pos many]
      refine ⟨[.terminal, .other], ?_, by simp, fun _ => open_, by simp⟩
      simp [Stream.kinds, Stream.tell, Event.kind]
    · rw [if_neg many]
      refine ⟨[.other], ?_, by simp, by simp, fun _ =>
        ⟨open_, open_, rfl, rfl, Nat.not_lt.mp many⟩⟩
      simp [Stream.kinds, Stream.tell, Event.kind]

theorem finish_ended (s : Stream) : ∃ ending, Ended s (finish s) false ending := by
  unfold finish
  by_cases closed : s.closed = true
  · rw [if_pos closed]
    exact ⟨[], by simp, by simp, by simp, by simp⟩
  · rw [if_neg closed]
    refine ⟨[.other, .terminal], ?_, by simp, fun _ => Bool.eq_false_iff.mpr closed, by simp⟩
    simp [Stream.kinds, Stream.tell, Event.kind]

/-- An attempt that does not open. -/
theorem Ended.attempted {s s₁ s' : Stream} {c : Connection} {again : Bool}
    {ending : List Kind} (h : Ended s₁ s' again ending) (none_ : c.frames = [])
    (kinds : s₁.kinds = s.kinds ++ [.other, .attempt])
    (attempts : s₁.reconnectAttempts = s.reconnectAttempts) :
    Attempted json s c s' again [] ending := by
  refine ⟨?_, by simp, h.form, by simp [none_], ?_⟩
  · rw [h.kinds, kinds, none_]
    simp
  · intro again_
    obtain ⟨-, closed, is, counted, few⟩ := h.goesOn again_
    exact ⟨closed, is, by simp [none_], few, .inl (by rw [counted, attempts])⟩

/-- An attempt that ends with an error. -/
theorem attempted_error {s s' : Stream} {c : Connection} (none_ : c.frames = [])
    (kinds : s'.kinds = s.kinds ++ [.other, .attempt, .terminal]) :
    Attempted json s c s' false [] [.terminal] :=
  ⟨by rw [kinds, none_]; simp, by simp, by simp, by simp [none_], by simp⟩

theorem connect_attempted (s : Stream) (open_ : s.closed = false) (c : Connection) :
    ∃ opening ending, Attempted json s c (connect json s c).1 (connect json s c).2 opening ending := by
  unfold connect
  rw [if_neg (by rw [open_]; exact Bool.false_ne_true)]
  dsimp only
  generalize started : (s.tell _).tell _ = s₁
  have kinds₁ : s₁.kinds = s.kinds ++ [.other, .attempt] := by
    rw [← started, kinds_tell, kinds_tell]
    simp [Event.kind]
  have attempts₁ : s₁.reconnectAttempts = s.reconnectAttempts := by rw [← started]; rfl
  have closed₁ : s₁.closed = false := by rw [← started]; exact open_
  cases c with
  | failed message =>
    obtain ⟨ending, ended⟩ := handleReconnect_ended s₁ ⟨0, message, true, false⟩
    exact ⟨_, _, ended.attempted rfl kinds₁ attempts₁⟩
  | refused status detail =>
    dsimp only
    unfold handleRefused
    dsimp only
    split
    · obtain ⟨ending, ended⟩ := handleReconnect_ended s₁ _
      exact ⟨_, _, ended.attempted rfl kinds₁ attempts₁⟩
    · refine ⟨_, _, attempted_error rfl ?_⟩
      change (s₁.tell _).kinds = _
      rw [kinds_tell, kinds₁, List.append_assoc]
      rfl
  | noBody =>
    refine ⟨_, _, attempted_error rfl ?_⟩
    change (s₁.tell _).kinds = _
    rw [kinds_tell, kinds₁, List.append_assoc]
    rfl
  | opened chunks dropped =>
    dsimp only
    rw [readLoop_eq]
    generalize opened : Stream.tell { s₁ with reconnectAttempts := 0 } _ = s₂
    have kinds₂ : s₂.kinds = s.kinds ++ [.other, .attempt, .other] := by
      rw [← opened, kinds_tell]
      change s₁.kinds ++ _ = _
      rw [kinds₁, List.append_assoc]
      rfl
    have closed₂ : s₂.closed = false := by
      rw [← opened]
      exact closed₁
    have attempts₂ : s₂.reconnectAttempts = 0 := by
      rw [← opened]
      rfl
    have read := @handleFrames_told json s₂ (readChunks [] chunks).1
    -- the frames of the connection are handled one after the other
    have frames {s₃ : Stream} {again : Bool} {ending : List Kind} {s' : Stream}
        (told : Told s₂ ((Connection.opened chunks dropped).frames.flatMap (Frame.kinds json)) s₃)
        (ended : Ended s₃ s' again ending)
        (idles : again = true → (Connection.opened chunks dropped).idles = true ∨
          (Connection.opened chunks dropped).delivers = true) :
        Attempted json s (.opened chunks dropped) s' again [.other] ending := by
      have quiet (open_ : s₃.closed = false) :
          ∀ frame ∈ (Connection.opened chunks dropped).frames, frame.closes json = false := by
        intro frame mem
        rw [told.closed, closed₂, Bool.false_or, decide_eq_false_iff_not] at open_
        exact decide_eq_false fun closes => open_ (List.mem_flatMap.mpr ⟨frame, mem, closes⟩)
      refine ⟨?_, by simp, ended.form, fun terminal => quiet (ended.last terminal), ?_⟩
      · rw [ended.kinds, told.kinds, kinds₂]
        simp
      · intro again_
        obtain ⟨open₃, closed, is, counted, few⟩ := ended.goesOn again_
        refine ⟨closed, is, quiet open₃, few, .inr ⟨?_, idles again_⟩⟩
        rw [counted, told.attempts, attempts₂]
    cases dropped with
    | some message =>
      obtain ⟨ending, ended⟩ := handleReconnect_ended
        ((readChunks [] chunks).1.foldl (handleFrame json) s₂) ⟨0, message, true, false⟩
      refine ⟨_, _, frames ?_ ended ?_⟩
      · simpa [Connection.frames] using read
      · intro _
        cases delivers : (Connection.opened chunks (some message)).delivers with
        | true => exact .inr rfl
        | false => exact .inl (by rw [Connection.idles, delivers]; rfl)
    | none =>
      dsimp only
      by_cases blank : trim (readChunks [] chunks).2 = []
      · rw [if_pos blank]
        obtain ⟨ending, ended⟩ := finish_ended
          ((readChunks [] chunks).1.foldl (handleFrame json) s₂)
        refine ⟨_, _, frames ?_ ended (by simp)⟩
        simpa [Connection.frames, blank] using read
      · rw [if_neg blank]
        obtain ⟨ending, ended⟩ := finish_ended (handleFrame json
          ((readChunks [] chunks).1.foldl (handleFrame json) s₂) (parseFrame (readChunks [] chunks).2))
        refine ⟨_, _, frames ?_ ended (by simp)⟩
        have last := read.trans (@handleFrame_told json _ (parseFrame (readChunks [] chunks).2))
        simpa [Connection.frames, blank] using last

end

end AgentStudio.Widget
