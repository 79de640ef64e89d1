import AgentStudio.Widget.Attempts
import AgentStudio.Widget.Utf8
import AgentStudio.Widget.Wire

/-!
# The stream as bytes

The frames that `_sse` of the route writes, as the bytes that are sent, and the read loop of the
widget on any partition of them.

* `readBytes_eq`: the loop reads what the decoder makes of the bytes;
* `parsed_sent`: what is sent is parsed, each frame once and in order.
-/

namespace AgentStudio.Widget

/-! ## The route -/

/-- `json.dumps` of an object, on one line, and `JSON.parse`, which undoes it. -/
structure Json (P : Type) where
  dumps : P → String
  parse : String → Option P
  undo : ∀ payload, parse (dumps payload) = some payload
  object : ∀ payload, ObjectText (dumps payload)

/-- What `_sse` is given; the name of the event has no whitespace. -/
structure Sent (P : Type) where
  event : String
  payload : P
  eventId : Option ℤ := none
  word : Word event.toList

variable {P : Type} (json : Json P)

/-- `_sse`. -/
def Sent.text (sent : Sent P) : Text :=
  let header :=
    match sent.eventId with
    | some id => "id: " ++ toString id ++ "\n"
    | none => ""
  (header ++ "event: " ++ sent.event ++ "\ndata: " ++ json.dumps sent.payload ++ "\n\n").toList

/-- The body of the response. -/
def body (frames : List (Sent P)) : List UInt8 := Utf8.encode (frames.flatMap (Sent.text json))

/-! ## The widget -/

/-- The read loop of `connect`: the frames that come, and what is left at the end. -/
def readBytes : Utf8.Decoder → Text → List (List UInt8) → List Frame × Text
  | _, buffer, [] => ([], buffer)
  | decoder, buffer, value :: reads =>
    let (chunk, decoder) := decoder.decode value
    let (frames, buffer) := readChunk buffer chunk
    let (more, rest) := readBytes decoder buffer reads
    (frames ++ more, rest)

/-- All frames of a connection, with the flush of one that has no blank line after it. -/
def framesRead (reads : List (List UInt8)) : List Frame :=
  let (frames, buffer) := readBytes {} [] reads
  if trim buffer = [] then frames else frames ++ [parseFrame buffer]

/-- What `handleFrame` makes of a frame before its switch. -/
structure Parsed (P : Type) where
  event : String
  id : Option String
  payload : P

/-- `handleFrame` up to its switch; nothing where there is no data, or none that is parsed. -/
def parsed (frame : Frame) : Option (Parsed P) :=
  if frame.data = [] then none
  else
    let data := "\n".intercalate frame.data
    if data = "[DONE]" then none
    else (json.parse data).map fun payload => ⟨frame.event, frame.id, payload⟩

/-- What was sent, as it should be parsed. -/
def Sent.parsed (sent : Sent P) : Parsed P := ⟨sent.event, sent.eventId.map toString, sent.payload⟩

/-! ## Reads -/

theorem readBytes_eq (decoder : Utf8.Decoder) (buffer : Text) (reads : List (List UInt8)) :
    readBytes decoder buffer reads = readChunks buffer (Utf8.decodeAll decoder reads) := by
  induction reads generalizing decoder buffer with
  | nil => rfl
  | cons value reads ih =>
    rw [readBytes, Utf8.decodeAll, readChunks]
    dsimp only
    rw [ih]

/-! ## Frames -/

theorem word_toString_int (id : ℤ) : Word (toString id).toList := by
  cases id with
  | ofNat n => exact word_toString n
  | negSucc n =>
    have minus : (toString (Int.negSucc n)).toList = '-' :: (toString (n + 1)).toList := by
      change ("-" ++ toString (n + 1)).toList = _
      rw [String.toList_append]
      rfl
    rw [minus]
    refine ⟨List.cons_ne_nil _ _, ?_⟩
    intro c mem
    rcases List.mem_cons.mp mem with rfl | digit
    · decide
    · exact (word_toString (n + 1)).solid c digit

variable {json} {sent : Sent P}

/-- The lines of a frame. -/
def Sent.lines (json : Json P) (sent : Sent P) : List Text :=
  labelledLines sent.event (json.dumps sent.payload) (sent.eventId.map toString)

theorem text_written (sent : Sent P) : sent.text json = written (sent.lines json) := by
  unfold Sent.text Sent.lines labelledLines
  cases sent.eventId with
  | none => simp [written]
  | some id => simp [written]

theorem word_id (sent : Sent P) : ∀ i ∈ sent.eventId.map toString, Word i.toList := by
  intro i i_in
  obtain ⟨id, -, rfl⟩ := Option.mem_map.mp i_in
  exact word_toString_int id

/-- The frame of what was sent. -/
theorem parseFrame_sent (json : Json P) (sent : Sent P) :
    parseFrame (List.intercalate ['\n'] (sent.lines json)) =
      ⟨sent.eventId.map toString, sent.event, [json.dumps sent.payload]⟩ :=
  parseFrame_labelled sent.word (json.object sent.payload) (word_id sent)

theorem parsed_frame (json : Json P) (sent : Sent P) :
    parsed json ⟨sent.eventId.map toString, sent.event, [json.dumps sent.payload]⟩ =
      some sent.parsed := by
  have not_done : json.dumps sent.payload ≠ "[DONE]" := by
    intro done
    obtain ⟨inner, braces⟩ := (json.object sent.payload).braces
    rw [done] at braces
    exact absurd (List.cons.inj braces).1 (by decide)
  have one : "\n".intercalate [json.dumps sent.payload] = json.dumps sent.payload :=
    String.intercalate_singleton
  unfold parsed
  rw [if_neg (List.cons_ne_nil _ _)]
  dsimp only
  rw [one, if_neg not_done, json.undo]
  rfl

theorem lines_ne_nil (json : Json P) (frames : List (Sent P)) :
    ∀ lines ∈ frames.map (Sent.lines json), lines ≠ [] := by
  intro lines mem
  obtain ⟨sent, -, rfl⟩ := List.mem_map.mp mem
  exact labelledLines_ne_nil _ _ _

theorem lines_lines (json : Json P) (frames : List (Sent P)) :
    ∀ lines ∈ frames.map (Sent.lines json), ∀ line ∈ lines, Line line := by
  intro lines mem
  obtain ⟨sent, -, rfl⟩ := List.mem_map.mp mem
  exact labelledLines_lines sent.word (json.object sent.payload) (word_id sent)

/-- Where all of the text is read, all frames are, and nothing is left. -/
theorem readChunks_sent {json : Json P} {frames : List (Sent P)} {chunks : List Text}
    (whole : chunks.flatten = frames.flatMap (Sent.text json)) :
    readChunks [] chunks = (frames.map fun sent =>
      ⟨sent.eventId.map toString, sent.event, [json.dumps sent.payload]⟩, []) := by
  have text : frames.flatMap (Sent.text json) =
      (frames.map (Sent.lines json)).flatMap written := by
    rw [List.flatMap_map]
    exact congrArg (frames.flatMap ·) (funext fun sent => text_written sent)
  rw [readChunks_frames (lines_ne_nil json frames) (lines_lines json frames) (whole.trans text),
    List.map_map]
  congr 1
  exact List.map_congr_left fun sent _ => parseFrame_sent json sent

/-- No text of the route starts with a mark that the decoder drops. -/
theorem text_unmarked (json : Json P) (frames : List (Sent P)) :
    (frames.flatMap (Sent.text json)).head? ≠ some Utf8.byteOrderMark := by
  cases frames with
  | nil => exact nofun
  | cons sent frames =>
    rw [List.flatMap_cons, text_written]
    unfold Sent.lines labelledLines
    cases sent.eventId with
    | none => simp [written, Utf8.byteOrderMark]
    | some id => simp [written, Utf8.byteOrderMark]

/-- What the decoder makes of a partition of the body. -/
theorem decoded_sent {json : Json P} {frames : List (Sent P)} {reads : List (List UInt8)}
    (partition : reads.flatten = body json frames) :
    (Utf8.decodeAll {} reads).flatten = frames.flatMap (Sent.text json) := by
  rw [Utf8.decodeAll_eq, partition, body, Utf8.decode_encode _ (text_unmarked json frames)]

/-- What is sent is parsed, each frame once and in order, however its bytes come; and the widget
does what it does when all of it comes at once. -/
theorem parsed_sent (json : Json P) (frames : List (Sent P)) (reads : List (List UInt8))
    (partition : reads.flatten = body json frames) :
    (framesRead reads).map (parsed json) = frames.map (fun sent => some sent.parsed) ∧
      ∀ (view : P → Payload) (s : Stream),
        connect (fun data => (json.parse data).map view) s
            (.opened (Utf8.decodeAll {} reads) none) =
          connect (fun data => (json.parse data).map view) s
            (.opened [frames.flatMap (Sent.text json)] none) := by
  have decoded := decoded_sent partition
  constructor
  · unfold framesRead
    rw [readBytes_eq, readChunks_sent decoded]
    dsimp only
    rw [if_pos (by rfl), List.map_map]
    exact List.map_congr_left fun sent _ => parsed_frame json sent
  · intro view s
    have one : [frames.flatMap (Sent.text json)].flatten = frames.flatMap (Sent.text json) :=
      List.flatten_singleton
    unfold connect
    dsimp only
    rw [readLoop_eq, readLoop_eq, readChunks_sent decoded, readChunks_sent one]

/-- `json` on the empty object. -/
def emptyObject : Json Unit where
  dumps _ := "\x7b\x7d"
  parse data := if data = "\x7b\x7d" then some () else none
  undo _ := rfl
  object _ := ⟨⟨[], rfl⟩, by simp⟩

theorem delta_word : Word "delta".toList := ⟨by simp, by simp [isSpace]⟩

def deltaSent : Sent Unit where
  event := "delta"
  payload := ()
  eventId := some (-3)
  word := delta_word

/-- A frame that comes in two reads, cut in its id. -/
theorem parsed_sent_delta :
    ([(body emptyObject [deltaSent]).take 5, (body emptyObject [deltaSent]).drop 5] :
      List (List UInt8)).flatten = body emptyObject [deltaSent] ∧
    (framesRead [(body emptyObject [deltaSent]).take 5,
      (body emptyObject [deltaSent]).drop 5]).map (parsed emptyObject) =
        [some deltaSent.parsed] := by
  have partition : ([(body emptyObject [deltaSent]).take 5,
      (body emptyObject [deltaSent]).drop 5] : List (List UInt8)).flatten =
        body emptyObject [deltaSent] := by
    rw [List.flatten_cons, List.flatten_singleton, List.take_append_drop]
  exact ⟨partition, (parsed_sent emptyObject [deltaSent] _ partition).1⟩

end AgentStudio.Widget
