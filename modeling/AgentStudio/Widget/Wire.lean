import AgentStudio.Widget.Frames

/-!
# The stream as text

The frames of a text do not depend on how it is cut into reads, and the frame that `_sse` of the
route writes is the frame that the widget reads.
-/

namespace AgentStudio.Widget

/-! ## Reads -/

/-- The first blank line: what is before it and what is after it. -/
def cutBlank : Text → Text → Option (Text × Text)
  | part, '\r' :: '\n' :: '\r' :: '\n' :: rest => some (part, rest)
  | part, '\r' :: '\n' :: '\n' :: rest => some (part, rest)
  | part, '\n' :: '\r' :: '\n' :: rest => some (part, rest)
  | part, '\n' :: '\n' :: rest => some (part, rest)
  | part, c :: rest => cutBlank (part ++ [c]) rest
  | _, [] => none

theorem splitBlank_cut (part text : Text) : splitBlank part text =
    match cutBlank part text with
    | none => [part ++ text]
    | some (whole, rest) => whole :: splitBlank [] rest := by
  fun_induction cutBlank part text with
  | case1 | case2 | case3 | case4 => simp [splitBlank]
  | case5 part c rest h₁ h₂ h₃ h₄ ih =>
    rw [splitBlank, ih]
    · simp
    all_goals assumption
  | case6 part => simp [splitBlank]

theorem splitBlank_ne_nil (part text : Text) : splitBlank part text ≠ [] := by
  rw [splitBlank_cut]
  split
  · exact List.cons_ne_nil _ _
  · exact List.cons_ne_nil _ _

/-- A blank line is found the same when more text comes. -/
theorem cutBlank_append {part text whole rest : Text} (cut : cutBlank part text = some (whole, rest))
    (more : Text) : cutBlank part (text ++ more) = some (whole, rest ++ more) := by
  fun_induction cutBlank part text with
  | case1 | case2 | case3 | case4 =>
    cases cut
    rfl
  | case5 part c rest h₁ h₂ h₃ h₄ ih =>
    -- three characters decide what begins here; with fewer there is no blank line in the rest
    rcases rest with _ | ⟨d, _ | ⟨e, _ | ⟨f, tail⟩⟩⟩
    · cases cut
    · simp [cutBlank] at cut
    · by_cases both : d = '\n' ∧ e = '\n'
      · obtain ⟨rfl, rfl⟩ := both
        rw [List.cons_append, cutBlank]
        · exact ih cut
        all_goals
          intro tail is same
          simp_all
      · rw [cutBlank] at cut
        · simp [cutBlank] at cut
        all_goals simp_all
    · rw [List.cons_append, cutBlank]
      · exact ih cut
      all_goals
        intro tail is same
        simp only [List.cons_append, List.cons.injEq] at same
        simp_all
  | case6 => cases cut

theorem cutBlank_length {part text whole rest : Text} (cut : cutBlank part text = some (whole, rest)) :
    rest.length < text.length := by
  fun_induction cutBlank part text with
  | case1 | case2 | case3 | case4 =>
    cases cut
    simp
    try omega
  | case5 part c rest h₁ h₂ h₃ h₄ ih =>
    have := ih cut
    simp
    omega
  | case6 => cases cut

/-- What is left when more text comes is split with it. -/
theorem splitBlank_append (text more : Text) : splitBlank [] (text ++ more) =
    (splitBlank [] text).dropLast ++
      splitBlank [] ((splitBlank [] text).getLast?.getD [] ++ more) := by
  induction n : text.length using Nat.strong_induction_on generalizing text with
  | _ n ih =>
    subst n
    cases cut : cutBlank [] text with
    | none =>
      rw [splitBlank_cut [] text, cut]
      rfl
    | some found =>
      obtain ⟨whole, rest⟩ := found
      have parts : splitBlank [] text = whole :: splitBlank [] rest := by
        rw [splitBlank_cut, cut]
      have some_ : splitBlank [] rest ≠ [] := splitBlank_ne_nil [] rest
      rw [splitBlank_cut [] (text ++ more), cutBlank_append cut, parts]
      dsimp only
      rw [ih _ (cutBlank_length cut) rest rfl, List.dropLast_cons_of_ne_nil some_,
        List.getLast?_cons_of_ne_nil some_, List.cons_append]

/-- The last part has no blank line of its own. -/
theorem splitBlank_last (text : Text) :
    splitBlank [] ((splitBlank [] text).getLast?.getD []) =
      [(splitBlank [] text).getLast?.getD []] := by
  induction n : text.length using Nat.strong_induction_on generalizing text with
  | _ n ih =>
    subst n
    cases cut : cutBlank [] text with
    | none =>
      have one : splitBlank [] text = [text] := by rw [splitBlank_cut, cut, List.nil_append]
      simp [one]
    | some found =>
      obtain ⟨whole, rest⟩ := found
      have parts : splitBlank [] text = whole :: splitBlank [] rest := by
        rw [splitBlank_cut, cut]
      rw [parts, List.getLast?_cons_of_ne_nil (splitBlank_ne_nil [] rest)]
      exact ih _ (cutBlank_length cut) rest rfl

/-- The frames and the rest of what is read do not depend on the reads. -/
theorem readChunks_eq (chunks : List Text) {buffer : Text} (unsplit : splitBlank [] buffer = [buffer]) :
    readChunks buffer chunks =
      ((splitBlank [] (buffer ++ chunks.flatten)).dropLast.map parseFrame,
        (splitBlank [] (buffer ++ chunks.flatten)).getLast?.getD []) := by
  induction chunks generalizing buffer with
  | nil => simp [readChunks, unsplit]
  | cons chunk chunks ih =>
    have left_ := splitBlank_ne_nil []
      ((splitBlank [] (buffer ++ chunk)).getLast?.getD [] ++ chunks.flatten)
    rw [readChunks, readChunk]
    dsimp only
    rw [ih (splitBlank_last _), List.flatten_cons, ← List.append_assoc,
      splitBlank_append (buffer ++ chunk), List.dropLast_append_of_ne_nil left_,
      List.getLast?_append_of_ne_nil _ left_, List.map_append]

/-! ## Lines -/

/-- A line with text in it. -/
structure Line (line : Text) : Prop where
  some_ : line ≠ []
  plain : ∀ c ∈ line, c ≠ '\n' ∧ c ≠ '\r'

/-- Lines, and the blank line after them. -/
def written (lines : List Text) : Text := lines.flatMap (· ++ ['\n']) ++ ['\n']

theorem splitBlank_plain {line : Text} (plain : ∀ c ∈ line, c ≠ '\n' ∧ c ≠ '\r') (part rest : Text) :
    splitBlank part (line ++ rest) = splitBlank (part ++ line) rest := by
  induction line generalizing part with
  | nil => simp
  | cons c line ih =>
    obtain ⟨newline, return_⟩ := plain c List.mem_cons_self
    rw [List.cons_append, splitBlank]
    · rw [ih fun d mem => plain d (List.mem_cons_of_mem _ mem)]
      simp
    · intro tail is
      exact absurd is return_
    · intro tail is
      exact absurd is return_
    · intro tail is
      exact absurd is newline
    · intro tail is
      exact absurd is newline

/-- The frame that lines with a blank line after them make. -/
theorem splitBlank_written {lines : List Text} (some_ : lines ≠ []) (each : ∀ line ∈ lines, Line line)
    (part rest : Text) : splitBlank part (written lines ++ rest) =
      (part ++ List.intercalate ['\n'] lines) :: splitBlank [] rest := by
  induction lines generalizing part with
  | nil => exact absurd rfl some_
  | cons line lines ih =>
    have first := each line List.mem_cons_self
    cases lines with
    | nil =>
      have text : written [line] ++ rest = line ++ ('\n' :: '\n' :: rest) := by simp [written]
      rw [text, splitBlank_plain first.plain, splitBlank, List.intercalate_singleton]
    | cons next lines =>
      have later := each next (by simp)
      obtain ⟨c, tail, rfl⟩ := List.exists_cons_of_ne_nil later.some_
      obtain ⟨newline, return_⟩ := later.plain c List.mem_cons_self
      have text : written (line :: (c :: tail) :: lines) ++ rest =
          line ++ ('\n' :: (written ((c :: tail) :: lines) ++ rest)) := by
        simp [written]
      have goesOn : splitBlank (part ++ line) ('\n' :: (written ((c :: tail) :: lines) ++ rest)) =
          splitBlank (part ++ line ++ ['\n']) (written ((c :: tail) :: lines) ++ rest) := by
        have head : ∃ t, written ((c :: tail) :: lines) ++ rest = c :: t := by simp [written]
        obtain ⟨t, head⟩ := head
        rw [head, splitBlank]
        all_goals simp_all
      rw [text, splitBlank_plain first.plain, goesOn,
        ih (List.cons_ne_nil _ _) fun line mem => each line (List.mem_cons_of_mem _ mem),
        List.intercalate_cons_cons]
      simp

theorem splitLines_plain {line : Text} (plain : ∀ c ∈ line, c ≠ '\n' ∧ c ≠ '\r') (part rest : Text) :
    splitLines part (line ++ rest) = splitLines (part ++ line) rest := by
  induction line generalizing part with
  | nil => simp
  | cons c line ih =>
    obtain ⟨newline, return_⟩ := plain c List.mem_cons_self
    rw [List.cons_append, splitLines]
    · rw [ih fun d mem => plain d (List.mem_cons_of_mem _ mem)]
      simp
    · intro tail is
      exact absurd is return_
    · exact newline

theorem splitLines_intercalate {lines : List Text} (some_ : lines ≠ [])
    (each : ∀ line ∈ lines, Line line) : splitLines [] (List.intercalate ['\n'] lines) = lines := by
  induction lines with
  | nil => exact absurd rfl some_
  | cons line lines ih =>
    have first := each line List.mem_cons_self
    have own (rest : Text) : splitLines [] (line ++ rest) = splitLines line rest := by
      rw [splitLines_plain first.plain, List.nil_append]
    cases lines with
    | nil =>
      rw [List.intercalate_singleton, ← List.append_nil line, own, List.append_nil, splitLines]
    | cons next lines =>
      rw [List.intercalate_cons_cons, List.append_assoc, own, List.singleton_append, splitLines,
        ih (List.cons_ne_nil _ _) fun line mem => each line (List.mem_cons_of_mem _ mem)]

/-! ## Fields -/

theorem trimStart_eq {text : Text} (first : ∀ c, text.head? = some c → isSpace c = false) :
    trimStart text = text := by
  cases text with
  | nil => rfl
  | cons c text => simp [trimStart, first c rfl]

theorem trim_eq {text : Text} (first : ∀ c, text.head? = some c → isSpace c = false)
    (last : ∀ c, text.getLast? = some c → isSpace c = false) : trim text = text := by
  unfold trim
  rw [trimStart_eq first, trimStart_eq, List.reverse_reverse]
  intro c here
  rw [List.head?_reverse] at here
  exact last c here

/-- A text without blanks. -/
structure Word (text : Text) : Prop where
  some_ : text ≠ []
  solid : ∀ c ∈ text, isSpace c = false

theorem Word.trim {text : Text} (h : Word text) : Widget.trim text = text :=
  trim_eq (fun c here => h.solid c (List.mem_of_head? here))
    fun c here => h.solid c (List.mem_of_getLast? here)

theorem Word.trim_blank {text : Text} (h : Word text) : Widget.trim (' ' :: text) = text := by
  have skipped : trimStart (' ' :: text) = text := by
    change trimStart text = text
    exact trimStart_eq fun c here => h.solid c (List.mem_of_head? here)
  have whole := h.trim
  unfold Widget.trim at whole ⊢
  rw [skipped]
  rwa [trimStart_eq fun c here => h.solid c (List.mem_of_head? here)] at whole

theorem Word.plain {text : Text} (h : Word text) : ∀ c ∈ text, c ≠ '\n' ∧ c ≠ '\r' := by
  intro c mem
  have solid := h.solid c mem
  constructor
  · rintro rfl
    exact absurd solid (by decide)
  · rintro rfl
    exact absurd solid (by decide)

theorem isSpace_digit {c : Char} (digit : c.isDigit = true) : isSpace c = false := by
  obtain ⟨low, high⟩ : 48 ≤ c.toNat ∧ c.toNat ≤ 57 := by
    simp only [Char.isDigit, Bool.and_eq_true, decide_eq_true_eq] at digit
    exact digit
  unfold isSpace
  grind

theorem word_toString (n : Nat) : Word (toString n).toList := by
  have digits : (toString n).toList = Nat.toDigits 10 n := by
    rw [Nat.toString_eq_ofList_toDigits, String.toList_ofList]
  refine ⟨?_, ?_⟩
  · rw [digits]
    exact Nat.toDigits_ne_nil
  · intro c mem
    rw [digits] at mem
    have digit := Nat.isDigit_of_mem_toDigits (by decide) (by decide) mem
    exact isSpace_digit digit

/-- The text of a JSON object, on one line. -/
structure ObjectText (text : String) : Prop where
  braces : ∃ inner, text.toList = '{' :: inner ++ ['}']
  plain : ∀ c ∈ text.toList, c ≠ '\n' ∧ c ≠ '\r'

theorem trim_labelled {c : Char} {label text : Text} (first : isSpace c = false) (some_ : text ≠ [])
    (last : ∀ c, text.getLast? = some c → isSpace c = false) :
    trim (c :: label ++ text) = c :: label ++ text := by
  refine trim_eq ?_ ?_
  · rintro _ ⟨⟩
    exact first
  · intro d here
    rw [List.getLast?_append_of_ne_nil _ some_] at here
    exact last d here

theorem Word.last {word : Text} (h : Word word) : ∀ c, word.getLast? = some c → isSpace c = false :=
  fun c here => h.solid c (List.mem_of_getLast? here)

theorem readLine_id {word : Text} (h : Word word) (frame : Frame) :
    readLine frame ("id: ".toList ++ word) = { frame with id := some (String.ofList word) } := by
  have line : trim ("id: ".toList ++ word) = "id: ".toList ++ word :=
    trim_labelled (by decide) h.some_ h.last
  have name : field "id:" ("id: ".toList ++ word) = some (' ' :: word) := rfl
  unfold readLine
  rw [line]
  dsimp only
  rw [name]
  dsimp only
  rw [h.trim_blank]

theorem readLine_event {word : Text} (h : Word word) (frame : Frame) :
    readLine frame ("event: ".toList ++ word) = { frame with event := String.ofList word } := by
  have line : trim ("event: ".toList ++ word) = "event: ".toList ++ word :=
    trim_labelled (by decide) h.some_ h.last
  have other : field "id:" ("event: ".toList ++ word) = none := rfl
  have name : field "event:" ("event: ".toList ++ word) = some (' ' :: word) := rfl
  unfold readLine
  rw [line]
  dsimp only
  rw [other, name]
  dsimp only
  rw [h.trim_blank]

theorem readLine_data {data : String} (h : ObjectText data) (frame : Frame) :
    readLine frame ("data: ".toList ++ data.toList) = { frame with data := frame.data ++ [data] } := by
  obtain ⟨inner, braces⟩ := h.braces
  have line : trim ("data: ".toList ++ data.toList) = "data: ".toList ++ data.toList := by
    refine trim_labelled (by decide) (by simp [braces]) ?_
    rw [braces, List.cons_append, List.getLast?_cons_of_ne_nil (by simp), List.getLast?_concat]
    rintro c ⟨⟩
    decide
  have other : field "id:" ("data: ".toList ++ data.toList) = none := rfl
  have other' : field "event:" ("data: ".toList ++ data.toList) = none := rfl
  have name : field "data:" ("data: ".toList ++ data.toList) = some (' ' :: data.toList) := rfl
  have start : trimStart (' ' :: data.toList) = data.toList := by
    change trimStart data.toList = data.toList
    refine trimStart_eq ?_
    rw [braces]
    rintro c ⟨⟩
    decide
  unfold readLine
  rw [line]
  dsimp only
  rw [other, other', name]
  dsimp only
  rw [start, String.ofList_toList]

/-! ## Frames with labels -/

/-- The lines of a frame with a name, a text and perhaps an id. -/
def labelledLines (event data : String) (id : Option String) : List Text :=
  (id.toList.map fun id => "id: ".toList ++ id.toList) ++
    ["event: ".toList ++ event.toList, "data: ".toList ++ data.toList]

theorem labelledLines_ne_nil (event data : String) (id : Option String) :
    labelledLines event data id ≠ [] := by
  simp [labelledLines]

theorem labelledLines_lines {event data : String} {id : Option String} (word : Word event.toList)
    (object : ObjectText data) (id_word : ∀ i ∈ id, Word i.toList) :
    ∀ line ∈ labelledLines event data id, Line line := by
  have labelled (label text : Text) (some_ : label ≠ [])
      (fine : ∀ c ∈ label, c ≠ '\n' ∧ c ≠ '\r') (plain : ∀ c ∈ text, c ≠ '\n' ∧ c ≠ '\r') :
      Line (label ++ text) := by
    refine ⟨by simp [some_], fun c mem => ?_⟩
    rcases List.mem_append.mp mem with mem | mem
    · exact fine c mem
    · exact plain c mem
  intro line mem
  simp only [labelledLines, List.mem_append, List.mem_map, Option.mem_toList, List.mem_cons,
    List.not_mem_nil, or_false] at mem
  rcases mem with ⟨i, i_in, rfl⟩ | rfl | rfl
  · exact labelled _ _ (by simp) (by simp) (id_word i i_in).plain
  · exact labelled _ _ (by simp) (by simp) word.plain
  · exact labelled _ _ (by simp) (by simp) object.plain

/-- What the lines say is read back. -/
theorem parseFrame_labelled {event data : String} {id : Option String} (word : Word event.toList)
    (object : ObjectText data) (id_word : ∀ i ∈ id, Word i.toList) :
    parseFrame (List.intercalate ['\n'] (labelledLines event data id)) = ⟨id, event, [data]⟩ := by
  rw [parseFrame, splitLines_intercalate (labelledLines_ne_nil event data id)
    (labelledLines_lines word object id_word)]
  cases id with
  | none =>
    simp only [labelledLines, Option.toList_none, List.map_nil, List.nil_append, List.foldl_cons,
      List.foldl_nil]
    rw [readLine_event word, readLine_data object, String.ofList_toList]
    rfl
  | some i =>
    simp only [labelledLines, Option.toList_some, List.map_cons, List.map_nil, List.cons_append,
      List.nil_append, List.foldl_cons, List.foldl_nil]
    rw [readLine_id (id_word i rfl), readLine_event word, readLine_data object,
      String.ofList_toList, String.ofList_toList]
    rfl

/-- Frames one after the other, each cut off by its blank line. -/
theorem splitBlank_frames {frames : List (List Text)} (some_ : ∀ lines ∈ frames, lines ≠ [])
    (each : ∀ lines ∈ frames, ∀ line ∈ lines, Line line) :
    splitBlank [] (frames.flatMap written) = frames.map (List.intercalate ['\n']) ++ [[]] := by
  induction frames with
  | nil => rfl
  | cons lines frames ih =>
    rw [List.flatMap_cons, splitBlank_written (some_ lines List.mem_cons_self)
      (each lines List.mem_cons_self), ih (fun lines mem => some_ lines (List.mem_cons_of_mem _ mem))
      fun lines mem => each lines (List.mem_cons_of_mem _ mem)]
    rfl

/-- All frames are read where all of their text is. -/
theorem readChunks_frames {chunks : List Text} {frames : List (List Text)}
    (some_ : ∀ lines ∈ frames, lines ≠ []) (each : ∀ lines ∈ frames, ∀ line ∈ lines, Line line)
    (whole : chunks.flatten = frames.flatMap written) :
    readChunks [] chunks =
      (frames.map fun lines => parseFrame (List.intercalate ['\n'] lines), []) := by
  rw [readChunks_eq chunks rfl, List.nil_append, whole, splitBlank_frames some_ each,
    List.dropLast_concat, List.getLast?_concat, List.map_map]
  rfl

/-! ## Frames of the route -/

/-- `_sse`; `data` is the JSON text of the payload. -/
def sse (event data : String) (eventId : Option Nat) : Text :=
  let header :=
    match eventId with
    | some id => "id: " ++ toString id ++ "\n"
    | none => ""
  (header ++ "event: " ++ event ++ "\ndata: " ++ data ++ "\n\n").toList

def sseLines (event data : String) (eventId : Option Nat) : List Text :=
  (eventId.toList.map fun id => "id: ".toList ++ (toString id).toList) ++
    ["event: ".toList ++ event.toList, "data: ".toList ++ data.toList]

theorem sse_written (event data : String) (eventId : Option Nat) :
    sse event data eventId = written (sseLines event data eventId) := by
  cases eventId with
  | none => simp [sse, written, sseLines]
  | some id => simp [sse, written, sseLines]

theorem sseLines_labelled (event data : String) (eventId : Option Nat) :
    sseLines event data eventId = labelledLines event data (eventId.map toString) := by
  cases eventId <;> rfl

theorem word_eventId (eventId : Option Nat) : ∀ i ∈ eventId.map toString, Word i.toList := by
  intro i i_in
  obtain ⟨n, -, rfl⟩ := Option.mem_map.mp i_in
  exact word_toString n

theorem sseLines_lines {event data : String} (word : Word event.toList) (object : ObjectText data)
    (eventId : Option Nat) : ∀ line ∈ sseLines event data eventId, Line line := by
  rw [sseLines_labelled]
  exact labelledLines_lines word object (word_eventId eventId)

/-- What `_sse` writes is read back. -/
theorem parseFrame_sse {event data : String} (word : Word event.toList) (object : ObjectText data)
    (eventId : Option Nat) :
    parseFrame (List.intercalate ['\n'] (sseLines event data eventId)) =
      ⟨eventId.map toString, event, [data]⟩ := by
  rw [sseLines_labelled]
  exact parseFrame_labelled word object (word_eventId eventId)

/-! ## Packets -/

/-- What `_sse` is given: the name of an event, and the text of an object. -/
structure Packet where
  event : String
  data : String
  eventId : Option Nat
  word : Word event.toList
  object : ObjectText data

def Packet.text (p : Packet) : Text := sse p.event p.data p.eventId

/-- The frame that the widget reads. -/
def Packet.frame (p : Packet) : Frame := ⟨p.eventId.map toString, p.event, [p.data]⟩

def Packet.body (p : Packet) : Text :=
  List.intercalate ['\n'] (sseLines p.event p.data p.eventId)

theorem parseFrame_body (p : Packet) : parseFrame p.body = p.frame :=
  parseFrame_sse p.word p.object p.eventId

theorem splitBlank_packets (packets : List Packet) :
    splitBlank [] (packets.flatMap Packet.text) = packets.map Packet.body ++ [[]] := by
  have text : packets.flatMap Packet.text =
      (packets.map fun p => sseLines p.event p.data p.eventId).flatMap written := by
    rw [List.flatMap_map]
    exact congrArg (packets.flatMap ·) (funext fun p => sse_written p.event p.data p.eventId)
  rw [text, splitBlank_frames, List.map_map]
  · rfl
  · intro lines mem
    obtain ⟨p, -, rfl⟩ := List.mem_map.mp mem
    exact List.append_ne_nil_of_right_ne_nil _ (List.cons_ne_nil _ _)
  · intro lines mem
    obtain ⟨p, -, rfl⟩ := List.mem_map.mp mem
    exact sseLines_lines p.word p.object p.eventId

theorem frames_packets (packets : List Packet) :
    (packets.map Packet.body).map parseFrame = packets.map Packet.frame := by
  rw [List.map_map]
  exact List.map_congr_left fun p _ => parseFrame_body p

/-- All packets are read where all of the text is. -/
theorem readChunks_whole {chunks : List Text} {packets : List Packet}
    (whole : chunks.flatten = packets.flatMap Packet.text) :
    readChunks [] chunks = (packets.map Packet.frame, []) := by
  rw [readChunks_eq chunks rfl, List.nil_append, whole, splitBlank_packets, List.dropLast_concat,
    List.getLast?_concat, frames_packets]
  rfl

/-- Where the connection drops, the first packets are read. -/
theorem readChunks_prefix {chunks : List Text} {packets : List Packet}
    (part : chunks.flatten <+: packets.flatMap Packet.text) :
    (readChunks [] chunks).1 <+: packets.map Packet.frame := by
  obtain ⟨rest, whole⟩ := part
  have parts := splitBlank_append chunks.flatten rest
  rw [whole, splitBlank_packets] at parts
  rw [readChunks_eq chunks rfl, ← frames_packets]
  refine List.IsPrefix.map parseFrame ?_
  have left_ := splitBlank_ne_nil [] ((splitBlank [] chunks.flatten).getLast?.getD [] ++ rest)
  have most := congrArg List.dropLast parts
  rw [List.dropLast_concat, List.dropLast_append_of_ne_nil left_] at most
  rw [most]
  exact List.prefix_append _ _

end AgentStudio.Widget
