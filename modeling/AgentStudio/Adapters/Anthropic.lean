import AgentStudio.Adapters.Agreement

/-!
# The adapter of Anthropic

`AnthropicAdapter.chat` decodes the content blocks of one message, `stream` reads the events that
build it. A structured answer is the input of a hidden tool: `chat` makes it the content, and
`stream` shows it as the call of a tool.
-/

namespace AgentStudio.Adapters.Anthropic

open Gateway Async

/-- What the wire's usage object reports. -/
structure TokenUsage where
  inputTokens : Option ℤ := none
  outputTokens : Option ℤ := none
  reasoningTokens : Option ℤ := none
  cacheReadInputTokens : Option ℤ := none
  cacheCreationInputTokens : Option ℤ := none
  deriving DecidableEq

def cachedTokens (usage : TokenUsage) : ℤ :=
  usage.cacheReadInputTokens.getD 0 + usage.cacheCreationInputTokens.getD 0

/-- `_anthropic_usage`. -/
def anthropicUsage : Option TokenUsage → Usage
  | none => zeroUsage
  | some usage => canonicalUsage (usage.inputTokens.getD 0) (usage.outputTokens.getD 0)
      (usage.reasoningTokens.getD 0) (cachedTokens usage)

/-- A block of a message's content; `other` is any that holds neither text nor a call. -/
inductive ContentBlock where
  | text (text : String)
  | toolUse (id name : String) (input : Option JsonObject)
  | other

structure Message where
  content : List ContentBlock
  model : String
  stopReason : Option Reason := none
  usage : Option TokenUsage := none

/-- `STRUCTURED_OUTPUT_TOOL_NAME`. -/
def structuredOutputToolName : String := "__structured_output__"

/-- What `_parse_anthropic_content` makes of one block: a part of the text, or a call. -/
def parseBlock (structured : Bool) : ContentBlock → String × List ToolCall
  | .text text => (text, [])
  | .toolUse id name input =>
    let body := (input.getD JsonObject.empty).dumps
    if structured ∧ name = structuredOutputToolName then (body, [])
    else ("", [{ id := id, name := name, arguments := .object body }])
  | .other => ("", [])

/-- `_parse_anthropic_content`. -/
def parseAnthropicContent (structured : Bool) (blocks : List ContentBlock) :
    String × List ToolCall :=
  (String.join (blocks.map fun block => (parseBlock structured block).1),
    blocks.flatMap fun block => (parseBlock structured block).2)

/-- `chat`; `structured` tells that an output schema is configured. -/
def chat (structured : Bool) (message : Message) : LLMResponse :=
  let ⟨content, calls⟩ := parseAnthropicContent structured message.content
  { content := content
    model := message.model
    usage := anthropicUsage message.usage
    finishReason := message.stopReason.map Reason.name
    toolCalls := if calls = [] then none else some calls }

inductive BlockStart where
  | text (text : String)
  | toolUse (id name : String)
  | other
  deriving DecidableEq

inductive BlockDelta where
  | text (text : String)
  | inputJson (partialJson : String)
  | other
  deriving DecidableEq

/-- What `message_delta` reports; its counts are those of the whole message so far. -/
structure DeltaUsage where
  inputTokens : Option ℤ := none
  outputTokens : Option ℤ := none
  cacheReadInputTokens : Option ℤ := none
  cacheCreationInputTokens : Option ℤ := none
  deriving DecidableEq

structure MessageDelta where
  stopReason : Option Reason := none
  usage : Option DeltaUsage := none
  deriving DecidableEq

/-- The events of the wire; `other` is any that `stream` has no branch for. -/
inductive StreamEvent where
  | messageStart (usage : Option TokenUsage)
  | contentBlockStart (index : Nat) (block : BlockStart)
  | contentBlockDelta (index : Nat) (delta : BlockDelta)
  | contentBlockStop (index : Nat)
  | messageDelta (delta : MessageDelta)
  | error (message : String)
  | messageStop
  | other
  deriving DecidableEq

structure OpenTool where
  id : String := ""
  name : String := ""

/-- The variables of `stream`. -/
structure Reading where
  usage : Usage := zeroUsage
  finishReason : Option Reason := none
  openTools : List (Nat × OpenTool) := []

/-- `usage[USAGE_OUTPUT] = tokens`. -/
def setOutput (usage : Usage) (tokens : ℤ) : Usage :=
  usage.map fun entry => if entry.1 = "output_tokens" then (entry.1, tokens) else entry

def readEvent (v : Reading) : StreamEvent → Reading × List LLMStreamEvent
  | .messageStart usage => ({ v with usage := usage.elim v.usage fun u => anthropicUsage (some u) }, [])
  | .contentBlockStart index (.toolUse id name) =>
    ({ v with openTools := (index, ⟨id, name⟩) :: v.openTools.filter (·.1 ≠ index) },
      [{ type := .toolUseStart, index := some index, id := id, name := name }])
  | .contentBlockStart _ _ => (v, [])
  | .contentBlockDelta index (.text text) =>
    (v, [{ type := .delta, content := text, index := some index }])
  | .contentBlockDelta index (.inputJson partialJson) =>
    (v, [{ type := .toolUseDelta, index := some index
           id := ((v.openTools.lookup index).getD {}).id, arguments := partialJson }])
  | .contentBlockDelta _ .other => (v, [])
  | .contentBlockStop index =>
    ({ v with openTools := v.openTools.filter (·.1 ≠ index) },
      (v.openTools.lookup index).toList.map fun state =>
        { type := .toolUseEnd, index := some index, id := state.id, name := state.name })
  | .messageDelta delta =>
    ({ v with
        finishReason := delta.stopReason.or v.finishReason
        usage := (delta.usage.bind DeltaUsage.outputTokens).elim v.usage (setOutput v.usage) }, [])
  | .error message => (v, [{ type := .error, error := message }])
  | .messageStop | .other => (v, [])

/-- The events up to the `break`. -/
def untilStop (events : List StreamEvent) : List StreamEvent :=
  events.takeWhile (· ≠ .messageStop)

/-- `stream`. -/
def stream (events : List StreamEvent) : List LLMStreamEvent :=
  let ⟨v, shown⟩ := Generator.run readEvent {} (untilStop events)
  shown ++ [doneEvent v.finishReason v.usage]

/-! ## What is read of the events -/

def shownText : StreamEvent → List String
  | .contentBlockDelta _ (.text text) => [text]
  | _ => []

def toldReason : StreamEvent → List (Option Reason)
  | .messageDelta delta => delta.stopReason.toList.map some
  | _ => []

def nextUsage (usage : Usage) : StreamEvent → Usage
  | .messageStart start => start.elim usage fun u => anthropicUsage (some u)
  | .messageDelta delta => (delta.usage.bind DeltaUsage.outputTokens).elim usage (setOutput usage)
  | _ => usage

theorem readEvent_shows (v : Reading) (event : StreamEvent) :
    (readEvent v event).2.filterMap deltaContent = shownText event := by
  cases event with
  | contentBlockStart index block => cases block <;> rfl
  | contentBlockDelta index delta => cases delta <;> rfl
  | contentBlockStop index =>
    simp only [readEvent, shownText]
    cases v.openTools.lookup index <;> rfl
  | messageStart | messageDelta | error | messageStop | other => rfl

theorem readEvent_finishReason (v : Reading) (event : StreamEvent) :
    (readEvent v event).1.finishReason = (toldReason event).getLastD v.finishReason := by
  cases event with
  | contentBlockStart index block => cases block <;> rfl
  | contentBlockDelta index delta => cases delta <;> rfl
  | messageDelta delta =>
    simp only [readEvent, toldReason]
    cases delta.stopReason <;> rfl
  | messageStart | contentBlockStop | error | messageStop | other => rfl

theorem readEvent_usage (v : Reading) (event : StreamEvent) :
    (readEvent v event).1.usage = nextUsage v.usage event := by
  cases event with
  | contentBlockStart index block => cases block <;> rfl
  | contentBlockDelta index delta => cases delta <;> rfl
  | messageStart | contentBlockStop | messageDelta | error | messageStop | other => rfl

theorem stream_agrees (events : List StreamEvent) (response : LLMResponse) :
    Agrees (stream events) response ↔
      String.join ((untilStop events).flatMap shownText) = response.content ∧
        (untilStop events).foldl nextUsage zeroUsage = response.usage ∧
        (((untilStop events).flatMap toldReason).getLastD none).map Reason.name =
          response.finishReason := by
  unfold stream
  simp only [agrees_done]
  rw [Generator.run_shows readEvent_shows, Generator.run_foldl readEvent_usage,
    Generator.run_last readEvent_finishReason]

/-! ## A message and its events -/

def BlockDelta.piece : BlockDelta → String
  | .text content => content
  | _ => ""

def BlockDelta.json : BlockDelta → String
  | .inputJson partialJson => partialJson
  | _ => ""

/-- A block as it comes. Text comes in text blocks only. -/
structure BlockChunks where
  start : BlockStart
  deltas : List BlockDelta
  typed : (∃ text, start = .text text) ∨ ∀ delta ∈ deltas, delta.piece = ""

def BlockChunks.text (b : BlockChunks) : String := String.join (b.deltas.map BlockDelta.piece)

/-- The block that they make up. `loads` is `json.loads` where that gives an object. -/
def BlockChunks.block (loads : String → Option JsonObject) (b : BlockChunks) : ContentBlock :=
  match b.start with
  | .text start => .text (start ++ b.text)
  | .toolUse id name => .toolUse id name (loads (String.join (b.deltas.map BlockDelta.json)))
  | .other => .other

def BlockChunks.events (b : BlockChunks) (index : Nat) : List StreamEvent :=
  .contentBlockStart index b.start ::
    (b.deltas.map (.contentBlockDelta index) ++ [.contentBlockStop index])

/-- The counts of a message after one more report of them. -/
def addReport (usage : Option TokenUsage) (delta : MessageDelta) : Option TokenUsage :=
  match delta.usage with
  | none => usage
  | some report =>
    let known := usage.getD {}
    some { known with
      inputTokens := report.inputTokens.or known.inputTokens
      outputTokens := report.outputTokens.or known.outputTokens
      cacheReadInputTokens := report.cacheReadInputTokens.or known.cacheReadInputTokens
      cacheCreationInputTokens :=
        report.cacheCreationInputTokens.or known.cacheCreationInputTokens }

/-- A message as it comes: what is known at its start, its blocks and what is told at the end. -/
structure MessageChunks where
  model : String
  start : Option TokenUsage
  blocks : List BlockChunks
  deltas : List MessageDelta

namespace MessageChunks

variable (m : MessageChunks) (loads : String → Option JsonObject)

def usage : Option TokenUsage := m.deltas.foldl addReport m.start

/-- The complete message. -/
def message : Message where
  content := m.blocks.map (BlockChunks.block loads)
  model := m.model
  stopReason := (m.deltas.filterMap MessageDelta.stopReason).getLast?
  usage := m.usage

def body : List StreamEvent :=
  .messageStart m.start :: ((m.blocks.zipIdx.flatMap fun (b, index) => b.events index) ++
    m.deltas.map .messageDelta)

def events : List StreamEvent := m.body ++ [.messageStop]

/-- The events as they come, with others between them. -/
def Sent (sent : List StreamEvent) : Prop := sent.filter (· ≠ .other) = m.events

end MessageChunks

theorem run_untilStop (v : Reading) (events : List StreamEvent) :
    Generator.run readEvent v (untilStop events) =
      Generator.run readEvent v (untilStop (events.filter (· ≠ .other))) := by
  unfold untilStop
  induction events generalizing v with
  | nil => rfl
  | cons event rest ih =>
    by_cases unknown : event = .other
    · subst unknown
      exact ih v
    · rw [List.filter_cons_of_pos (by simpa using unknown)]
      by_cases stops : event = .messageStop
      · rw [List.takeWhile_cons_of_neg (by simpa using stops),
          List.takeWhile_cons_of_neg (by simpa using stops)]
      · rw [List.takeWhile_cons_of_pos (by simpa using stops),
          List.takeWhile_cons_of_pos (by simpa using stops), Generator.run, ih]
        rfl

theorem body_runs_on (m : MessageChunks) : ∀ event ∈ m.body, event ≠ .messageStop := by
  rintro event mem rfl
  rcases List.mem_cons.mp mem with start | mem
  · cases start
  · rcases List.mem_append.mp mem with mem | mem
    · obtain ⟨⟨b, index⟩, -, mem⟩ := List.mem_flatMap.mp mem
      simp [BlockChunks.events] at mem
    · simp at mem

theorem untilStop_events (m : MessageChunks) : untilStop m.events = m.body := by
  unfold untilStop MessageChunks.events
  rw [List.takeWhile_append_of_pos fun event mem => by simpa using body_runs_on m event mem]
  simp

theorem sent_stream {m : MessageChunks} {sent : List StreamEvent} (h : m.Sent sent) :
    stream sent = stream m.events := by
  unfold stream
  rw [run_untilStop, h]

/-! ## What a reader of the stream comes to -/

variable {m : MessageChunks} {loads : String → Option JsonObject} {structured : Bool}

theorem block_shows (b : BlockChunks) (index : Nat) :
    String.join ((b.events index).flatMap shownText) = b.text := by
  have deltas : ∀ deltas : List BlockDelta,
      String.join ((deltas.map (StreamEvent.contentBlockDelta index)).flatMap shownText) =
        String.join (deltas.map BlockDelta.piece) := by
    intro deltas
    rw [List.flatMap_map, Py.join_flatMap]
    refine Py.join_map_congr fun delta _ => ?_
    cases delta <;> simp [shownText, BlockDelta.piece, String.join_cons]
  rw [BlockChunks.events, List.flatMap_cons, List.flatMap_append, String.join_append,
    String.join_append, deltas, BlockChunks.text]
  simp [shownText]

theorem body_shows (m : MessageChunks) :
    String.join (m.body.flatMap shownText) = String.join (m.blocks.map BlockChunks.text) := by
  have ending : (m.deltas.map StreamEvent.messageDelta).flatMap shownText = [] := by
    simp [shownText]
  have blocks : String.join ((m.blocks.zipIdx.flatMap fun (b, index) =>
      b.events index).flatMap shownText) = String.join (m.blocks.map BlockChunks.text) := by
    rw [List.flatMap_assoc, Py.join_flatMap]
    have same := Py.join_map_congr (l := m.blocks.zipIdx)
      (f := fun a => String.join ((a.1.events a.2).flatMap shownText))
      (g := fun a => a.1.text) fun a _ => block_shows a.1 a.2
    refine same.trans (congrArg String.join ?_)
    conv_rhs => rw [← List.zipIdx_map_fst 0 m.blocks]
    rw [List.map_map]
    rfl
  rw [MessageChunks.body, List.flatMap_cons, List.flatMap_append, ending, List.append_nil]
  exact blocks

theorem blocks_are_silent (m : MessageChunks) :
    ∀ event ∈ m.blocks.zipIdx.flatMap fun (b, index) => b.events index,
      toldReason event = [] ∧ ∀ usage, nextUsage usage event = usage := by
  rintro event mem
  obtain ⟨⟨b, index⟩, -, mem⟩ := List.mem_flatMap.mp mem
  rcases List.mem_cons.mp mem with rfl | mem
  · exact ⟨rfl, fun _ => rfl⟩
  · rcases List.mem_append.mp mem with mem | mem
    · obtain ⟨delta, -, rfl⟩ := List.mem_map.mp mem
      exact ⟨rfl, fun _ => rfl⟩
    · rw [List.mem_singleton.mp mem]
      exact ⟨rfl, fun _ => rfl⟩

theorem body_reason (m : MessageChunks) (loads : String → Option JsonObject) :
    (m.body.flatMap toldReason).getLastD none = (m.message loads).stopReason := by
  have blocks : (m.blocks.zipIdx.flatMap fun (b, index) => b.events index).flatMap toldReason =
      [] := List.flatMap_eq_nil_iff.mpr fun event mem => (blocks_are_silent m event mem).1
  have deltas : (m.deltas.map StreamEvent.messageDelta).flatMap toldReason =
      (m.deltas.filterMap MessageDelta.stopReason).map some := by
    induction m.deltas with
    | nil => rfl
    | cons delta rest ih =>
      rw [List.map_cons, List.flatMap_cons, ih, List.filterMap_cons]
      simp only [toldReason]
      cases delta.stopReason <;> rfl
  rw [MessageChunks.body, List.flatMap_cons, List.flatMap_append, blocks, deltas]
  show (([] : List (Option Reason)) ++ ([] ++ _)).getLastD none = _
  rw [List.nil_append, List.nil_append, List.getLastD_eq_getLast?, List.getLast?_map]
  show _ = (m.deltas.filterMap MessageDelta.stopReason).getLast?
  cases (m.deltas.filterMap MessageDelta.stopReason).getLast? <;> rfl

/-! ### Usage -/

def inputOf (usage : Option TokenUsage) : ℤ := (usage.bind TokenUsage.inputTokens).getD 0

def outputOf (usage : Option TokenUsage) : ℤ := (usage.bind TokenUsage.outputTokens).getD 0

def reasoningOf (usage : Option TokenUsage) : ℤ := (usage.bind TokenUsage.reasoningTokens).getD 0

def cachedOf (usage : Option TokenUsage) : ℤ := (usage.map cachedTokens).getD 0

theorem anthropicUsage_eq (usage : Option TokenUsage) : anthropicUsage usage =
    canonicalUsage (inputOf usage) (outputOf usage) (reasoningOf usage) (cachedOf usage) := by
  cases usage <;> rfl

theorem setOutput_canonical (input output reasoning cached tokens : ℤ) :
    setOutput (canonicalUsage input output reasoning cached) tokens =
      canonicalUsage input tokens reasoning cached := by
  simp [setOutput, canonicalUsage]

theorem canonicalUsage_inj {i o r c i' o' r' c' : ℤ} :
    canonicalUsage i o r c = canonicalUsage i' o' r' c' ↔ i = i' ∧ o = o' ∧ r = r' ∧ c = c' := by
  simp [canonicalUsage]

theorem report_output (usage : Option TokenUsage) (delta : MessageDelta) (i r c : ℤ) :
    nextUsage (canonicalUsage i (outputOf usage) r c) (.messageDelta delta) =
      canonicalUsage i (outputOf (addReport usage delta)) r c := by
  cases reported : delta.usage with
  | none => simp only [nextUsage, addReport, reported]; rfl
  | some report =>
    cases output : report.outputTokens with
    | none =>
      simp only [nextUsage, addReport, reported, Option.bind_some, output]
      cases usage <;> rfl
    | some tokens =>
      simp only [nextUsage, addReport, reported, Option.bind_some, output]
      exact setOutput_canonical i (outputOf usage) r c tokens

theorem report_reasoning (usage : Option TokenUsage) (delta : MessageDelta) :
    reasoningOf (addReport usage delta) = reasoningOf usage := by
  unfold addReport
  cases delta.usage with
  | none => rfl
  | some report => cases usage <;> rfl

theorem reports_output (deltas : List MessageDelta) (usage : Option TokenUsage) (i r c : ℤ) :
    (deltas.map StreamEvent.messageDelta).foldl nextUsage
        (canonicalUsage i (outputOf usage) r c) =
      canonicalUsage i (outputOf (deltas.foldl addReport usage)) r c := by
  induction deltas generalizing usage with
  | nil => rfl
  | cons delta rest ih =>
    rw [List.map_cons, List.foldl_cons, report_output, ih, List.foldl_cons]

theorem usage_reasoning (m : MessageChunks) : reasoningOf m.usage = reasoningOf m.start := by
  unfold MessageChunks.usage
  generalize m.start = usage
  induction m.deltas generalizing usage with
  | nil => rfl
  | cons delta rest ih => exact (ih _).trans (report_reasoning usage delta)

theorem body_usage (m : MessageChunks) : m.body.foldl nextUsage zeroUsage =
    canonicalUsage (inputOf m.start) (outputOf m.usage) (reasoningOf m.usage)
      (cachedOf m.start) := by
  have started : nextUsage zeroUsage (.messageStart m.start) = anthropicUsage m.start := by
    simp only [nextUsage]
    cases m.start <;> rfl
  have blocks : ∀ events : List StreamEvent,
      (∀ event ∈ events, ∀ usage, nextUsage usage event = usage) →
      ∀ usage, events.foldl nextUsage usage = usage := by
    intro events silent
    induction events with
    | nil => exact fun _ => rfl
    | cons event rest ih =>
      intro usage
      rw [List.foldl_cons, silent event List.mem_cons_self]
      exact ih (fun e mem => silent e (List.mem_cons_of_mem event mem)) usage
  rw [MessageChunks.body, List.foldl_cons, List.foldl_append,
    blocks _ fun event mem => (blocks_are_silent m event mem).2, started, anthropicUsage_eq,
    reports_output, usage_reasoning]
  rfl

theorem usage_iff (m : MessageChunks) :
    m.body.foldl nextUsage zeroUsage = anthropicUsage m.usage ↔
      inputOf m.start = inputOf m.usage ∧ cachedOf m.start = cachedOf m.usage := by
  rw [body_usage, anthropicUsage_eq, canonicalUsage_inj]
  constructor
  · rintro ⟨input, -, -, cached⟩
    exact ⟨input, cached⟩
  · rintro ⟨input, cached⟩
    exact ⟨input, rfl, rfl, cached⟩

/-! ### Content -/

/-- A block whose content, if it is any of the message's, is all told in text deltas. -/
def BlockStart.Shown (structured : Bool) : BlockStart → Prop
  | .text content => content = ""
  | .toolUse _ name => ¬ (structured = true ∧ name = structuredOutputToolName)
  | .other => True

def chatText (structured : Bool) (loads : String → Option JsonObject) (b : BlockChunks) : String :=
  (parseBlock structured (b.block loads)).1

theorem BlockChunks.no_text {b : BlockChunks} (other : ∀ text, b.start ≠ .text text) :
    b.text = "" := by
  rcases b.typed with ⟨text, is⟩ | none_
  · exact absurd is (other text)
  · unfold BlockChunks.text
    have same := Py.join_map_congr (l := b.deltas) (f := BlockDelta.piece) (g := fun _ => "") none_
    rw [same]
    induction b.deltas with
    | nil => rfl
    | cons delta rest ih => rw [List.map_cons, String.join_cons, ih]; rfl

/-- The block's text deltas never hold more than what `chat` reads of it, and as much exactly where
it is shown. -/
theorem chatText_length (structured : Bool) (loads : String → Option JsonObject)
    (b : BlockChunks) : b.text.length ≤ (chatText structured loads b).length ∧
      (b.text.length = (chatText structured loads b).length ↔ b.start.Shown structured) ∧
      (b.start.Shown structured → b.text = chatText structured loads b) := by
  unfold chatText BlockChunks.block
  cases start : b.start with
  | text text =>
    simp only [parseBlock, BlockStart.Shown, String.length_append]
    refine ⟨by omega, ⟨fun same => ?_, ?_⟩, ?_⟩
    · exact String.length_eq_zero_iff.mp (by omega)
    · rintro rfl; simp
    · rintro rfl; exact String.empty_append.symm
  | toolUse id name =>
    have none_ : b.text = "" := b.no_text fun text is => by rw [start] at is; cases is
    simp only [parseBlock, BlockStart.Shown, none_]
    by_cases hidden : structured = true ∧ name = structuredOutputToolName
    · rw [if_pos hidden]
      refine ⟨Nat.zero_le _, ⟨fun same => ?_, fun shown => absurd hidden shown⟩,
        fun shown => absurd hidden shown⟩
      exact absurd (String.length_eq_zero_iff.mp same.symm) (JsonObject.nonempty _)
    · rw [if_neg hidden]
      exact ⟨Nat.le_refl _, ⟨fun _ => hidden, fun _ => rfl⟩, fun _ => rfl⟩
  | other =>
    have none_ : b.text = "" := b.no_text fun text is => by rw [start] at is; cases is
    rw [none_]
    exact ⟨Nat.le_refl _, ⟨fun _ => trivial, fun _ => rfl⟩, fun _ => rfl⟩

theorem content_iff (m : MessageChunks) (loads : String → Option JsonObject)
    (structured : Bool) : String.join (m.blocks.map BlockChunks.text) =
      String.join (m.blocks.map (chatText structured loads)) ↔
      ∀ b ∈ m.blocks, b.start.Shown structured := by
  constructor
  · intro whole b mem
    have lengths := Py.length_eq_of_join
      (fun b _ => (chatText_length structured loads b).1) whole b mem
    exact (chatText_length structured loads b).2.1.mp lengths
  · intro shown
    exact Py.join_map_congr fun b mem => (chatText_length structured loads b).2.2 (shown b mem)

/-- Every part of the content comes in text deltas, and the counts of input and cached tokens that
the message starts with are those it ends with. -/
structure Plain (structured : Bool) (m : MessageChunks) : Prop where
  shown : ∀ b ∈ m.blocks, b.start.Shown structured
  input : inputOf m.start = inputOf m.usage
  cached : cachedOf m.start = cachedOf m.usage

variable (loads structured) in
theorem agrees_iff {sent : List StreamEvent} (h : m.Sent sent) :
    Agrees (stream sent) (chat structured (m.message loads)) ↔ Plain structured m := by
  have content : (chat structured (m.message loads)).content =
      String.join (m.blocks.map (chatText structured loads)) := by
    show String.join ((m.blocks.map (BlockChunks.block loads)).map _) = _
    rw [List.map_map]
    rfl
  rw [sent_stream h, stream_agrees, untilStop_events, body_shows, body_reason m loads,
    content, content_iff]
  constructor
  · rintro ⟨shown, usage, -⟩
    obtain ⟨input, cached⟩ := (usage_iff m).mp usage
    exact ⟨shown, input, cached⟩
  · rintro ⟨shown, input, cached⟩
    exact ⟨shown, (usage_iff m).mpr ⟨input, cached⟩, rfl⟩

end AgentStudio.Adapters.Anthropic
