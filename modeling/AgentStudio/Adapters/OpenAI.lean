import AgentStudio.Adapters.Agreement

/-!
# The adapter of OpenAI-compatible endpoints

`_OpenAICompatAdapter.chat` decodes one complete response, `stream` reads its chunks. A chunk that
reports usage is not read any further, and the choices of a chunk are not told apart.
-/

namespace AgentStudio.Adapters.OpenAI

open Gateway Async

/-- What the wire's usage object reports; a count of the details is absent where they are. -/
structure TokenUsage where
  promptTokens : Option ℤ := none
  completionTokens : Option ℤ := none
  reasoningTokens : Option ℤ := none
  cachedTokens : Option ℤ := none
  deriving DecidableEq

/-- `_openai_usage`. -/
def openaiUsage : Option TokenUsage → Usage
  | none => zeroUsage
  | some usage => canonicalUsage (usage.promptTokens.getD 0) (usage.completionTokens.getD 0)
      (usage.reasoningTokens.getD 0) (usage.cachedTokens.getD 0)

structure Function where
  name : Option String := none
  arguments : Option String := none

structure MessageToolCall where
  id : Option String := none
  function : Option Function := none

structure Choice where
  content : Option String := none
  toolCalls : List MessageToolCall := []
  finishReason : Option Reason := none

structure ChatCompletion where
  model : String
  choices : List Choice
  usage : Option TokenUsage := none

/-- `_parse_openai_tool_calls`. `loads` is `json.loads` where that gives an object. -/
def parseOpenaiToolCalls (loads : String → Option JsonObject) (calls : List MessageToolCall) :
    List ToolCall :=
  let parsed := calls.map fun call =>
    let raw := (call.function.bind Function.arguments).getD ""
    { id := call.id.getD ""
      name := (call.function.bind Function.name).getD ""
      arguments :=
        if raw = "" then Args.object JsonObject.empty.dumps
        else (loads raw).elim (Args.malformed raw) fun object => Args.object object.dumps
      : ToolCall }
  parsed.filter (·.name ≠ "")

/-- `chat`: the first choice, and an `IndexError` where there is none. -/
def chat (loads : String → Option JsonObject) (response : ChatCompletion) :
    Option LLMResponse :=
  response.choices.head?.map fun choice => {
    content := choice.content.getD ""
    model := response.model
    usage := openaiUsage response.usage
    finishReason := choice.finishReason.map Reason.name
    toolCalls := some (parseOpenaiToolCalls loads choice.toolCalls) }

structure ToolCallDelta where
  index : Nat := 0
  id : Option String := none
  function : Option Function := none

structure Delta where
  content : Option String := none
  toolCalls : List ToolCallDelta := []

structure ChunkChoice where
  index : Nat := 0
  delta : Option Delta := none
  finishReason : Option Reason := none

structure Chunk where
  choices : List ChunkChoice := []
  usage : Option TokenUsage := none

/-- An entry of `open_tools`. -/
structure OpenTool where
  id : String
  name : String

/-- The variables of `stream`. -/
structure Reading where
  usage : Usage := zeroUsage
  finishReason : Option Reason := none
  openTools : List (Nat × OpenTool) := []

def argumentEvents (call : ToolCallDelta) (state : OpenTool) : List LLMStreamEvent :=
  match (call.function.bind Function.arguments).getD "" with
  | "" => []
  | arguments =>
    [{ type := .toolUseDelta, index := some call.index, id := state.id, arguments := arguments }]

def readToolCall (v : Reading) (call : ToolCallDelta) : Reading × List LLMStreamEvent :=
  match v.openTools.lookup call.index with
  | some state => (v, argumentEvents call state)
  | none =>
    let state := OpenTool.mk (call.id.getD "") ((call.function.bind Function.name).getD "")
    ({ v with openTools := v.openTools ++ [(call.index, state)] },
      { type := .toolUseStart, index := some call.index, id := state.id, name := state.name } ::
        argumentEvents call state)

def ChunkChoice.text (choice : ChunkChoice) : String := (choice.delta.bind Delta.content).getD ""

def ChunkChoice.texts (choice : ChunkChoice) : List String :=
  if choice.text = "" then [] else [choice.text]

def readChoice (v : Reading) (choice : ChunkChoice) : Reading × List LLMStreamEvent :=
  let v := { v with finishReason := choice.finishReason.or v.finishReason }
  let calls := Generator.run readToolCall v ((choice.delta.map Delta.toolCalls).getD [])
  (calls.1, choice.texts.map (fun text =>
      { type := .delta, content := text, index := some choice.index }) ++ calls.2)

def readChunk (v : Reading) (chunk : Chunk) : Reading × List LLMStreamEvent :=
  match chunk.usage with
  | some usage =>
    -- the `continue`: the choices of this chunk are passed by
    ({ v with usage := openaiUsage (some usage) },
      [{ type := .usage, usage := openaiUsage (some usage) }])
  | none => Generator.run readChoice v chunk.choices

/-- `stream`. -/
def stream (chunks : List Chunk) : List LLMStreamEvent :=
  let ⟨v, events⟩ := Generator.run readChunk {} chunks
  events ++ v.openTools.map (fun (index, state) =>
      { type := .toolUseEnd, index := some index, id := state.id, name := state.name }) ++
    [doneEvent v.finishReason v.usage]

/-! ## What is read of the chunks -/

/-- The choices of a chunk that `stream` looks at. -/
def Chunk.seen (chunk : Chunk) : List ChunkChoice :=
  match chunk.usage with
  | some _ => []
  | none => chunk.choices

theorem readToolCall_shows (v : Reading) (call : ToolCallDelta) :
    (readToolCall v call).2.filterMap deltaContent = [] := by
  have arguments : ∀ state, (argumentEvents call state).filterMap deltaContent = [] := by
    intro state
    unfold argumentEvents
    split <;> rfl
  unfold readToolCall
  split
  · exact arguments _
  · rw [List.filterMap_cons_none (by rfl), arguments]

theorem readToolCall_keeps (v : Reading) (call : ToolCallDelta) :
    (readToolCall v call).1.usage = v.usage ∧
      (readToolCall v call).1.finishReason = v.finishReason := by
  unfold readToolCall
  split <;> exact ⟨rfl, rfl⟩

theorem toolCalls_keep {τ : Type} {get : Reading → τ}
    (h : ∀ v call, get (readToolCall v call).1 = get v) (v : Reading) (calls : List ToolCallDelta) :
    get (Generator.run readToolCall v calls).1 = get v := by
  induction calls generalizing v with
  | nil => rfl
  | cons call calls ih => rw [Generator.run, ih, h]

theorem readChoice_shows (v : Reading) (choice : ChunkChoice) :
    (readChoice v choice).2.filterMap deltaContent = choice.texts := by
  have calls := Generator.run_shows readToolCall_shows
    { v with finishReason := choice.finishReason.or v.finishReason }
    ((choice.delta.map Delta.toolCalls).getD [])
  have none_ : ∀ calls : List ToolCallDelta, calls.flatMap (fun _ => ([] : List String)) = [] :=
    fun calls => by induction calls with
      | nil => rfl
      | cons call calls ih => rw [List.flatMap_cons, ih]; rfl
  rw [none_] at calls
  rw [readChoice, List.filterMap_append, calls, List.append_nil, List.filterMap_map]
  exact List.filterMap_some

theorem readChoice_finishReason (v : Reading) (choice : ChunkChoice) :
    (readChoice v choice).1.finishReason =
      (choice.finishReason.toList.map some).getLastD v.finishReason := by
  rw [readChoice, toolCalls_keep fun v call => (readToolCall_keeps v call).2]
  cases choice.finishReason <;> rfl

theorem readChunk_shows (v : Reading) (chunk : Chunk) :
    (readChunk v chunk).2.filterMap deltaContent = chunk.seen.flatMap ChunkChoice.texts := by
  unfold readChunk Chunk.seen
  cases chunk.usage with
  | some usage => rfl
  | none => exact Generator.run_shows readChoice_shows v chunk.choices

theorem readChunk_finishReason (v : Reading) (chunk : Chunk) :
    (readChunk v chunk).1.finishReason =
      (chunk.seen.flatMap fun choice => choice.finishReason.toList.map some).getLastD
        v.finishReason := by
  unfold readChunk Chunk.seen
  cases chunk.usage with
  | some usage => rfl
  | none => exact Generator.run_last readChoice_finishReason v chunk.choices

theorem readChunk_usage (v : Reading) (chunk : Chunk) :
    (readChunk v chunk).1.usage =
      (chunk.usage.toList.map fun usage => openaiUsage (some usage)).getLastD v.usage := by
  unfold readChunk
  cases chunk.usage with
  | some usage => rfl
  | none =>
    have kept : ∀ v choice, (readChoice v choice).1.usage = v.usage := fun v choice =>
      toolCalls_keep (fun v call => (readToolCall_keeps v call).1) _ _
    generalize chunk.choices = choices
    induction choices generalizing v with
    | nil => rfl
    | cons choice choices ih => exact (ih _).trans (kept v choice)

/-! ## What a reader of the stream comes to -/

theorem texts_join (choice : ChunkChoice) : String.join choice.texts = choice.text := by
  unfold ChunkChoice.texts
  split
  · next empty => exact empty.symm
  · rw [String.join_cons, String.join_nil, String.append_empty]

def reportedUsages (chunks : List Chunk) : List TokenUsage := chunks.filterMap Chunk.usage

def seenReasons (chunks : List Chunk) : List Reason :=
  chunks.flatMap fun chunk => chunk.seen.filterMap ChunkChoice.finishReason

def seenText (chunk : Chunk) : String := String.join (chunk.seen.map ChunkChoice.text)

theorem seen_join (chunks : List Chunk) :
    String.join (chunks.flatMap fun chunk => chunk.seen.flatMap ChunkChoice.texts) =
      String.join (chunks.map seenText) := by
  rw [Py.join_flatMap]
  refine Py.join_map_congr fun chunk _ => ?_
  rw [Py.join_flatMap]
  exact Py.join_map_congr fun choice _ => texts_join choice

theorem stream_content (chunks : List Chunk) :
    String.join ((Generator.run readChunk {} chunks).2.filterMap deltaContent) =
      String.join (chunks.map seenText) := by
  rw [Generator.run_shows readChunk_shows, seen_join]

theorem stream_usage (chunks : List Chunk) :
    (Generator.run readChunk {} chunks).1.usage =
      openaiUsage (reportedUsages chunks).getLast? := by
  rw [Generator.run_last readChunk_usage]
  have sets : (chunks.flatMap fun chunk => chunk.usage.toList.map fun u => openaiUsage (some u)) =
      (reportedUsages chunks).map fun u => openaiUsage (some u) := by
    unfold reportedUsages
    induction chunks with
    | nil => rfl
    | cons chunk chunks ih =>
      rw [List.flatMap_cons, ih, List.filterMap_cons]
      cases chunk.usage <;> rfl
  rw [sets, List.getLastD_eq_getLast?, List.getLast?_map]
  cases (reportedUsages chunks).getLast? <;> rfl

theorem stream_finishReason (chunks : List Chunk) :
    (Generator.run readChunk {} chunks).1.finishReason = (seenReasons chunks).getLast? := by
  rw [Generator.run_last readChunk_finishReason]
  have sets : (chunks.flatMap fun chunk => chunk.seen.flatMap fun choice =>
      choice.finishReason.toList.map some) = (seenReasons chunks).map some := by
    unfold seenReasons
    rw [List.map_flatMap]
    refine congrArg chunks.flatMap (funext fun chunk => ?_)
    induction chunk.seen with
    | nil => rfl
    | cons choice rest ih =>
      rw [List.flatMap_cons, ih, List.filterMap_cons]
      cases choice.finishReason <;> rfl
  rw [sets, List.getLastD_eq_getLast?, List.getLast?_map]
  cases (seenReasons chunks).getLast? <;> rfl

theorem stream_agrees (chunks : List Chunk) (response : LLMResponse) :
    Agrees (stream chunks) response ↔
      String.join (chunks.map seenText) = response.content ∧
        openaiUsage (reportedUsages chunks).getLast? = response.usage ∧
        (seenReasons chunks).getLast?.map Reason.name = response.finishReason := by
  have ends : ∀ openTools : List (Nat × OpenTool), (openTools.map fun (tool : Nat × OpenTool) =>
      ({ type := .toolUseEnd, index := some tool.1, id := tool.2.id,
         name := tool.2.name } : LLMStreamEvent)).filterMap deltaContent = [] := by
    intro openTools
    induction openTools with
    | nil => rfl
    | cons tool rest ih => exact ih
  unfold stream
  simp only [agrees_done, List.filterMap_append]
  rw [ends, List.append_nil, stream_content, stream_usage, stream_finishReason]

/-! ## A response and its chunks -/

/-- A choice is spread over the chunk choices of its index, its finish reason is told once, and the
last usage that the chunks report, if they report any, is the response's. -/
structure Chunked (response : ChatCompletion) (chunks : List Chunk) : Prop where
  indexed : ∀ c ∈ chunks.flatMap Chunk.choices, c.index < response.choices.length
  content : ∀ i choice, response.choices[i]? = some choice →
    String.join (((chunks.flatMap Chunk.choices).filter (·.index = i)).map ChunkChoice.text) =
      choice.content.getD ""
  finishReason : ∀ i choice, response.choices[i]? = some choice →
    ((chunks.flatMap Chunk.choices).filter (·.index = i)).filterMap ChunkChoice.finishReason =
      choice.finishReason.toList
  usage : reportedUsages chunks = [] ∨ (reportedUsages chunks).getLast? = response.usage

/-- Something of the response's choice is told here. -/
def ChunkChoice.Bears (c : ChunkChoice) : Prop := c.text ≠ "" ∨ c.finishReason ≠ none

/-- What is told of a choice is told of the first one, in a chunk that reports no usage; and usage
is reported, unless there is none. -/
structure Plain (response : ChatCompletion) (chunks : List Chunk) : Prop where
  seen : ∀ chunk ∈ chunks, ∀ c ∈ chunk.choices, c.Bears → chunk.usage = none ∧ c.index = 0
  usage : reportedUsages chunks = [] → openaiUsage response.usage = zeroUsage

/-- What the chunks tell of the first choice. -/
def firstText (chunk : Chunk) : String :=
  String.join ((chunk.choices.filter (·.index = 0)).map ChunkChoice.text)

def firstReasons (chunk : Chunk) : List Reason :=
  (chunk.choices.filter (·.index = 0)).filterMap ChunkChoice.finishReason

variable {response : ChatCompletion} {chunks : List Chunk} {choice : Choice}

theorem Chunked.firstText (h : Chunked response chunks)
    (is : response.choices.head? = some choice) :
    String.join (chunks.map firstText) = choice.content.getD "" := by
  rw [← h.content 0 choice (by rw [← List.head?_eq_getElem?, is]), List.filter_flatMap,
    List.map_flatMap, Py.join_flatMap]
  rfl

theorem Chunked.firstReasons (h : Chunked response chunks)
    (is : response.choices.head? = some choice) :
    chunks.flatMap firstReasons = choice.finishReason.toList := by
  rw [← h.finishReason 0 choice (by rw [← List.head?_eq_getElem?, is]), List.filter_flatMap,
    List.filterMap_flatMap]
  rfl

theorem Chunked.usage_iff (h : Chunked response chunks) :
    openaiUsage (reportedUsages chunks).getLast? = openaiUsage response.usage ↔
      (reportedUsages chunks = [] → openaiUsage response.usage = zeroUsage) := by
  rcases h.usage with silent | last
  · rw [silent]
    exact ⟨fun same _ => same.symm, fun zero => (zero rfl).symm⟩
  · rw [last]
    refine ⟨fun _ silent => ?_, fun _ => rfl⟩
    rw [← last, silent]
    rfl

/-! ### Nothing is lost of a plain response -/

theorem bears_filter (keep : ChunkChoice → Bool) {choices : List ChunkChoice}
    (h : ∀ c ∈ choices, c.Bears → keep c = true) :
    String.join (choices.map ChunkChoice.text) =
        String.join ((choices.filter keep).map ChunkChoice.text) ∧
      choices.filterMap ChunkChoice.finishReason =
        (choices.filter keep).filterMap ChunkChoice.finishReason := by
  induction choices with
  | nil => exact ⟨rfl, rfl⟩
  | cons c rest ih =>
    obtain ⟨text, reason⟩ := ih fun d mem => h d (List.mem_cons_of_mem c mem)
    by_cases kept : keep c = true
    · rw [List.filter_cons_of_pos kept]
      exact ⟨by rw [List.map_cons, String.join_cons, text, List.map_cons, String.join_cons],
        by rw [List.filterMap_cons, reason, List.filterMap_cons]⟩
    · have bare : ¬ c.Bears := fun bears => kept (h c List.mem_cons_self bears)
      obtain ⟨empty, silent⟩ := not_or.mp bare
      rw [List.filter_cons_of_neg kept, List.map_cons, String.join_cons, not_ne_iff.mp empty,
        String.empty_append, List.filterMap_cons_none (not_ne_iff.mp silent)]
      exact ⟨text, reason⟩

theorem Plain.chunk (h : Plain response chunks) {chunk : Chunk} (mem : chunk ∈ chunks) :
    seenText chunk = firstText chunk ∧
      chunk.seen.filterMap ChunkChoice.finishReason = OpenAI.firstReasons chunk := by
  unfold seenText OpenAI.firstText OpenAI.firstReasons Chunk.seen
  cases usage : chunk.usage with
  | none => exact bears_filter _ fun c told bears => decide_eq_true (h.seen chunk mem c told bears).2
  | some report =>
    have none_ : ∀ c ∈ chunk.choices.filter (·.index = 0), c.Bears → false = true := by
      intro c told bears
      have passed := (h.seen chunk mem c (List.mem_filter.mp told).1 bears).1
      rw [usage] at passed
      cases passed
    obtain ⟨text, reason⟩ := bears_filter (fun _ => false) none_
    rw [List.filter_false] at text reason
    exact ⟨text.symm, reason.symm⟩

theorem plain_agrees (h : Chunked response chunks) (plain : Plain response chunks)
    (is : response.choices.head? = some choice) :
    String.join (chunks.map seenText) = choice.content.getD "" ∧
      (seenReasons chunks).getLast? = choice.finishReason := by
  constructor
  · rw [← h.firstText is]
    exact Py.join_map_congr fun chunk mem => (plain.chunk mem).1
  · have same : seenReasons chunks = chunks.flatMap OpenAI.firstReasons := by
      unfold seenReasons
      rw [List.flatMap_def, List.flatMap_def]
      exact congrArg List.flatten (List.map_congr_left fun chunk mem => (plain.chunk mem).2)
    rw [same, h.firstReasons is]
    cases choice.finishReason <;> rfl

/-! ### Of a single choice everything is told, but what is passed by -/

theorem Chunked.filter_index (h : Chunked response chunks) (single : response.choices.length = 1)
    {chunk : Chunk} (mem : chunk ∈ chunks) :
    chunk.choices.filter (·.index = 0) = chunk.choices := by
  refine List.filter_eq_self.mpr fun c told => decide_eq_true ?_
  have low := h.indexed c (List.mem_flatMap.mpr ⟨chunk, mem, told⟩)
  omega

theorem seen_cases (chunk : Chunk) :
    (chunk.usage = none ∧ chunk.seen = chunk.choices) ∨ chunk.seen = [] := by
  unfold Chunk.seen
  cases chunk.usage with
  | none => exact .inl ⟨rfl, rfl⟩
  | some usage => exact .inr rfl

theorem text_seen (h : Chunked response chunks) (single : response.choices.length = 1)
    (is : response.choices.head? = some choice)
    (same : String.join (chunks.map seenText) = choice.content.getD "") :
    ∀ chunk ∈ chunks, ∀ c ∈ chunk.choices, c.text ≠ "" → chunk.usage = none := by
  have whole := same.trans (h.firstText is).symm
  have all : ∀ chunk ∈ chunks,
      OpenAI.firstText chunk = String.join (chunk.choices.map ChunkChoice.text) := by
    intro chunk mem
    rw [OpenAI.firstText, h.filter_index single mem]
  have lengths := Py.length_eq_of_join (fun chunk mem => by
    rw [all chunk mem, seenText]
    rcases seen_cases chunk with ⟨-, seen⟩ | seen
    · rw [seen]
    · rw [seen]; exact Nat.zero_le _) whole
  intro chunk mem c told text
  rcases seen_cases chunk with ⟨silent, -⟩ | seen
  · exact silent
  · have none_ := lengths chunk mem
    rw [seenText, seen, all chunk mem] at none_
    exact absurd (Py.join_eq_empty (String.length_eq_zero_iff.mp none_.symm) c.text
      (List.mem_map_of_mem told)) text

theorem reason_seen (h : Chunked response chunks) (single : response.choices.length = 1)
    (is : response.choices.head? = some choice)
    (same : (seenReasons chunks).getLast? = choice.finishReason) :
    ∀ chunk ∈ chunks, ∀ c ∈ chunk.choices, c.finishReason ≠ none → chunk.usage = none := by
  have all : ∀ chunk ∈ chunks,
      OpenAI.firstReasons chunk = chunk.choices.filterMap ChunkChoice.finishReason := by
    intro chunk mem
    rw [OpenAI.firstReasons, h.filter_index single mem]
  have fewer : ∀ chunk ∈ chunks, (chunk.seen.filterMap ChunkChoice.finishReason).length ≤
      (OpenAI.firstReasons chunk).length := by
    intro chunk mem
    rw [all chunk mem]
    rcases seen_cases chunk with ⟨-, seen⟩ | seen
    · rw [seen]
    · rw [seen]; exact Nat.zero_le _
  have total : (chunks.map fun chunk => (OpenAI.firstReasons chunk).length).sum =
      choice.finishReason.toList.length := by
    rw [← h.firstReasons is, List.length_flatMap]
  have shown : (seenReasons chunks).length =
      (chunks.map fun chunk => (chunk.seen.filterMap ChunkChoice.finishReason).length).sum :=
    List.length_flatMap
  have bound := List.sum_le_sum fewer
  have lengths := Py.eq_of_sum_eq fewer (by
    cases reason : choice.finishReason with
    | none => rw [reason] at total; simp only [Option.toList_none, List.length_nil] at total; omega
    | some r =>
      rw [reason] at total same
      have some_ : seenReasons chunks ≠ [] := by
        intro nil
        rw [nil] at same
        cases same
      have pos := List.length_pos_iff.mpr some_
      simp only [Option.toList_some, List.length_singleton] at total
      omega)
  intro chunk mem c told reason
  rcases seen_cases chunk with ⟨silent, -⟩ | seen
  · exact silent
  · have none_ := lengths chunk mem
    rw [seen, all chunk mem] at none_
    have empty := List.length_eq_zero_iff.mp none_.symm
    exact absurd (List.filterMap_eq_nil_iff.mp empty c told) reason

/-- The stream and the one-shot answer agree where nothing is told beside a usage report, nor of
another choice; and where there is one choice only, only there. -/
theorem agrees_iff (h : Chunked response chunks) (loads : String → Option JsonObject)
    {answer : LLMResponse} (is : chat loads response = some answer) :
    (Plain response chunks → Agrees (stream chunks) answer) ∧
      (response.choices.length = 1 → Agrees (stream chunks) answer → Plain response chunks) := by
  obtain ⟨choice, isFirst, rfl⟩ := Option.map_eq_some_iff.mp is
  rw [stream_agrees]
  simp only [reason_name_inj]
  constructor
  · intro plain
    obtain ⟨content, reason⟩ := plain_agrees h plain isFirst
    exact ⟨content, h.usage_iff.mpr plain.usage, reason⟩
  · rintro single ⟨content, usage, reason⟩
    refine ⟨fun chunk mem c told bears => ⟨?_, ?_⟩, h.usage_iff.mp usage⟩
    · rcases bears with text | finish
      · exact text_seen h single isFirst content chunk mem c told text
      · exact reason_seen h single isFirst reason chunk mem c told finish
    · have low := h.indexed c (List.mem_flatMap.mpr ⟨chunk, mem, told⟩)
      omega

end AgentStudio.Adapters.OpenAI
