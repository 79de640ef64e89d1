import AgentStudio.Adapters.OpenAI
import AgentStudio.Adapters.Anthropic

/-!
# The two ways of the adapters

For every response of a provider and every way it is sent, the stream of its adapter comes to what
`chat` makes of it where the response is plain: no part of it comes beside a usage report, none is
the input of the hidden tool, and the usage is all told where `stream` takes it from.
-/

namespace AgentStudio.Adapters

open Gateway

/-- A complete response and how its stream sends it; with Anthropic also whether an output schema is
configured, where the request of the other endpoints tells it to them alone. -/
inductive Exchange where
  | openai (response : OpenAI.ChatCompletion) (chunks : List OpenAI.Chunk)
  | anthropic (structured : Bool) (message : Anthropic.MessageChunks)
      (sent : List Anthropic.StreamEvent)

namespace Exchange

def Valid : Exchange → Prop
  | openai response chunks => OpenAI.Chunked response chunks
  | anthropic _ message sent => message.Sent sent

def chat (loads : String → Option JsonObject) : Exchange → Option LLMResponse
  | openai response _ => OpenAI.chat loads response
  | anthropic structured message _ => some (Anthropic.chat structured (message.message loads))

def stream : Exchange → List LLMStreamEvent
  | openai _ chunks => OpenAI.stream chunks
  | anthropic _ _ sent => Anthropic.stream sent

def Plain : Exchange → Prop
  | openai response chunks => OpenAI.Plain response chunks
  | anthropic structured message _ => Anthropic.Plain structured message

/-- There is one choice, as no request asks for more. -/
def Single : Exchange → Prop
  | openai response _ => response.choices.length = 1
  | anthropic .. => True

end Exchange

theorem stream_is_chat (loads : String → Option JsonObject) {x : Exchange} (valid : x.Valid)
    {answer : LLMResponse} (answers : x.chat loads = some answer) :
    (x.Plain → Agrees x.stream answer) ∧
      (x.Single → Agrees x.stream answer → x.Plain) := by
  cases x with
  | openai response chunks => exact OpenAI.agrees_iff valid loads answers
  | anthropic structured message sent =>
    cases answers
    have same := Anthropic.agrees_iff loads structured valid
    exact ⟨same.mpr, fun _ => same.mp⟩

theorem single_chunked {model : String} {choice : OpenAI.Choice} {usage : OpenAI.TokenUsage}
    {chunks : List OpenAI.Chunk}
    (indexed : ∀ c ∈ chunks.flatMap OpenAI.Chunk.choices, c.index = 0)
    (content : String.join ((chunks.flatMap OpenAI.Chunk.choices).map OpenAI.ChunkChoice.text) =
      choice.content.getD "")
    (finish : (chunks.flatMap OpenAI.Chunk.choices).filterMap OpenAI.ChunkChoice.finishReason =
      choice.finishReason.toList)
    (reported : (OpenAI.reportedUsages chunks).getLast? = some usage) :
    OpenAI.Chunked ⟨model, [choice], some usage⟩ chunks := by
  have all : (chunks.flatMap OpenAI.Chunk.choices).filter (·.index = 0) =
      chunks.flatMap OpenAI.Chunk.choices :=
    List.filter_eq_self.mpr fun c mem => decide_eq_true (indexed c mem)
  have only : ∀ i other, [choice][i]? = some other → i = 0 ∧ other = choice := by
    intro i other is
    cases i with
    | zero => exact ⟨rfl, (Option.some.inj is).symm⟩
    | succ i => cases is
  refine ⟨fun c mem => by rw [indexed c mem]; exact Nat.one_pos, fun i other is => ?_,
    fun i other is => ?_, .inr reported⟩
  · obtain ⟨rfl, rfl⟩ := only i other is
    rw [all, content]
  · obtain ⟨rfl, rfl⟩ := only i other is
    rw [all, finish]

def stopped : Reason := ⟨"stop", by decide⟩

def tokens : OpenAI.TokenUsage := { promptTokens := some 5, completionTokens := some 2 }

/-- Two pieces, the usage in a chunk of its own. -/
def inPieces : Exchange :=
  .openai ⟨"gpt-4o", [{ content := some "Hi there", finishReason := some stopped }], some tokens⟩
    [{ choices := [{ delta := some { content := some "Hi " } }] },
      { choices := [{ delta := some { content := some "there" }, finishReason := some stopped }] },
      { usage := some tokens }]

theorem stream_is_chat_in_pieces : ∃ answer, inPieces.chat (fun _ => none) = some answer ∧
    answer.content = "Hi there" ∧ Agrees inPieces.stream answer := by
  have valid : inPieces.Valid := single_chunked (by decide) (by decide) (by decide) (by decide)
  refine ⟨_, rfl, rfl, (stream_is_chat (fun _ => none) valid rfl).1 ⟨?_, fun none_ => ?_⟩⟩
  · simp [OpenAI.ChunkChoice.Bears, OpenAI.ChunkChoice.text]
  · cases none_

/-- The same answer in one chunk, which reports the usage too. -/
def besideUsage : Exchange :=
  .openai ⟨"gemini-2.0-flash", [{ content := some "Hi", finishReason := some stopped }],
      some tokens⟩
    [{ choices := [{ delta := some { content := some "Hi" }, finishReason := some stopped }]
       usage := some tokens }]

def loadsEmpty (text : String) : Option JsonObject :=
  if text = "\x7b\x7d" then some JsonObject.empty else none

/-- A structured answer without fields. -/
def hiddenCall : Anthropic.MessageChunks where
  model := "claude-3-5-sonnet"
  start := some { inputTokens := some 5 }
  blocks := [⟨.toolUse "t1" Anthropic.structuredOutputToolName,
    [.inputJson "\x7b", .inputJson "\x7d"],
    .inr (by decide)⟩]
  deltas := [⟨some ⟨"tool_use", by decide⟩, some { outputTokens := some 2 }⟩]

theorem stream_loses_content :
    (besideUsage.Valid ∧ ∃ answer, besideUsage.chat (fun _ => none) = some answer ∧
      answer.content = "Hi" ∧ ¬ Agrees besideUsage.stream answer) ∧
    ((Exchange.anthropic true hiddenCall hiddenCall.events).Valid ∧
      ∃ answer, (Exchange.anthropic true hiddenCall hiddenCall.events).chat loadsEmpty =
        some answer ∧ answer.content = JsonObject.empty.dumps ∧
        ¬ Agrees (Exchange.anthropic true hiddenCall hiddenCall.events).stream answer) := by
  refine ⟨⟨single_chunked (by decide) (by decide) (by decide) (by decide), _, rfl, rfl, ?_⟩,
    ⟨by unfold Exchange.Valid Anthropic.MessageChunks.Sent; decide, _, rfl, rfl, ?_⟩⟩
  · rintro ⟨content, -, -⟩
    exact absurd content (by decide)
  · rintro ⟨content, -, -⟩
    exact absurd content (by decide)

end AgentStudio.Adapters
