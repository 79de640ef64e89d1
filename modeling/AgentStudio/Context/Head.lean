import AgentStudio.Context.Assembler

/-!
# The head of a prompt

The system prompt and the summary come first. Every later part only adds messages
of its own after what is there.
-/

namespace AgentStudio.Context

/-- The parts that head a prompt. -/
def Block.heads : Block → Bool
  | .system | .summary => true
  | _ => false

/-- The system and summary messages of a prompt. -/
def AssembledContext.head (ctx : AssembledContext) : List Message :=
  ctx.messages.filter fun m => m.block.heads

/-- Messages of later parts come after those that are there. -/
def Follows (messages messages' : List Message) : Prop :=
  ∃ later, messages' = messages ++ later ∧ ∀ m ∈ later, m.block.heads = false

/-- What the system prompt leaves of the budget. -/
def Loader.afterSystem (loader : Loader) (request : Request) : Nat :=
  loader.budget request - loader.tokens request request.systemPrompt

def systemMessage (loader : Loader) (request : Request) : Message where
  block := .system
  role := "system"
  content := request.systemPrompt
  cacheControl := loader.markers request

variable {loader : Loader} {request : Request}

namespace Follows

variable {messages messages' messages'' : List Message}

theorem refl (messages : List Message) : Follows messages messages :=
  ⟨[], (List.append_nil _).symm, by simp⟩

theorem trans (h : Follows messages messages') (h' : Follows messages' messages'') :
    Follows messages messages'' := by
  obtain ⟨later, rfl, other⟩ := h
  obtain ⟨later', rfl, other'⟩ := h'
  refine ⟨later ++ later', List.append_assoc _ _ _, ?_⟩
  intro m mem
  rcases List.mem_append.mp mem with here | here
  · exact other m here
  · exact other' m here

end Follows

/-! ## The parts after the summary -/

theorem add_follows (draft : Draft) (name : String) (tokens : Nat) {messages : List Message}
    (block : Block) (all : ∀ m ∈ messages, m.block = block) (later : block.heads = false) :
    Follows draft.ctx.messages (draft.add name tokens messages).ctx.messages := by
  refine ⟨messages, rfl, ?_⟩
  intro m mem
  rw [all m mem, later]

theorem addMemory_follows (draft : Draft) :
    Follows draft.ctx.messages (addMemory loader request draft).ctx.messages := by
  unfold addMemory
  by_cases facts : request.memoryFacts = []
  · rw [if_pos facts]
    exact .refl _
  · rw [if_neg facts]
    dsimp only
    split
    · exact add_follows _ _ _ .memory (by simp) rfl
    · exact .refl _

theorem walkTail_block {turns : List ContextTurn} {tail tail' : Tail}
    (all : ∀ m ∈ tail.messages, m.block = .tail)
    (h : walkTail loader request turns tail = .ok tail') : ∀ m ∈ tail'.messages, m.block = .tail := by
  induction turns generalizing tail with
  | nil =>
    cases h
    exact all
  | cons turn rest ih =>
    unfold walkTail at h
    by_cases skip : skipped request.summaryPosition turn = true
    · simp only [skip, if_true] at h
      exact ih all h
    · simp only [skip] at h
      cases read : turnContent turn request.clearToolPayloads with
      | error e =>
        rw [read] at h
        cases h
      | ok content =>
        rw [read] at h
        change (if content = "" then _ else _) = _ at h
        split at h
        · exact ih all h
        · split at h
          · exact ih (by simpa using all) h
          · exact ih (by simpa using all) h

theorem addTail_follows {draft draft' : Draft} (h : addTail loader request draft = .ok draft') :
    Follows draft.ctx.messages draft'.ctx.messages := by
  unfold addTail at h
  cases walk : walkTail loader request (recentTurnsFirst request.historyTurns)
      { remaining := draft.remaining } with
  | error e =>
    rw [walk] at h
    cases h
  | ok tail =>
    rw [walk] at h
    change (if tail.messages = [] then _ else _) = _ at h
    split at h
    · cases h
      exact .refl _
    · cases h
      exact ⟨tail.messages, rfl, fun m mem => by rw [walkTail_block (by simp) walk m mem]; rfl⟩

theorem addKnowledge_follows (draft : Draft) :
    Follows draft.ctx.messages (addKnowledge loader request draft).ctx.messages := by
  unfold addKnowledge
  simp only
  split
  · exact .refl _
  · refine ⟨_, rfl, ?_⟩
    intro m mem
    obtain ⟨i, bound, rfl⟩ := List.mem_mapIdx.mp mem
    rfl

theorem addCurrent_follows {draft : Draft} {ctx : AssembledContext}
    (h : addCurrent loader request draft = .ok ctx) : Follows draft.ctx.messages ctx.messages := by
  unfold addCurrent at h
  simp only at h
  split at h
  · cases h
  · cases h
    exact add_follows draft "current" (loader.tokens request request.currentMessage) .current
      (by simp) rfl

/-! ## The head -/

theorem summaryMessages_block {m : Message} (mem : m ∈ summaryMessages loader request) :
    m.block = .summary := by
  obtain ⟨i, bound, rfl⟩ := List.mem_mapIdx.mp mem
  rfl

theorem summaryMessages_eq_nil : summaryMessages loader request = [] ↔ layers request = [] := by
  simp [summaryMessages]

/-- The head of a prompt: the summary is there whole where it fits after the system prompt. -/
def headMessages (loader : Loader) (request : Request) : List Message :=
  systemMessage loader request ::
    if summaryTokens loader request ≤ loader.afterSystem request then
      summaryMessages loader request
    else []

theorem addSummary_messages :
    (addSummary loader request (withSystem loader request)).ctx.messages =
      headMessages loader request := by
  unfold addSummary headMessages
  by_cases empty : layers request = []
  · rw [if_pos empty, summaryMessages_eq_nil.mpr empty, ite_self]
    rfl
  · rw [if_neg empty]
    by_cases fits : summaryTokens loader request ≤ (withSystem loader request).remaining
    · have fits' : summaryTokens loader request ≤ loader.afterSystem request := fits
      rw [if_pos fits, if_pos fits']
      rfl
    · have full : ¬summaryTokens loader request ≤ loader.afterSystem request := fits
      rw [if_neg fits, if_neg full]
      rfl

/-- All that a prompt adds to its head comes after it. -/
theorem assemble_follows {ctx : AssembledContext} (h : loader.assemble request = .ok ctx) :
    Follows (headMessages loader request) ctx.messages := by
  unfold Loader.assemble at h
  simp only at h
  split at h
  · cases h
  · split at h
    · cases h
    · cases tail : addTail loader request (addMemory loader request
          (addSummary loader request (withSystem loader request))) with
      | error e =>
        rw [tail] at h
        cases h
      | ok draft =>
        rw [tail] at h
        rw [← addSummary_messages]
        exact (addMemory_follows _).trans ((addTail_follows tail).trans
          ((addKnowledge_follows draft).trans (addCurrent_follows h)))

theorem assemble_head {ctx : AssembledContext} (h : loader.assemble request = .ok ctx) :
    ctx.head = headMessages loader request := by
  obtain ⟨later, messages, other⟩ := assemble_follows h
  have none_ : later.filter (fun m => m.block.heads) = [] := by
    rw [List.filter_eq_nil_iff]
    intro m mem
    rw [other m mem]
    exact Bool.false_ne_true
  have whole : (headMessages loader request).filter (fun m => m.block.heads) =
      headMessages loader request := by
    rw [List.filter_eq_self]
    intro m mem
    rcases List.mem_cons.mp mem with rfl | inside
    · rfl
    · split at inside
      · rw [summaryMessages_block inside]
        rfl
      · cases inside
  rw [AssembledContext.head, messages, List.filter_append, none_, whole, List.append_nil]

end AgentStudio.Context
