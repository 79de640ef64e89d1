import AgentStudio.Context.Head

/-!
# What stands for a skipped turn

A turn at or below the summary position is left out of the tail before its
tokens are counted. Whether the summary is in the prompt was decided earlier,
by what the system prompt had left.
-/

namespace AgentStudio.Context

def AssembledContext.summaryBlock (ctx : AssembledContext) : List Message :=
  ctx.messages.filter fun m => m.block = .summary

/-- The turns that the tail leaves out for their position. -/
def skippedTurns (request : Request) : List ContextTurn :=
  (recentTurnsFirst request.historyTurns).filter (skipped request.summaryPosition)

/-- The summary block is in the prompt, whole. -/
def Stands (loader : Loader) (request : Request) (ctx : AssembledContext) : Prop :=
  ctx.summaryBlock ≠ [] ∧ ctx.summaryBlock = summaryMessages loader request

variable {loader : Loader} {request : Request}

/-- The summary block of a prompt: all of it where it fits after the system prompt. -/
theorem assemble_summaryBlock {ctx : AssembledContext}
    (h : loader.assemble request = .ok ctx) :
    ctx.summaryBlock =
      if summaryTokens loader request ≤ loader.afterSystem request then
        summaryMessages loader request
      else [] := by
  obtain ⟨later, messages, other⟩ := assemble_follows h
  have none_ : later.filter (fun m => m.block = .summary) = [] := by
    rw [List.filter_eq_nil_iff]
    intro m mem here
    have block := other m mem
    rw [of_decide_eq_true here] at block
    cases block
  have whole : (summaryMessages loader request).filter (fun m => m.block = .summary) =
      summaryMessages loader request := by
    rw [List.filter_eq_self]
    intro m mem
    exact decide_eq_true (summaryMessages_block mem)
  have system : (systemMessage loader request).block ≠ .summary := by simp [systemMessage]
  rw [AssembledContext.summaryBlock, messages, List.filter_append, none_, List.append_nil,
    headMessages, List.filter_cons_of_neg (by simpa using system)]
  split
  · exact whole
  · rfl

/-- No turn is left out for its position without the summary in the prompt if and only if no
turn is left out so, or there is a summary and it fits after the system prompt. -/
theorem skipped_stands_iff {ctx : AssembledContext} (h : loader.assemble request = .ok ctx) :
    (∀ turn ∈ skippedTurns request, Stands loader request ctx) ↔
      skippedTurns request = [] ∨
        layers request ≠ [] ∧ summaryTokens loader request ≤ loader.afterSystem request := by
  have block := assemble_summaryBlock h
  constructor
  · intro stands
    by_cases none_ : skippedTurns request = []
    · exact .inl none_
    · obtain ⟨turn, mem⟩ := List.exists_mem_of_ne_nil _ none_
      obtain ⟨there, same⟩ := stands turn mem
      split at block
      next fits =>
        rw [same] at there
        exact .inr ⟨fun empty => there (summaryMessages_eq_nil.mpr empty), fits⟩
      next => exact absurd block there
  · rintro (none_ | ⟨some_, fits⟩) turn mem
    · simp [none_] at mem
    · rw [if_pos fits] at block
      refine ⟨?_, block⟩
      rw [block]
      exact fun empty => some_ (summaryMessages_eq_nil.mp empty)

/-! ## A summary that does not fit -/

/-- Four characters a token, and 50 tokens for the prompt. -/
def sampleLoader : Loader where
  estimate := fun text _ _ => (text.length + 3) / 4
  outputReserveTokens := 1024
  cacheMarkers := true

/-- Two turns up to position 2 and one after it, with a summary of `n` tokens. -/
def sampleRequest (n : Nat) : Request where
  provider := "openai"
  model := "gpt-4o-mini"
  systemPrompt := "You are a helpful assistant."
  currentMessage := "And the refund?"
  historyTurns := [⟨"user", "Where is my order?", some 1, none, false, none⟩,
    ⟨"assistant", "It was sent on Monday.", some 2, none, false, none⟩,
    ⟨"user", "Thank you.", some 3, none, false, none⟩]
  summary := some (String.ofList (List.replicate (4 * n) 'a'))
  summaryPosition := some 2
  contextWindowOverride := some 1074

set_option maxRecDepth 4000 in
theorem skipped_stands_iff_sample : ∃ ctx, sampleLoader.assemble (sampleRequest 10) = .ok ctx ∧
    skippedTurns (sampleRequest 10) ≠ [] ∧
    ∀ turn ∈ skippedTurns (sampleRequest 10), Stands sampleLoader (sampleRequest 10) ctx :=
  ⟨_, rfl, by decide, (skipped_stands_iff rfl).mpr (.inr (by decide))⟩

set_option maxRecDepth 4000 in
/-- The two turns are left out, and so is the summary. -/
theorem skipped_unsummarized : ∃ ctx, sampleLoader.assemble (sampleRequest 40) = .ok ctx ∧
    (skippedTurns (sampleRequest 40)).map ContextTurn.content =
      ["It was sent on Monday.", "Where is my order?"] ∧
    ctx.summaryBlock = [] ∧
    ¬ ∀ turn ∈ skippedTurns (sampleRequest 40), Stands sampleLoader (sampleRequest 40) ctx := by
  refine ⟨_, rfl, by decide, by decide, ?_⟩
  rw [skipped_stands_iff rfl]
  decide

end AgentStudio.Context
