import AgentStudio.Context.Layout

/-!
# What a request becomes

A prompt is its parts in order, and costs what it says. The turns of its tail are those
that the walk takes; when the current message does not fit what the parts before it leave,
there is no prompt.
-/

namespace AgentStudio.Context

open Packing

variable {loader : Loader} {request : Request} {ctx : AssembledContext}

/-! ## The order of the turns -/

/-- A turn with its place is before another, by seq, then by place. -/
def Older (a b : ContextTurn × Nat) : Prop :=
  a.1.seq.getD 0 < b.1.seq.getD 0 ∨ a.1.seq.getD 0 = b.1.seq.getD 0 ∧ a.2 < b.2

/-- The order of the sort. -/
def NoNewer (a b : ContextTurn × Nat) : Prop :=
  b.1.seq.getD 0 < a.1.seq.getD 0 ∨ b.1.seq.getD 0 = a.1.seq.getD 0 ∧ b.2 ≤ a.2

instance : DecidableRel NoNewer := fun _ _ => inferInstanceAs (Decidable (_ ∨ _ ∧ _))

instance : Std.Total NoNewer := ⟨fun a b => by unfold NoNewer; omega⟩

instance : IsTrans (ContextTurn × Nat) NoNewer :=
  ⟨fun a b c h h' => by unfold NoNewer at *; omega⟩

/-- The turns of the user and the assistant with their places, the newest first. -/
def newestFirst (turns : List ContextTurn) : List (ContextTurn × Nat) :=
  (turns.zipIdx.filter fun p => p.1.role = "user" ∨ p.1.role = "assistant").insertionSort NoNewer

theorem recentTurnsFirst_eq (turns : List ContextTurn) :
    recentTurnsFirst turns = (newestFirst turns).map Prod.fst := rfl

theorem mem_newestFirst {turns : List ContextTurn} {p : ContextTurn × Nat}
    (mem : p ∈ newestFirst turns) : p ∈ turns.zipIdx :=
  List.mem_of_mem_filter ((List.mem_insertionSort _).mp mem)

theorem newestFirst_ordered (turns : List ContextTurn) :
    (newestFirst turns).Pairwise fun a b => Older b a := by
  have sorted := List.pairwise_insertionSort NoNewer
    (turns.zipIdx.filter fun p => p.1.role = "user" ∨ p.1.role = "assistant")
  have places : (turns.zipIdx.filter fun p => p.1.role = "user" ∨ p.1.role = "assistant").Pairwise
      fun a b => a.2 ≠ b.2 := by
    apply List.Pairwise.filter
    rw [← List.pairwise_map, List.zipIdx_map_snd]
    exact List.nodup_range'
  have apart := places.perm (List.perm_insertionSort NoNewer _).symm fun h => h.symm
  apply sorted.imp₂ _ apart
  intro a b h differ
  unfold NoNewer at h
  unfold Older
  omega
/-- A part of what the walk takes, the oldest first, is that of turns in order. -/
theorem shown_turns {messages : List Message} (sub : messages.Sublist (candidates request)) :
    ∃ turns : List (ContextTurn × Nat), messages.reverse =
        turns.filterMap (fun p => tailMessage request p.1) ∧
      turns.Pairwise Older ∧ ∀ p ∈ turns, p ∈ request.historyTurns.zipIdx ∧
        (tailMessage request p.1).isSome := by
  rw [candidates, recentTurnsFirst_eq, List.filterMap_map] at sub
  obtain ⟨turns, within, rfl⟩ := List.sublist_filterMap_iff.mp sub
  have ordered := (newestFirst_ordered request.historyTurns).sublist within
  refine ⟨(turns.filter fun p => (tailMessage request p.1).isSome).reverse, ?_, ?_, ?_⟩
  · rw [List.filterMap_reverse, List.filterMap_filter]
    apply congrArg List.reverse
    apply List.filterMap_congr
    intro p _
    cases shown : tailMessage request p.1 with
    | none => simp [shown]
    | some m => simp [shown]
  · rw [List.pairwise_reverse]
    exact ordered.filter _
  · intro p mem
    obtain ⟨mem, shown⟩ := List.mem_filter.mp (List.mem_reverse.mp mem)
    exact ⟨mem_newestFirst (within.subset mem), shown⟩

/-! ## A prompt -/

theorem assemble_ok (ok : loader.assemble request = .ok ctx) :
    ctx.messages = layout loader request := by
  by_cases headless : loader.Headless request
  · obtain ⟨message, raises⟩ := assemble_headless headless
    rw [raises] at ok
    cases ok
  by_cases violated : request.Violated
  · obtain ⟨message, raises⟩ := assemble_violated headless violated
    rw [raises] at ok
    cases ok
  have whole := assemble_quiet headless violated
  split at whole
  · obtain ⟨message, raises⟩ := whole
    rw [raises] at ok
    cases ok
  · obtain ⟨ctx', is, messages⟩ := whole
    rw [is] at ok
    cases ok
    exact messages

/-- A prompt costs what it says, which is within its budget, and its parts are in order: of the
summary and the facts each is there whole or not at all, and the turns are those of the history
by seq, then by place. -/
theorem assemble_laid (ok : loader.assemble request = .ok ctx) :
    ctx.totalTokens = cost loader request ctx.messages ∧ ctx.totalTokens ≤ ctx.budgetTokens ∧
    ∃ (summary memory knowledge : List Message) (turns : List (ContextTurn × Nat)),
      ctx.messages = [systemMessage loader request] ++ summary ++ memory ++
        turns.filterMap (fun p => tailMessage request p.1) ++ knowledge ++
        [currentMessage request] ∧
      (summary = [] ∨ summary = summaryMessages loader request) ∧
      (memory = [] ∨ memory = memoryMessages request) ∧ knowledge <+: docMessages request ∧
      turns.Pairwise Older ∧ ∀ p ∈ turns, p ∈ request.historyTurns.zipIdx ∧
        (tailMessage request p.1).isSome := by
  obtain ⟨counted, within, budget⟩ := assemble_counted ok
  refine ⟨counted.symm, within.trans_eq budget.symm, ?_⟩
  obtain ⟨turns, shown, ordered, placed⟩ := shown_turns
    (taken_sublist (loader.size request) (loader.afterMemory request) (candidates request))
  refine ⟨summaryShown loader request, memoryShown loader request, docsShown loader request, turns,
    ?_, whole_cases _ _ _, whole_cases _ _ _, fitting_starts _ _ _, ordered, placed⟩
  rw [assemble_ok ok, ← shown]
  rfl

/-- Four characters a token, nothing reserved. -/
def plainLoader : Loader where
  estimate := fun text _ _ => (text.length + 3) / 4
  outputReserveTokens := 0
  cacheMarkers := true

/-- A short turn and a long one after it, in a window of `window` tokens. -/
def twoTurns (window : Nat) : Request where
  provider := "openai"
  model := "gpt-4o"
  systemPrompt := "S"
  currentMessage := "And the refund?"
  historyTurns := [⟨"user", "Where is my order?", some 1, none, false, none⟩,
    ⟨"assistant", "It was sent on Monday and will be with you on Friday.", some 2, none, false,
      none⟩]
  contextWindowOverride := some window

theorem assemble_laid_plain : ∃ ctx, plainLoader.assemble (twoTurns 24) = .ok ctx ∧
    ctx.totalTokens = cost plainLoader (twoTurns 24) ctx.messages ∧
    ctx.totalTokens ≤ ctx.budgetTokens := by
  have ok : ∃ ctx, plainLoader.assemble (twoTurns 24) = .ok ctx := ⟨_, rfl⟩
  obtain ⟨ctx, ok⟩ := ok
  obtain ⟨counted, within, -⟩ := assemble_laid ok
  exact ⟨ctx, ok, counted, within⟩

/-! ## The newest turns -/

/-- The turns of a prompt. -/
def AssembledContext.tail (ctx : AssembledContext) : List Message :=
  ctx.messages.filter fun m => m.block = .tail

theorem filter_block {messages : List Message} {block : Block}
    (all : ∀ m ∈ messages, m.block = block) (wanted : Block) :
    messages.filter (fun m => m.block = wanted) = if block = wanted then messages else [] := by
  split
  · rename_i same
    rw [List.filter_eq_self]
    intro m mem
    rw [all m mem, same]
    exact decide_eq_true rfl
  · rename_i differs
    rw [List.filter_eq_nil_iff]
    intro m mem is
    exact differs ((all m mem).symm.trans (of_decide_eq_true is))

theorem whole_subset (c : Message → Nat) (budget : Nat) (messages : List Message) :
    whole c budget messages ⊆ messages := by
  rcases whole_cases c budget messages with is | is
  · rw [is]
    exact List.nil_subset _
  · rw [is]
    exact List.Subset.refl _

theorem candidates_block {m : Message} (mem : m ∈ candidates request) : m.block = .tail := by
  obtain ⟨turn, -, shown⟩ := List.mem_filterMap.mp mem
  rw [tailMessage] at shown
  split at shown
  · cases shown
  · cases shown
    rfl

theorem layout_tail : (layout loader request).filter (fun m => m.block = .tail) =
    (tailShown loader request).reverse := by
  have summary : ∀ m ∈ summaryShown loader request, m.block = .summary := fun m mem =>
    summaryMessages_block (whole_subset _ _ _ mem)
  have memory : ∀ m ∈ memoryShown loader request, m.block = .memory := by
    intro m mem
    have from_ := whole_subset _ _ _ mem
    rw [memoryMessages] at from_
    split at from_
    · cases from_
    · rw [List.mem_singleton.mp from_]
  have tail : ∀ m ∈ (tailShown loader request).reverse, m.block = .tail := fun m mem =>
    candidates_block ((taken_sublist _ _ _).subset (List.mem_reverse.mp mem))
  have docs : ∀ m ∈ docsShown loader request, m.block = .knowledge := by
    intro m mem
    obtain ⟨i, bound, rfl⟩ := List.mem_mapIdx.mp ((fitting_starts _ _ _).subset mem)
    rfl
  rw [layout]
  simp only [List.filter_append, filter_block summary, filter_block memory, filter_block tail,
    filter_block docs]
  simp [systemMessage, currentMessage]

/-- The turns of a prompt are the newest of those that the tail may show if and only if, where
one first does not fit, no older one would. -/
theorem tail_newest_iff (ok : loader.assemble request = .ok ctx) :
    ctx.tail <:+ (candidates request).reverse ↔
      NoGap (loader.size request) (loader.afterMemory request) (candidates request) := by
  rw [AssembledContext.tail, assemble_ok ok, layout_tail, List.reverse_suffix]
  exact taken_prefix_iff

theorem tail_newest_plain : ∃ ctx, plainLoader.assemble (twoTurns 24) = .ok ctx ∧
    ctx.tail <:+ (candidates (twoTurns 24)).reverse := by
  have ok : ∃ ctx, plainLoader.assemble (twoTurns 24) = .ok ctx := ⟨_, rfl⟩
  obtain ⟨ctx, ok⟩ := ok
  exact ⟨ctx, ok, (tail_newest_iff ok).mpr (taken_prefix_iff.mp (by decide))⟩

/-- The long turn does not fit, and the older one is shown without it. -/
theorem tail_gap : ∃ ctx, plainLoader.assemble (twoTurns 12) = .ok ctx ∧
    (candidates (twoTurns 12)).map Message.content =
      ["It was sent on Monday and will be with you on Friday.", "Where is my order?"] ∧
    ctx.tail.map Message.content = ["Where is my order?"] ∧
    ¬ ctx.tail <:+ (candidates (twoTurns 12)).reverse :=
  ⟨_, rfl, by decide, by decide, by decide⟩

/-! ## No prompt -/

/-- The system prompt and the current message do not fit, or there is no budget. -/
def Loader.TooLong (loader : Loader) (request : Request) : Prop :=
  loader.window request ≤ loader.outputReserveTokens ∨
    loader.budget request <
      loader.tokens request request.systemPrompt + loader.tokens request request.currentMessage

theorem Loader.Headless.tooLong (headless : loader.Headless request) : loader.TooLong request :=
  headless.imp_right fun long => Nat.lt_add_right _ long

theorem afterDocs_le : loader.afterDocs request ≤ loader.afterSystem request :=
  (Nat.sub_le _ _).trans ((Nat.sub_le _ _).trans ((Nat.sub_le _ _).trans (Nat.sub_le _ _)))

/-- What does not fit the budget with the system prompt alone does not fit after the other
parts. -/
theorem Loader.TooLong.short (long : loader.TooLong request) (headed : ¬loader.Headless request) :
    loader.afterDocs request < loader.tokens request request.currentMessage := by
  obtain ⟨small, room⟩ := not_or.mp headed
  have exceeds := long.resolve_left small
  have least := @afterDocs_le loader request
  unfold Loader.afterSystem at least
  omega

theorem assemble_exceeds_iff :
    (∃ message, loader.assemble request = .error (.contextBudgetExceeded message)) ↔
      loader.Headless request ∨ ¬request.Violated ∧
        loader.afterDocs request < loader.tokens request request.currentMessage := by
  by_cases headless : loader.Headless request
  · exact iff_of_true (assemble_headless headless) (.inl headless)
  by_cases violated : request.Violated
  · obtain ⟨message, raises⟩ := assemble_violated headless violated
    rw [raises]
    simp [headless, violated]
  have quiet := assemble_quiet headless violated
  split at quiet
  · rename_i short
    exact iff_of_true quiet (.inr ⟨violated, short⟩)
  · rename_i fits
    obtain ⟨ctx, is, -⟩ := quiet
    rw [is]
    simp [headless, fits]

/-- A request is too long if and only if its system prompt and current message are, exactly
when: there is no room for the system prompt; or the two fit and a turn violates; or no turn
does, and where the two fit, the current message fits what the other parts leave. -/
theorem exceeds_tooLong_iff (loader : Loader) (request : Request) :
    ((∃ message, loader.assemble request = .error (.contextBudgetExceeded message)) ↔
      loader.TooLong request) ↔
    loader.Headless request ∨ request.Violated ∧ ¬loader.TooLong request ∨
      ¬request.Violated ∧ (loader.TooLong request ∨
        loader.tokens request request.currentMessage ≤ loader.afterDocs request) := by
  rw [assemble_exceeds_iff]
  by_cases headless : loader.Headless request
  · simp [headless, headless.tooLong]
  by_cases long : loader.TooLong request
  · simp [headless, long, long.short headless]
  · by_cases violated : request.Violated
    · simp [headless, long, violated]
    · simp [headless, long, violated]

/-- Two short turns, in a window of 8 tokens. -/
def crowded : Request := { twoTurns 8 with
  historyTurns := [⟨"user", "Where is it?", some 1, none, false, none⟩,
    ⟨"user", "Hello?", some 2, none, false, none⟩] }

/-- The system prompt and the current message are 5 of the 8 tokens, and the turns are 5. -/
theorem turns_exceed :
    plainLoader.assemble crowded = .error (.contextBudgetExceeded ("Current message (4 tokens) " ++
      "exceeds remaining context budget 2; compaction required (Arch 8.2)")) ∧
    ¬plainLoader.TooLong crowded := by
  refine ⟨by rfl, ?_⟩
  unfold Loader.TooLong
  decide

end AgentStudio.Context
