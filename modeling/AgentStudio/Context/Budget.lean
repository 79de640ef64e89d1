import AgentStudio.Context.Assembler

/-!
# What an assembled prompt costs

Every part of a prompt is counted message by message before it goes in, and goes in
only if it fits. So the total of a prompt is the sum of its messages' estimates, and
is within the budget.
-/

namespace AgentStudio.Context
open Gateway

section
variable (loader : Loader) (request : Request)

/-- The estimates of the texts, together. -/
def Loader.costOf (provider model : String) (texts : List String) : Nat :=
  (texts.map fun text => loader.estimate text provider model).sum

theorem costOf_append (provider model : String) (texts texts' : List String) :
    loader.costOf provider model (texts ++ texts') =
      loader.costOf provider model texts + loader.costOf provider model texts' := by
  rw [Loader.costOf, List.map_append, List.sum_append]
  rfl

/-- The window of the model, less what is reserved for the output. -/
def Loader.contextBudget (provider model : String) : Nat :=
  ((loader.catalog.get provider model).map ModelSpec.contextWindow).getD 128000 -
    loader.outputReserveTokens

theorem budget_eq (own : request.contextWindowOverride = none) :
    loader.budget request = loader.contextBudget request.provider request.model := by
  simp [Loader.budget, Loader.window, own, Loader.contextBudget]

/-- The estimates of the messages, together. -/
def cost (messages : List Message) : Nat :=
  (messages.map fun m => loader.tokens request m.content).sum

theorem cost_eq (messages : List Message) : cost loader request messages =
    loader.costOf request.provider request.model (messages.map Message.content) := by
  rw [Loader.costOf, List.map_map]
  rfl

theorem cost_append (messages messages' : List Message) :
    cost loader request (messages ++ messages') =
      cost loader request messages + cost loader request messages' := by
  rw [cost, List.map_append, List.sum_append]
  rfl

theorem cost_cons (m : Message) (messages : List Message) :
    cost loader request (m :: messages) =
      loader.tokens request m.content + cost loader request messages := by
  rw [cost, List.map_cons, List.sum_cons]
  rfl

theorem cost_single (m : Message) :
    cost loader request [m] = loader.tokens request m.content := by simp [cost]

/-- The messages of a draft are those counted, and the rest of the budget remains. -/
structure Draft.Counted (draft : Draft) : Prop where
  counts : cost loader request draft.ctx.messages = (draft.ctx.tokenCounts.map Prod.snd).sum
  rest : cost loader request draft.ctx.messages + draft.remaining = loader.budget request
  budget : draft.ctx.budgetTokens = loader.budget request

variable {loader request} {draft : Draft}

namespace Draft.Counted

theorem add (h : draft.Counted loader request) {name : String} {tokens : Nat}
    {messages : List Message} (counted : cost loader request messages = tokens)
    (fits : tokens ≤ draft.remaining) : (draft.add name tokens messages).Counted loader request := by
  constructor
  · simp [Draft.add, cost_append, counted, h.counts]
  · have := h.rest
    simp only [Draft.add, cost_append, counted]
    omega
  · exact h.budget

theorem omitBlock (h : draft.Counted loader request) (name : String) :
    (draft.omitBlock name).Counted loader request := ⟨h.counts, h.rest, h.budget⟩

theorem withSystem (fits : loader.tokens request request.systemPrompt ≤ loader.budget request) :
    (withSystem loader request).Counted loader request := by
  constructor
  · simp [Context.withSystem, Draft.add, cost_single]
  · simp only [Context.withSystem, Draft.add, List.nil_append, cost_single]
    omega
  · rfl

theorem addSummary (h : draft.Counted loader request) :
    (addSummary loader request draft).Counted loader request := by
  unfold Context.addSummary
  by_cases none_ : layers request = []
  · rw [if_pos none_]
    exact h
  · rw [if_neg none_]
    by_cases fits : summaryTokens loader request ≤ draft.remaining
    · rw [if_pos fits]
      exact h.add rfl fits
    · rw [if_neg fits]
      exact h.omitBlock _

theorem addMemory (h : draft.Counted loader request) :
    (addMemory loader request draft).Counted loader request := by
  unfold Context.addMemory
  by_cases none_ : request.memoryFacts = []
  · rw [if_pos none_]
    exact h
  · rw [if_neg none_]
    by_cases fits : loader.tokens request (memoryText request) ≤ draft.remaining
    · exact (if_pos fits).symm ▸ h.add (cost_single _ _ _) fits
    · exact (if_neg fits).symm ▸ h.omitBlock _

end Draft.Counted

/-- The tail so far is counted, and its tokens were there to be had. -/
structure Tail.Counted (had : Nat) (loader : Loader) (request : Request) (tail : Tail) : Prop where
  counts : cost loader request tail.messages = tail.tokens
  rest : tail.tokens + tail.remaining = had

theorem walkTail_counted {had : Nat} (turns : List ContextTurn) {tail tail' : Tail}
    (h : tail.Counted had loader request) (ok : walkTail loader request turns tail = .ok tail') :
    tail'.Counted had loader request := by
  induction turns generalizing tail with
  | nil =>
    cases ok
    exact h
  | cons turn rest ih =>
    rw [walkTail] at ok
    by_cases skip : skipped request.summaryPosition turn = true
    · rw [if_pos skip] at ok
      exact ih h ok
    · rw [if_neg skip] at ok
      cases content : turnContent turn request.clearToolPayloads with
      | error e =>
        rw [content] at ok
        cases ok
      | ok text =>
        rw [content] at ok
        change (if _ then _ else _ : Except AssemblyError Tail) = _ at ok
        by_cases blank : text = ""
        · rw [if_pos blank] at ok
          exact ih h ok
        · rw [if_neg blank] at ok
          by_cases full : tail.remaining < loader.tokens request text
          · rw [if_pos full] at ok
            have same : Tail.Counted had loader request
                { tail with omitted := tail.omitted ++ [turn.label] } := ⟨h.counts, h.rest⟩
            exact ih same ok
          · rw [if_neg full] at ok
            refine ih ?_ ok
            constructor
            · rw [cost_cons, h.counts]
              exact Nat.add_comm _ _
            · have := h.rest
              dsimp only
              omega

theorem addTail_counted {draft' : Draft} (h : draft.Counted loader request)
    (ok : addTail loader request draft = .ok draft') : draft'.Counted loader request := by
  unfold addTail at ok
  cases walked : walkTail loader request (recentTurnsFirst request.historyTurns)
      { remaining := draft.remaining } with
  | error e =>
    rw [walked] at ok
    cases ok
  | ok tail =>
    rw [walked] at ok
    have start : Tail.Counted draft.remaining loader request { remaining := draft.remaining } :=
      ⟨rfl, Nat.zero_add _⟩
    have counted := walkTail_counted _ start walked
    have omitted : Draft.Counted loader request
        { draft with ctx := { draft.ctx with omittedTurns := tail.omitted } } :=
      ⟨h.counts, h.rest, h.budget⟩
    change (if _ then _ else _ : Except AssemblyError Draft) = _ at ok
    by_cases none_ : tail.messages = []
    · rw [if_pos none_] at ok
      cases ok
      exact omitted
    · rw [if_neg none_] at ok
      cases ok
      apply omitted.add counted.counts
      have := counted.rest
      dsimp only
      omega

/-- The documents that fit are counted one by one. -/
theorem fittingDocs_spec (idx : Nat) (docs : List Doc) (remaining : Nat) :
    (fittingDocs loader request idx docs remaining).2 ≤ remaining ∧
      (((docs.take (fittingDocs loader request idx docs remaining).1).mapIdx fun i doc =>
        loader.tokens request (docText (idx + i) doc))).sum =
          (fittingDocs loader request idx docs remaining).2 := by
  induction docs generalizing idx remaining with
  | nil => simp [fittingDocs]
  | cons doc docs ih =>
    rw [fittingDocs]
    by_cases full : remaining < loader.tokens request (docText idx doc)
    · simp [full]
    · obtain ⟨within, counted⟩ := ih (idx + 1) (remaining - loader.tokens request (docText idx doc))
      simp only [full, if_false]
      constructor
      · omega
      · rw [List.take_succ_cons, List.mapIdx_cons, List.sum_cons, ← counted]
        simp [Nat.add_assoc, Nat.add_comm 1]

theorem addKnowledge_counted (h : draft.Counted loader request) :
    (addKnowledge loader request draft).Counted loader request := by
  obtain ⟨within, counted⟩ := @fittingDocs_spec loader request 0
    (sortedDocs request.retrievedDocs) draft.remaining
  have omitted (docs : List Nat) : Draft.Counted loader request
      { draft with ctx := { draft.ctx with omittedDocs := docs } } :=
    ⟨h.counts, h.rest, h.budget⟩
  unfold addKnowledge
  dsimp only
  split
  · exact omitted _
  · refine (omitted _).add ?_ within
    rw [← counted, cost]
    simp [List.mapIdx_eq_zipIdx_map, Function.comp_def]

/-- An assembled prompt costs what its total says, and is within the budget. -/
theorem assemble_counted {ctx : AssembledContext} (ok : loader.assemble request = .ok ctx) :
    cost loader request ctx.messages = ctx.totalTokens ∧
      ctx.totalTokens ≤ loader.budget request ∧ ctx.budgetTokens = loader.budget request := by
  unfold Loader.assemble at ok
  dsimp only at ok
  by_cases small : loader.window request ≤ loader.outputReserveTokens
  · rw [if_pos small] at ok
    cases ok
  rw [if_neg small] at ok
  by_cases long : loader.budget request < loader.tokens request request.systemPrompt
  · rw [if_pos long] at ok
    cases ok
  rw [if_neg long] at ok
  have head := (Draft.Counted.withSystem (Nat.le_of_not_lt long)).addSummary.addMemory
  cases tail : addTail loader request
      (addMemory loader request (addSummary loader request (withSystem loader request))) with
  | error e =>
    rw [tail] at ok
    cases ok
  | ok draft =>
    rw [tail] at ok
    have knowledge := addKnowledge_counted (addTail_counted head tail)
    change addCurrent loader request (addKnowledge loader request draft) = _ at ok
    unfold addCurrent at ok
    dsimp only at ok
    by_cases full : (addKnowledge loader request draft).remaining <
        loader.tokens request request.currentMessage
    · rw [if_pos full] at ok
      cases ok
    · rw [if_neg full] at ok
      cases ok
      have whole : Draft.Counted loader request (Draft.add _ "current" _ [{
          block := .current, role := "user", content := request.currentMessage }]) :=
        knowledge.add (cost_single _ _ _) (Nat.le_of_not_lt full)
      refine ⟨whole.counts, ?_, whole.budget⟩
      rw [← whole.rest, whole.counts]
      exact Nat.le_add_right _ _

end

end AgentStudio.Context
