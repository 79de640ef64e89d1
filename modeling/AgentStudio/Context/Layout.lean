import AgentStudio.Context.Budget
import AgentStudio.Context.Head
import AgentStudio.Packing.Greedy

/-!
# The layout of a prompt

What each part of a prompt is, in terms of the request alone: the summary and the
facts whole or not at all, of the turns those that the walk takes, of the documents
the longest start that fits.
-/

namespace AgentStudio.Context

open Packing

variable (loader : Loader) (request : Request)

/-- The estimate of a message. -/
def Loader.size (m : Message) : Nat := loader.tokens request m.content

/-! ## The turns -/

/-- The turn carries raw content with no redacted content, and the tail would show it. -/
def Violates (turn : ContextTurn) : Prop :=
  skipped request.summaryPosition turn = false ∧
    ¬(request.clearToolPayloads = true ∧ turn.hasToolPayload = true) ∧
    turn.content = "" ∧ turn.rawContent.getD "" ≠ ""

instance (turn : ContextTurn) : Decidable (Violates request turn) :=
  inferInstanceAs (Decidable (_ ∧ _ ∧ _ ∧ _))

/-- The text of a turn that may be shown. -/
def turnText (turn : ContextTurn) : String :=
  if request.clearToolPayloads ∧ turn.hasToolPayload then toolResultPlaceholder else turn.content

/-- The message of a turn that the tail may show: one after the summary, with a text. -/
def tailMessage (turn : ContextTurn) : Option Message :=
  if skipped request.summaryPosition turn = true ∨ turnText request turn = "" then none
  else some { block := .tail, role := turn.role, content := turnText request turn }

/-- The messages that the tail may show, the newest first. -/
def candidates : List Message :=
  (recentTurnsFirst request.historyTurns).filterMap (tailMessage request)

variable {loader request} {turn : ContextTurn}

theorem turnContent_violates (h : Violates request turn) :
    ∃ message, turnContent turn request.clearToolPayloads =
      .error (.redactionViolation message) := by
  obtain ⟨-, shown, blank, raw⟩ := h
  rw [turnContent, if_neg shown, if_neg (not_not_intro blank), if_pos raw]
  exact ⟨_, rfl⟩

theorem turnContent_quiet (seen : skipped request.summaryPosition turn = false)
    (quiet : ¬Violates request turn) :
    turnContent turn request.clearToolPayloads = .ok (turnText request turn) := by
  rw [turnContent, turnText]
  by_cases cleared : request.clearToolPayloads = true ∧ turn.hasToolPayload = true
  · rw [if_pos cleared, if_pos cleared]
    rfl
  · rw [if_neg cleared, if_neg cleared]
    by_cases blank : turn.content = ""
    · have raw : ¬turn.rawContent.getD "" ≠ "" := fun raw => quiet ⟨seen, cleared, blank, raw⟩
      rw [if_neg (not_not_intro blank), if_neg raw, blank]
      rfl
    · rw [if_pos blank]
      rfl

/-! ## The walk -/

theorem walkTail_skipped (skip : skipped request.summaryPosition turn = true)
    (turns : List ContextTurn) (tail : Tail) :
    walkTail loader request (turn :: turns) tail = walkTail loader request turns tail := by
  rw [walkTail, if_pos skip]

/-- A turn that is not to be shown changes nothing. -/
theorem walkTail_none (quiet : ¬Violates request turn) (none_ : tailMessage request turn = none)
    (turns : List ContextTurn) (tail : Tail) :
    walkTail loader request (turn :: turns) tail = walkTail loader request turns tail := by
  by_cases skip : skipped request.summaryPosition turn = true
  · exact walkTail_skipped skip turns tail
  · have seen := Bool.eq_false_iff.mpr skip
    have blank : turnText request turn = "" := by simpa [tailMessage, seen] using none_
    rw [walkTail, if_neg skip, turnContent_quiet seen quiet, blank]
    rfl

/-- A turn that is to be shown is shown where it fits, and is omitted where not. -/
theorem walkTail_some (quiet : ¬Violates request turn) {m : Message}
    (some_ : tailMessage request turn = some m) (turns : List ContextTurn) (tail : Tail) :
    walkTail loader request (turn :: turns) tail =
      if tail.remaining < loader.size request m then
        walkTail loader request turns { tail with omitted := tail.omitted ++ [turn.label] }
      else walkTail loader request turns { tail with
        messages := m :: tail.messages
        tokens := tail.tokens + loader.size request m
        remaining := tail.remaining - loader.size request m } := by
  have hidden : ¬(skipped request.summaryPosition turn = true ∨ turnText request turn = "") := by
    intro hidden
    rw [tailMessage, if_pos hidden] at some_
    cases some_
  rw [tailMessage, if_neg hidden] at some_
  cases some_
  obtain ⟨skip, text⟩ := not_or.mp hidden
  rw [walkTail, if_neg skip, turnContent_quiet (Bool.eq_false_iff.mpr skip) quiet]
  exact if_neg text

/-- The walk raises at the first turn that violates. -/
theorem walkTail_violates {turns : List ContextTurn} (tail : Tail)
    (h : ∃ turn ∈ turns, Violates request turn) :
    ∃ message, walkTail loader request turns tail = .error (.redactionViolation message) := by
  induction turns generalizing tail with
  | nil => simp at h
  | cons turn rest ih =>
    by_cases violates : Violates request turn
    · obtain ⟨message, read⟩ := turnContent_violates violates
      rw [walkTail, if_neg (Bool.eq_false_iff.mp violates.1), read]
      exact ⟨message, rfl⟩
    · have later : ∃ turn ∈ rest, Violates request turn := by simpa [violates] using h
      cases shown : tailMessage request turn with
      | none =>
        rw [walkTail_none violates shown]
        exact ih tail later
      | some m =>
        rw [walkTail_some violates shown]
        split
        · exact ih _ later
        · exact ih _ later

/-- Otherwise it takes what fits. -/
theorem walkTail_taken {turns : List ContextTurn} (tail : Tail)
    (quiet : ∀ turn ∈ turns, ¬Violates request turn) : ∃ tail',
      walkTail loader request turns tail = .ok tail' ∧
      tail'.messages = (taken (loader.size request) tail.remaining
        (turns.filterMap (tailMessage request))).reverse ++ tail.messages := by
  induction turns generalizing tail with
  | nil => exact ⟨tail, rfl, rfl⟩
  | cons turn rest ih =>
    have first := quiet turn List.mem_cons_self
    have later : ∀ turn ∈ rest, ¬Violates request turn := fun turn mem =>
      quiet turn (List.mem_cons_of_mem _ mem)
    cases shown : tailMessage request turn with
    | none =>
      rw [walkTail_none first shown, List.filterMap_cons_none shown]
      exact ih tail later
    | some m =>
      rw [walkTail_some first shown, List.filterMap_cons_some shown]
      by_cases misfit : tail.remaining < loader.size request m
      · rw [if_pos misfit, taken_misfit misfit]
        exact ih _ later
      · rw [if_neg misfit, taken_fit (Nat.le_of_not_lt misfit)]
        obtain ⟨tail', walked, messages⟩ := ih { tail with
          messages := m :: tail.messages
          tokens := tail.tokens + loader.size request m
          remaining := tail.remaining - loader.size request m } later
        refine ⟨tail', walked, ?_⟩
        rw [messages, List.reverse_cons, List.append_assoc]
        rfl

/-! ## The documents -/

def docMessage (idx : Nat) (doc : Doc) : Message where
  block := .knowledge
  role := "system"
  content := docText idx doc

/-- The messages of the documents, the highest score first. -/
def docMessages (request : Request) : List Message :=
  (sortedDocs request.retrievedDocs).mapIdx docMessage

theorem fittingDocs_fitting (idx : Nat) (docs : List Doc) (remaining : Nat) :
    ((docs.take (fittingDocs loader request idx docs remaining).1).mapIdx fun i =>
        docMessage (idx + i)) =
      fitting (loader.size request) remaining (docs.mapIdx fun i => docMessage (idx + i)) ∧
    (fittingDocs loader request idx docs remaining).2 = total (loader.size request)
      (fitting (loader.size request) remaining (docs.mapIdx fun i => docMessage (idx + i))) := by
  induction docs generalizing idx remaining with
  | nil => exact ⟨rfl, rfl⟩
  | cons doc docs ih =>
    rw [fittingDocs, List.mapIdx_cons]
    have size : loader.size request (docMessage (idx + 0) doc) =
        loader.tokens request (docText idx doc) := rfl
    by_cases misfit : remaining < loader.tokens request (docText idx doc)
    · rw [if_pos misfit, fitting_misfit (size ▸ misfit)]
      exact ⟨rfl, rfl⟩
    · obtain ⟨taken, tokens⟩ := ih (idx + 1) (remaining - loader.tokens request (docText idx doc))
      simp only [Nat.add_assoc, Nat.add_comm 1] at taken tokens
      rw [if_neg misfit, fitting_fit (size ▸ Nat.le_of_not_lt misfit), total_cons, size]
      refine ⟨?_, congrArg (loader.tokens request (docText idx doc) + ·) tokens⟩
      rw [List.take_succ_cons, List.mapIdx_cons]
      exact congrArg (docMessage idx doc :: ·) taken

/-! ## The parts -/

variable (loader request)

/-- The message of the facts, if there are any. -/
def memoryMessages : List Message :=
  if request.memoryFacts = [] then []
  else [{ block := .memory, role := "system", content := memoryText request }]

def summaryShown : List Message :=
  whole (loader.size request) (loader.afterSystem request) (summaryMessages loader request)

def Loader.afterSummary : Nat :=
  loader.afterSystem request - total (loader.size request) (summaryShown loader request)

def memoryShown : List Message :=
  whole (loader.size request) (loader.afterSummary request) (memoryMessages request)

/-- What is left for the turns. -/
def Loader.afterMemory : Nat :=
  loader.afterSummary request - total (loader.size request) (memoryShown loader request)

/-- The turns that are shown, the newest first. -/
def tailShown : List Message :=
  taken (loader.size request) (loader.afterMemory request) (candidates request)

def Loader.afterTail : Nat :=
  loader.afterMemory request - total (loader.size request) (tailShown loader request)

def docsShown : List Message :=
  fitting (loader.size request) (loader.afterTail request) (docMessages request)

/-- What is left for the current message. -/
def Loader.afterDocs : Nat :=
  loader.afterTail request - total (loader.size request) (docsShown loader request)

def currentMessage : Message where
  block := .current
  role := "user"
  content := request.currentMessage

/-- A prompt whole. -/
def layout : List Message :=
  [systemMessage loader request] ++ summaryShown loader request ++ memoryShown loader request ++
    (tailShown loader request).reverse ++ docsShown loader request ++ [currentMessage request]

/-- The messages of a draft, and what is left of the budget. -/
def Draft.Shows (draft : Draft) (messages : List Message) (left : Nat) : Prop :=
  draft.ctx.messages = messages ∧ draft.remaining = left

variable {loader request} {draft : Draft} {messages : List Message} {left : Nat}

theorem addSummary_shows (shows : draft.Shows messages left) :
    (addSummary loader request draft).Shows
      (messages ++ whole (loader.size request) left (summaryMessages loader request))
      (left - total (loader.size request)
        (whole (loader.size request) left (summaryMessages loader request))) := by
  obtain ⟨rfl, rfl⟩ := shows
  unfold addSummary
  by_cases empty : layers request = []
  · rw [if_pos empty, summaryMessages_eq_nil.mpr empty, whole_nil]
    exact ⟨(List.append_nil _).symm, rfl⟩
  · rw [if_neg empty]
    by_cases fits : total (loader.size request) (summaryMessages loader request) ≤ draft.remaining
    · rw [whole_fits fits]
      exact (if_pos fits).symm ▸ ⟨rfl, rfl⟩
    · rw [whole_misfit fits]
      exact (if_neg fits).symm ▸ ⟨(List.append_nil _).symm, rfl⟩

theorem addMemory_shows (shows : draft.Shows messages left) :
    (addMemory loader request draft).Shows
      (messages ++ whole (loader.size request) left (memoryMessages request))
      (left - total (loader.size request)
        (whole (loader.size request) left (memoryMessages request))) := by
  obtain ⟨rfl, rfl⟩ := shows
  unfold addMemory
  by_cases empty : request.memoryFacts = []
  · rw [if_pos empty, memoryMessages, if_pos empty, whole_nil]
    exact ⟨(List.append_nil _).symm, rfl⟩
  · rw [if_neg empty, memoryMessages, if_neg empty]
    have cost : total (loader.size request) [{
        block := .memory, role := "system", content := memoryText request }] =
          loader.tokens request (memoryText request) := total_single _
    by_cases fits : loader.tokens request (memoryText request) ≤ draft.remaining
    · rw [whole_fits (cost.trans_le fits), cost]
      exact (if_pos fits).symm ▸ ⟨rfl, rfl⟩
    · rw [whole_misfit (cost.symm ▸ fits)]
      exact (if_neg fits).symm ▸ ⟨(List.append_nil _).symm, rfl⟩

theorem addTail_shows (shows : draft.Shows messages left)
    (quiet : ∀ turn ∈ recentTurnsFirst request.historyTurns, ¬Violates request turn) :
    ∃ draft', addTail loader request draft = .ok draft' ∧
      draft'.Shows (messages ++ (taken (loader.size request) left (candidates request)).reverse)
        (left - total (loader.size request)
          (taken (loader.size request) left (candidates request))) := by
  obtain ⟨rfl, rfl⟩ := shows
  obtain ⟨tail, walked, messages⟩ :=
    @walkTail_taken loader request _ { remaining := draft.remaining } quiet
  have start : Tail.Counted draft.remaining loader request { remaining := draft.remaining } :=
    ⟨rfl, Nat.zero_add _⟩
  have tokens : tail.tokens = total (loader.size request)
      (taken (loader.size request) draft.remaining (candidates request)) := by
    rw [← (walkTail_counted _ start walked).counts, messages, List.append_nil]
    exact total_reverse _
  rw [List.append_nil] at messages
  unfold addTail
  rw [walked]
  by_cases none_ : tail.messages = []
  · refine ⟨_, if_pos none_, ?_⟩
    have shown : taken (loader.size request) draft.remaining (candidates request) = [] :=
      List.reverse_eq_nil_iff.mp (messages.symm.trans none_)
    rw [shown]
    exact ⟨(List.append_nil _).symm, rfl⟩
  · refine ⟨_, if_neg none_, ?_, ?_⟩
    · exact congrArg (draft.ctx.messages ++ ·) messages
    · exact congrArg (draft.remaining - ·) tokens

theorem addKnowledge_shows (shows : draft.Shows messages left) :
    (addKnowledge loader request draft).Shows
      (messages ++ fitting (loader.size request) left (docMessages request))
      (left - total (loader.size request)
        (fitting (loader.size request) left (docMessages request))) := by
  obtain ⟨rfl, rfl⟩ := shows
  obtain ⟨fits, tokens⟩ :=
    @fittingDocs_fitting loader request 0 (sortedDocs request.retrievedDocs) draft.remaining
  simp only [Nat.zero_add] at fits tokens
  rw [docMessages, ← tokens, ← fits]
  unfold addKnowledge
  dsimp only
  split
  · rename_i none_
    rw [none_] at fits
    rw [← fits] at tokens
    rw [none_, tokens]
    exact ⟨(List.append_nil _).symm, rfl⟩
  · exact ⟨rfl, rfl⟩

/-! ## What becomes of a request -/

/-- The window is within the reserve, or the system prompt is longer than the budget. -/
def Loader.Headless (loader : Loader) (request : Request) : Prop :=
  loader.window request ≤ loader.outputReserveTokens ∨
    loader.budget request < loader.tokens request request.systemPrompt

/-- The tail would show a turn that violates. -/
def Request.Violated (request : Request) : Prop :=
  ∃ turn ∈ request.historyTurns, (turn.role = "user" ∨ turn.role = "assistant") ∧
    Violates request turn

instance : Decidable (loader.Headless request) := inferInstanceAs (Decidable (_ ∨ _))

instance : Decidable request.Violated := inferInstanceAs (Decidable (∃ _ ∈ _, _))

theorem mem_recentTurnsFirst {turns : List ContextTurn} : turn ∈ recentTurnsFirst turns ↔
    turn ∈ turns ∧ (turn.role = "user" ∨ turn.role = "assistant") := by
  rw [recentTurnsFirst, List.mem_map]
  constructor
  · rintro ⟨p, mem, rfl⟩
    obtain ⟨place, role⟩ := List.mem_filter.mp ((List.perm_insertionSort _ _).mem_iff.mp mem)
    exact ⟨List.fst_mem_of_mem_zipIdx place, of_decide_eq_true role⟩
  · rintro ⟨mem, role⟩
    obtain ⟨i, here⟩ := List.mem_iff_getElem?.mp mem
    refine ⟨(turn, i), (List.perm_insertionSort _ _).mem_iff.mpr (List.mem_filter.mpr ?_), rfl⟩
    exact ⟨List.mem_zipIdx_iff_getElem?.mpr here, decide_eq_true role⟩

theorem violated_iff : request.Violated ↔
    ∃ turn ∈ recentTurnsFirst request.historyTurns, Violates request turn := by
  simp only [Request.Violated, mem_recentTurnsFirst, and_assoc]

theorem assemble_headless (headless : loader.Headless request) :
    ∃ message, loader.assemble request = .error (.contextBudgetExceeded message) := by
  unfold Loader.assemble
  dsimp only
  split
  · exact ⟨_, rfl⟩
  · rename_i small
    rw [if_pos (headless.resolve_left small)]
    exact ⟨_, rfl⟩

/-- The parts before the turns. -/
theorem head_shows : (addMemory loader request (addSummary loader request
    (withSystem loader request))).Shows
      ([systemMessage loader request] ++ summaryShown loader request ++ memoryShown loader request)
      (loader.afterMemory request) :=
  addMemory_shows (addSummary_shows ⟨rfl, rfl⟩)

theorem assemble_violated (headed : ¬loader.Headless request) (violated : request.Violated) :
    ∃ message, loader.assemble request = .error (.redactionViolation message) := by
  obtain ⟨small, long⟩ := not_or.mp headed
  unfold Loader.assemble
  dsimp only
  rw [if_neg small, if_neg long, addTail]
  obtain ⟨message, raises⟩ := @walkTail_violates loader request _
    { remaining := (addMemory loader request (addSummary loader request
      (withSystem loader request))).remaining } (violated_iff.mp violated)
  rw [raises]
  exact ⟨message, rfl⟩

/-- Nothing else is in the way of the current message. -/
theorem assemble_quiet (headed : ¬loader.Headless request) (quiet : ¬request.Violated) :
    if loader.afterDocs request < loader.tokens request request.currentMessage then
      ∃ message, loader.assemble request = .error (.contextBudgetExceeded message)
    else ∃ ctx, loader.assemble request = .ok ctx ∧ ctx.messages = layout loader request := by
  obtain ⟨small, long⟩ := not_or.mp headed
  unfold Loader.assemble
  dsimp only
  rw [if_neg small, if_neg long]
  have none_ : ∀ turn ∈ recentTurnsFirst request.historyTurns, ¬Violates request turn :=
    fun turn mem violates => quiet (violated_iff.mpr ⟨turn, mem, violates⟩)
  obtain ⟨draft, tail, shows⟩ := addTail_shows (@head_shows loader request) none_
  obtain ⟨messages, left⟩ := addKnowledge_shows shows
  rw [tail]
  change if loader.afterDocs request < _ then
    ∃ message, addCurrent loader request (addKnowledge loader request draft) = _
    else ∃ ctx, addCurrent loader request (addKnowledge loader request draft) = _ ∧ _
  have here : (addKnowledge loader request draft).remaining = loader.afterDocs request := left
  rw [← here]
  unfold addCurrent
  dsimp only
  split
  · exact ⟨_, rfl⟩
  · exact ⟨_, rfl, congrArg (· ++ [currentMessage request]) messages⟩

end AgentStudio.Context
