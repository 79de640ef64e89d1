import AgentStudio.Api.History
import AgentStudio.Session.Mutations
import AgentStudio.Threads.Redacted

/-!
# The redacted form of a message

Who appends or edits may say what the redacted form is. `append_message` and `edit` both
take an empty one for none, and store the content in its place.
-/

namespace AgentStudio.Session

open Threads Api

/-- The operation appends with `a`, and its caller named `text` as the redacted form. -/
inductive Names : Operation → AppendArgs → String → Prop
  | append {a : AppendArgs} {text : String} (explicit : a.redactedContent = some text) :
      Names (.append a) a text
  | edit {messages threads : Store} {tenantId threadId messageId : Uuid} {content text : String}
      {a : AppendArgs}
      (made : edit messages threads tenantId threadId messageId content (some text) = .ok a) :
      Names (.edit tenantId threadId messageId content (some text)) a text

/-- The message and its text part have the redacted form, and so has every turn that is loaded
for it. -/
structure Carries (db : Store) (a : AppendArgs) (row : MessageRow) (text : String) : Prop where
  stored : row ∈ db.messages ∧ row.redactedContent = text
  part : ∃ p ∈ db.parts, p.messageId = row.id ∧ p.partIndex = 0 ∧ p.partType = "text" ∧
    p.content = { rest := a.content } ∧ p.redactedContent = { rest := text }
  rendered : ∀ (later : Store) (excludeLatest : Bool) (limit : Nat),
    ∀ turn ∈ loadHistoryTurns db later a.tenantId row.threadId excludeLatest limit,
      turn.messageId = row.id → turn.content = text

variable {op : Operation} {a : AppendArgs} {text : String}

/-- `edit` hands on the content for an empty redacted form. -/
theorem edit_redacted {messages threads : Store} {tenantId threadId messageId : Uuid}
    {content : String}
    (made : edit messages threads tenantId threadId messageId content (some text) = .ok a) :
    a.content = content ∧ a.redactedContent = some (if text = "" then content else text) := by
  unfold edit at made
  repeat
    split at made
    · cases made
  cases made
  refine ⟨rfl, ?_⟩
  by_cases empty : text = ""
  · rw [if_pos empty, Option.filter_some_neg (by simpa using empty)]
    rfl
  · rw [if_neg empty, Option.filter_some_pos (by simpa using empty)]
    rfl

/-- An empty redacted form is taken for none. -/
theorem redacted_some (explicit : a.redactedContent = some text) :
    a.redacted = if text = "" then a.content else text := by
  rw [AppendArgs.redacted, explicit]
  by_cases empty : text = ""
  · rw [empty]
    rfl
  · simp [empty]

theorem names_redacted (names : Names op a text) :
    a.redacted = if text = "" then a.content else text := by
  cases names with
  | append explicit => exact redacted_some explicit
  | edit made =>
    obtain ⟨rfl, explicit⟩ := edit_redacted made
    rw [redacted_some explicit]
    by_cases empty : text = ""
    · simp [empty]
    · simp [empty]

theorem mem_loadHistoryTurns {db later : Store} {tenantId threadId : Uuid} {excludeLatest : Bool}
    {limit : Nat} {turn : ContextTurn}
    (mem : turn ∈ loadHistoryTurns db later tenantId threadId excludeLatest limit) :
    ∃ m ∈ db.messagesOf threadId, turn.messageId = m.id ∧ turn.content = m.redactedContent := by
  obtain ⟨m, kept, rfl⟩ := List.mem_map.mp mem
  refine ⟨m, ?_, rfl, rfl⟩
  have read : m ∈ db.readTail tenantId threadId (limit + 1) := by
    have kept := (List.mem_filter.mp kept).1
    split at kept
    · exact List.mem_of_mem_dropLast kept
    · exact kept
  have row := List.mem_of_mem_take (List.mem_reverse.mp read)
  rw [List.mem_insertionSort, Store.tenantMessages, List.mem_filter, Bool.and_eq_true,
    beq_iff_eq] at row
  exact mem_messagesOf.mpr ⟨row.1, row.2.1⟩

/-- What a caller names as the redacted form of a message is that of the row, of its text part
and of every turn loaded for it, from then on, if and only if it is not empty, or the content
is. -/
theorem carries_iff {s : World} (run : Threads.Run s) (names : Names op a text) {c : Call}
    {row : MessageRow} (mem : c ∈ s.calls) (append : c.request = .appendMessage a)
    (returned : c.phase = .returned (.ok (.message row false))) :
    Carries s.store a row text ↔ text ≠ "" ∨ a.content = "" := by
  obtain ⟨there, redacted, part⟩ := (reachable_written run).answered c mem a row append returned
  rw [names_redacted names] at redacted
  have same : row.redactedContent = text ↔ text ≠ "" ∨ a.content = "" := by
    rw [redacted]
    by_cases empty : text = ""
    · simp [empty]
    · simp [empty]
  rw [← same]
  constructor
  · exact fun carries => carries.stored.2
  · intro is
    refine ⟨⟨there, is⟩, ⟨_, part, rfl, rfl, rfl, rfl, ?_⟩, ?_⟩
    · rw [textPart, names_redacted names, ← redacted, is]
    · intro later excludeLatest limit turn loaded own
      obtain ⟨m, inThread, id_, content⟩ := mem_loadHistoryTurns loaded
      -- an id names one row of a thread
      have one := List.inj_on_of_nodup_map ((reachable_identified run).distinct row.threadId)
        inThread (mem_messagesOf.mpr ⟨there, rfl⟩) (id_.symm.trans own)
      rw [content, one, is]

/-- A card number, with a redacted form. -/
def card (redacted : String) : AppendArgs where
  tenantId := 7
  threadId := 0
  role := "user"
  content := "4111 1111 1111 1111"
  redactedContent := some redacted
  conversationId := 9

/-- It is appended to a new thread. -/
def told (redacted : String) : World := ({} : World).after
  [.call (.createThread { tenantId := 7, conversationId := 9 }), .go 0, .go 0, .go 0, .go 0,
   .call (.appendMessage (card redacted)), .go 1, .go 1, .go 1, .go 1]

/-- The row that is stored. -/
def cardRow (redacted : String) : MessageRow where
  id := 1
  conversationId := 9
  tenantId := 7
  threadId := 0
  seq := 1
  role := "user"
  content := "4111 1111 1111 1111"
  redactedContent := redacted

theorem carries_iff_masked : Carries (told "[CARD]").store (card "[CARD]") (cardRow "[CARD]")
    "[CARD]" := by
  have mem : (⟨.appendMessage (card "[CARD]"),
      .returned (.ok (.message (cardRow "[CARD]") false))⟩ : Call) ∈ (told "[CARD]").calls := by
    decide +kernel
  exact (carries_iff (run_after _) (.append rfl) mem rfl rfl).mpr (.inl (by decide))

/-- With nothing left of it, the number is stored as its own redacted form. -/
theorem emptied_stored_raw : Names (.append (card "")) (card "") "" ∧
    (⟨.appendMessage (card ""),
      .returned (.ok (.message (cardRow "4111 1111 1111 1111") false))⟩ : Call) ∈ (told "").calls ∧
    ¬Carries (told "").store (card "") (cardRow "4111 1111 1111 1111") "" := by
  refine ⟨.append rfl, by decide +kernel, fun carries => ?_⟩
  have stored := carries.stored.2
  simp [cardRow] at stored

end AgentStudio.Session
