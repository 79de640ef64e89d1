import AgentStudio.Session.HotTier
import AgentStudio.Threads.Tail

/-!
# The history of a turn

`_load_history_turns` of `api/routes/conversations.py`: the newest rows of a
thread, without the last one, which is taken for the message being answered.
Rows without redacted content are left out; those of tool parts have none.
-/

namespace AgentStudio.Api

open Threads Session

structure ContextTurn where
  role : String
  content : String
  seq : Nat
  messageId : Uuid
  hasToolPayload : Bool
  deriving DecidableEq, Repr

/-- A user or assistant message with redacted content. -/
def isTurn (m : MessageRow) : Bool :=
  (m.role == "user" || m.role == "assistant") && m.redactedContent != ""

def contextTurn (toolSeqs : List Nat) (m : MessageRow) : ContextTurn where
  role := m.role
  content := m.redactedContent
  seq := m.seq
  messageId := m.id
  hasToolPayload := toolSeqs.contains m.seq

/-- `_load_history_turns` on the rows and the tool results it read, one after the other. -/
def historyTurns (rows : List MessageRow) (toolSeqs : List Nat) (excludeLatest : Bool := true) :
    List ContextTurn :=
  ((if excludeLatest then rows.dropLast else rows).filter isTurn).map (contextTurn toolSeqs)

def historyLimit : Nat := 200

def loadHistoryTurns (db later : Store) (tenantId threadId : Uuid) (excludeLatest : Bool := true)
    (limit : Nat := historyLimit) : List ContextTurn :=
  historyTurns (db.readTail tenantId threadId (limit + 1))
    (later.listToolResultSeqs tenantId threadId) excludeLatest

/-- The material for the context holds the message or a summary of it. -/
def Represented (history : List ContextTurn) (position : Option Nat) (m : MessageRow) : Prop :=
  m.seq ≤ position.getD 0 ∨ ∃ turn ∈ history, turn.messageId = m.id ∧ turn.seq = m.seq

/-! ## The window -/

variable {log : List MessageRow}

/-- The rows of the window before the last are those with at most 200 after them. -/
theorem mem_window (numbered : Log.Numbered MessageRow.seq log) {m : MessageRow} :
    m ∈ (log.drop (log.length - (historyLimit + 1))).dropLast ↔
      m ∈ log ∧ m.seq < log.length ∧ log.length ≤ m.seq + historyLimit := by
  constructor
  · intro mem
    obtain ⟨i, here⟩ := List.mem_iff_getElem?.mp mem
    rw [List.getElem?_dropLast, List.length_drop] at here
    split at here
    next inside =>
      rw [List.getElem?_drop] at here
      have seq := numbered.getElem here
      exact ⟨List.mem_of_getElem? here, by omega, by omega⟩
    next => cases here
  · intro ⟨mem, before, recent⟩
    obtain ⟨i, here⟩ := List.mem_iff_getElem?.mp mem
    have seq := numbered.getElem here
    apply List.mem_iff_getElem?.mpr
    refine ⟨i - (log.length - (historyLimit + 1)), ?_⟩
    rw [List.getElem?_dropLast, List.length_drop, if_pos (by omega), List.getElem?_drop,
      Nat.add_sub_cancel' (by omega), here]

/-- A row of the thread is among the history turns exactly when it says something and is one
of the 200 before the last row. -/
theorem mem_history {db later : Store} {tenantId threadId : Uuid}
    (numbered : Log.Numbered MessageRow.seq (db.tenantMessages tenantId threadId)) {m : MessageRow}
    (mem : m ∈ db.tenantMessages tenantId threadId) :
    (∃ turn ∈ loadHistoryTurns db later tenantId threadId,
        turn.messageId = m.id ∧ turn.seq = m.seq) ↔
      isTurn m = true ∧ m.seq < (db.tenantMessages tenantId threadId).length ∧
        (db.tenantMessages tenantId threadId).length ≤ m.seq + historyLimit := by
  rw [loadHistoryTurns, historyTurns, if_pos rfl, readTail_eq _ numbered]
  constructor
  · rintro ⟨turn, there, -, seq⟩
    obtain ⟨m', mem', rfl⟩ := List.mem_map.mp there
    obtain ⟨mem', speaks⟩ := List.mem_filter.mp mem'
    obtain ⟨inside, before, recent⟩ := (mem_window numbered).mp mem'
    -- the seq names the row
    obtain rfl : m' = m := numbered.inj inside mem seq
    exact ⟨speaks, before, recent⟩
  · rintro ⟨speaks, before, recent⟩
    refine ⟨_, List.mem_map_of_mem (List.mem_filter.mpr ⟨?_, speaks⟩), rfl, rfl⟩
    exact (mem_window numbered).mpr ⟨mem, before, recent⟩

theorem history_before {db later : Store} {tenantId threadId : Uuid}
    (numbered : Log.Numbered MessageRow.seq (db.tenantMessages tenantId threadId))
    {turn : ContextTurn} (mem : turn ∈ loadHistoryTurns db later tenantId threadId) :
    turn.seq < (db.tenantMessages tenantId threadId).length := by
  rw [loadHistoryTurns, historyTurns, if_pos rfl, readTail_eq _ numbered] at mem
  obtain ⟨m, kept, rfl⟩ := List.mem_map.mp mem
  obtain ⟨-, before, -⟩ := (mem_window numbered).mp (List.mem_filter.mp kept).1
  exact before

/-! ## The window and the summary -/

/-- Where a message is being answered, every earlier one with redacted content is in the
material exactly when those with more than 200 rows after them are summarized. -/
theorem earlier_represented_iff {s : World} (run : Run s) (later : Store) {tenantId threadId : Uuid}
    (hot : Option Tail) (read : Option ThreadRow) {own : MessageRow}
    (mine : own ∈ s.store.tenantMessages tenantId threadId) :
    (∀ m ∈ s.store.tenantMessages tenantId threadId, m.seq < own.seq → isTurn m = true →
      Represented (loadHistoryTurns s.store later tenantId threadId)
        (loadThreadSummary hot read).2.1 m) ↔
    ∀ m ∈ s.store.tenantMessages tenantId threadId, m.seq < own.seq → isTurn m = true →
      m.seq + historyLimit < (s.store.tenantMessages tenantId threadId).length →
      m.seq ≤ (summarizedUpTo hot read).getD 0 := by
  have numbered := tenantMessages_numbered run tenantId threadId
  rw [loadThreadSummary_position]
  have bound := (numbered.num_le mine).2
  constructor
  · intro all m mem earlier speaks old
    rcases all m mem earlier speaks with summarized | kept
    · exact summarized
    · have := ((mem_history numbered mem).mp kept).2.2
      omega
  · intro old m mem earlier speaks
    by_cases recent : m.seq + historyLimit < (s.store.tenantMessages tenantId threadId).length
    · exact .inl (old m mem earlier speaks recent)
    · exact .inr ((mem_history numbered mem).mpr ⟨speaks, by omega, by omega⟩)

/-- Two messages. -/
theorem earlier_represented_iff_two : ∃ (s : World) (own : MessageRow), Run s ∧
    own ∈ s.store.tenantMessages 7 0 ∧
    ((∀ m ∈ s.store.tenantMessages 7 0, m.seq < own.seq → isTurn m = true →
      Represented (loadHistoryTurns s.store s.store 7 0)
        (loadThreadSummary none (s.store.getThread 7 0)).2.1 m) ↔
    ∀ m ∈ s.store.tenantMessages 7 0, m.seq < own.seq → isTurn m = true →
      m.seq + historyLimit < (s.store.tenantMessages 7 0).length →
      m.seq ≤ (summarizedUpTo none (s.store.getThread 7 0)).getD 0) := by
  obtain ⟨s, run, -, ⟨row, found, -⟩, length, -⟩ := filled "Hello" 2
  rw [← tenantMessages_whole run found] at length
  obtain ⟨own, last⟩ := List.exists_mem_of_length_pos (by omega : 0 < (s.store.tenantMessages 7 0).length)
  exact ⟨s, own, run, last, earlier_represented_iff run s.store none _ last⟩

/-- With 202 messages and no summary, the first is neither summarized nor in the window. -/
theorem earlier_dropped : ∃ (s : World) (own m : MessageRow), Run s ∧
    own ∈ s.store.tenantMessages 7 0 ∧ own.seq = (s.store.tenantMessages 7 0).length ∧
    m ∈ s.store.tenantMessages 7 0 ∧ m.seq < own.seq ∧ isTurn m = true ∧
    ¬Represented (loadHistoryTurns s.store s.store 7 0)
      (loadThreadSummary none (s.store.getThread 7 0)).2.1 m := by
  obtain ⟨s, run, -, ⟨row, found, fresh⟩, length, same⟩ := filled "Hello" 202
  have numbered := tenantMessages_numbered run 7 0
  rw [← tenantMessages_whole run found] at length same
  have first : (s.store.tenantMessages 7 0)[0]? = some (s.store.tenantMessages 7 0)[0] :=
    List.getElem?_eq_getElem (by omega)
  have last : (s.store.tenantMessages 7 0)[201]? = some (s.store.tenantMessages 7 0)[201] :=
    List.getElem?_eq_getElem (by omega)
  generalize (s.store.tenantMessages 7 0)[0] = m at first
  generalize (s.store.tenantMessages 7 0)[201] = own at last
  have seqM := numbered.getElem first
  have seqOwn := numbered.getElem last
  have memM := List.mem_of_getElem? first
  refine ⟨s, own, m, run, List.mem_of_getElem? last, by omega, memM, by omega, ?_, ?_⟩
  · rw [isTurn, (same m memM).1, (same m memM).2]
    rfl
  · rintro (summarized | kept)
    · rw [loadThreadSummary_position, found] at summarized
      simp only [summarizedUpTo, Option.bind_none, Option.elim_none, Option.bind_some, fresh,
        Option.getD_none] at summarized
      omega
    · have := ((mem_history numbered memM).mp kept).2.2
      rw [length, historyLimit] at this
      omega

end AgentStudio.Api
