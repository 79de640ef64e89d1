import AgentStudio.Api.History

/-!
# The turns of one thread

`process_conversation` and `stream_conversation` append the user's message, then
read the history, and only then wait for the slot of the thread. Any number of
requests of a thread do so, among any other transactions on the store. What a
request hands to its generation is settled by the rows that come in between.
-/

namespace AgentStudio.Api

open Threads

/-- How far a request is. `read` and `slot` are how many rows the thread had when the
history was read and when the slot was obtained. -/
inductive Stage where
  | called
  | appended (own : MessageRow)
  | loaded (own : MessageRow) (history : List ContextTurn) (read : Nat)
  | inSlot (own : MessageRow) (history : List ContextTurn) (read slot : Nat)
  | ended
  deriving DecidableEq

structure Turns where
  world : World := {}
  turns : List Stage := []

section

variable (tenantId threadId : Uuid)

def Turns.log (s : Turns) : List MessageRow := s.world.store.tenantMessages tenantId threadId

namespace Turns

inductive Step : Turns → Turns → Prop
  | store (s : Turns) (world : World) (step : Threads.Step s.world world) :
      Step s { s with world := world }
  | call (s : Turns) : Step s { s with turns := s.turns ++ [.called] }
  /-- `append_message` returned the request's message: a new row, or the one that an earlier
  request with its key left on the thread. -/
  | append (s : Turns) (i : Nat) (here : s.turns[i]? = some .called) (c : Call) (own : MessageRow)
      (deduped : Bool) (mem : c ∈ s.world.calls)
      (returned : c.phase = .returned (.ok (.message own deduped))) (user : own.role = "user")
      (mine : own ∈ s.log tenantId threadId) :
      Step s { s with turns := s.turns.set i (.appended own) }
  | load (s : Turns) (i : Nat) (own : MessageRow) (here : s.turns[i]? = some (.appended own))
      (later : Store) :
      Step s { s with turns := s.turns.set i (.loaded own
        (loadHistoryTurns s.world.store later tenantId threadId)
        (s.log tenantId threadId).length) }
  /-- Whoever else may hold the slot, this is when the request goes on. -/
  | acquire (s : Turns) (i : Nat) (own : MessageRow) (history : List ContextTurn) (read : Nat)
      (here : s.turns[i]? = some (.loaded own history read)) :
      Step s { s with turns := s.turns.set i (.inSlot own history read
        (s.log tenantId threadId).length) }
  | leave (s : Turns) (i : Nat) : Step s { s with turns := s.turns.set i .ended }

inductive Run : Turns → Prop
  | initial : Run {}
  | step {s t : Turns} : Run s → Step tenantId threadId s t → Run t

end Turns

end

def InHistory (history : List ContextTurn) (m : MessageRow) : Prop :=
  ∃ turn ∈ history, turn.messageId = m.id ∧ turn.seq = m.seq

/-- The history has every turn that was committed before the slot was obtained, within the
window, and not the request's own message. -/
structure Complete (log : List MessageRow) (own : MessageRow) (history : List ContextTurn)
    (slot : Nat) : Prop where
  turns : ∀ m ∈ log.take slot, isTurn m = true → slot ≤ m.seq + historyLimit → m ≠ own →
    InHistory history m
  own : ¬InHistory history own

/-- Nothing came in between: the request's message was the last row when the history was
read, and no other turn was committed from that row on before the slot was obtained. -/
structure Undisturbed (log : List MessageRow) (own : MessageRow) (read slot : Nat) : Prop where
  last : isTurn own = true → read ≤ own.seq + historyLimit → own.seq = read
  still : ∀ m ∈ log.take slot, isTurn m = true → slot ≤ m.seq + historyLimit → read ≤ m.seq →
    m = own

/-! ## What a request has read -/

variable {tenantId threadId : Uuid} {log log' : List MessageRow}

/-- The history is what `_load_history_turns` makes of the first `read` rows. -/
structure ReadAt (log : List MessageRow) (own : MessageRow) (history : List ContextTurn)
    (read : Nat) : Prop where
  bound : read ≤ log.length
  own : own ∈ log.take read
  before : ∀ turn ∈ history, turn.seq < read
  rows : ∀ m ∈ log.take read, InHistory history m ↔
    isTurn m = true ∧ m.seq < read ∧ read ≤ m.seq + historyLimit

/-- What each stage knows of the thread. -/
def Stage.Knows (log : List MessageRow) : Stage → Prop
  | called | ended => True
  | appended own => own ∈ log
  | loaded own history read => ReadAt log own history read
  | inSlot own history read slot => ReadAt log own history read ∧ read ≤ slot ∧ slot ≤ log.length

theorem take_grown (grown : log <+: log') {n : Nat} (bound : n ≤ log.length) :
    log'.take n = log.take n := by
  obtain ⟨rest, rfl⟩ := grown
  exact List.take_append_of_le_length bound

theorem ReadAt.grown {own : MessageRow} {history : List ContextTurn} {read : Nat}
    (h : ReadAt log own history read) (grown : log <+: log') : ReadAt log' own history read := by
  have same := take_grown grown h.bound
  exact ⟨h.bound.trans grown.length_le, same ▸ h.own, h.before, same ▸ h.rows⟩

theorem Stage.Knows.grown {stage : Stage} (h : stage.Knows log) (grown : log <+: log') :
    stage.Knows log' := by
  cases stage with
  | called | ended => trivial
  | appended own => exact grown.subset h
  | loaded own history read => exact ReadAt.grown h grown
  | inSlot own history read slot =>
    obtain ⟨readAt, order, bound⟩ := h
    exact ⟨readAt.grown grown, order, bound.trans grown.length_le⟩

theorem load_readAt {db later : Store} {own : MessageRow}
    (numbered : Log.Numbered MessageRow.seq (db.tenantMessages tenantId threadId))
    (mine : own ∈ db.tenantMessages tenantId threadId) :
    ReadAt (db.tenantMessages tenantId threadId) own (loadHistoryTurns db later tenantId threadId)
      (db.tenantMessages tenantId threadId).length := by
  refine ⟨Nat.le_refl _, ?_, fun turn mem => history_before numbered mem, ?_⟩
  · rwa [List.take_length]
  · intro m mem
    rw [List.take_length] at mem
    exact mem_history numbered mem

variable (tenantId threadId) in
structure Turns.Valid (s : Turns) : Prop where
  run : Threads.Run s.world
  knows : ∀ stage ∈ s.turns, stage.Knows (s.log tenantId threadId)

/-- A request that moves on knows what its new stage says. -/
theorem Turns.Valid.set {s : Turns} (valid : s.Valid tenantId threadId) {i : Nat} {stage : Stage}
    (knows : stage.Knows (s.log tenantId threadId)) :
    Turns.Valid tenantId threadId { s with turns := s.turns.set i stage } := by
  refine ⟨valid.run, ?_⟩
  intro other mem
  rcases List.mem_or_eq_of_mem_set mem with old | rfl
  · exact valid.knows other old
  · exact knows

theorem step_valid {s t : Turns} (h : Turns.Step tenantId threadId s t)
    (valid : s.Valid tenantId threadId) : t.Valid tenantId threadId := by
  cases h with
  | store world step =>
    refine ⟨valid.run.step step, ?_⟩
    intro stage mem
    exact (valid.knows stage mem).grown (later_tenantMessages (.single step) tenantId threadId)
  | call =>
    refine ⟨valid.run, ?_⟩
    intro stage mem
    rcases List.mem_append.mp mem with old | new
    · exact valid.knows stage old
    · rw [List.mem_singleton.mp new]
      trivial
  | append i here c own deduped mem returned user mine => exact valid.set mine
  | load i own here later =>
    have mine : own ∈ s.log tenantId threadId := valid.knows _ (List.mem_of_getElem? here)
    exact valid.set (load_readAt (tenantMessages_numbered valid.run tenantId threadId) mine)
  | acquire i own history read here =>
    have readAt : ReadAt (s.log tenantId threadId) own history read :=
      valid.knows _ (List.mem_of_getElem? here)
    exact valid.set ⟨readAt, readAt.bound, Nat.le_refl _⟩
  | leave i => exact valid.set trivial

theorem reachable_valid {s : Turns} (run : Turns.Run tenantId threadId s) :
    s.Valid tenantId threadId := by
  induction run with
  | initial => exact ⟨.initial, by simp⟩
  | step _ step ih => exact step_valid step ih

/-! ## What its generation is given -/

/-- Whatever comes in between, the history that a request holds in its slot is complete
exactly when nothing disturbed it. -/
theorem history_complete_iff {s : Turns} (run : Turns.Run tenantId threadId s) (i : Nat)
    {own : MessageRow} {history : List ContextTurn} {read slot : Nat}
    (here : s.turns[i]? = some (.inSlot own history read slot)) :
    Complete (s.log tenantId threadId) own history slot ↔
      Undisturbed (s.log tenantId threadId) own read slot := by
  have valid := reachable_valid run
  have numbered : Log.Numbered MessageRow.seq (s.log tenantId threadId) :=
    tenantMessages_numbered valid.run tenantId threadId
  obtain ⟨readAt, order, bound⟩ := valid.knows _ (List.mem_of_getElem? here)
  have mine := (numbered.take read).num_le readAt.own
  rw [List.length_take, min_eq_left readAt.bound] at mine
  -- the rows that were read are those numbered up to `read`
  have wasRead {m : MessageRow} (mem : m ∈ (s.log tenantId threadId).take slot)
      (upto : m.seq ≤ read) : m ∈ (s.log tenantId threadId).take read := by
    rw [← numbered.filter_le, List.mem_filter]
    exact ⟨List.mem_of_mem_take mem, decide_eq_true upto⟩
  constructor
  · intro complete
    constructor
    · intro speaks recent
      by_contra other
      exact complete.own ((readAt.rows own readAt.own).mpr ⟨speaks, by omega, recent⟩)
    · intro m mem speaks recent late
      by_contra other
      obtain ⟨turn, there, -, seq⟩ := complete.turns m mem speaks recent other
      have := readAt.before turn there
      omega
  · intro undisturbed
    constructor
    · intro m mem speaks recent other
      by_cases late : read ≤ m.seq
      · exact absurd (undisturbed.still m mem speaks recent late) other
      · exact (readAt.rows m (wasRead mem (by omega))).mpr ⟨speaks, by omega, by omega⟩
    · intro inside
      obtain ⟨speaks, earlier, recent⟩ := (readAt.rows own readAt.own).mp inside
      have := undisturbed.last speaks recent
      omega

/-! ## Two requests -/

theorem run_later {s : Turns} (run : Turns.Run tenantId threadId s) {world : World}
    (later : Later s.world world) : Turns.Run tenantId threadId { s with world := world } := by
  induction later with
  | refl => exact run
  | tail _ step ih => exact .step ih (.store _ _ step)

variable (tenantId threadId) in
/-- A request whose message is there reads the history and obtains the slot at once. -/
theorem run_turn {world : World} (run : Threads.Run world) (c : Call) (own : MessageRow)
    (deduped : Bool) (mem : c ∈ world.calls)
    (returned : c.phase = .returned (.ok (.message own deduped))) (user : own.role = "user")
    (mine : own ∈ world.store.tenantMessages tenantId threadId) :
    Turns.Run tenantId threadId ⟨world, [.inSlot own
      (loadHistoryTurns world.store world.store tenantId threadId)
      (world.store.tenantMessages tenantId threadId).length
      (world.store.tenantMessages tenantId threadId).length]⟩ := by
  have reached : Later {} world := by
    clear mem mine
    induction run with
    | initial => exact .refl
    | step _ step ih => exact ih.tail step
  have called : Turns.Run tenantId threadId ⟨world, [.called]⟩ :=
    .step (run_later .initial reached) (.call _)
  have appended : Turns.Run tenantId threadId ⟨world, [.appended own]⟩ :=
    .step called (.append _ 0 rfl c own deduped mem returned user mine)
  have loaded := Turns.Run.step appended (.load _ 0 own rfl world.store)
  exact .step loaded (.acquire _ 0 own _ _ rfl)

/-- One thread, and a message of the user on it. -/
def oneMessage : World := ({} : World).after
  [.call (.createThread { tenantId := 7, conversationId := 9 }), .go 0, .go 0, .go 0, .go 0,
   .call (.appendMessage { tenantId := 7, threadId := 0, role := "user", content := "Hello" }),
   .go 1, .go 1, .go 1, .go 1]

/-- A second request appends before the first has read the history. -/
def twoMessages : World := oneMessage.after
  [.call (.appendMessage { tenantId := 7, threadId := 0, role := "user", content := "Anyone?" }),
   .go 2, .go 2, .go 2, .go 2]

def hello : MessageRow where
  id := 1
  conversationId := 0
  tenantId := 7
  threadId := 0
  seq := 1
  role := "user"
  content := "Hello"
  redactedContent := "Hello"

/-- The call of the first request, once it has returned. -/
def helloCall : Call where
  request :=
    .appendMessage { tenantId := 7, threadId := 0, role := "user", content := "Hello" }
  phase := .returned (.ok (.message hello false))

theorem history_complete_iff_one : ∃ (s : Turns) (history : List ContextTurn),
    s.turns[0]? = some (.inSlot hello history 1 1) ∧
    (Complete (s.log 7 0) hello history 1 ↔ Undisturbed (s.log 7 0) hello 1 1) := by
  have base : Threads.Run oneMessage := run_after _
  have run := run_turn 7 0 base helloCall hello false
    (by decide +kernel) rfl rfl (by decide +kernel)
  have rows : (oneMessage.store.tenantMessages 7 0).length = 1 := by decide +kernel
  rw [rows] at run
  exact ⟨_, _, rfl, history_complete_iff run 0 rfl⟩

/-- The row left out as the latest is the second request's message: the history of the first
lacks it, and repeats the first's own. -/
theorem history_shifted : ∃ (s : Turns) (history : List ContextTurn) (m : MessageRow),
    Turns.Run 7 0 s ∧ s.turns[0]? = some (.inSlot hello history 2 2) ∧
    m ∈ s.log 7 0 ∧ m.seq = 2 ∧ isTurn m = true ∧ ¬InHistory history m ∧
    InHistory history hello ∧ ¬Complete (s.log 7 0) hello history 2 := by
  have base : Threads.Run twoMessages := Run.later (run_after _) (later_after oneMessage _)
  have run := run_turn 7 0 base helloCall hello false
    (by decide +kernel) rfl rfl (by decide +kernel)
  have rows : (twoMessages.store.tenantMessages 7 0).length = 2 := by decide +kernel
  have second : ∃ m ∈ twoMessages.store.tenantMessages 7 0, m.seq = 2 ∧ isTurn m = true := by
    decide +kernel
  have seqs : (loadHistoryTurns twoMessages.store twoMessages.store 7 0).map
      (fun t => (t.messageId, t.seq)) = [(1, 1)] := by decide +kernel
  obtain ⟨m, mem, seq, speaks⟩ := second
  rw [rows] at run
  have repeats : InHistory (loadHistoryTurns twoMessages.store twoMessages.store 7 0) hello := by
    have there : (1, 1) ∈ (loadHistoryTurns twoMessages.store twoMessages.store 7 0).map
        (fun t => (t.messageId, t.seq)) := by simp [seqs]
    obtain ⟨turn, kept, pair⟩ := List.mem_map.mp there
    rw [Prod.mk.injEq] at pair
    exact ⟨turn, kept, pair⟩
  refine ⟨_, _, m, run, rfl, mem, seq, speaks, ?_, repeats, fun complete => complete.own repeats⟩
  rintro ⟨turn, kept, -, same⟩
  have there : (turn.messageId, turn.seq) ∈
      (loadHistoryTurns twoMessages.store twoMessages.store 7 0).map
        (fun t => (t.messageId, t.seq)) := List.mem_map_of_mem kept
  rw [seqs, List.mem_singleton, Prod.mk.injEq] at there
  omega

end AgentStudio.Api
