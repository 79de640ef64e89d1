import AgentStudio.Async.Pool
import AgentStudio.Threads.Store

/-!
# Transactions on the thread store

Any number of clients call the writers of the store. A call looks for its
request id among the committed rows, then waits for the thread row, then
flushes its rows under that lock, and then commits or rolls back. The steps of
different calls interleave in any order; what a call flushed is invisible to
the others until its commit.
-/

namespace AgentStudio.Threads

inductive Phase where
  | called
  /-- The lookup by request id found nothing. -/
  | searched
  /-- Holds the thread row. -/
  | locked
  /-- The rows are written, on the store it then saw, and not committed. -/
  | flushed (writes : Writes) (reply : Reply) (seen : Store)
  | returned (result : Except StoreError Reply)
  deriving DecidableEq

structure Call where
  request : Request
  phase : Phase := .called
  deriving DecidableEq

/-- A committed call and the store it saw under its lock. -/
structure Commit where
  request : Request
  seen : Store
  deriving DecidableEq

structure World where
  store : Store := {}
  calls : List Call := []
  /-- The next identifier `uuid4` draws. -/
  drawn : Uuid := 0
  commits : List Commit := []
  deriving DecidableEq

/-! ## What a call holds -/

def Request.thread (r : Request) : Option Uuid := r.row.map Prod.snd

def Call.holds (c : Call) (t : Uuid) : Bool :=
  match c.phase with
  | .locked | .flushed .. => c.request.thread == some t
  | _ => false

/-- The thread a call has inserted and not yet committed. -/
def Call.makes (c : Call) (t : Uuid) : Bool :=
  match c.phase with
  | .flushed w _ _ => w.created.map ThreadRow.id == some t
  | _ => false

def Call.owns (c : Call) (t : Uuid) : Bool := c.holds t || c.makes t

/-! ## Steps -/

/-- The lookup at the head of `append_message`. -/
def search (r : Request) (db : Store) : Phase :=
  match r with
  | .appendMessage a =>
    match a.key.bind (db.findRequest a.tenantId) with
    | some m => .returned (.ok (.message m true))
    | none => .searched
  | _ => .searched

/-- The unique indexes: a request id names one message, and a seq one row of a thread. -/
def Store.admits (db : Store) (w : Writes) : Bool :=
  (w.messages.all fun m => db.messages.all fun n =>
    (m.requestId.isNone || m.requestId != n.requestId) &&
    (m.threadId != n.threadId || m.seq != n.seq)) &&
  w.events.all fun e => db.events.all fun f => e.threadId != f.threadId || e.seq != f.seq

def Writes.requestIds (w : Writes) : List String := w.messages.filterMap MessageRow.requestId

def Writes.draws (w : Writes) : Nat := w.created.toList.length + w.messages.length

/-- The request ids of the rows a call has inserted and not yet committed. -/
def Call.pending (c : Call) : List String :=
  match c.phase with
  | .flushed w _ _ => w.requestIds
  | _ => []

namespace World

/-- Nobody holds the thread row. -/
def free (s : World) (t : Uuid) : Bool := s.calls.all fun d => !d.holds t

/-- An insert waits for an uncommitted row with its request id to be decided. -/
def waits (s : World) (w : Writes) : Bool :=
  s.calls.any fun d => w.requestIds.any d.pending.contains

def become (s : World) (i : Nat) (c : Call) (phase : Phase) : World :=
  { s with calls := s.calls.set i { c with phase := phase } }

end World

inductive Step : World → World → Prop
  | call (s : World) (r : Request) : Step s { s with calls := s.calls ++ [{ request := r }] }
  | search (s : World) (i : Nat) (c : Call) (here : s.calls[i]? = some c)
      (phase : c.phase = .called) : Step s (s.become i c (search c.request s.store))
  | lock (s : World) (i : Nat) (c : Call) (here : s.calls[i]? = some c)
      (phase : c.phase = .searched)
      (found : ∀ row, c.request.row = some row → (s.store.getThread row.1 row.2).isSome)
      (free : ∀ t, c.request.thread = some t → s.free t = true) : Step s (s.become i c .locked)
  | missing (s : World) (i : Nat) (c : Call) (here : s.calls[i]? = some c)
      (phase : c.phase = .searched) (row : Uuid × Uuid) (select : c.request.row = some row)
      (none_ : s.store.getThread row.1 row.2 = none) :
      Step s (s.become i c (.returned (.error (.threadNotFound row.2))))
  | flush (s : World) (i : Nat) (c : Call) (here : s.calls[i]? = some c)
      (phase : c.phase = .locked) (w : Writes) (reply : Reply)
      (body : c.request.body s.drawn s.store = .ok (w, reply))
      (admits : s.store.admits w = true) (decided : s.waits w = false) :
      Step s { s.become i c (.flushed w reply s.store) with drawn := s.drawn + w.draws }
  | reject (s : World) (i : Nat) (c : Call) (here : s.calls[i]? = some c)
      (phase : c.phase = .locked) (w : Writes) (reply : Reply)
      (body : c.request.body s.drawn s.store = .ok (w, reply))
      (clash : s.store.admits w = false) (decided : s.waits w = false) :
      Step s (s.become i c (.returned (.error .integrity)))
  | raise (s : World) (i : Nat) (c : Call) (here : s.calls[i]? = some c)
      (phase : c.phase = .locked) (e : StoreError)
      (body : c.request.body s.drawn s.store = .error e) :
      Step s (s.become i c (.returned (.error e)))
  | commit (s : World) (i : Nat) (c : Call) (here : s.calls[i]? = some c)
      (w : Writes) (reply : Reply) (seen : Store) (phase : c.phase = .flushed w reply seen) :
      Step s { s.become i c (.returned (.ok reply)) with
        store := s.store.apply w, commits := s.commits ++ [⟨c.request, seen⟩] }
  /-- The connection or the process fails: the transaction rolls back. -/
  | abort (s : World) (i : Nat) (c : Call) (here : s.calls[i]? = some c)
      (running : ∀ result, c.phase ≠ .returned result) :
      Step s (s.become i c (.returned (.error .aborted)))

/-- The states reached from an empty store. -/
inductive Run : World → Prop
  | initial : Run {}
  | step {s t : World} : Run s → Step s t → Run t

/-- The states reached from `s`. -/
def Later : World → World → Prop := Relation.ReflTransGen Step

theorem Run.later {s t : World} (run : Run s) (later : Later s t) : Run t := by
  induction later with
  | refl => exact run
  | tail _ step ih => exact .step ih step

/-! ## Schedules -/

namespace World

/-- The next step of call `i`; it stays where it is while it has to wait. -/
def advance (s : World) (i : Nat) : World :=
  match s.calls[i]? with
  | none => s
  | some c =>
    match c.phase with
    | .called => s.become i c (search c.request s.store)
    | .searched =>
      match c.request.row with
      | none => s.become i c .locked
      | some row =>
        match s.store.getThread row.1 row.2 with
        | none => s.become i c (.returned (.error (.threadNotFound row.2)))
        | some _ => if s.free row.2 then s.become i c .locked else s
    | .locked =>
      match c.request.body s.drawn s.store with
      | .error e => s.become i c (.returned (.error e))
      | .ok (w, reply) =>
        if s.waits w then s
        else if s.store.admits w then
          { s.become i c (.flushed w reply s.store) with drawn := s.drawn + w.draws }
        else s.become i c (.returned (.error .integrity))
    | .flushed w reply seen =>
      { s.become i c (.returned (.ok reply)) with
        store := s.store.apply w, commits := s.commits ++ [⟨c.request, seen⟩] }
    | .returned _ => s

theorem advance_step (s : World) (i : Nat) : s.advance i = s ∨ Step s (s.advance i) := by
  unfold advance
  split
  · exact .inl rfl
  next c here =>
    split
    next phase => exact .inr (.search s i c here phase)
    next phase =>
      split
      next none_ =>
        refine .inr (.lock s i c here phase ?_ ?_)
        · simp [none_]
        · simp [Request.thread, none_]
      next row select =>
        split
        next gone => exact .inr (.missing s i c here phase row select gone)
        next found got =>
          split
          next free =>
            refine .inr (.lock s i c here phase ?_ ?_)
            · intro row' select'
              rw [select, Option.some.injEq] at select'
              rw [← select', got]
              rfl
            · intro t thread
              rw [Request.thread, select, Option.map_some, Option.some.injEq] at thread
              rwa [← thread]
          next => exact .inl rfl
    next phase =>
      split
      next e body => exact .inr (.raise s i c here phase e body)
      next w reply body =>
        split
        next => exact .inl rfl
        next decided =>
          rw [Bool.not_eq_true] at decided
          split
          next admits => exact .inr (.flush s i c here phase w reply body admits decided)
          next clash =>
            rw [Bool.not_eq_true] at clash
            exact .inr (.reject s i c here phase w reply body clash decided)
    next w reply seen phase => exact .inr (.commit s i c here w reply seen phase)
    next => exact .inl rfl

end World

/-- Who moves next: a client makes a call, or a call takes its next step. -/
inductive Move where
  | call (r : Request)
  | go (i : Nat)

def World.move (s : World) : Move → World
  | .call r => { s with calls := s.calls ++ [{ request := r }] }
  | .go i => s.advance i

def World.after (s : World) (moves : List Move) : World := moves.foldl World.move s

theorem later_after (s : World) (moves : List Move) : Later s (s.after moves) := by
  induction moves generalizing s with
  | nil => exact .refl
  | cons m moves ih =>
    have first : Later s (s.move m) := by
      cases m with
      | call r => exact .single (.call s r)
      | go i =>
        rcases s.advance_step i with same | step
        · rw [World.move, same]
          exact .refl
        · exact .single step
    exact first.trans (ih (s.move m))

theorem run_after (moves : List Move) : Run (({} : World).after moves) :=
  Run.initial.later (later_after _ moves)

/-! ## What a transaction touches -/

def Store.threadIds (db : Store) : List Uuid := db.threads.map ThreadRow.id

def Writes.messagesOf (w : Writes) (t : Uuid) : List MessageRow :=
  w.messages.filter (·.threadId == t)

def Writes.eventsOf (w : Writes) (t : Uuid) : List EventRow := w.events.filter (·.threadId == t)

theorem messagesOf_apply (db : Store) (w : Writes) (t : Uuid) :
    (db.apply w).messagesOf t = db.messagesOf t ++ w.messagesOf t := List.filter_append ..

theorem eventsOf_apply (db : Store) (w : Writes) (t : Uuid) :
    (db.apply w).eventsOf t = db.eventsOf t ++ w.eventsOf t := List.filter_append ..

theorem threadIds_apply (db : Store) (w : Writes) :
    (db.apply w).threadIds = db.threadIds ++ w.created.toList.map ThreadRow.id := by
  have keeps (row : ThreadRow) : ((w.updated.filter (·.id == row.id)).getD row).id = row.id := by
    cases eq : w.updated.filter (·.id == row.id) with
    | none => rfl
    | some new =>
      rw [Option.filter_eq_some_iff] at eq
      simpa using eq.2
  simp only [Store.threadIds, Store.apply, List.map_append, List.map_map]
  congr 1
  exact List.map_congr_left fun row _ => keeps row

theorem getThread_mem {db : Store} {tenant t : Uuid} {row : ThreadRow}
    (found : db.getThread tenant t = some row) :
    row ∈ db.threads ∧ row.id = t ∧ row.tenantId = tenant := by
  have here := List.find?_some found
  simp only [Bool.and_eq_true, beq_iff_eq] at here
  exact ⟨List.mem_of_find?_eq_some found, here.1, here.2⟩

/-- A transaction writes only rows of the thread it locked and of the one it made. -/
structure Confined (r : Request) (newId : Uuid) (w : Writes) : Prop where
  messages : ∀ m ∈ w.messages, r.thread = some m.threadId ∨
    w.created.map ThreadRow.id = some m.threadId
  events : ∀ e ∈ w.events, r.thread = some e.threadId ∨
    w.created.map ThreadRow.id = some e.threadId
  created : ∀ row, w.created = some row → row.id = newId

theorem body_confined {r : Request} {newId : Uuid} {db : Store} {w : Writes} {reply : Reply}
    (body : r.body newId db = .ok (w, reply)) : Confined r newId w := by
  cases r with
  | createThread a =>
    cases body
    constructor <;> simp
  | appendMessage a =>
    simp only [Request.body, appendMessage] at body
    split at body
    · cases body
    · cases body
      constructor <;> simp [Request.thread, Request.row]
  | appendEvent a =>
    simp only [Request.body, appendEvent] at body
    split at body
    · cases body
    · cases body
      constructor <;> simp [Request.thread, Request.row]
  | setSummary a =>
    simp only [Request.body, setSummary] at body
    split at body
    · cases body
    · split at body
      · cases body
        constructor <;> simp [Request.thread, Request.row]
      · cases body
  | forkThread a =>
    simp only [Request.body, forkThread] at body
    split at body
    · cases body
    · split at body
      · cases body
      · split at body
        · cases body
        · cases body
          constructor <;> simp [Request.thread, Request.row, ForkArgs.copy]
          intro m x k _ rfl
          exact .inr rfl
  | clearToolResults a =>
    simp only [Request.body, clearToolResults] at body
    split at body
    · cases body
    · split at body
      · cases body
        constructor <;> simp
      · cases body
        constructor <;> simp [Request.thread, Request.row]
  | setArchived a =>
    simp only [Request.body, setArchived] at body
    split at body
    · cases body
    · cases body
      constructor <;> simp [Request.thread, Request.row]

/-! ## The lock keeps what a transaction saw -/

/-- A flushed call wrote what its method writes on the store it saw, and the rows of
every thread it owns are still as it saw them. -/
structure Seen (db : Store) (c : Call) (w : Writes) (reply : Reply) (seen : Store) : Prop where
  body : ∃ newId, newId ∉ seen.threadIds ∧ c.request.body newId seen = .ok (w, reply)
  admitted : seen.admits w = true
  messages : ∀ t, c.owns t = true → db.messagesOf t = seen.messagesOf t
  events : ∀ t, c.owns t = true → db.eventsOf t = seen.eventsOf t

structure Valid (s : World) : Prop where
  drawn : ∀ t ∈ s.store.threadIds, t < s.drawn
  messages : ∀ m ∈ s.store.messages, m.threadId ∈ s.store.threadIds
  events : ∀ e ∈ s.store.events, e.threadId ∈ s.store.threadIds
  held : ∀ c ∈ s.calls, ∀ t, c.holds t = true → t ∈ s.store.threadIds
  made : ∀ c ∈ s.calls, ∀ t, c.makes t = true → t < s.drawn ∧ t ∉ s.store.threadIds
  apart : ∀ (i j : Nat) (c d : Call) (t : Uuid), s.calls[i]? = some c → s.calls[j]? = some d →
    c.owns t = true → d.owns t = true → i = j
  seen : ∀ c ∈ s.calls, ∀ w reply db, c.phase = .flushed w reply db → Seen s.store c w reply db

theorem owns_of_holds {c : Call} {t : Uuid} (holds : c.holds t = true) : c.owns t = true := by
  rw [Call.owns, holds, Bool.true_or]

theorem owns_of_makes {c : Call} {t : Uuid} (makes : c.makes t = true) : c.owns t = true := by
  rw [Call.owns, makes, Bool.or_true]

theorem holds_or_makes {c : Call} {t : Uuid} (owns : c.owns t = true) :
    c.holds t = true ∨ c.makes t = true := by
  simpa [Call.owns] using owns

theorem owns_flushed {r : Request} {w : Writes} {reply : Reply} {db : Store} {t : Uuid} :
    Call.owns ⟨r, .flushed w reply db⟩ t = true ↔
      r.thread = some t ∨ w.created.map ThreadRow.id = some t := by
  simp [Call.owns, Call.holds, Call.makes]

/-- Thread rows are only ever inserted or updated in place. -/
theorem threadIds_sub (db : Store) (w : Writes) {t : Uuid} (mem : t ∈ db.threadIds) :
    t ∈ (db.apply w).threadIds := by
  rw [threadIds_apply]
  exact List.mem_append_left _ mem

/-- The phases in which a call owns nothing. -/
def Phase.idle : Phase → Bool
  | .called | .searched | .returned _ => true
  | .locked | .flushed .. => false

theorem owns_idle {r : Request} {phase : Phase} (idle : phase.idle = true) (t : Uuid) :
    Call.owns ⟨r, phase⟩ t = false := by
  cases phase with
  | called | searched | returned => rfl
  | locked | flushed => cases idle

/-- A call that comes to own nothing disturbs nobody. -/
theorem Valid.become {s : World} (valid : Valid s) {i : Nat} {c : Call} {phase : Phase}
    (idle : phase.idle = true) : Valid (s.become i c phase) := by
  have kept {d : Call} (mem : d ∈ (s.become i c phase).calls) :
      d ∈ s.calls ∨ d = ⟨c.request, phase⟩ := List.mem_or_eq_of_mem_set mem
  have nothing {d : Call} {t : Uuid} (mem : d ∈ (s.become i c phase).calls)
      (owns : d.owns t = true) : d ∈ s.calls := by
    rcases kept mem with mem | rfl
    · exact mem
    · rw [owns_idle idle t] at owns
      cases owns
  refine ⟨valid.drawn, valid.messages, valid.events, ?_, ?_, ?_, ?_⟩
  · intro d mem t holds
    exact valid.held d (nothing mem (owns_of_holds holds)) t holds
  · intro d mem t makes
    exact valid.made d (nothing mem (owns_of_makes makes)) t makes
  · intro j k d e t atJ atK ownsJ ownsK
    rcases Async.get_set_cases atJ with ⟨-, rfl⟩ | ⟨-, atJ⟩
    · rw [owns_idle idle t] at ownsJ
      cases ownsJ
    rcases Async.get_set_cases atK with ⟨-, rfl⟩ | ⟨-, atK⟩
    · rw [owns_idle idle t] at ownsK
      cases ownsK
    exact valid.apart j k d e t atJ atK ownsJ ownsK
  · intro d mem w reply db flushed
    rcases kept mem with mem | rfl
    · exact valid.seen d mem w reply db flushed
    · obtain rfl : phase = .flushed w reply db := flushed
      cases idle

theorem search_idle (r : Request) (db : Store) : (search r db).idle = true := by
  unfold search
  split
  · split <;> rfl
  · rfl

/-- A new call owns nothing. -/
theorem Valid.call {s : World} (valid : Valid s) (r : Request) :
    Valid { s with calls := s.calls ++ [{ request := r }] } := by
  have kept {d : Call} (mem : d ∈ s.calls ++ [{ request := r }]) :
      d ∈ s.calls ∨ d = { request := r } := by simpa using mem
  refine ⟨valid.drawn, valid.messages, valid.events, ?_, ?_, ?_, ?_⟩
  · intro d mem t holds
    rcases kept mem with mem | rfl
    · exact valid.held d mem t holds
    · cases holds
  · intro d mem t makes
    rcases kept mem with mem | rfl
    · exact valid.made d mem t makes
    · cases makes
  · intro j k d e t atJ atK ownsJ ownsK
    rcases Async.get_snoc_cases atJ with atJ | ⟨-, rfl⟩
    · rcases Async.get_snoc_cases atK with atK | ⟨-, rfl⟩
      · exact valid.apart j k d e t atJ atK ownsJ ownsK
      · cases ownsK
    · cases ownsJ
  · intro d mem w reply db flushed
    rcases kept mem with mem | rfl
    · exact valid.seen d mem w reply db flushed
    · cases flushed

theorem Valid.lock {s : World} (valid : Valid s) {i : Nat} {c : Call}
    (found : ∀ row, c.request.row = some row → (s.store.getThread row.1 row.2).isSome)
    (free : ∀ t, c.request.thread = some t → s.free t = true) :
    Valid (s.become i c .locked) := by
  have kept {d : Call} (mem : d ∈ (s.become i c .locked).calls) :
      d ∈ s.calls ∨ d = ⟨c.request, .locked⟩ := List.mem_or_eq_of_mem_set mem
  have there {t : Uuid} (thread : c.request.thread = some t) : t ∈ s.store.threadIds := by
    obtain ⟨row, select, rfl⟩ := Option.map_eq_some_iff.mp thread
    obtain ⟨found_, got⟩ := Option.isSome_iff_exists.mp (found row select)
    obtain ⟨mem, id_, -⟩ := getThread_mem got
    exact List.mem_map.mpr ⟨found_, mem, id_⟩
  have owned {t : Uuid} (owns : Call.owns ⟨c.request, .locked⟩ t = true) :
      c.request.thread = some t := by
    simpa [Call.owns, Call.holds, Call.makes] using owns
  -- whoever else owned the thread would hold its row, or have made it
  have alone {t : Uuid} {d : Call} (mem : d ∈ s.calls) (thread : c.request.thread = some t) :
      d.owns t = false := by
    rw [Bool.eq_false_iff]
    intro owns
    rcases holds_or_makes owns with holds | makes
    · have unheld := List.all_eq_true.mp (free t thread) d mem
      rw [holds] at unheld
      cases unheld
    · exact (valid.made d mem t makes).2 (there thread)
  refine ⟨valid.drawn, valid.messages, valid.events, ?_, ?_, ?_, ?_⟩
  · intro d mem t holds
    rcases kept mem with mem | rfl
    · exact valid.held d mem t holds
    · exact there (owned (owns_of_holds holds))
  · intro d mem t makes
    rcases kept mem with mem | rfl
    · exact valid.made d mem t makes
    · cases makes
  · intro j k d e t atJ atK ownsJ ownsK
    rcases Async.get_set_cases atJ with ⟨rfl, rfl⟩ | ⟨-, atJ⟩
    · rcases Async.get_set_cases atK with ⟨rfl, -⟩ | ⟨-, atK⟩
      · rfl
      · rw [alone (List.mem_of_getElem? atK) (owned ownsJ)] at ownsK
        cases ownsK
    · rcases Async.get_set_cases atK with ⟨-, rfl⟩ | ⟨-, atK⟩
      · rw [alone (List.mem_of_getElem? atJ) (owned ownsK)] at ownsJ
        cases ownsJ
      · exact valid.apart j k d e t atJ atK ownsJ ownsK
  · intro d mem w reply db flushed
    rcases kept mem with mem | rfl
    · exact valid.seen d mem w reply db flushed
    · cases flushed

theorem Valid.flush {s : World} (valid : Valid s) {i : Nat} {c : Call} {w : Writes} {reply : Reply}
    (here : s.calls[i]? = some c) (phase : c.phase = .locked)
    (body : c.request.body s.drawn s.store = .ok (w, reply))
    (admits : s.store.admits w = true) :
    Valid { s.become i c (.flushed w reply s.store) with drawn := s.drawn + w.draws } := by
  have kept {d : Call} (mem : d ∈ (s.become i c (.flushed w reply s.store)).calls) :
      d ∈ s.calls ∨ d = ⟨c.request, .flushed w reply s.store⟩ := List.mem_or_eq_of_mem_set mem
  have unused : s.drawn ∉ s.store.threadIds := fun mem => Nat.lt_irrefl _ (valid.drawn _ mem)
  have created {t : Uuid} (made : w.created.map ThreadRow.id = some t) :
      t = s.drawn ∧ s.drawn < s.drawn + w.draws := by
    obtain ⟨row, eq, rfl⟩ := Option.map_eq_some_iff.mp made
    refine ⟨(body_confined body).created row eq, Nat.lt_add_of_pos_right ?_⟩
    simp [Writes.draws, eq]
  have holds_ {t : Uuid} (thread : c.request.thread = some t) : c.holds t = true := by
    rw [Call.holds, phase, thread, beq_self_eq_true]
  -- another call owns neither the locked row nor the identifier just drawn
  have alone {j : Nat} {t : Uuid} {d : Call} (atJ : s.calls[j]? = some d) (ne : j ≠ i)
      (owns : Call.owns ⟨c.request, .flushed w reply s.store⟩ t = true) : d.owns t = false := by
    rw [Bool.eq_false_iff]
    intro other
    rcases owns_flushed.mp owns with thread | made
    · exact ne (valid.apart j i d c t atJ here other (owns_of_holds (holds_ thread)))
    · obtain ⟨rfl, -⟩ := created made
      have mem := List.mem_of_getElem? atJ
      rcases holds_or_makes other with holds | makes
      · exact unused (valid.held d mem _ holds)
      · exact Nat.lt_irrefl _ (valid.made d mem _ makes).1
  refine ⟨?_, valid.messages, valid.events, ?_, ?_, ?_, ?_⟩
  · intro t mem
    exact Nat.lt_add_right _ (valid.drawn t mem)
  · intro d mem t holds
    rcases kept mem with mem | rfl
    · exact valid.held d mem t holds
    · refine valid.held c (List.mem_of_getElem? here) t (holds_ ?_)
      simpa [Call.holds] using holds
  · intro d mem t makes
    rcases kept mem with mem | rfl
    · obtain ⟨less, absent⟩ := valid.made d mem t makes
      exact ⟨Nat.lt_add_right _ less, absent⟩
    · obtain ⟨rfl, less⟩ := created (by simpa [Call.makes] using makes)
      exact ⟨less, unused⟩
  · intro j k d e t atJ atK ownsJ ownsK
    rcases Async.get_set_cases atJ with ⟨sameJ, rfl⟩ | ⟨neJ, oldJ⟩
    · rcases Async.get_set_cases atK with ⟨sameK, -⟩ | ⟨neK, oldK⟩
      · rw [sameJ, sameK]
      · rw [alone oldK neK ownsJ] at ownsK
        cases ownsK
    · rcases Async.get_set_cases atK with ⟨-, rfl⟩ | ⟨-, oldK⟩
      · rw [alone oldJ neJ ownsK] at ownsJ
        cases ownsJ
      · exact valid.apart j k d e t oldJ oldK ownsJ ownsK
  · intro d mem w' reply' db flushed
    rcases kept mem with mem | rfl
    · exact valid.seen d mem w' reply' db flushed
    · cases flushed
      exact ⟨⟨s.drawn, unused, body⟩, admits, fun _ _ => rfl, fun _ _ => rfl⟩

/-- Rows written to a thread are written by its owner. -/
theorem Seen.messages_other {db seen : Store} {r : Request} {w : Writes} {reply : Reply} {t : Uuid}
    (h : Seen db ⟨r, .flushed w reply seen⟩ w reply seen)
    (other : Call.owns ⟨r, .flushed w reply seen⟩ t = false) :
    w.messagesOf t = [] ∧ w.eventsOf t = [] := by
  obtain ⟨newId, -, body⟩ := h.body
  have confined := body_confined body
  rw [Bool.eq_false_iff] at other
  constructor
  · rw [Writes.messagesOf, List.filter_eq_nil_iff]
    intro m mem same
    rw [beq_iff_eq] at same
    exact other (owns_flushed.mpr (same ▸ confined.messages m mem))
  · rw [Writes.eventsOf, List.filter_eq_nil_iff]
    intro e mem same
    rw [beq_iff_eq] at same
    exact other (owns_flushed.mpr (same ▸ confined.events e mem))

theorem Valid.commit {s : World} (valid : Valid s) {i : Nat} {c : Call} {w : Writes}
    {reply : Reply} {seen : Store} (here : s.calls[i]? = some c)
    (phase : c.phase = .flushed w reply seen) (commits : List Commit) :
    Valid { s.become i c (.returned (.ok reply)) with
      store := s.store.apply w, commits := commits } := by
  obtain ⟨request, _⟩ := c
  obtain rfl : _ = Phase.flushed w reply seen := phase
  have mem := List.mem_of_getElem? here
  have seen_ := valid.seen _ mem w reply seen rfl
  obtain ⟨newId, -, body⟩ := seen_.body
  have confined := body_confined body
  -- every row written belongs to a thread that is there after the commit
  have known {t : Uuid} (wrote : request.thread = some t ∨ w.created.map ThreadRow.id = some t) :
      t ∈ (s.store.apply w).threadIds := by
    rcases wrote with thread | made
    · refine threadIds_sub _ _ (valid.held _ mem t ?_)
      simp [Call.holds, thread]
    · rw [threadIds_apply]
      obtain ⟨row, eq, rfl⟩ := Option.map_eq_some_iff.mp made
      simp [eq]
  have kept {d : Call} (mem : d ∈ (s.become i ⟨request, .flushed w reply seen⟩
      (.returned (.ok reply))).calls) : d ∈ s.calls ∨ d = ⟨request, .returned (.ok reply)⟩ :=
    List.mem_or_eq_of_mem_set mem
  -- the calls that still own something stand at other places
  have others {d : Call} {t : Uuid} (mem : d ∈ (s.become i ⟨request, .flushed w reply seen⟩
      (.returned (.ok reply))).calls) (owns : d.owns t = true) :
      d ∈ s.calls ∧ Call.owns ⟨request, .flushed w reply seen⟩ t = false := by
    obtain ⟨j, atJ⟩ := List.mem_iff_getElem?.mp mem
    rcases Async.get_set_cases atJ with ⟨-, rfl⟩ | ⟨ne, atJ⟩
    · cases owns
    · refine ⟨List.mem_of_getElem? atJ, ?_⟩
      rw [Bool.eq_false_iff]
      exact fun same => ne (valid.apart j i d _ t atJ here owns same)
  refine ⟨?_, ?_, ?_, ?_, ?_, ?_, ?_⟩
  · intro t mem'
    rw [threadIds_apply, List.mem_append] at mem'
    rcases mem' with old | new
    · exact valid.drawn t old
    · obtain ⟨row, row_, rfl⟩ := List.mem_map.mp new
      refine (valid.made _ mem row.id ?_).1
      simp [Call.makes, Option.mem_toList.mp row_]
  · intro m mem'
    rcases List.mem_append.mp mem' with old | new
    · exact threadIds_sub _ _ (valid.messages m old)
    · exact known (confined.messages m new)
  · intro e mem'
    rcases List.mem_append.mp mem' with old | new
    · exact threadIds_sub _ _ (valid.events e old)
    · exact known (confined.events e new)
  · intro d mem' t holds
    exact threadIds_sub _ _ (valid.held d (others mem' (owns_of_holds holds)).1 t holds)
  · intro d mem' t makes
    obtain ⟨old, other⟩ := others mem' (owns_of_makes makes)
    obtain ⟨less, absent⟩ := valid.made d old t makes
    refine ⟨less, ?_⟩
    rw [threadIds_apply, List.mem_append, not_or]
    refine ⟨absent, ?_⟩
    intro new
    obtain ⟨row, row_, rfl⟩ := List.mem_map.mp new
    rw [Bool.eq_false_iff] at other
    exact other (owns_flushed.mpr (.inr (by simp [Option.mem_toList.mp row_])))
  · intro j k d e t atJ atK ownsJ ownsK
    rcases Async.get_set_cases atJ with ⟨-, rfl⟩ | ⟨-, atJ⟩
    · cases ownsJ
    rcases Async.get_set_cases atK with ⟨-, rfl⟩ | ⟨-, atK⟩
    · cases ownsK
    exact valid.apart j k d e t atJ atK ownsJ ownsK
  · intro d mem' w' reply' db flushed
    rcases kept mem' with old | rfl
    · have before := valid.seen d old w' reply' db flushed
      refine ⟨before.body, before.admitted, ?_, ?_⟩
      · intro t owns
        rw [messagesOf_apply, (seen_.messages_other (others mem' owns).2).1, List.append_nil]
        exact before.messages t owns
      · intro t owns
        rw [eventsOf_apply, (seen_.messages_other (others mem' owns).2).2, List.append_nil]
        exact before.events t owns
    · cases flushed

theorem step_valid {s t : World} (h : Step s t) (valid : Valid s) : Valid t := by
  cases h with
  | call r => exact valid.call r
  | search i c here phase => exact valid.become (search_idle _ _)
  | lock i c here phase found free => exact valid.lock found free
  | missing i c here phase row select none_ => exact valid.become rfl
  | flush i c here phase w reply body admits decided => exact valid.flush here phase body admits
  | reject i c here phase w reply body clash decided => exact valid.become rfl
  | raise i c here phase e body => exact valid.become rfl
  | commit i c here w reply seen phase => exact valid.commit here phase _
  | abort i c here running => exact valid.become rfl

theorem initial_valid : Valid {} := by
  constructor <;> simp [Store.threadIds]

theorem reachable_valid {s : World} (h : Run s) : Valid s := by
  induction h with
  | initial => exact initial_valid
  | step _ step ih => exact step_valid step ih

end AgentStudio.Threads
