import AgentStudio.Threads.MessageLog

/-!
# Retried appends

`append_message` looks for its request id before it takes the thread row, and
does not look again under the lock. Two appends with one request id that both
look before either commits both go on to insert, and the unique index stops the
second. Appends that do not overlap so agree on one row.
-/

namespace AgentStudio.Threads

/-- The rows that carry a request id. -/
def Store.withRequestId (db : Store) (key : String) : List MessageRow :=
  db.messages.filter (·.requestId == some key)

/-- An append that carries the request id. -/
def Request.tries (r : Request) (key : String) : Bool :=
  match r with
  | .appendMessage a => a.requestId == some key
  | _ => false

/-- Between its lookup and its end. -/
def Call.underWay (c : Call) : Bool :=
  match c.phase with
  | .searched | .locked | .flushed .. => true
  | .called | .returned _ => false

/-- When an append with the request id may look for it: its tenant `x` has the thread,
and the message is committed or no other append with the id is under way. -/
structure Calm (key : String) (x : Uuid) (s : World) (a : AppendArgs) : Prop where
  tenant : a.tenantId = x
  thread : (s.store.getThread x a.threadId).isSome
  apart : (s.store.findRequest x key).isSome ∨
    ∀ d ∈ s.calls, d.request.tries key = true → d.underWay = false

/-- The runs in which every lookup for the request id is calm. -/
inductive CalmRun (key : String) (x : Uuid) : World → Prop
  | initial : CalmRun key x {}
  | step {s t : World} : CalmRun key x s → Step s t →
      (∀ i c a, s.calls[i]? = some c → c.phase = .called → c.request = .appendMessage a →
        a.requestId = some key → t = s.become i c (search c.request s.store) → Calm key x s a) →
      CalmRun key x t

theorem CalmRun.run {key : String} {x : Uuid} {s : World} (h : CalmRun key x s) : Run s := by
  induction h with
  | initial => exact .initial
  | step _ step _ ih => exact .step ih step

theorem mem_owners_iff {db : Store} {x t : Uuid} :
    (x, t) ∈ db.owners ↔ (db.getThread x t).isSome := by
  rw [Store.getThread, List.find?_isSome, Store.owners, List.mem_map]
  refine exists_congr fun row => and_congr_right fun _ => ?_
  simp only [Prod.mk.injEq, Bool.and_eq_true, beq_iff_eq]
  exact And.comm

theorem tries_append {r : Request} {key : String} (tries : r.tries key = true) :
    ∃ a, r = .appendMessage a ∧ a.requestId = some key := by
  cases r with
  | appendMessage a => exact ⟨a, rfl, by simpa [Request.tries] using tries⟩
  | createThread | appendEvent | setSummary | forkThread | clearToolResults | setArchived =>
    cases tries

/-- What an append flushes: one message, with its request id and its tenant. -/
theorem append_flushes {a : AppendArgs} {newId : Uuid} {db : Store} {w : Writes} {reply : Reply}
    (body : appendMessage a newId db = .ok (w, reply)) :
    ∃ m, w.messages = [m] ∧ m.requestId = a.requestId ∧ m.tenantId = a.tenantId ∧
      m.threadId = a.threadId ∧ reply = .message m false ∧
      m.seq = db.maxMessageSeq a.threadId + 1 ∧
      ∀ e ∈ w.events, e.threadId = a.threadId ∧ e.seq = db.maxEventSeq a.threadId := by
  unfold appendMessage at body
  split at body
  · cases body
  · cases body
    exact ⟨_, rfl, rfl, rfl, rfl, rfl, rfl, by simp⟩

theorem append_raises {a : AppendArgs} {newId : Uuid} {db : Store} {e : StoreError}
    (body : appendMessage a newId db = .error e) :
    db.getThread a.tenantId a.threadId = none := by
  unfold appendMessage at body
  split at body
  · assumption
  · cases body

/-- Only an append with the request id writes a row with it. -/
theorem others_write_none {r : Request} {key : String} {newId : Uuid} {db : Store} {w : Writes}
    {reply : Reply} (body : r.body newId db = .ok (w, reply)) (other : r.tries key = false) :
    w.messages.filter (·.requestId == some key) = [] := by
  rw [List.filter_eq_nil_iff]
  cases r with
  | createThread a =>
    cases body
    simp
  | appendMessage a =>
    obtain ⟨m, only, request, -⟩ := append_flushes body
    simpa [only, request, Request.tries] using other
  | appendEvent a =>
    simp only [Request.body, appendEvent] at body
    split at body
    · cases body
    · cases body
      simp
  | setSummary a =>
    simp only [Request.body, setSummary] at body
    split at body
    · cases body
    · split at body
      · cases body
        simp
      · cases body
  | forkThread a =>
    simp only [Request.body, forkThread] at body
    split at body
    · cases body
    · split at body
      · cases body
      · split at body
        · cases body
        · cases body
          intro m mem
          obtain ⟨p, -, rfl⟩ := List.mem_map.mp mem
          simp [ForkArgs.copy]
  | clearToolResults a =>
    simp only [Request.body, clearToolResults] at body
    split at body
    · cases body
    · split at body
      · cases body
        simp
      · cases body
        simp
  | setArchived a =>
    simp only [Request.body, setArchived] at body
    split at body
    · cases body
    · cases body
      simp

/-- The seqs of an append are new on its thread, so only its request id can clash. -/
theorem append_admitted {a : AppendArgs} {newId : Uuid} {db : Store} {w : Writes} {reply : Reply}
    (body : appendMessage a newId db = .ok (w, reply))
    (unused : ∀ key, a.requestId = some key → db.withRequestId key = []) :
    db.admits w = true := by
  obtain ⟨m, only, request_, -, thread, -, seq, events⟩ := append_flushes body
  simp only [Store.admits, only, Bool.and_eq_true, List.all_eq_true, List.mem_singleton,
    forall_eq, Bool.or_eq_true, bne_iff_ne]
  constructor
  · intro n mem
    constructor
    · cases request : m.requestId with
      | none => exact .inl rfl
      | some key =>
        right
        intro same
        have none_ := unused key (request_.symm.trans request)
        rw [Store.withRequestId, List.filter_eq_nil_iff] at none_
        exact none_ n mem (by rw [← same, beq_self_eq_true])
    · by_cases same : m.threadId = n.threadId
      · right
        have there : n ∈ db.messagesOf a.threadId :=
          List.mem_filter.mpr ⟨mem, by rw [← same, thread, beq_self_eq_true]⟩
        have bound := Log.le_top MessageRow.seq there
        rw [seq, Store.maxMessageSeq]
        omega
      · exact .inl same
  · intro e memE f memF
    by_cases same : e.threadId = f.threadId
    · right
      obtain ⟨threadE, seqE⟩ := events e memE
      have there : f ∈ db.eventsOf a.threadId :=
        List.mem_filter.mpr ⟨memF, by rw [← same, threadE, beq_self_eq_true]⟩
      have bound := Log.le_top EventRow.seq there
      rw [seqE, Store.maxEventSeq]
      omega
    · exact .inl same

/-! ## Calm runs -/

/-- How the appends with the request id stand: at most one is under way, and only while
no row has the id; every one that ended has the one row, or was rolled back. -/
structure Deduped (key : String) (x : Uuid) (s : World) : Prop where
  tenant : ∀ m ∈ s.store.withRequestId key, m.tenantId = x
  unique : (s.store.withRequestId key).length ≤ 1
  open_ : ∀ c ∈ s.calls, c.request.tries key = true → c.underWay = true →
    s.store.withRequestId key = []
  alone : ∀ (i j : Nat) (c d : Call), s.calls[i]? = some c → s.calls[j]? = some d →
    c.request.tries key = true → d.request.tries key = true →
    c.underWay = true → d.underWay = true → i = j
  owned : ∀ c ∈ s.calls, c.underWay = true → ∀ a, c.request = .appendMessage a →
    a.requestId = some key → a.tenantId = x ∧ (x, a.threadId) ∈ s.store.owners
  ended : ∀ c ∈ s.calls, c.request.tries key = true → ∀ result, c.phase = .returned result →
    result = .error .aborted ∨ ∃ row deduped, result = .ok (.message row deduped) ∧
      s.store.withRequestId key = [row]

/-- A change of one call that is none of the appends with the id, or comes no further. -/
theorem Deduped.become {key : String} {x : Uuid} {s : World} (h : Deduped key x s) {i : Nat}
    {c : Call} (here : s.calls[i]? = some c) {phase : Phase} (drawn : Uuid)
    (on : c.request.tries key = true → Call.underWay ⟨c.request, phase⟩ = true →
      c.underWay = true)
    (ends : c.request.tries key = true → ∀ result, phase = .returned result →
      result = .error .aborted ∨ ∃ row deduped, result = .ok (.message row deduped) ∧
        s.store.withRequestId key = [row]) :
    Deduped key x { s.become i c phase with drawn := drawn } := by
  have mem := List.mem_of_getElem? here
  refine ⟨h.tenant, h.unique, ?_, ?_, ?_, ?_⟩
  · intro d mem' tries busy
    rcases List.mem_or_eq_of_mem_set mem' with old | rfl
    · exact h.open_ d old tries busy
    · exact h.open_ c mem tries (on tries busy)
  · intro j k d e atJ atK triesJ triesK busyJ busyK
    rcases Async.get_set_cases atJ with ⟨sameJ, rfl⟩ | ⟨neJ, oldJ⟩
    · rcases Async.get_set_cases atK with ⟨sameK, -⟩ | ⟨neK, oldK⟩
      · rw [sameJ, sameK]
      · rw [sameJ]
        exact h.alone i k c e here oldK triesJ triesK (on triesJ busyJ) busyK
    · rcases Async.get_set_cases atK with ⟨sameK, rfl⟩ | ⟨neK, oldK⟩
      · rw [sameK]
        exact h.alone j i d c oldJ here triesJ triesK busyJ (on triesK busyK)
      · exact h.alone j k d e oldJ oldK triesJ triesK busyJ busyK
  · intro d mem' busy a append request
    rcases List.mem_or_eq_of_mem_set mem' with old | rfl
    · exact h.owned d old busy a append request
    · have tries : c.request.tries key = true := by
        have append : c.request = .appendMessage a := append
        simp [append, Request.tries, request]
      exact h.owned c mem (on tries busy) a append request
  · intro d mem' tries result returned
    rcases List.mem_or_eq_of_mem_set mem' with old | rfl
    · exact h.ended d old tries result returned
    · exact ends tries result returned

theorem findRequest_mem {db : Store} {x : Uuid} {key : String} {m : MessageRow}
    (found : db.findRequest x key = some m) : m ∈ db.withRequestId key := by
  have here := List.find?_some found
  rw [Bool.and_eq_true] at here
  exact List.mem_filter.mpr ⟨List.mem_of_find?_eq_some found, here.2⟩

theorem findRequest_none {db : Store} {x : Uuid} {key : String}
    (tenant : ∀ m ∈ db.withRequestId key, m.tenantId = x)
    (none_ : db.findRequest x key = none) : db.withRequestId key = [] := by
  rw [List.eq_nil_iff_forall_not_mem]
  intro m mem
  have owner := tenant m mem
  obtain ⟨there, request⟩ := List.mem_filter.mp mem
  have absent := List.find?_eq_none.mp none_ m there
  rw [owner, beq_self_eq_true, Bool.true_and] at absent
  exact absent request

/-- The one row there is. -/
theorem Deduped.only {key : String} {x : Uuid} {s : World} (h : Deduped key x s) {m : MessageRow}
    (mem : m ∈ s.store.withRequestId key) : s.store.withRequestId key = [m] := by
  have one : (s.store.withRequestId key).length = 1 :=
    Nat.le_antisymm h.unique (List.length_pos_of_mem mem)
  obtain ⟨n, only⟩ := List.length_eq_one_iff.mp one
  rw [only, List.mem_singleton] at mem
  rw [only, mem]

theorem Deduped.call {key : String} {x : Uuid} {s : World} (h : Deduped key x s) (r : Request) :
    Deduped key x { s with calls := s.calls ++ [{ request := r }] } := by
  have kept {d : Call} (mem : d ∈ s.calls ++ [{ request := r }]) :
      d ∈ s.calls ∨ d = { request := r } := by simpa using mem
  refine ⟨h.tenant, h.unique, ?_, ?_, ?_, ?_⟩
  · intro d mem tries busy
    rcases kept mem with old | rfl
    · exact h.open_ d old tries busy
    · cases busy
  · intro j k d e atJ atK triesJ triesK busyJ busyK
    rcases Async.get_snoc_cases atJ with oldJ | ⟨-, rfl⟩
    · rcases Async.get_snoc_cases atK with oldK | ⟨-, rfl⟩
      · exact h.alone j k d e oldJ oldK triesJ triesK busyJ busyK
      · cases busyK
    · cases busyJ
  · intro d mem busy a append request
    rcases kept mem with old | rfl
    · exact h.owned d old busy a append request
    · cases busy
  · intro d mem tries result returned
    rcases kept mem with old | rfl
    · exact h.ended d old tries result returned
    · cases returned

/-- A lookup that finds nothing while nobody else is under way. -/
theorem Deduped.enter {key : String} {x : Uuid} {s : World} (h : Deduped key x s) {i : Nat}
    {a : AppendArgs} {phase : Phase}
    (calm : Calm key x s a) (none_ : s.store.findRequest x key = none) :
    Deduped key x (s.become i ⟨.appendMessage a, phase⟩ .searched) := by
  have empty := findRequest_none h.tenant none_
  have idle : ∀ d ∈ s.calls, d.request.tries key = true → d.underWay = false := by
    rcases calm.apart with found | idle
    · rw [none_] at found
      cases found
    · exact idle
  have busy_ {j : Nat} {d : Call} (old : s.calls[j]? = some d) (tries : d.request.tries key = true)
      (busy : d.underWay = true) : False := by
    rw [idle d (List.mem_of_getElem? old) tries] at busy
    cases busy
  refine ⟨h.tenant, h.unique, fun _ _ _ _ => empty, ?_, ?_, ?_⟩
  · intro j k d e atJ atK triesJ triesK busyJ busyK
    rcases Async.get_set_cases atJ with ⟨sameJ, -⟩ | ⟨-, oldJ⟩
    · rcases Async.get_set_cases atK with ⟨sameK, -⟩ | ⟨-, oldK⟩
      · rw [sameJ, sameK]
      · exact (busy_ oldK triesK busyK).elim
    · exact (busy_ oldJ triesJ busyJ).elim
  · intro d mem busy b append request
    rcases List.mem_or_eq_of_mem_set mem with old | rfl
    · exact h.owned d old busy b append request
    · cases append
      exact ⟨calm.tenant, mem_owners_iff.mpr calm.thread⟩
  · intro d mem tries result returned
    rcases List.mem_or_eq_of_mem_set mem with old | rfl
    · exact h.ended d old tries result returned
    · cases returned

theorem withRequestId_apply (db : Store) (w : Writes) (key : String) :
    (db.apply w).withRequestId key =
      db.withRequestId key ++ w.messages.filter (·.requestId == some key) :=
  List.filter_append ..

/-- A commit that leaves the rows with the id as they are. -/
theorem Deduped.pass {key : String} {x : Uuid} {s s' : World} (h : Deduped key x s)
    (same : s'.store.withRequestId key = s.store.withRequestId key)
    (owners : ∀ owner ∈ s.store.owners, owner ∈ s'.store.owners) (calls : s'.calls = s.calls) :
    Deduped key x s' := by
  refine ⟨?_, ?_, ?_, ?_, ?_, ?_⟩
  · rw [same]
    exact h.tenant
  · rw [same]
    exact h.unique
  · rw [same, calls]
    exact h.open_
  · rw [calls]
    exact h.alone
  · rw [calls]
    intro c mem busy a append request
    obtain ⟨tenant, owner⟩ := h.owned c mem busy a append request
    exact ⟨tenant, owners _ owner⟩
  · rw [same, calls]
    exact h.ended

/-- The commit of the append under way: its row is the first with the id, and everyone
who ended before it was rolled back. -/
theorem Deduped.commit {key : String} {x : Uuid} {s : World} (h : Deduped key x s) {i : Nat}
    {a : AppendArgs} {w : Writes} {reply : Reply} {seen : Store} {newId : Uuid}
    (here : s.calls[i]? = some ⟨.appendMessage a, .flushed w reply seen⟩)
    (request : a.requestId = some key) (body : appendMessage a newId seen = .ok (w, reply))
    (commits : List Commit)
    (owners : ∀ owner ∈ s.store.owners, owner ∈ (s.store.apply w).owners) :
    Deduped key x { s.become i ⟨.appendMessage a, .flushed w reply seen⟩ (.returned (.ok reply))
      with store := s.store.apply w, commits := commits } := by
  have mem := List.mem_of_getElem? here
  have tries : Request.tries (.appendMessage a) key = true := by simp [Request.tries, request]
  have empty := h.open_ _ mem tries rfl
  obtain ⟨m, only, request_, tenant_, -, reply_, -⟩ := append_flushes body
  have rows : (s.store.apply w).withRequestId key = [m] := by
    rw [withRequestId_apply, empty, only, List.filter_singleton, request_, request,
      beq_self_eq_true]
    rfl
  -- whoever else tries has ended, and not with a row
  have stopped {j : Nat} {d : Call} (ne : j ≠ i) (old : s.calls[j]? = some d)
      (tries' : d.request.tries key = true) : d.underWay = false := by
    rw [Bool.eq_false_iff]
    exact fun busy => ne (h.alone j i d _ old here tries' tries busy rfl)
  refine ⟨?_, ?_, ?_, ?_, ?_, ?_⟩
  · intro n memN
    rw [rows, List.mem_singleton] at memN
    rw [memN, tenant_]
    exact (h.owned _ mem rfl a rfl request).1
  · show ((s.store.apply w).withRequestId key).length ≤ 1
    rw [rows]
    exact Nat.le_refl _
  · intro d memD triesD busyD
    obtain ⟨j, atJ⟩ := List.mem_iff_getElem?.mp memD
    rcases Async.get_set_cases atJ with ⟨-, rfl⟩ | ⟨ne, old⟩
    · cases busyD
    · rw [stopped ne old triesD] at busyD
      cases busyD
  · intro j k d e atJ atK triesJ triesK busyJ busyK
    rcases Async.get_set_cases atJ with ⟨-, rfl⟩ | ⟨ne, old⟩
    · cases busyJ
    · rw [stopped ne old triesJ] at busyJ
      cases busyJ
  · intro d memD busyD b append requestB
    rcases List.mem_or_eq_of_mem_set memD with old | rfl
    · obtain ⟨tenant, owner⟩ := h.owned d old busyD b append requestB
      exact ⟨tenant, owners _ owner⟩
    · cases busyD
  · intro d memD triesD result returned
    rcases List.mem_or_eq_of_mem_set memD with old | rfl
    · rcases h.ended d old triesD result returned with aborted | ⟨row, deduped, -, one⟩
      · exact .inl aborted
      · rw [empty] at one
        cases one
    · cases returned
      exact .inr ⟨m, false, by rw [reply_], rows⟩

theorem key_of_requestId {a : AppendArgs} {key : String} (nonempty : key ≠ "")
    (request : a.requestId = some key) : a.key = some key := by
  simp [AppendArgs.key, request, nonempty]

theorem step_deduped {key : String} {x : Uuid} (nonempty : key ≠ "") {s t : World} (step : Step s t)
    (calm : ∀ i c a, s.calls[i]? = some c → c.phase = .called → c.request = .appendMessage a →
      a.requestId = some key → t = s.become i c (search c.request s.store) → Calm key x s a)
    (run : Run s) (h : Deduped key x s) : Deduped key x t := by
  have valid := reachable_valid run
  have tenanted := reachable_tenanted run
  -- an append with the id that is under way finds its thread
  have found {c : Call} {a : AppendArgs} (mem : c ∈ s.calls) (busy : c.underWay = true)
      (append : c.request = .appendMessage a) (request : a.requestId = some key) :
      s.store.getThread a.tenantId a.threadId ≠ none := by
    obtain ⟨tenant, owner⟩ := h.owned c mem busy a append request
    rw [tenant]
    exact Option.isSome_iff_ne_none.mp (mem_owners_iff.mp owner)
  cases step with
  | call r => exact h.call r
  | search i c here phase =>
    by_cases tries : c.request.tries key = true
    · obtain ⟨a, append, request⟩ := tries_append tries
      have now := calm i c a here phase append request rfl
      obtain ⟨_, _⟩ := c
      cases append
      cases looked : s.store.findRequest x key with
      | none =>
        have misses : search (.appendMessage a) s.store = .searched := by
          simp [search, key_of_requestId nonempty request, now.tenant, looked]
        show Deduped key x (s.become i _ (search (.appendMessage a) s.store))
        rw [misses]
        exact h.enter now looked
      | some m =>
        have hits : search (.appendMessage a) s.store = .returned (.ok (.message m true)) := by
          simp [search, key_of_requestId nonempty request, now.tenant, looked]
        show Deduped key x (s.become i _ (search (.appendMessage a) s.store))
        rw [hits]
        refine h.become here s.drawn (fun _ busy => by cases busy) fun _ result returned => ?_
        cases returned
        exact .inr ⟨m, true, rfl, h.only (findRequest_mem looked)⟩
    · exact h.become here s.drawn (fun yes => absurd yes tries) fun yes => absurd yes tries
  | lock i c here phase found_ free =>
    refine h.become here s.drawn (fun _ _ => by rw [Call.underWay, phase]) fun _ result returned => ?_
    cases returned
  | missing i c here phase row select none_ =>
    refine h.become here s.drawn (fun _ busy => by cases busy) fun tries result returned => ?_
    obtain ⟨a, append, request⟩ := tries_append tries
    have busy : c.underWay = true := by rw [Call.underWay, phase]
    have there := found (List.mem_of_getElem? here) busy append request
    rw [append, Request.row, Option.some.injEq] at select
    rw [← select] at none_
    exact absurd none_ there
  | flush i c here phase w reply body admits decided =>
    refine h.become here _ (fun _ _ => by rw [Call.underWay, phase]) fun _ result returned => ?_
    cases returned
  | reject i c here phase w reply body clash decided =>
    refine h.become here s.drawn (fun _ busy => by cases busy) fun tries result returned => ?_
    obtain ⟨a, append, request⟩ := tries_append tries
    have busy : c.underWay = true := by rw [Call.underWay, phase]
    have empty := h.open_ c (List.mem_of_getElem? here) tries busy
    rw [append] at body
    rw [append_admitted body fun k same => by rwa [← Option.some.inj (request.symm.trans same)]]
      at clash
    cases clash
  | raise i c here phase e body =>
    refine h.become here s.drawn (fun _ busy => by cases busy) fun tries result returned => ?_
    obtain ⟨a, append, request⟩ := tries_append tries
    have busy : c.underWay = true := by rw [Call.underWay, phase]
    rw [append] at body
    exact absurd (append_raises body) (found (List.mem_of_getElem? here) busy append request)
  | commit i c here w reply seen phase =>
    have mem := List.mem_of_getElem? here
    obtain ⟨newId, -, body⟩ := (valid.seen c mem w reply seen phase).body
    have owners : ∀ owner ∈ s.store.owners, owner ∈ (s.store.apply w).owners := by
      intro owner there
      rw [tenanted.owners valid mem phase]
      exact List.mem_append_left _ there
    obtain ⟨request_, _⟩ := c
    obtain rfl : _ = Phase.flushed w reply seen := phase
    by_cases tries : request_.tries key = true
    · obtain ⟨a, append, request⟩ := tries_append tries
      cases append
      exact h.commit here request body _ owners
    · rw [Bool.not_eq_true] at tries
      have ended : Deduped key x (s.become i _ (.returned (.ok reply))) :=
        h.become here s.drawn (fun _ busy => by cases busy) fun yes => by rw [tries] at yes; cases yes
      refine ended.pass ?_ owners rfl
      show (s.store.apply w).withRequestId key = s.store.withRequestId key
      rw [withRequestId_apply, others_write_none body tries, List.append_nil]
  | abort i c here running =>
    refine h.become here s.drawn (fun _ busy => by cases busy) fun _ result returned => ?_
    cases returned
    exact .inl rfl

theorem calm_deduped {key : String} {x : Uuid} (nonempty : key ≠ "") {s : World}
    (h : CalmRun key x s) : Deduped key x s := by
  induction h with
  | initial =>
    constructor <;> simp [Store.withRequestId]
  | step run step calm ih => exact step_deduped nonempty step calm run.run ih

/-- In every run whose lookups for a request id are calm, exactly one row has the id as
soon as one of its appends has returned, and each of them that has returned, and was
not rolled back by a failure, has returned that row. -/
theorem retries_return_one_row {key : String} {x : Uuid} (nonempty : key ≠ "") {s : World}
    (run : CalmRun key x s) :
    ∀ c ∈ s.calls, c.request.tries key = true → ∀ result, c.phase = .returned result →
      result = .error .aborted ∨ ∃ row deduped, result = .ok (.message row deduped) ∧
        s.store.withRequestId key = [row] :=
  (calm_deduped nonempty run).ended

/-! ## Schedules -/

/-- Every append with the id that has not looked yet may look now. -/
def World.calm (s : World) (key : String) (x : Uuid) : Bool :=
  s.calls.all fun c =>
    match c.request with
    | .appendMessage a => a.requestId != some key || c.phase != .called ||
        (a.tenantId == x && (s.store.getThread x a.threadId).isSome &&
          ((s.store.findRequest x key).isSome ||
            s.calls.all fun d => !d.request.tries key || !d.underWay))
    | _ => true

def staysCalm (key : String) (x : Uuid) : World → List Move → Bool
  | s, [] => s.calm key x
  | s, m :: moves => s.calm key x && staysCalm key x (s.move m) moves

theorem calm_of_world {key : String} {x : Uuid} {s : World} {c : Call} {a : AppendArgs}
    (calm : s.calm key x = true) (mem : c ∈ s.calls) (phase : c.phase = .called)
    (append : c.request = .appendMessage a) (request : a.requestId = some key) :
    Calm key x s a := by
  have here := List.all_eq_true.mp calm c mem
  simp only [append, request, phase, bne_self_eq_false, Bool.false_or, Bool.and_eq_true,
    beq_iff_eq, Bool.or_eq_true, List.all_eq_true, Bool.not_eq_true'] at here
  obtain ⟨⟨tenant, thread⟩, apart⟩ := here
  refine ⟨tenant, thread, apart.imp_right ?_⟩
  intro idle d there tries
  rcases idle d there with other | idle
  · rw [tries] at other
    cases other
  · exact idle

theorem calmRun_after {key : String} {x : Uuid} {s : World} (run : CalmRun key x s)
    {moves : List Move} (calm : staysCalm key x s moves = true) :
    CalmRun key x (s.after moves) := by
  induction moves generalizing s with
  | nil => exact run
  | cons m moves ih =>
    rw [staysCalm, Bool.and_eq_true] at calm
    have next {t : World} (step : Step s t) : CalmRun key x t :=
      .step run step fun i c a here phase append request _ =>
        calm_of_world calm.1 (List.mem_of_getElem? here) phase append request
    refine ih ?_ calm.2
    cases m with
    | call r => exact next (.call s r)
    | go i =>
      rcases s.advance_step i with same | step
      · rw [World.move, same]
        exact run
      · exact next step

/-- A client appends under a request id and retries after it got its answer. -/
def retried : List Move :=
  [.call (.createThread { tenantId := 7, conversationId := 9 }), .go 0, .go 0, .go 0, .go 0,
   .call (.appendMessage {
     tenantId := 7, threadId := 0, role := "user", content := "a", requestId := some "k" }),
   .go 1, .go 1, .go 1, .go 1,
   .call (.appendMessage {
     tenantId := 7, threadId := 0, role := "user", content := "a", requestId := some "k" }),
   .go 2]

/-- The same client retries before it got its answer. -/
def retriedEarly : List Move :=
  [.call (.createThread { tenantId := 7, conversationId := 9 }), .go 0, .go 0, .go 0, .go 0,
   .call (.appendMessage {
     tenantId := 7, threadId := 0, role := "user", content := "a", requestId := some "k" }),
   .call (.appendMessage {
     tenantId := 7, threadId := 0, role := "user", content := "a", requestId := some "k" }),
   .go 1, .go 2, .go 1, .go 1, .go 1, .go 2, .go 2]

theorem retries_return_one_row_retried :
    ((({} : World).after retried).calls.filter fun c =>
      c.request.tries "k" && !c.underWay && c.phase != .called).length = 2 ∧
    ∀ c ∈ (({} : World).after retried).calls, c.request.tries "k" = true →
      ∀ result, c.phase = .returned result →
        result = .error .aborted ∨ ∃ row deduped, result = .ok (.message row deduped) ∧
          (({} : World).after retried).store.withRequestId "k" = [row] :=
  ⟨by decide +kernel, retries_return_one_row (x := 7) (by decide)
    (calmRun_after .initial (by decide +kernel))⟩

theorem retry_ends_in_integrity_error :
    Run (({} : World).after retriedEarly) ∧
    (({} : World).after retriedEarly).calls.map Call.phase =
      [.returned (.ok (.thread { id := 0, tenantId := 7, conversationId := 9 })),
       .returned (.ok (.message {
         id := 1, conversationId := 0, tenantId := 7, threadId := 0, seq := 1,
         requestId := some "k", role := "user", content := "a", redactedContent := "a" } false)),
       .returned (.error .integrity)] :=
  ⟨run_after _, by decide +kernel⟩

end AgentStudio.Threads
