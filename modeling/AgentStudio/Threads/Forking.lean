import AgentStudio.Threads.Parents

/-!
# What a fork is

`fork_thread` copies the messages up to a seq with their parts. The map of the ids is
made as the rows are copied; since a parent comes before its children, it is there when
it is looked up. Of the source only one event is new.
-/

namespace AgentStudio.Threads

variable {a : ForkArgs} {newId : Uuid} {db : Store}

/-- `list_parts`, in the order of the table. -/
def Store.partsOf (db : Store) (tenantId messageId : Uuid) : List PartRow :=
  db.parts.filter fun p => p.tenantId == tenantId && p.messageId == messageId

/-- What a part says. -/
def PartRow.body (p : PartRow) : String × Nat × PartContent × PartContent :=
  (p.partType, p.partIndex, p.content, p.redactedContent)

/-- What the store keeps of a source thread: its seqs count, its rows are the tenant's and have
ids of their own, and a parent comes before its children; and the ids from `newId` on are
new. -/
structure Forkable (a : ForkArgs) (newId : Uuid) (db : Store) : Prop where
  numbered : Log.Numbered MessageRow.seq (db.messagesOf a.sourceThreadId)
  tenanted : db.tenantMessages a.tenantId a.sourceThreadId = db.messagesOf a.sourceThreadId
  distinct : ((db.messagesOf a.sourceThreadId).map MessageRow.id).Nodup
  precedes : ∀ m ∈ db.messagesOf a.sourceThreadId, ∀ q ∈ db.messagesOf a.sourceThreadId,
    m.parentMessageId = some q.id → q.seq < m.seq
  threads : ∀ t ∈ db.threads, t.id < newId
  messages : ∀ m ∈ db.messages, m.id < newId ∧ m.threadId < newId
  parts : ∀ p ∈ db.parts, p.messageId < newId
  events : ∀ e ∈ db.events, e.threadId < newId

/-- The rows are copies of the sources: each says the same, has the same parts, and has as its
parent the copy of the parent, if that is copied, and none otherwise. -/
structure Copied (tenantId : Uuid) (db db' : Store) (sources copies : List MessageRow) : Prop where
  length : copies.length = sources.length
  same : ∀ (i : Nat) (m c : MessageRow), sources[i]? = some m → copies[i]? = some c →
    c.seq = m.seq ∧ c.role = m.role ∧ c.content = m.content ∧
      c.redactedContent = m.redactedContent ∧
      (db'.partsOf tenantId c.id).map PartRow.body = (db.partsOf tenantId m.id).map PartRow.body
  linked : ∀ (i : Nat) (m c : MessageRow), sources[i]? = some m → copies[i]? = some c →
    ∀ (j : Nat) (q d : MessageRow), sources[j]? = some q → copies[j]? = some d →
    m.parentMessageId = some q.id → c.parentMessageId = some d.id
  dropped : ∀ (i : Nat) (m c : MessageRow), sources[i]? = some m → copies[i]? = some c →
    (∀ q ∈ sources, m.parentMessageId ≠ some q.id) → c.parentMessageId = none

/-- The store with a fork: a thread of the copies, and one event more of the source. -/
structure Forks (a : ForkArgs) (source : ThreadRow) (newId : Uuid) (db db' : Store) : Prop where
  threads : db'.threads = db.threads ++ [{
    id := newId, tenantId := a.tenantId, conversationId := a.conversationId
    surfaceId := source.surfaceId, endUserId := source.endUserId }]
  copied : Copied a.tenantId db db'
    ((db.messagesOf a.sourceThreadId).filter fun m => (m.seq : Int) ≤ a.atSeq)
    (db'.messagesOf newId)
  messages : ∀ t, t ≠ newId → db'.messagesOf t = db.messagesOf t
  parts : ∀ m ∈ db.messages, ∀ tenantId, db'.partsOf tenantId m.id = db.partsOf tenantId m.id
  source : ∃ e, e.eventType = "thread.forked" ∧
    db'.eventsOf a.sourceThreadId = db.eventsOf a.sourceThreadId ++ [e]
  events : ∀ t, t ≠ newId → t ≠ a.sourceThreadId → db'.eventsOf t = db.eventsOf t

/-! ## The map of the ids -/

theorem idMap_getElem {sources : List MessageRow} {j : Nat} {q : MessageRow}
    (distinct : (sources.map MessageRow.id).Nodup) (here : sources[j]? = some q) :
    (idMap newId sources).lookup q.id = some (newId + 1 + j) := by
  have some_ : ((idMap newId sources).lookup q.id).isSome := by
    rw [List.lookup_isSome_iff]
    refine ⟨(q.id, newId + 1 + j), List.mem_map.mpr ⟨(q, j), ?_, rfl⟩, beq_self_eq_true _⟩
    exact List.mk_mem_zipIdx_iff_getElem?.mpr here
  obtain ⟨n, found⟩ := Option.isSome_iff_exists.mp some_
  obtain ⟨i, q', there, id_, rfl⟩ := idMap_lookup found
  have at_ (k : Nat) : (sources.map MessageRow.id)[k]? = (sources[k]?).map MessageRow.id :=
    List.getElem?_map
  -- an id is of one row
  have one : i = j := by
    have inside := (List.getElem?_eq_some_iff.mp ((at_ i).trans (congrArg _ there))).1
    apply (List.getElem?_inj inside distinct).mp
    rw [at_, at_, there, here]
    exact congrArg some id_
  rw [found, one]

/-! ## The copies -/

/-- The copies of the rows. -/
def ForkArgs.copies (a : ForkArgs) (newId : Uuid) (sources : List MessageRow) : List MessageRow :=
  sources.zipIdx.map fun p => a.copy newId sources p.1 p.2

theorem copies_getElem {sources : List MessageRow} {i : Nat} {m : MessageRow}
    (here : sources[i]? = some m) :
    (a.copies newId sources)[i]? = some (a.copy newId sources m i) := by
  rw [ForkArgs.copies, List.getElem?_map, List.getElem?_zipIdx, here, Nat.zero_add]
  rfl

variable {sources : List MessageRow} {i j : Nat} {m q : MessageRow}

/-- The parent is among the rows copied before. -/
theorem copy_linked (numbered : Log.Numbered MessageRow.seq sources)
    (distinct : (sources.map MessageRow.id).Nodup) (here : sources[i]? = some m)
    (there : sources[j]? = some q) (less : q.seq < m.seq)
    (parent : m.parentMessageId = some q.id) :
    (a.copy newId sources m i).parentMessageId = some (newId + 1 + j) := by
  have seqs := numbered.getElem here
  have seqs' := numbered.getElem there
  have before : j < i + 1 := by omega
  have there' : (sources.take (i + 1))[j]? = some q := by
    rw [List.getElem?_take, if_pos before, there]
  have distinct' : ((sources.take (i + 1)).map MessageRow.id).Nodup :=
    distinct.sublist ((List.take_sublist _ _).map _)
  rw [ForkArgs.copy, parent]
  exact idMap_getElem distinct' there'

theorem copy_dropped (none_ : ∀ q ∈ sources, m.parentMessageId ≠ some q.id) :
    (a.copy newId sources m i).parentMessageId = none := by
  rw [ForkArgs.copy]
  cases parent : m.parentMessageId with
  | none => rfl
  | some p =>
    cases found : (idMap newId (sources.take (i + 1))).lookup p with
    | none => exact found
    | some n =>
      obtain ⟨k, q, there, rfl, -⟩ := idMap_lookup found
      exact absurd parent (none_ q (List.mem_of_mem_take (List.mem_of_getElem? there)))

/-! ## The parts of a copy -/

/-- Of pieces that are marked by their places, those of one place. -/
theorem flatMap_place {α β : Type} (f : α → List β) (l : List α) (k n : Nat) :
    ((l.zipIdx n).flatMap fun p => if p.2 = n + k then f p.1 else []) = (l[k]?).elim [] f := by
  induction l generalizing n k with
  | nil => rfl
  | cons x l ih =>
    rw [List.zipIdx_cons, List.flatMap_cons]
    cases k with
    | zero =>
      have later : ((l.zipIdx (n + 1)).flatMap fun p => if p.2 = n + 0 then f p.1 else []) = [] := by
        rw [List.flatMap_eq_nil_iff]
        intro p mem
        have place := (List.mem_zipIdx mem).1
        exact if_neg (by omega)
      rw [later, List.append_nil]
      exact if_pos rfl
    | succ k =>
      rw [if_neg (by simp), List.nil_append, List.getElem?_cons_succ, ← ih k (n + 1),
        Nat.add_right_comm, Nat.add_assoc]

/-- The parts of the copies. -/
def ForkArgs.copiedParts (a : ForkArgs) (newId : Uuid) (db : Store) (sources : List MessageRow) :
    List PartRow :=
  sources.zipIdx.flatMap fun p => (db.partsOf a.tenantId p.1.id).map fun q =>
    { q with messageId := newId + 1 + p.2, threadId := newId, tenantId := a.tenantId }

theorem copiedParts_of (here : sources[i]? = some m) :
    ((a.copiedParts newId db sources).filter fun p =>
        p.tenantId == a.tenantId && p.messageId == newId + 1 + i) =
      (db.partsOf a.tenantId m.id).map fun q =>
        { q with messageId := newId + 1 + i, threadId := newId, tenantId := a.tenantId } := by
  have place := flatMap_place (fun m : MessageRow => (db.partsOf a.tenantId m.id).map fun q =>
    ({ q with messageId := newId + 1 + i, threadId := newId, tenantId := a.tenantId } : PartRow))
    sources i 0
  rw [here, Nat.zero_add] at place
  rw [ForkArgs.copiedParts, List.filter_flatMap]
  refine Eq.trans ?_ place
  apply List.flatMap_congr
  intro p _
  by_cases own : p.2 = i
  · rw [if_pos own, List.filter_eq_self.mpr, own]
    intro q mem
    obtain ⟨q', -, rfl⟩ := List.mem_map.mp mem
    simp [own]
  · rw [if_neg own, List.filter_eq_nil_iff]
    intro q mem
    obtain ⟨q', -, rfl⟩ := List.mem_map.mp mem
    simp [own]

theorem not_copied {id : Uuid} (i : Nat) (old : id < newId) : id ≠ newId + 1 + i := by
  intro same
  exact absurd (same ▸ old)
    (Nat.not_lt.mpr (Nat.le_trans (Nat.le_add_right newId 1) (Nat.le_add_right _ i)))

/-- A copy has no parts but those that were copied for it. -/
theorem copy_parts {db' : Store} (parts : db'.parts = db.parts ++ a.copiedParts newId db sources)
    (fresh : ∀ p ∈ db.parts, p.messageId < newId) (here : sources[i]? = some m) :
    (db'.partsOf a.tenantId (newId + 1 + i)).map PartRow.body =
      (db.partsOf a.tenantId m.id).map PartRow.body := by
  have old : (db.parts.filter fun p =>
      p.tenantId == a.tenantId && p.messageId == newId + 1 + i) = [] := by
    rw [List.filter_eq_nil_iff]
    intro p mem same
    simp only [Bool.and_eq_true, beq_iff_eq] at same
    exact not_copied i (fresh p mem) same.2
  rw [Store.partsOf, parts, List.filter_append, old, List.nil_append, copiedParts_of here,
    List.map_map]
  rfl

/-- A message that was there has the parts that it had. -/
theorem old_parts {db' : Store} (parts : db'.parts = db.parts ++ a.copiedParts newId db sources)
    (old : m.id < newId) (tenantId : Uuid) : db'.partsOf tenantId m.id = db.partsOf tenantId m.id := by
  have none_ : ((a.copiedParts newId db sources).filter fun p =>
      p.tenantId == tenantId && p.messageId == m.id) = [] := by
    rw [List.filter_eq_nil_iff]
    intro p mem same
    obtain ⟨r, -, copied⟩ := List.mem_flatMap.mp mem
    obtain ⟨q, -, rfl⟩ := List.mem_map.mp copied
    simp only [Bool.and_eq_true, beq_iff_eq] at same
    exact not_copied r.2 old same.2.symm
  rw [Store.partsOf, parts, List.filter_append, none_, List.append_nil, Store.partsOf]

/-! ## The fork -/

/-- Up to a seq that the thread has, a fork writes the copies. -/
theorem forkThread_ok {source : ThreadRow} (h : Forkable a newId db)
    (found : db.getThread a.tenantId a.sourceThreadId = some source)
    (inside : a.atSeq ≤ (db.messagesOf a.sourceThreadId).length) :
    ∃ w reply, forkThread a newId db = .ok (w, reply) ∧
      w.created = some {
        id := newId, tenantId := a.tenantId, conversationId := a.conversationId
        surfaceId := source.surfaceId, endUserId := source.endUserId } ∧
      w.updated = none ∧ w.updatedParts = [] ∧
      w.messages = a.copies newId (a.sources db) ∧
      w.parts = a.copiedParts newId db (a.sources db) ∧
      ∃ first second last : EventRow, w.events = [first, second, last] ∧
        first.threadId = newId ∧ second.threadId = newId ∧
        last.threadId = a.sourceThreadId ∧ last.eventType = "thread.forked" := by
  have some_ : ¬(0 < a.atSeq ∧ a.sources db = []) := by
    rw [sources_eq h.numbered h.tenanted, List.take_eq_nil_iff]
    rintro ⟨positive, none_ | none_⟩
    · omega
    · rw [none_, List.length_nil] at inside
      omega
  have long : ¬(db.maxMessageSeq a.sourceThreadId : Int) < a.atSeq := by
    rw [Store.maxMessageSeq, h.numbered.top_eq]
    omega
  unfold forkThread
  rw [found]
  dsimp only
  rw [if_neg some_, if_neg long]
  exact ⟨_, _, rfl, rfl, rfl, rfl, rfl, rfl, _, _, _, rfl, rfl, rfl, rfl, rfl⟩

theorem forkThread_beyond {source : ThreadRow} (h : Forkable a newId db)
    (found : db.getThread a.tenantId a.sourceThreadId = some source)
    (beyond : (db.messagesOf a.sourceThreadId).length < a.atSeq) :
    ∃ length, forkThread a newId db = .error (.forkPointOutOfRange a.atSeq length) := by
  unfold forkThread
  rw [found]
  dsimp only
  split
  · exact ⟨_, rfl⟩
  · rw [if_pos]
    · exact ⟨_, rfl⟩
    · rw [Store.maxMessageSeq, h.numbered.top_eq]
      exact beyond

theorem messagesOf_fresh (h : Forkable a newId db) : db.messagesOf newId = [] := by
  rw [Store.messagesOf, List.filter_eq_nil_iff]
  intro m mem same
  rw [beq_iff_eq] at same
  exact absurd same (Nat.ne_of_lt (h.messages m mem).2)

theorem copies_thread {c : MessageRow} (mem : c ∈ a.copies newId sources) :
    c.threadId = newId := by
  obtain ⟨p, -, rfl⟩ := List.mem_map.mp mem
  rfl

/-- The copies of the rows of a source are copies. -/
theorem copies_copied {db' : Store} (h : Forkable a newId db)
    (parts : db'.parts = db.parts ++ a.copiedParts newId db (a.sources db)) :
    Copied a.tenantId db db' (a.sources db) (a.copies newId (a.sources db)) := by
  have rows := sources_eq h.numbered h.tenanted
  have numbered : Log.Numbered MessageRow.seq (a.sources db) := rows ▸ h.numbered.take _
  have distinct : ((a.sources db).map MessageRow.id).Nodup :=
    rows ▸ h.distinct.sublist ((List.take_sublist _ _).map _)
  have inThread {q : MessageRow} (mem : q ∈ a.sources db) : q ∈ db.messagesOf a.sourceThreadId :=
    List.mem_of_mem_take (rows ▸ mem)
  constructor
  · rw [ForkArgs.copies, List.length_map, List.length_zipIdx]
  · intro i m c here there
    obtain rfl := Option.some.inj ((copies_getElem here).symm.trans there)
    exact ⟨rfl, rfl, rfl, rfl, copy_parts parts h.parts here⟩
  · intro i m c here there j q d here' there' parent
    obtain rfl := Option.some.inj ((copies_getElem here).symm.trans there)
    obtain rfl := Option.some.inj ((copies_getElem here').symm.trans there')
    have less := h.precedes m (inThread (List.mem_of_getElem? here)) q
      (inThread (List.mem_of_getElem? here')) parent
    exact copy_linked numbered distinct here here' less parent
  · intro i m c here there none_
    obtain rfl := Option.some.inj ((copies_getElem here).symm.trans there)
    exact copy_dropped none_

/-- Of a thread that the store keeps, up to a seq from 0 to its length, a fork makes a thread
of the copies of the messages up to it, and is one event more of the source; beyond, it
raises. -/
theorem forks_exactly {source : ThreadRow} (h : Forkable a newId db)
    (found : db.getThread a.tenantId a.sourceThreadId = some source) :
    (0 ≤ a.atSeq → a.atSeq ≤ (db.messagesOf a.sourceThreadId).length → ∃ w reply,
      forkThread a newId db = .ok (w, reply) ∧ Forks a source newId db (db.apply w)) ∧
    ((db.messagesOf a.sourceThreadId).length < a.atSeq → ∃ length,
      forkThread a newId db = .error (.forkPointOutOfRange a.atSeq length)) := by
  refine ⟨fun _ inside => ?_, forkThread_beyond h found⟩
  obtain ⟨w, reply, ok, created, updated, updatedParts, messages, parts, first, second, last,
    events, own, own', theirs, type_⟩ := forkThread_ok h found inside
  obtain ⟨mem, id_, -⟩ := getThread_mem found
  have apart : a.sourceThreadId ≠ newId := id_ ▸ Nat.ne_of_lt (h.threads source mem)
  have allParts : (db.apply w).parts = db.parts ++ a.copiedParts newId db (a.sources db) := by
    simp [Store.apply, updatedParts, parts]
  have upto : ((db.messagesOf a.sourceThreadId).filter fun m => (m.seq : Int) ≤ a.atSeq) =
      a.sources db := by
    rw [sources_eq h.numbered h.tenanted, messagesOf_upto a.atSeq h.numbered]
  refine ⟨w, reply, ok, ?_, ?_, ?_, ?_, ?_, ?_⟩
  · simp [Store.apply, created, updated]
  · rw [upto, messagesOf_apply, messagesOf_fresh h, List.nil_append, Writes.messagesOf, messages,
      List.filter_eq_self.mpr fun c mem => beq_iff_eq.mpr (copies_thread mem)]
    exact copies_copied h allParts
  · intro t other
    rw [messagesOf_apply, Writes.messagesOf, messages, List.filter_eq_nil_iff.mpr, List.append_nil]
    intro c mem same
    exact other ((beq_iff_eq.mp same).symm.trans (copies_thread mem))
  · intro m mem tenantId
    exact old_parts allParts (h.messages m mem).1 tenantId
  · refine ⟨last, type_, ?_⟩
    rw [eventsOf_apply, Writes.eventsOf, events]
    simp [own, own', theirs, apart.symm]
  · intro t other other'
    rw [eventsOf_apply, Writes.eventsOf, events]
    simp [own, own', theirs, other.symm, other'.symm]

/-! ## In a run -/

/-- The parts of messages yet to be drawn are not there. -/
structure Parted (s : World) : Prop where
  parts : ∀ p ∈ s.store.parts, p.messageId < s.drawn
  flushed : ∀ c ∈ s.calls, ∀ w reply seen, c.phase = .flushed w reply seen →
    (∀ p ∈ w.parts, p.messageId < s.drawn) ∧ ∀ p ∈ w.updatedParts, p.messageId < s.drawn

theorem body_parted {r : Request} {w : Writes} {reply : Reply}
    (messages : ∀ m ∈ db.messages, m.id < newId) (parts : ∀ p ∈ db.parts, p.messageId < newId)
    (body : r.body newId db = .ok (w, reply)) :
    (∀ p ∈ w.parts, p.messageId < newId + w.draws) ∧
      ∀ p ∈ w.updatedParts, p.messageId < newId + w.draws := by
  have none_ {bound : Nat} : ∀ p ∈ ([] : List PartRow), p.messageId < bound := by simp
  cases r with
  | createThread a =>
    cases body
    exact ⟨none_, none_⟩
  | appendMessage a =>
    simp only [Request.body, appendMessage] at body
    split at body
    · cases body
    · cases body
      refine ⟨fun p mem => ?_, none_⟩
      obtain ⟨part, -, rfl⟩ := List.mem_map.mp mem
      exact Nat.lt_succ_self newId
  | appendEvent a =>
    simp only [Request.body, appendEvent] at body
    split at body
    · cases body
    · cases body
      exact ⟨none_, none_⟩
  | setSummary a =>
    simp only [Request.body, setSummary] at body
    split at body
    · cases body
    · split at body
      · rename_i there
        cases body
        refine ⟨fun p mem => ?_, none_⟩
        -- the boundary is a message that is there
        obtain ⟨m, here, is⟩ := List.any_eq_true.mp there
        rw [List.mem_singleton.mp mem]
        exact beq_iff_eq.mp is ▸ Nat.lt_add_right _ (messages m here)
      · cases body
  | forkThread a =>
    simp only [Request.body, forkThread] at body
    split at body
    · cases body
    · split at body
      · cases body
      · split at body
        · cases body
        · cases body
          refine ⟨fun p mem => ?_, none_⟩
          obtain ⟨source, place, copied⟩ := List.mem_flatMap.mp mem
          obtain ⟨q, -, rfl⟩ := List.mem_map.mp copied
          have inside := (List.mem_zipIdx place).2.1
          simp only [Writes.draws, Option.toList_some, List.length_cons, List.length_nil,
            List.length_map, List.length_zipIdx]
          rw [Nat.zero_add, ← Nat.add_assoc]
          exact Nat.add_lt_add_left (by simpa using inside) _
  | clearToolResults a =>
    simp only [Request.body, clearToolResults] at body
    split at body
    · cases body
    · split at body
      · cases body
        exact ⟨none_, none_⟩
      · cases body
        refine ⟨none_, fun p mem => ?_⟩
        obtain ⟨q, eligible, rfl⟩ := List.mem_map.mp mem
        exact Nat.lt_add_right _ (parts q (List.mem_filter.mp eligible).1)
  | setArchived a =>
    simp only [Request.body, setArchived] at body
    split at body
    · cases body
    · cases body
      exact ⟨none_, none_⟩

/-- A call that comes to a phase with nothing written. -/
theorem Parted.become {s : World} (h : Parted s) {i : Nat} {c : Call} {phase : Phase}
    (unflushed : ∀ w reply seen, phase ≠ .flushed w reply seen) :
    Parted (s.become i c phase) := by
  refine ⟨h.parts, ?_⟩
  intro d mem w reply seen flushed
  rcases List.mem_or_eq_of_mem_set mem with old | rfl
  · exact h.flushed d old w reply seen flushed
  · exact absurd flushed (unflushed w reply seen)

theorem step_parted {s t : World} (step : Step s t) (identified : Identified s) (h : Parted s) :
    Parted t := by
  cases step with
  | call r =>
    refine ⟨h.parts, ?_⟩
    intro d mem w reply seen flushed
    rcases List.mem_append.mp mem with old | new
    · exact h.flushed d old w reply seen flushed
    · rw [List.mem_singleton.mp new] at flushed
      cases flushed
  | search i c here phase => exact h.become (search_unflushed _ _)
  | lock i c here phase found free => exact h.become (by simp)
  | missing i c here phase row select none_ => exact h.become (by simp)
  | flush i c here phase w reply body admits decided =>
    refine ⟨fun p mem => Nat.lt_add_right _ (h.parts p mem), ?_⟩
    intro d mem w' reply' seen flushed
    rcases List.mem_or_eq_of_mem_set mem with old | rfl
    · obtain ⟨added, replaced⟩ := h.flushed d old w' reply' seen flushed
      exact ⟨fun p mem => Nat.lt_add_right _ (added p mem),
        fun p mem => Nat.lt_add_right _ (replaced p mem)⟩
    · cases flushed
      exact body_parted identified.below h.parts body
  | reject i c here phase w reply body clash decided => exact h.become (by simp)
  | raise i c here phase e body => exact h.become (by simp)
  | commit i c here w reply seen phase =>
    obtain ⟨added, replaced⟩ := h.flushed c (List.mem_of_getElem? here) w reply seen phase
    refine ⟨?_, ?_⟩
    · intro p mem
      rcases List.mem_append.mp mem with old | new
      · obtain ⟨q, there, is⟩ := List.mem_map.mp old
        cases found : w.updatedParts.find? (·.samePart q) with
        | none =>
          rw [found, Option.getD_none] at is
          exact is ▸ h.parts q there
        | some update =>
          rw [found, Option.getD_some] at is
          exact is ▸ replaced update (List.mem_of_find?_eq_some found)
      · exact added p new
    · intro d mem w' reply' seen' flushed
      rcases List.mem_or_eq_of_mem_set mem with old | rfl
      · exact h.flushed d old w' reply' seen' flushed
      · cases flushed
  | abort i c here running => exact h.become (by simp)

theorem reachable_parted {s : World} (run : Run s) : Parted s := by
  induction run with
  | initial => constructor <;> simp
  | step run step ih => exact step_parted step (reachable_identified run) ih

/-- Every state that is reached with its links in place has threads to be forked. -/
theorem reachable_forkable {s : World} (run : Run s) (linked : s.store.Linked) {a : ForkArgs}
    {source : ThreadRow} (found : s.store.getThread a.tenantId a.sourceThreadId = some source) :
    Forkable a s.drawn s.store := by
  obtain ⟨mem, id_, tenant⟩ := getThread_mem found
  have identified := reachable_identified run
  have valid := reachable_valid run
  have drawn {t : Uuid} (there : t ∈ s.store.threadIds) : t < s.drawn := valid.drawn t there
  have owner : (a.tenantId, a.sourceThreadId) ∈ s.store.owners :=
    List.mem_map.mpr ⟨source, mem, Prod.ext tenant id_⟩
  refine ⟨reachable_numbered run _, (reachable_tenanted run).tenantMessages owner,
    identified.distinct _, ?_, fun t there => drawn (List.mem_map_of_mem there),
    fun m there => ⟨identified.below m there, drawn (valid.messages m there)⟩,
    (reachable_parted run).parts, fun e there => drawn (valid.events e there)⟩
  intro m here q there parent
  -- the row that the link names is this one
  obtain ⟨q', there', is, less⟩ := linked_iff.mp linked a.sourceThreadId m here q.id parent
  obtain rfl := List.inj_on_of_nodup_map (identified.distinct _) there' there is
  exact less

/-- An answer under the first message. -/
def answer : AppendArgs where
  tenantId := 7
  threadId := 0
  role := "assistant"
  content := "b"
  parentMessageId := some 1

/-- A question, and the answer under it. -/
def asked : World := ({} : World).after
  [.call (.createThread { tenantId := 7, conversationId := 9 }), .go 0, .go 0, .go 0, .go 0,
   .call (.appendMessage { tenantId := 7, threadId := 0, role := "user", content := "a" }),
   .go 1, .go 1, .go 1, .go 1, .call (.appendMessage answer), .go 2, .go 2, .go 2, .go 2]

def forkAt (atSeq : Int) : ForkArgs := { tenantId := 7, sourceThreadId := 0, atSeq := atSeq }

/-- It is forked with both, and not beyond them. -/
theorem forks_exactly_asked : (∃ source w reply,
    forkThread (forkAt 2) asked.drawn asked.store = .ok (w, reply) ∧
      Forks (forkAt 2) source asked.drawn asked.store (asked.store.apply w)) ∧
    ∃ length, forkThread (forkAt 3) asked.drawn asked.store =
      .error (.forkPointOutOfRange 3 length) := by
  have linked : asked.store.Linked := by decide +kernel
  have found : asked.store.getThread 7 0 =
      some { id := 0, tenantId := 7, conversationId := 9 } := by decide +kernel
  have two : (asked.store.messagesOf 0).length = 2 := by decide +kernel
  have sound (atSeq : Int) : Forkable (forkAt atSeq) asked.drawn asked.store :=
    reachable_forkable (run_after _) linked found
  obtain ⟨w, reply, ok, forks⟩ := (forks_exactly (sound 2) found).1 (by decide)
    (by rw [show (forkAt 2).sourceThreadId = 0 from rfl, two]; decide)
  refine ⟨⟨_, w, reply, ok, forks⟩, (forks_exactly (sound 3) found).2 ?_⟩
  rw [show (forkAt 3).sourceThreadId = 0 from rfl, two]
  decide

end AgentStudio.Threads
