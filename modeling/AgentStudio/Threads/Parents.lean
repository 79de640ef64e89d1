import AgentStudio.Threads.Dedup

/-!
# Parent links

A message may name a parent, and the store takes the name as it comes. An append that names
a message of its thread keeps the links of the thread pointing back; a fork maps the links
that stay within what it copies and drops the others.
-/

namespace AgentStudio.Threads

/-- Every parent is in the same thread, at a smaller seq. -/
def Store.Linked (db : Store) : Prop :=
  ∀ m ∈ db.messages, ∀ p ∈ m.parentMessageId,
    ∃ q ∈ db.messages, q.id = p ∧ q.threadId = m.threadId ∧ q.seq < m.seq

instance (db : Store) : Decidable db.Linked :=
  inferInstanceAs (Decidable (∀ m ∈ db.messages, ∀ p ∈ m.parentMessageId,
    ∃ q ∈ db.messages, q.id = p ∧ q.threadId = m.threadId ∧ q.seq < m.seq))

/-- The same of the rows of one thread. -/
def LinkedIn (rows : List MessageRow) : Prop :=
  ∀ m ∈ rows, ∀ p, m.parentMessageId = some p → ∃ q ∈ rows, q.id = p ∧ q.seq < m.seq

theorem mem_messagesOf {db : Store} {t : Uuid} {m : MessageRow} :
    m ∈ db.messagesOf t ↔ m ∈ db.messages ∧ m.threadId = t := by
  rw [Store.messagesOf, List.mem_filter, beq_iff_eq]

theorem linked_iff {db : Store} : db.Linked ↔ ∀ t, LinkedIn (db.messagesOf t) := by
  constructor
  · intro linked t m mem p parent
    obtain ⟨here, thread⟩ := mem_messagesOf.mp mem
    obtain ⟨q, there, id_, same, less⟩ := linked m here p parent
    exact ⟨q, mem_messagesOf.mpr ⟨there, same.trans thread⟩, id_, less⟩
  · intro linked m mem p parent
    obtain ⟨q, there, id_, less⟩ :=
      linked m.threadId m (mem_messagesOf.mpr ⟨mem, rfl⟩) p parent
    obtain ⟨there, same⟩ := mem_messagesOf.mp there
    exact ⟨q, there, id_, same, less⟩

theorem LinkedIn.snoc {rows : List MessageRow} (linked : LinkedIn rows) {m : MessageRow}
    (parent : ∀ p, m.parentMessageId = some p → ∃ q ∈ rows, q.id = p ∧ q.seq < m.seq) :
    LinkedIn (rows ++ [m]) := by
  intro n mem p named
  rcases List.mem_append.mp mem with old | new
  · obtain ⟨q, there, rest⟩ := linked n old p named
    exact ⟨q, List.mem_append_left _ there, rest⟩
  · obtain rfl := List.mem_singleton.mp new
    obtain ⟨q, there, rest⟩ := parent p named
    exact ⟨q, List.mem_append_left _ there, rest⟩

/-! ## Identifiers -/

/-- Only appends and forks write messages. -/
theorem body_messages {r : Request} {newId : Uuid} {db : Store} {w : Writes} {reply : Reply}
    (body : r.body newId db = .ok (w, reply)) :
    (∃ a m, r = .appendMessage a ∧ w.messages = [m] ∧ m.id = newId ∧
      m.parentMessageId = a.parentMessageId ∧ m.threadId = a.threadId ∧
      m.seq = db.maxMessageSeq a.threadId + 1 ∧ reply = .message m false) ∨
    (∃ a row, r = .forkThread a ∧ w.created = some row ∧ row.id = newId ∧
      w.messages = (a.sources db).zipIdx.map fun p => a.copy newId (a.sources db) p.1 p.2) ∨
    w.messages = [] := by
  cases r with
  | createThread a =>
    cases body
    exact .inr (.inr rfl)
  | appendMessage a =>
    simp only [Request.body, appendMessage] at body
    split at body
    · cases body
    · cases body
      exact .inl ⟨a, _, rfl, rfl, rfl, rfl, rfl, rfl, rfl⟩
  | appendEvent a =>
    simp only [Request.body, appendEvent] at body
    split at body
    · cases body
    · cases body
      exact .inr (.inr rfl)
  | setSummary a =>
    simp only [Request.body, setSummary] at body
    split at body
    · cases body
    · split at body
      · cases body
        exact .inr (.inr rfl)
      · cases body
  | forkThread a =>
    simp only [Request.body, forkThread] at body
    split at body
    · cases body
    · split at body
      · cases body
      · split at body
        · cases body
        · cases body
          exact .inr (.inl ⟨a, _, rfl, rfl, rfl, rfl⟩)
  | clearToolResults a =>
    simp only [Request.body, clearToolResults] at body
    split at body
    · cases body
    · split at body
      · cases body
        exact .inr (.inr rfl)
      · cases body
        exact .inr (.inr rfl)
  | setArchived a =>
    simp only [Request.body, setArchived] at body
    split at body
    · cases body
    · cases body
      exact .inr (.inr rfl)

theorem copies_ids (a : ForkArgs) (newId : Uuid) (sources : List MessageRow) :
    (sources.zipIdx.map fun p => a.copy newId sources p.1 p.2).map MessageRow.id =
      (List.range sources.length).map fun k => newId + 1 + k := by
  rw [List.map_map, List.range_eq_range', ← List.zipIdx_map_snd, List.map_map]
  rfl

/-- The identifiers of what a transaction adds were drawn for it, each for one row. -/
theorem body_drawn {r : Request} {newId : Uuid} {db : Store} {w : Writes} {reply : Reply}
    (body : r.body newId db = .ok (w, reply)) :
    (∀ m ∈ w.messages, newId ≤ m.id ∧ m.id < newId + w.draws) ∧
      (w.messages.map MessageRow.id).Nodup := by
  rcases body_messages body with ⟨a, m, -, only, id_, -⟩ | ⟨a, row, -, created, -, copies⟩ | none_
  · rw [Writes.draws, only]
    constructor
    · intro n mem
      rw [List.mem_singleton.mp mem, id_, List.length_singleton]
      exact ⟨Nat.le_refl _, Nat.lt_add_of_pos_right (Nat.succ_pos _)⟩
    · exact List.nodup_singleton _
  · have ids := copies_ids a newId (a.sources db)
    rw [← copies] at ids
    constructor
    · intro m mem
      have named : m.id ∈ w.messages.map MessageRow.id := List.mem_map_of_mem mem
      rw [ids, List.mem_map] at named
      obtain ⟨k, below, is⟩ := named
      have length : w.messages.length = (a.sources db).length := by simp [copies]
      rw [Writes.draws, created, length, ← is]
      have less := List.mem_range.mp below
      constructor
      · exact Nat.le_trans (Nat.le_add_right _ 1) (Nat.le_add_right _ _)
      · rw [Nat.add_assoc]
        exact Nat.add_lt_add_left (Nat.add_lt_add_left less 1) _
    · rw [ids]
      exact List.Nodup.map (fun _ _ same => Nat.add_left_cancel same) List.nodup_range
  · rw [none_]
    exact ⟨fun m mem => (by cases mem), List.nodup_nil⟩

/-- Message ids are drawn before they are used, and no thread has one twice. -/
structure Identified (s : World) : Prop where
  below : ∀ m ∈ s.store.messages, m.id < s.drawn
  flushed : ∀ c ∈ s.calls, ∀ w reply seen, c.phase = .flushed w reply seen →
    (∀ m ∈ w.messages, m.id < s.drawn ∧ ∀ n ∈ seen.messages, n.id < m.id) ∧
      (w.messages.map MessageRow.id).Nodup
  distinct : ∀ t, ((s.store.messagesOf t).map MessageRow.id).Nodup

/-- A call that comes to a phase other than flushed. -/
theorem Identified.become {s : World} (h : Identified s) {i : Nat} {c : Call} {phase : Phase}
    (unflushed : ∀ w reply seen, phase ≠ .flushed w reply seen) :
    Identified (s.become i c phase) := by
  refine ⟨h.below, ?_, h.distinct⟩
  intro d mem w reply seen flushed
  rcases List.mem_or_eq_of_mem_set mem with old | rfl
  · exact h.flushed d old w reply seen flushed
  · exact absurd flushed (unflushed w reply seen)

theorem search_unflushed (r : Request) (db : Store) (w : Writes) (reply : Reply) (seen : Store) :
    search r db ≠ .flushed w reply seen := by
  unfold search
  split
  · split
    · simp
    · simp
  · simp

theorem step_identified {s t : World} (step : Step s t) (valid : Valid s) (h : Identified s) :
    Identified t := by
  cases step with
  | call r =>
    refine ⟨h.below, ?_, h.distinct⟩
    intro d mem w reply seen flushed
    rcases List.mem_append.mp mem with old | new
    · exact h.flushed d old w reply seen flushed
    · rw [List.mem_singleton.mp new] at flushed
      cases flushed
  | search i c here phase => exact h.become (search_unflushed _ _)
  | lock i c here phase found free => exact h.become (by simp)
  | missing i c here phase row select none_ => exact h.become (by simp)
  | flush i c here phase w reply body admits decided =>
    obtain ⟨drawn, nodup⟩ := body_drawn body
    refine ⟨?_, ?_, h.distinct⟩
    · intro m mem
      exact Nat.lt_add_right _ (h.below m mem)
    · intro d mem w' reply' seen flushed
      rcases List.mem_or_eq_of_mem_set mem with old | rfl
      · obtain ⟨below, nodup'⟩ := h.flushed d old w' reply' seen flushed
        exact ⟨fun m mem => ⟨Nat.lt_add_right _ (below m mem).1, (below m mem).2⟩, nodup'⟩
      · cases flushed
        refine ⟨fun m mem => ⟨(drawn m mem).2, fun n mem' => ?_⟩, nodup⟩
        exact Nat.lt_of_lt_of_le (h.below n mem') (drawn m mem).1
  | reject i c here phase w reply body clash decided => exact h.become (by simp)
  | raise i c here phase e body => exact h.become (by simp)
  | commit i c here w reply seen phase =>
    have mem := List.mem_of_getElem? here
    obtain ⟨new, nodup⟩ := h.flushed c mem w reply seen phase
    obtain ⟨request, _⟩ := c
    obtain rfl : _ = Phase.flushed w reply seen := phase
    have seen_ := valid.seen _ mem w reply seen rfl
    refine ⟨?_, ?_, ?_⟩
    · intro m mem'
      rcases List.mem_append.mp mem' with old | added
      · exact h.below m old
      · exact (new m added).1
    · intro d mem' w' reply' seen' flushed
      rcases List.mem_or_eq_of_mem_set mem' with old | rfl
      · exact h.flushed d old w' reply' seen' flushed
      · cases flushed
    · intro t
      show ((Store.messagesOf (s.store.apply w) t).map MessageRow.id).Nodup
      rw [messagesOf_apply, List.map_append]
      by_cases owns : Call.owns ⟨request, .flushed w reply seen⟩ t = true
      · refine List.Nodup.append (h.distinct t)
          (nodup.sublist (List.filter_sublist.map MessageRow.id)) ?_
        intro id_ old added
        obtain ⟨n, memN, rfl⟩ := List.mem_map.mp old
        obtain ⟨m, memM, same⟩ := List.mem_map.mp added
        rw [seen_.messages t owns] at memN
        have less := (new m (List.mem_filter.mp memM).1).2 n (mem_messagesOf.mp memN).1
        exact absurd same (Nat.ne_of_gt less)
      · rw [Bool.not_eq_true] at owns
        rw [(seen_.messages_other owns).1, List.map_nil, List.append_nil]
        exact h.distinct t
  | abort i c here running => exact h.become (by simp)

theorem reachable_identified {s : World} (run : Run s) : Identified s := by
  induction run with
  | initial => constructor <;> simp [Store.messagesOf]
  | step run step ih => exact step_identified step (reachable_valid run) ih

/-! ## Forks -/

theorem idMap_lookup {newId p n : Uuid} {sources : List MessageRow}
    (found : (idMap newId sources).lookup p = some n) :
    ∃ (j : Nat) (q : MessageRow), sources[j]? = some q ∧ q.id = p ∧ n = newId + 1 + j := by
  have entry : (p, n) ∈ idMap newId sources := by
    obtain ⟨before, after, split, -⟩ := List.lookup_eq_some_iff.mp found
    rw [split]
    exact List.mem_append_right _ List.mem_cons_self
  obtain ⟨⟨q, j⟩, mem, same⟩ := List.mem_map.mp entry
  obtain ⟨id_, new⟩ := Prod.mk.inj same
  exact ⟨j, q, List.mk_mem_zipIdx_iff_getElem?.mp mem, id_, new.symm⟩

/-- The copies link to copies: a link of the source that leaves them is dropped. -/
theorem copies_linked {a : ForkArgs} {newId : Uuid} {db : Store}
    (linked : LinkedIn (db.messagesOf a.sourceThreadId))
    (distinct : ((db.messagesOf a.sourceThreadId).map MessageRow.id).Nodup) :
    LinkedIn ((a.sources db).zipIdx.map fun p => a.copy newId (a.sources db) p.1 p.2) := by
  have inThread {m : MessageRow} (mem : m ∈ a.sources db) : m ∈ db.messagesOf a.sourceThreadId := by
    rw [ForkArgs.sources, List.mem_insertionSort, List.mem_filter] at mem
    rw [Store.tenantMessages, List.mem_filter, Bool.and_eq_true, beq_iff_eq] at mem
    exact mem_messagesOf.mpr ⟨mem.1.1, mem.1.2.1⟩
  intro copy mem n named
  obtain ⟨⟨m, k⟩, memK, rfl⟩ := List.mem_map.mp mem
  have atK := List.mk_mem_zipIdx_iff_getElem?.mp memK
  obtain ⟨p, parent, found⟩ := Option.bind_eq_some_iff.mp named
  obtain ⟨j, q, atJ, id_, rfl⟩ := idMap_lookup found
  rw [List.getElem?_take] at atJ
  split at atJ
  · refine ⟨a.copy newId (a.sources db) q j,
      List.mem_map.mpr ⟨(q, j), List.mk_mem_zipIdx_iff_getElem?.mpr atJ, rfl⟩, rfl, ?_⟩
    -- the parent that the source has is the row the map has found
    obtain ⟨q', there, id', less⟩ := linked m (inThread (List.mem_of_getElem? atK)) p parent
    have same : q' = q := List.inj_on_of_nodup_map distinct there
      (inThread (List.mem_of_getElem? atJ)) (id'.trans id_.symm)
    exact same ▸ less
  · cases atJ

/-! ## Appends -/

/-- The append names no parent, or a message of its thread. -/
def AppendArgs.Placed (a : AppendArgs) (db : Store) : Prop :=
  ∀ p, a.parentMessageId = some p → ∃ q ∈ db.messages, q.id = p ∧ q.threadId = a.threadId

/-- The append has been made before: its lookup will answer it. -/
def AppendArgs.Answered (a : AppendArgs) (db : Store) : Prop :=
  (a.key.bind (db.findRequest a.tenantId)).isSome = true

theorem AppendArgs.Placed.later {a : AppendArgs} {db db' : Store}
    (grows : db.messages <+: db'.messages) (placed : a.Placed db) : a.Placed db' := by
  intro p named
  obtain ⟨q, there, rest⟩ := placed p named
  exact ⟨q, grows.subset there, rest⟩

theorem AppendArgs.Answered.later {a : AppendArgs} {db db' : Store}
    (grows : db.messages <+: db'.messages) (answered : a.Answered db) : a.Answered db' := by
  obtain ⟨rest, more⟩ := grows
  unfold AppendArgs.Answered at answered ⊢
  cases named : a.key with
  | none => simp [named] at answered
  | some key =>
    rw [named, Option.bind_some] at answered
    rw [Option.bind_some, Store.findRequest, ← more, List.find?_append, Option.isSome_or]
    exact Bool.or_eq_true_iff.mpr (.inl answered)

/-- The links hold, every append under way is placed, and an append without a request id
has returned a row of its thread. -/
structure Threaded (s : World) : Prop where
  linked : s.store.Linked
  placed : ∀ c ∈ s.calls, ∀ a, c.request = .appendMessage a →
    (∀ result, c.phase ≠ .returned result) →
      a.Placed s.store ∨ (c.phase = .called ∧ a.Answered s.store)
  stored : ∀ c ∈ s.calls, ∀ a row deduped, c.request = .appendMessage a → a.key = none →
    c.phase = .returned (.ok (.message row deduped)) →
      row ∈ s.store.messages ∧ row.threadId = a.threadId

/-- A call changes its phase, and no row changes. -/
theorem Threaded.become {s : World} (h : Threaded s) {i : Nat} {c : Call} {phase : Phase}
    (drawn : Uuid)
    (placed : ∀ a, c.request = .appendMessage a → (∀ result, phase ≠ .returned result) →
      a.Placed s.store ∨ (phase = .called ∧ a.Answered s.store))
    (stored : ∀ a row deduped, c.request = .appendMessage a → a.key = none →
      phase ≠ .returned (.ok (.message row deduped))) :
    Threaded { s.become i c phase with drawn := drawn } := by
  refine ⟨h.linked, ?_, ?_⟩
  · intro d mem a append open_
    rcases List.mem_or_eq_of_mem_set mem with old | rfl
    · exact h.placed d old a append open_
    · exact placed a append open_
  · intro d mem a row deduped append keyless returned
    rcases List.mem_or_eq_of_mem_set mem with old | rfl
    · exact h.stored d old a row deduped append keyless returned
    · exact absurd returned (stored a row deduped append keyless)

/-- The phase a lookup leads to: placed appends go on, the others are answered. -/
theorem Threaded.search {s : World} (h : Threaded s) {i : Nat} {c : Call}
    (here : s.calls[i]? = some c) (phase : c.phase = .called) :
    Threaded (s.become i c (search c.request s.store)) := by
  have mem := List.mem_of_getElem? here
  refine h.become s.drawn ?_ ?_
  · intro a append open_
    rcases h.placed c mem a append (by simp [phase]) with placed | ⟨-, answered⟩
    · exact .inl placed
    · obtain ⟨m, found⟩ := Option.isSome_iff_exists.mp answered
      rw [append, Threads.search, found] at open_
      exact absurd rfl (open_ _)
  · intro a row deduped append keyless returned
    rw [append, Threads.search, keyless] at returned
    cases returned

/-- A commit keeps the links, if the append it is of was placed. -/
theorem Threaded.commit {s : World} (valid : Valid s) (identified : Identified s)
    (h : Threaded s) {i : Nat} {c : Call} {w : Writes} {reply : Reply} {seen : Store}
    (here : s.calls[i]? = some c) (phase : c.phase = .flushed w reply seen)
    (commits : List Commit) :
    Threaded { s.become i c (.returned (.ok reply)) with
      store := s.store.apply w, commits := commits } := by
  have mem := List.mem_of_getElem? here
  obtain ⟨request, _⟩ := c
  obtain rfl : _ = Phase.flushed w reply seen := phase
  have seen_ := valid.seen _ mem w reply seen rfl
  obtain ⟨newId, unused, body⟩ := seen_.body
  have grows : s.store.messages <+: (s.store.apply w).messages := List.prefix_append _ _
  have rows := linked_iff.mp h.linked
  refine ⟨?_, ?_, ?_⟩
  · refine linked_iff.mpr fun t => ?_
    show LinkedIn ((s.store.apply w).messagesOf t)
    rw [messagesOf_apply]
    by_cases owns : Call.owns ⟨request, .flushed w reply seen⟩ t = true
    · rcases body_messages body with
        ⟨a, m, rfl, only, -, parent, thread, seq, -⟩ | ⟨a, row, rfl, created, id_, copies⟩ | none_
      · by_cases same : m.threadId = t
        · rw [Writes.messagesOf, only, List.filter_singleton, same, beq_self_eq_true]
          refine (rows t).snoc fun p named => ?_
          rcases h.placed _ mem a rfl (by simp) with placed | ⟨called, -⟩
          · obtain ⟨q, there, id_, inThread⟩ := placed p (parent.symm.trans named)
            have there : q ∈ s.store.messagesOf t :=
              mem_messagesOf.mpr ⟨there, inThread.trans (thread.symm.trans same)⟩
            refine ⟨q, there, id_, ?_⟩
            have bound := Log.le_top MessageRow.seq (seen_.messages t owns ▸ there)
            rw [seq, Store.maxMessageSeq, ← thread, same]
            omega
          · cases called
        · rw [Writes.messagesOf, only, List.filter_singleton]
          rw [← beq_iff_eq, Bool.not_eq_true] at same
          rw [same]
          exact (List.append_nil (s.store.messagesOf t)).symm ▸ rows t
      · by_cases same : newId = t
        · subst same
          have none_ : s.store.messagesOf newId = [] := by
            rw [List.eq_nil_iff_forall_not_mem]
            intro m there
            obtain ⟨there, thread⟩ := mem_messagesOf.mp there
            have makes : Call.makes ⟨.forkThread a, .flushed w reply seen⟩ newId = true := by
              simp [Call.makes, created, id_]
            exact (valid.made _ mem newId makes).2 (thread ▸ valid.messages m there)
          have all : w.messagesOf newId = w.messages := by
            rw [Writes.messagesOf, List.filter_eq_self, copies]
            intro m there
            obtain ⟨p, -, rfl⟩ := List.mem_map.mp there
            simp [ForkArgs.copy]
          have owned : Call.owns ⟨.forkThread a, .flushed w reply seen⟩ a.sourceThreadId = true :=
            owns_flushed.mpr (.inl rfl)
          rw [none_, List.nil_append, all, copies]
          exact copies_linked (seen_.messages _ owned ▸ rows _)
            (seen_.messages _ owned ▸ identified.distinct _)
        · have none_ : w.messagesOf t = [] := by
            rw [Writes.messagesOf, List.filter_eq_nil_iff, copies]
            intro m there
            obtain ⟨p, -, rfl⟩ := List.mem_map.mp there
            simpa [ForkArgs.copy] using same
          rw [none_, List.append_nil]
          exact rows t
      · rw [Writes.messagesOf, none_, List.filter_nil, List.append_nil]
        exact rows t
    · rw [Bool.not_eq_true] at owns
      rw [(seen_.messages_other owns).1, List.append_nil]
      exact rows t
  · intro d mem' a append open_
    rcases List.mem_or_eq_of_mem_set mem' with old | rfl
    · rcases h.placed d old a append open_ with placed | ⟨called, answered⟩
      · exact .inl (placed.later grows)
      · exact .inr ⟨called, answered.later grows⟩
    · exact absurd rfl (open_ _)
  · intro d mem' a row deduped append keyless returned
    rcases List.mem_or_eq_of_mem_set mem' with old | rfl
    · obtain ⟨there, thread⟩ := h.stored d old a row deduped append keyless returned
      exact ⟨grows.subset there, thread⟩
    · obtain rfl : request = .appendMessage a := append
      obtain ⟨m, only, -, -, thread, reply_, -⟩ := append_flushes body
      obtain rfl : reply = .message row deduped := by
        simpa using returned
      obtain ⟨rfl, -⟩ := Reply.message.inj reply_
      refine ⟨?_, thread⟩
      show row ∈ s.store.messages ++ w.messages
      rw [only]
      exact List.mem_append_right _ (List.mem_singleton_self _)

/-- One step keeps it all, if an append that is called is placed or answered. -/
theorem step_threaded {s t : World} (step : Step s t) (run : Run s) (h : Threaded s)
    (issued : ∀ a, t = { s with calls := s.calls ++ [{ request := .appendMessage a }] } →
      a.Placed s.store ∨ a.Answered s.store) : Threaded t := by
  have open_ {c : Call} (mem : c ∈ s.calls) (running : ∀ result, c.phase ≠ .returned result)
      (searched : c.phase ≠ .called) (a : AppendArgs) (append : c.request = .appendMessage a) :
      a.Placed s.store := by
    rcases h.placed c mem a append running with placed | ⟨called, -⟩
    · exact placed
    · exact absurd called searched
  cases step with
  | call r =>
    refine ⟨h.linked, ?_, ?_⟩
    · intro d mem a append running
      rcases List.mem_append.mp mem with old | new
      · exact h.placed d old a append running
      · obtain rfl := List.mem_singleton.mp new
        obtain rfl : r = .appendMessage a := append
        rcases issued a rfl with placed | answered
        · exact .inl placed
        · exact .inr ⟨rfl, answered⟩
    · intro d mem a row deduped append keyless returned
      rcases List.mem_append.mp mem with old | new
      · exact h.stored d old a row deduped append keyless returned
      · rw [List.mem_singleton.mp new] at returned
        cases returned
  | search i c here phase => exact h.search here phase
  | lock i c here phase found free =>
    refine h.become s.drawn (fun a append _ => .inl ?_) (by simp)
    exact open_ (List.mem_of_getElem? here) (by simp [phase]) (by simp [phase]) a append
  | missing i c here phase row select none_ =>
    exact h.become s.drawn (fun _ _ running => absurd rfl (running _)) (by simp)
  | flush i c here phase w reply body admits decided =>
    refine h.become _ (fun a append _ => .inl ?_) (by simp)
    exact open_ (List.mem_of_getElem? here) (by simp [phase]) (by simp [phase]) a append
  | reject i c here phase w reply body clash decided =>
    exact h.become s.drawn (fun _ _ running => absurd rfl (running _)) (by simp)
  | raise i c here phase e body =>
    exact h.become s.drawn (fun _ _ running => absurd rfl (running _)) (by simp)
  | commit i c here w reply seen phase =>
    exact h.commit (reachable_valid run) (reachable_identified run) here phase _
  | abort i c here running =>
    exact h.become s.drawn (fun _ _ running => absurd rfl (running _)) (by simp)

end AgentStudio.Threads
