import AgentStudio.Threads.Transactions

/-!
# The messages of a thread

Whatever the interleaving of the writers, the messages of every thread carry
1, 2, 3, … in the order they were committed, a committed row stays as it is,
and a client that pages through them by seq gets each once.
-/

namespace AgentStudio.Threads

/-! ## Whose thread it is -/

/-- The tenant and the id of every thread. -/
def Store.owners (db : Store) : List (Uuid × Uuid) := db.threads.map fun t => (t.tenantId, t.id)

def Call.busy (c : Call) : Bool := !c.phase.idle

/-- A thread has one tenant, and so have its messages and the calls on it. -/
structure Tenanted (s : World) : Prop where
  unique : ∀ x y t, (x, t) ∈ s.store.owners → (y, t) ∈ s.store.owners → x = y
  held : ∀ c ∈ s.calls, c.busy = true → ∀ row, c.request.row = some row → row ∈ s.store.owners
  messages : ∀ m ∈ s.store.messages, (m.tenantId, m.threadId) ∈ s.store.owners

theorem mem_owners_threadIds {db : Store} {x t : Uuid} (mem : (x, t) ∈ db.owners) :
    t ∈ db.threadIds := by
  obtain ⟨row, row_, eq⟩ := List.mem_map.mp mem
  cases eq
  exact List.mem_map_of_mem row_

/-- A transaction writes its tenant into the rows it adds and replaces. -/
structure Signed (r : Request) (w : Writes) : Prop where
  updated : ∀ row, w.updated = some row → r.row = some (row.tenantId, row.id)
  messages : ∀ m ∈ w.messages, r.row = some (m.tenantId, m.threadId) ∨
    w.created.map (fun t => (t.tenantId, t.id)) = some (m.tenantId, m.threadId)

theorem body_signed {r : Request} {newId : Uuid} {db : Store} {w : Writes} {reply : Reply}
    (body : r.body newId db = .ok (w, reply)) : Signed r w := by
  cases r with
  | createThread a =>
    cases body
    constructor <;> simp
  | appendMessage a =>
    simp only [Request.body, appendMessage] at body
    split at body
    · cases body
    · cases body
      constructor <;> simp [Request.row]
  | appendEvent a =>
    simp only [Request.body, appendEvent] at body
    split at body
    · cases body
    · cases body
      constructor <;> simp
  | setSummary a =>
    simp only [Request.body, setSummary] at body
    split at body
    · cases body
    · rename_i row found
      obtain ⟨-, id_, tenant_⟩ := getThread_mem found
      split at body
      · cases body
        constructor <;> simp [Request.row, id_, tenant_]
      · cases body
  | forkThread a =>
    simp only [Request.body, forkThread] at body
    split at body
    · cases body
    · split at body
      · cases body
      · split at body
        · cases body
        · cases body
          constructor <;> simp [ForkArgs.copy]
          intro m x k _ rfl
          exact .inr ⟨rfl, rfl⟩
  | clearToolResults a =>
    simp only [Request.body, clearToolResults] at body
    split at body
    · cases body
    · split at body
      · cases body
        constructor <;> simp
      · cases body
        constructor <;> simp
  | setArchived a =>
    simp only [Request.body, setArchived] at body
    split at body
    · cases body
    · rename_i row found
      obtain ⟨-, id_, tenant_⟩ := getThread_mem found
      cases body
      constructor <;> simp [Request.row, id_, tenant_]

theorem owners_apply {db : Store} {w : Writes}
    (same : ∀ row, w.updated = some row → ∀ t ∈ db.threads, t.id = row.id →
      t.tenantId = row.tenantId) :
    (db.apply w).owners = db.owners ++ w.created.toList.map fun t => (t.tenantId, t.id) := by
  simp only [Store.owners, Store.apply, List.map_append, List.map_map]
  congr 1
  refine List.map_congr_left fun t mem => ?_
  simp only [Function.comp_apply]
  cases eq : w.updated.filter (·.id == t.id) with
  | none => rfl
  | some row =>
    rw [Option.filter_eq_some_iff, beq_iff_eq] at eq
    rw [Option.getD_some, same row eq.1 t mem eq.2.symm, eq.2]

theorem Tenanted.become {s : World} (tenanted : Tenanted s) {i : Nat} {c : Call} {phase : Phase}
    (drawn : Uuid)
    (busy : phase.idle = false → ∀ row, c.request.row = some row → row ∈ s.store.owners) :
    Tenanted { s.become i c phase with drawn := drawn } := by
  refine ⟨tenanted.unique, ?_, tenanted.messages⟩
  intro d mem busy_ row select
  rcases List.mem_or_eq_of_mem_set mem with mem | rfl
  · exact tenanted.held d mem busy_ row select
  · refine busy ?_ row select
    simpa [Call.busy] using busy_

/-- A commit keeps the owner of every thread and adds that of the thread it made. -/
theorem Tenanted.owners {s : World} (valid : Valid s) (tenanted : Tenanted s) {c : Call}
    {w : Writes} {reply : Reply} {seen : Store} (mem : c ∈ s.calls)
    (phase : c.phase = .flushed w reply seen) :
    (s.store.apply w).owners =
      s.store.owners ++ w.created.toList.map fun t => (t.tenantId, t.id) := by
  obtain ⟨newId, -, body⟩ := (valid.seen c mem w reply seen phase).body
  have busy : c.busy = true := by rw [Call.busy, phase]; rfl
  refine owners_apply fun row updated t there same => ?_
  have old : (t.tenantId, row.id) ∈ s.store.owners :=
    same ▸ List.mem_map_of_mem (f := fun t : ThreadRow => (t.tenantId, t.id)) there
  have own := tenanted.held c mem busy _ ((body_signed body).updated row updated)
  exact tenanted.unique _ _ _ old own

theorem Tenanted.commit {s : World} (valid : Valid s) (tenanted : Tenanted s) {i : Nat} {c : Call}
    {w : Writes} {reply : Reply} {seen : Store} (here : s.calls[i]? = some c)
    (phase : c.phase = .flushed w reply seen) (commits : List Commit) :
    Tenanted { s.become i c (.returned (.ok reply)) with
      store := s.store.apply w, commits := commits } := by
  have mem := List.mem_of_getElem? here
  have busy : c.busy = true := by rw [Call.busy, phase]; rfl
  have own := tenanted.held c mem busy
  obtain ⟨newId, -, body⟩ := (valid.seen c mem w reply seen phase).body
  have signed := body_signed body
  have owners_ := tenanted.owners valid mem phase
  have made {x t : Uuid} (new : (x, t) ∈ w.created.toList.map fun t => (t.tenantId, t.id)) :
      t ∉ s.store.threadIds := by
    obtain ⟨row, created, eq⟩ := List.mem_map.mp new
    cases eq
    refine (valid.made c mem row.id ?_).2
    rw [Call.makes, phase]
    simp [Option.mem_toList.mp created]
  refine ⟨?_, ?_, ?_⟩
  · intro x y t memX memY
    simp only [owners_, List.mem_append] at memX memY
    rcases memX with oldX | newX
    · rcases memY with oldY | newY
      · exact tenanted.unique x y t oldX oldY
      · exact absurd (mem_owners_threadIds oldX) (made newY)
    · rcases memY with oldY | newY
      · exact absurd (mem_owners_threadIds oldY) (made newX)
      · cases created : w.created with
        | none => simp [created] at newX
        | some row =>
          simp only [created, Option.toList_some, List.map_cons, List.map_nil,
            List.mem_singleton, Prod.mk.injEq] at newX newY
          rw [newX.1, newY.1]
  · intro d mem' busy_ row select
    rw [owners_]
    rcases List.mem_or_eq_of_mem_set mem' with old | rfl
    · exact List.mem_append_left _ (tenanted.held d old busy_ row select)
    · cases busy_
  · intro m mem'
    rw [owners_]
    rcases List.mem_append.mp mem' with old | new
    · exact List.mem_append_left _ (tenanted.messages m old)
    · rcases signed.messages m new with locked | created
      · exact List.mem_append_left _ (own _ locked)
      · obtain ⟨row, created, eq⟩ := Option.map_eq_some_iff.mp created
        refine List.mem_append_right _ (List.mem_map.mpr ⟨row, ?_, eq⟩)
        simp [created]

theorem step_tenanted {s t : World} (h : Step s t) (valid : Valid s) (tenanted : Tenanted s) :
    Tenanted t := by
  have idle {i : Nat} {c : Call} {phase : Phase} (quiet : phase.idle = true) :
      Tenanted (s.become i c phase) :=
    tenanted.become s.drawn fun busy => by rw [quiet] at busy; cases busy
  cases h with
  | call r =>
    refine ⟨tenanted.unique, ?_, tenanted.messages⟩
    intro d mem busy row select
    rcases List.mem_append.mp mem with old | new
    · exact tenanted.held d old busy row select
    · rw [List.mem_singleton.mp new] at busy
      cases busy
  | search i c here phase => exact idle (search_idle _ _)
  | lock i c here phase found free =>
    refine tenanted.become s.drawn fun _ row select => ?_
    obtain ⟨thread, got⟩ := Option.isSome_iff_exists.mp (found row select)
    obtain ⟨there, id_, tenant_⟩ := getThread_mem got
    exact List.mem_map.mpr ⟨thread, there, by rw [id_, tenant_]⟩
  | missing i c here phase row select none_ => exact idle rfl
  | flush i c here phase w reply body admits decided =>
    refine tenanted.become _ fun _ row select => ?_
    refine tenanted.held c (List.mem_of_getElem? here) ?_ row select
    rw [Call.busy, phase]
    rfl
  | reject i c here phase w reply body clash decided => exact idle rfl
  | raise i c here phase e body => exact idle rfl
  | commit i c here w reply seen phase => exact tenanted.commit valid here phase _
  | abort i c here running => exact idle rfl

theorem reachable_tenanted {s : World} (h : Run s) : Tenanted s := by
  induction h with
  | initial => exact ⟨by simp [Store.owners], by simp, by simp⟩
  | step run step ih => exact step_tenanted step (reachable_valid run) ih

/-- Both reads of a thread by its tenant see all of its messages. -/
theorem Tenanted.tenantMessages {s : World} (tenanted : Tenanted s) {x t : Uuid}
    (owner : (x, t) ∈ s.store.owners) : s.store.tenantMessages x t = s.store.messagesOf t := by
  refine List.filter_congr fun m mem => ?_
  by_cases same : m.threadId = t
  · have := tenanted.unique _ _ _ (same ▸ tenanted.messages m mem) owner
    simp [same, this]
  · simp [same]

theorem later_owners {s t : World} (run : Run s) (later : Later s t) {owner : Uuid × Uuid}
    (mem : owner ∈ s.store.owners) : owner ∈ t.store.owners := by
  induction later with
  | refl => exact mem
  | tail later step ih =>
    have run := run.later later
    cases step with
    | call | search | lock | missing | flush | reject | raise | abort => exact ih
    | commit i c here w reply seen phase =>
      have owners_ := (reachable_tenanted run).owners (reachable_valid run)
        (List.mem_of_getElem? here) phase
      show owner ∈ (Store.apply _ w).owners
      rw [owners_]
      exact List.mem_append_left _ ih

/-! ## The seqs count -/

theorem tenantMessages_eq (db : Store) (x t : Uuid) :
    db.tenantMessages x t = (db.messagesOf t).filter (·.tenantId == x) := by
  rw [Store.tenantMessages, Store.messagesOf, List.filter_filter]
  exact List.filter_congr fun m _ => Bool.and_comm _ _

/-- The messages up to a seq are the first ones. -/
theorem messagesOf_upto {db : Store} {t : Uuid} (atSeq : Int)
    (numbered : Log.Numbered MessageRow.seq (db.messagesOf t)) :
    (db.messagesOf t).filter (fun m => (m.seq : Int) ≤ atSeq) =
      (db.messagesOf t).take atSeq.toNat := by
  rw [← numbered.filter_le]
  refine List.filter_congr fun m mem => ?_
  have positive := (numbered.num_le mem).1
  congr 1
  apply propext
  omega

/-- The messages a fork copies: those up to the fork point. -/
theorem sources_eq {a : ForkArgs} {db : Store}
    (numbered : Log.Numbered MessageRow.seq (db.messagesOf a.sourceThreadId))
    (tenant : db.tenantMessages a.tenantId a.sourceThreadId = db.messagesOf a.sourceThreadId) :
    a.sources db = (db.messagesOf a.sourceThreadId).take a.atSeq.toNat := by
  rw [ForkArgs.sources, tenant, messagesOf_upto a.atSeq numbered]
  exact (numbered.take _).sorted

theorem copies_numbered (a : ForkArgs) (newId : Uuid) (sources : List MessageRow)
    (numbered : Log.Numbered MessageRow.seq sources) :
    Log.Numbered MessageRow.seq (sources.zipIdx.map fun p => a.copy newId sources p.1 p.2) := by
  unfold Log.Numbered at numbered ⊢
  rw [List.length_map, List.length_zipIdx, ← numbered, List.map_map]
  calc sources.zipIdx.map (MessageRow.seq ∘ fun p => a.copy newId sources p.1 p.2)
      = (sources.zipIdx.map Prod.fst).map MessageRow.seq := by
        rw [List.map_map]
        rfl
    _ = sources.map MessageRow.seq := by rw [List.zipIdx_map_fst]

/-- A transaction carries the numbering of each thread it owns on. -/
theorem body_numbered {r : Request} {newId : Uuid} {db : Store} {w : Writes} {reply : Reply}
    (body : r.body newId db = .ok (w, reply)) (unused : newId ∉ db.threadIds)
    (empty : ∀ row, w.created = some row → db.messagesOf row.id = [])
    (numbered : ∀ t, r.thread = some t → Log.Numbered MessageRow.seq (db.messagesOf t))
    (tenant : ∀ row, r.row = some row → db.tenantMessages row.1 row.2 = db.messagesOf row.2)
    {t : Uuid} (owns : r.thread = some t ∨ w.created.map ThreadRow.id = some t) :
    Log.Numbered MessageRow.seq (db.messagesOf t ++ w.messagesOf t) := by
  -- what adds no message to the thread keeps it as it was
  have still (none_ : w.messagesOf t = []) :
      Log.Numbered MessageRow.seq (db.messagesOf t ++ w.messagesOf t) := by
    rw [none_, List.append_nil]
    rcases owns with thread | created
    · exact numbered t thread
    · obtain ⟨row, made, rfl⟩ := Option.map_eq_some_iff.mp created
      rw [empty row made]
      exact Log.numbered_nil
  cases r with
  | createThread a =>
    cases body
    exact still rfl
  | appendMessage a =>
    simp only [Request.body, appendMessage] at body
    split at body
    · cases body
    · cases body
      have here : a.threadId = t := by simpa [Request.thread, Request.row] using owns
      subst here
      have before := numbered a.threadId rfl
      have one (m : MessageRow) (in_ : m.threadId = a.threadId)
          (next : m.seq = (db.messagesOf a.threadId).length + 1) :
          Log.Numbered MessageRow.seq (db.messagesOf a.threadId ++
            [m].filter (·.threadId == a.threadId)) := by
        rw [List.filter_singleton, in_, beq_self_eq_true]
        exact before.snoc next
      refine one _ rfl ?_
      rw [Store.maxMessageSeq, before.top_eq]
  | appendEvent a =>
    simp only [Request.body, appendEvent] at body
    split at body
    · cases body
    · cases body
      exact still rfl
  | setSummary a =>
    simp only [Request.body, setSummary] at body
    split at body
    · cases body
    · split at body
      · cases body
        exact still rfl
      · cases body
  | forkThread a =>
    simp only [Request.body, forkThread] at body
    split at body
    · cases body
    · rename_i source found
      split at body
      · cases body
      · split at body
        · cases body
        · cases body
          have sources_ := sources_eq (numbered _ rfl) (tenant _ rfl)
          rcases owns with thread | created
          · -- the source gets no message
            have ne : newId ≠ t := by
              rintro rfl
              obtain ⟨there, id_, -⟩ := getThread_mem found
              rw [Request.thread, Request.row, Option.map_some, Option.some.injEq] at thread
              exact unused (List.mem_map.mpr ⟨source, there, id_.trans thread⟩)
            refine still ?_
            rw [Writes.messagesOf, List.filter_eq_nil_iff]
            intro m mem
            obtain ⟨p, -, rfl⟩ := List.mem_map.mp mem
            simpa [ForkArgs.copy] using ne
          · -- the fork gets copies that keep their seq
            have here : newId = t := by simpa using created
            subst here
            rw [empty _ rfl, List.nil_append]
            have copies := copies_numbered a newId (a.sources db)
              (sources_ ▸ (numbered _ rfl).take a.atSeq.toNat)
            rw [Writes.messagesOf, List.filter_eq_self.mpr]
            · exact copies
            · intro m mem
              obtain ⟨p, -, rfl⟩ := List.mem_map.mp mem
              exact beq_self_eq_true _
  | clearToolResults a =>
    simp only [Request.body, clearToolResults] at body
    split at body
    · cases body
    · split at body
      · cases body
        exact still rfl
      · cases body
        exact still rfl
  | setArchived a =>
    simp only [Request.body, setArchived] at body
    split at body
    · cases body
    · cases body
      exact still rfl

def MessagesNumbered (s : World) : Prop :=
  ∀ t, Log.Numbered MessageRow.seq (s.store.messagesOf t)

theorem step_numbered {s s' : World} (h : Step s s') (valid : Valid s) (tenanted : Tenanted s)
    (numbered : MessagesNumbered s) : MessagesNumbered s' := by
  cases h with
  | call | search | lock | missing | flush | reject | raise | abort => exact numbered
  | commit i c here w reply seen phase =>
    intro t
    have mem := List.mem_of_getElem? here
    obtain ⟨request, _⟩ := c
    obtain rfl : _ = Phase.flushed w reply seen := phase
    have seen_ := valid.seen _ mem w reply seen rfl
    show Log.Numbered MessageRow.seq ((s.store.apply w).messagesOf t)
    rw [messagesOf_apply]
    by_cases owns : Call.owns ⟨request, .flushed w reply seen⟩ t = true
    · obtain ⟨newId, unused, body⟩ := seen_.body
      have locked {t : Uuid} (thread : request.thread = some t) :
          s.store.messagesOf t = seen.messagesOf t :=
        seen_.messages t (owns_flushed.mpr (.inl thread))
      rw [seen_.messages t owns]
      refine body_numbered body unused ?_ ?_ ?_ (owns_flushed.mp owns)
      · intro row created
        have makes : Call.makes ⟨request, .flushed w reply seen⟩ row.id = true := by
          simp [Call.makes, created]
        rw [← seen_.messages row.id (owns_of_makes makes), Store.messagesOf,
          List.filter_eq_nil_iff]
        intro m there same
        rw [beq_iff_eq] at same
        exact (valid.made _ mem row.id makes).2 (same ▸ valid.messages m there)
      · intro t thread
        rw [← locked thread]
        exact numbered t
      · intro row select
        have thread : request.thread = some row.2 := by rw [Request.thread, select]; rfl
        have owner := tenanted.held _ mem rfl row select
        rw [tenantMessages_eq, ← locked thread, ← tenantMessages_eq,
          tenanted.tenantMessages owner]
    · rw [Bool.not_eq_true] at owns
      rw [(seen_.messages_other owns).1, List.append_nil]
      exact numbered t

theorem reachable_numbered {s : World} (h : Run s) : MessagesNumbered s := by
  induction h with
  | initial => exact fun _ => Log.numbered_nil
  | step run step ih => exact step_numbered step (reachable_valid run) (reachable_tenanted run) ih

/-! ## What readers see -/

theorem step_messages {s t : World} (h : Step s t) : s.store.messages <+: t.store.messages := by
  cases h with
  | call | search | lock | missing | flush | reject | raise | abort => exact List.prefix_refl _
  | commit i c here w reply seen phase => exact List.prefix_append _ _

theorem later_messages {s t : World} (later : Later s t) :
    s.store.messages <+: t.store.messages := by
  induction later with
  | refl => exact List.prefix_refl _
  | tail _ step ih => exact ih.trans (step_messages step)

/-- A client that asks for page after page, each from the seq of the last message it
got, and finds the next of the stores at each. -/
def pageThrough (tenantId threadId : Uuid) (limit : Nat) :
    Nat → List Store → List MessageRow × Bool
  | _, [] => ([], true)
  | afterSeq, db :: later =>
    let page := db.listMessages tenantId threadId afterSeq limit
    if page.hasMore then
      let rest := pageThrough tenantId threadId limit
        ((page.rows.getLast?.map MessageRow.seq).getD afterSeq) later
      (page.rows ++ rest.1, rest.2)
    else (page.rows, false)

theorem pageThrough_eq_walk (tenantId threadId : Uuid) (limit afterSeq : Nat) (dbs : List Store) :
    pageThrough tenantId threadId limit afterSeq dbs =
      Log.walk MessageRow.seq limit afterSeq (dbs.map (·.tenantMessages tenantId threadId)) := by
  induction dbs generalizing afterSeq with
  | nil => rfl
  | cons db later ih =>
    simp only [pageThrough, List.map_cons, Log.walk, ih]
    rfl

/-- In every reachable state the seqs of each thread's messages are 1, …, n in the
order of their commits; no later state changes a committed row; and paging by
`after_seq`, whatever the page size and whatever is committed between two pages,
ends with every message of the thread once and in that order. -/
theorem messages_in_commit_order {s : World} (run : Run s) :
    (∀ t, (s.store.messagesOf t).map MessageRow.seq =
      List.range' 1 (s.store.messagesOf t).length) ∧
    (∀ s', Later s s' → s.store.messages <+: s'.store.messages) ∧
    ∀ row ∈ s.store.threads, ∀ limit, 0 < limit →
      (∀ worlds : List World, (s :: worlds).Pairwise Later →
        (pageThrough row.tenantId row.id limit 0 ((s :: worlds).map World.store)).2 = false →
        ∃ w ∈ s :: worlds, (pageThrough row.tenantId row.id limit 0
          ((s :: worlds).map World.store)).1 = w.store.messagesOf row.id) ∧
      pageThrough row.tenantId row.id limit 0
        (List.replicate ((s.store.messagesOf row.id).length + 1) s.store) =
          (s.store.messagesOf row.id, false) := by
  refine ⟨reachable_numbered run, fun s' => later_messages, ?_⟩
  intro row mem limit some_
  have owner : (row.tenantId, row.id) ∈ s.store.owners :=
    List.mem_map_of_mem (f := fun t : ThreadRow => (t.tenantId, t.id)) mem
  have whole {w : World} (later : Later s w) :
      w.store.tenantMessages row.tenantId row.id = w.store.messagesOf row.id :=
    (reachable_tenanted (run.later later)).tenantMessages (later_owners run later owner)
  constructor
  · intro worlds chain ended
    have after : ∀ w ∈ s :: worlds, Later s w := by
      intro w there
      rcases List.mem_cons.mp there with rfl | there
      · exact .refl
      · exact (List.pairwise_cons.mp chain).1 w there
    have logs : ((s :: worlds).map World.store).map (·.tenantMessages row.tenantId row.id) =
        (s :: worlds).map fun w => w.store.messagesOf row.id := by
      rw [List.map_map]
      exact List.map_congr_left fun w there => whole (after w there)
    rw [pageThrough_eq_walk, logs] at ended ⊢
    have numbered : ∀ l ∈ (s :: worlds).map fun w => w.store.messagesOf row.id,
        Log.Numbered MessageRow.seq l := by
      intro l there
      obtain ⟨w, world, same⟩ := List.mem_map.mp there
      rw [← same]
      exact reachable_numbered (run.later (after w world)) row.id
    have grows : ((s :: worlds).map fun w => w.store.messagesOf row.id).Pairwise (· <+: ·) :=
      List.pairwise_map.mpr (chain.imp fun later => (later_messages later).filter _)
    obtain ⟨l, there, read⟩ := Log.walk_complete some_ numbered grows 0 ended
    obtain ⟨w, world, same⟩ := List.mem_map.mp there
    exact ⟨w, world, read.trans same.symm⟩
  · rw [pageThrough_eq_walk, List.map_replicate, whole .refl]
    have numbered := reachable_numbered run row.id
    have ended := Log.walk_ends some_ numbered 0 ((s.store.messagesOf row.id).length + 1)
      (by nlinarith) (Nat.succ_pos _)
    obtain ⟨l, there, read⟩ := Log.walk_complete some_ (fun l there =>
      List.eq_of_mem_replicate there ▸ numbered)
      (List.pairwise_replicate.mpr (.inr (List.prefix_refl _))) 0 ended
    rw [List.eq_of_mem_replicate there, List.drop_zero] at read
    exact Prod.ext read ended

/-- Two clients append to one thread at once, the thread is forked after its first
message, and the fork goes on. -/
def forked : List Move :=
  [.call (.createThread { tenantId := 7, conversationId := 9 }), .go 0, .go 0, .go 0, .go 0,
   .call (.appendMessage { tenantId := 7, threadId := 0, role := "user", content := "a" }),
   .call (.appendMessage { tenantId := 7, threadId := 0, role := "user", content := "b" }),
   .go 1, .go 2, .go 1, .go 2, .go 1, .go 2, .go 1, .go 2, .go 2, .go 2,
   .call (.forkThread { tenantId := 7, sourceThreadId := 0, atSeq := 1 }),
   .go 3, .go 3, .go 3, .go 3,
   .call (.appendMessage { tenantId := 7, threadId := 3, role := "user", content := "c" }),
   .go 4, .go 4, .go 4, .go 4]

theorem messages_in_commit_order_forked :
    let s := ({} : World).after forked
    (s.store.messagesOf 3).map (fun m => (m.seq, m.content)) = [(1, "a"), (2, "c")] ∧
    (∃ w ∈ [s, s], (pageThrough 7 3 1 0 ([s, s].map World.store)).1 = w.store.messagesOf 3) ∧
    pageThrough 7 3 1 0 (List.replicate 3 s.store) = (s.store.messagesOf 3, false) := by
  have order := messages_in_commit_order (run_after forked)
  obtain ⟨read, still⟩ := order.2.2 { id := 3, tenantId := 7, conversationId := 0 }
    (by decide +kernel) 1 Nat.one_pos
  exact ⟨by decide +kernel, read [({} : World).after forked] (by simp [Later, Relation.ReflTransGen.refl])
    (by decide +kernel), still⟩

end AgentStudio.Threads
