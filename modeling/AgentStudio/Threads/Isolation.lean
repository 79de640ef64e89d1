import AgentStudio.Threads.Dedup

/-!
# Appends of other tenants

The lookup at the head of `append_message` is by tenant and request id, the index that its
insert meets is on the request id alone, and neither knows the thread. So the request ids of
another tenant decide whether an append succeeds, and a request id that was used on one
thread answers an append to another.
-/

namespace AgentStudio.Threads

/-- What an append comes to: what it looked up in one store and wrote to a later one, in
which no insert with its request id is undecided. -/
def appendOutcome (a : AppendArgs) (newId : Uuid) (looked wrote : Store) :
    Except StoreError (Writes × Reply) :=
  match a.key.bind (looked.findRequest a.tenantId) with
  | some m => .ok ({}, .message m true)
  | none =>
    match appendMessage a newId wrote with
    | .error e => .error e
    | .ok (w, reply) => if wrote.admits w then .ok (w, reply) else .error .integrity

namespace World

end World

/-- Two stores hold the same rows of a tenant, and of its threads. -/
structure SameFor (x : Uuid) (db db' : Store) : Prop where
  threads : db.threads.filter (·.tenantId == x) = db'.threads.filter (·.tenantId == x)
  messages : db.messages.filter (·.tenantId == x) = db'.messages.filter (·.tenantId == x)
  messagesOf : ∀ row ∈ db.threads, row.tenantId = x → db.messagesOf row.id = db'.messagesOf row.id
  eventsOf : ∀ row ∈ db.threads, row.tenantId = x → db.eventsOf row.id = db'.eventsOf row.id

/-- Another tenant has used the request id. -/
def Store.takenBeside (db : Store) (x : Uuid) (key : String) : Prop :=
  ∃ m ∈ db.messages, m.tenantId ≠ x ∧ m.requestId = some key

/-- The tenant has used the request id. -/
def Store.ownRequest (db : Store) (x : Uuid) (key : String) : Prop :=
  ∃ m ∈ db.messages, m.tenantId = x ∧ m.requestId = some key

instance (db : Store) (x : Uuid) (key : String) : Decidable (db.takenBeside x key) :=
  inferInstanceAs (Decidable (∃ m ∈ db.messages, m.tenantId ≠ x ∧ m.requestId = some key))

instance (db : Store) (x : Uuid) (key : String) : Decidable (db.ownRequest x key) :=
  inferInstanceAs (Decidable (∃ m ∈ db.messages, m.tenantId = x ∧ m.requestId = some key))

/-! ## What decides an append -/

theorem withRequestId_eq_nil {db : Store} {x : Uuid} {key : String} :
    db.withRequestId key = [] ↔ ¬ db.ownRequest x key ∧ ¬ db.takenBeside x key := by
  rw [Store.withRequestId, List.filter_eq_nil_iff, Store.ownRequest, Store.takenBeside]
  constructor
  · intro none_
    constructor
    · rintro ⟨m, mem, -, is⟩
      exact none_ m mem (by simp [is])
    · rintro ⟨m, mem, -, is⟩
      exact none_ m mem (by simp [is])
  · rintro ⟨own, beside⟩ m mem is
    have is : m.requestId = some key := by simpa using is
    by_cases tenant : m.tenantId = x
    · exact own ⟨m, mem, tenant, is⟩
    · exact beside ⟨m, mem, tenant, is⟩

/-- The one thing that stops an append on a thread that is there: a row with its id. -/
theorem admits_append_iff {a : AppendArgs} {newId : Uuid} {db : Store} {w : Writes} {reply : Reply}
    (body : appendMessage a newId db = .ok (w, reply)) :
    db.admits w = true ↔ ∀ key, a.requestId = some key → db.withRequestId key = [] := by
  constructor
  · intro admits key request
    obtain ⟨m, only, request_, -⟩ := append_flushes body
    rw [Store.admits, Bool.and_eq_true] at admits
    rw [Store.withRequestId, List.filter_eq_nil_iff]
    intro n mem is
    have both := admits.1
    rw [only, List.all_eq_true] at both
    have apart := List.all_eq_true.mp (both m List.mem_cons_self) n mem
    have named : n.requestId = some key := by simpa using is
    rw [Bool.and_eq_true, request_, request, named] at apart
    simp at apart
  · exact append_admitted body

theorem appendMessage_same {a : AppendArgs} (newId : Uuid) {db db' : Store}
    (same : SameFor a.tenantId db db') :
    appendMessage a newId db = appendMessage a newId db' := by
  have thread : db.getThread a.tenantId a.threadId = db'.getThread a.tenantId a.threadId := by
    have split (db : Store) : db.getThread a.tenantId a.threadId =
        (db.threads.filter (·.tenantId == a.tenantId)).find? (·.id == a.threadId) := by
      rw [List.find?_filter, Store.getThread]
      congr 1
      funext row
      rw [Bool.eq_iff_iff, Bool.and_eq_true, decide_eq_true_eq, and_comm]
    rw [split, split, same.threads]
  unfold appendMessage
  rw [← thread]
  cases found : db.getThread a.tenantId a.threadId with
  | none => rfl
  | some row =>
    obtain ⟨mem, id_, tenant⟩ := getThread_mem found
    have messages := same.messagesOf row mem tenant
    have events := same.eventsOf row mem tenant
    rw [id_] at messages events
    simp only [Store.maxMessageSeq, Store.maxEventSeq, messages, events]

theorem findRequest_same {x : Uuid} {db db' : Store} (same : SameFor x db db') (key : String) :
    db.findRequest x key = db'.findRequest x key := by
  have split (db : Store) : db.findRequest x key =
      (db.messages.filter (·.tenantId == x)).find? (·.requestId == some key) := by
    rw [List.find?_filter, Store.findRequest]
    congr 1
    funext m
    rw [Bool.eq_iff_iff, Bool.and_eq_true, decide_eq_true_eq]
  rw [split, split, same.messages]

theorem ownRequest_same {x : Uuid} {db db' : Store} (same : SameFor x db db') (key : String) :
    db.ownRequest x key ↔ db'.ownRequest x key := by
  have split (db : Store) : db.ownRequest x key ↔
      ∃ m ∈ db.messages.filter (·.tenantId == x), m.requestId = some key := by
    simp [Store.ownRequest, and_assoc]
  rw [split, split, same.messages]

/-- An append that finds no row, on a thread of its tenant. -/
theorem outcome_missed {a : AppendArgs} (newId : Uuid) {looked wrote : Store}
    (missed : a.key.bind (looked.findRequest a.tenantId) = none) {row : ThreadRow}
    (own : wrote.getThread a.tenantId a.threadId = some row) :
    ∃ w m, appendMessage a newId wrote = .ok (w, .message m false) ∧ m.threadId = a.threadId ∧
      ((appendOutcome a newId looked wrote = .ok (w, .message m false) ∧
          ∀ key, a.requestId = some key → wrote.withRequestId key = []) ∨
        (appendOutcome a newId looked wrote = .error .integrity ∧
          ∃ key, a.requestId = some key ∧ wrote.withRequestId key ≠ [])) := by
  cases body : appendMessage a newId wrote with
  | error e =>
    rw [append_raises body] at own
    cases own
  | ok flush =>
    obtain ⟨w, reply⟩ := flush
    obtain ⟨m, only, -, -, thread, reply_, -⟩ := append_flushes body
    subst reply_
    refine ⟨w, m, rfl, thread, ?_⟩
    rw [appendOutcome, missed, body]
    dsimp only
    by_cases admits : wrote.admits w = true
    · rw [if_pos admits]
      exact .inl ⟨rfl, (admits_append_iff body).mp admits⟩
    · rw [if_neg admits]
      refine .inr ⟨rfl, ?_⟩
      rw [admits_append_iff body] at admits
      push Not at admits
      exact admits

/-! ## The property -/

/-- The outcome is the same after both histories exactly when, if the lookup finds nothing
and the tenant has not used the request id itself by the time of the write, the other
tenants have used it in both or in neither. -/
theorem outcome_same_iff {a : AppendArgs} (newId : Uuid) {looked wrote looked' wrote' : Store}
    (looks : SameFor a.tenantId looked looked') (writes : SameFor a.tenantId wrote wrote')
    (own : (wrote.getThread a.tenantId a.threadId).isSome) :
    appendOutcome a newId looked wrote = appendOutcome a newId looked' wrote' ↔
      (a.key.bind (looked.findRequest a.tenantId) = none →
        ∀ key, a.requestId = some key → ¬ wrote.ownRequest a.tenantId key →
          (wrote.takenBeside a.tenantId key ↔ wrote'.takenBeside a.tenantId key)) := by
  have lookup : a.key.bind (looked.findRequest a.tenantId) =
      a.key.bind (looked'.findRequest a.tenantId) := by
    congr 1
    funext key
    exact findRequest_same looks key
  cases missed : a.key.bind (looked.findRequest a.tenantId) with
  | some m =>
    have missed' := lookup.symm.trans missed
    rw [appendOutcome, appendOutcome, missed, missed']
    simp
  | none =>
    have missed' := lookup.symm.trans missed
    obtain ⟨row, found⟩ := Option.isSome_iff_exists.mp own
    have body := appendMessage_same newId writes
    have outcome : ∀ looked wrote, a.key.bind (looked.findRequest a.tenantId) = none →
        appendOutcome a newId looked wrote = match appendMessage a newId wrote with
          | .error e => .error e
          | .ok (w, reply) => if wrote.admits w then .ok (w, reply) else .error .integrity := by
      intro looked wrote missed
      rw [appendOutcome, missed]
    obtain ⟨w, m, flushed, -⟩ := outcome_missed newId missed found
    rw [outcome looked wrote missed, outcome looked' wrote' missed', ← body, flushed]
    dsimp only
    have clash (db : Store) (flushed : appendMessage a newId db = .ok (w, .message m false)) :
        db.admits w = true ↔ ∀ key, a.requestId = some key →
          ¬ db.ownRequest a.tenantId key ∧ ¬ db.takenBeside a.tenantId key := by
      rw [admits_append_iff flushed]
      simp only [withRequestId_eq_nil (x := a.tenantId)]
    have here := clash wrote flushed
    have there := clash wrote' (body.symm.trans flushed)
    cases request : a.requestId with
    | none =>
      simp only [request, reduceCtorEq, false_implies, implies_true, iff_true] at here there
      simp [here, there]
    | some key =>
      simp only [request, Option.some.injEq, forall_eq'] at here there
      have same := ownRequest_same writes key
      by_cases used : wrote.ownRequest a.tenantId key
      · have used' := same.mp used
        simp [here, there, used, used']
      · have used' : ¬ wrote'.ownRequest a.tenantId key := fun is => used (same.mpr is)
        by_cases taken : wrote.takenBeside a.tenantId key
        · by_cases taken' : wrote'.takenBeside a.tenantId key
          · simp [here, there, taken, taken']
          · simp [here, there, taken, taken', used, used']
        · by_cases taken' : wrote'.takenBeside a.tenantId key
          · simp [here, there, taken, taken', used, used']
          · simp [here, there, taken, taken', used, used']

/-- What is returned is a message of the thread, exactly when the row the lookup finds is. -/
theorem outcome_thread_iff (a : AppendArgs) (newId : Uuid) (looked wrote : Store) :
    (∀ w m deduped, appendOutcome a newId looked wrote = .ok (w, .message m deduped) →
      m.threadId = a.threadId) ↔
      ∀ m, a.key.bind (looked.findRequest a.tenantId) = some m → m.threadId = a.threadId := by
  cases missed : a.key.bind (looked.findRequest a.tenantId) with
  | some m =>
    rw [appendOutcome, missed]
    simp
  | none =>
    simp only [reduceCtorEq, false_implies, implies_true, iff_true]
    intro w m deduped outcome
    rw [appendOutcome, missed] at outcome
    cases body : appendMessage a newId wrote with
    | error e =>
      rw [body] at outcome
      cases outcome
    | ok flush =>
      obtain ⟨w', reply⟩ := flush
      obtain ⟨m', -, -, -, thread, reply_, -⟩ := append_flushes body
      rw [body] at outcome
      dsimp only at outcome
      split at outcome
      · cases outcome
        cases reply_
        exact thread
      · cases outcome

/-- Two tenants with a thread each; the first appends, perhaps under a request id. -/
def neighbour (used : Option String) : List Move :=
  [.call (.createThread { tenantId := 7, conversationId := 9 }), .go 0, .go 0, .go 0, .go 0,
   .call (.createThread { tenantId := 8, conversationId := 9 }), .go 1, .go 1, .go 1, .go 1,
   .call (.appendMessage {
    tenantId := 7, threadId := 0, role := "user", content := "a", requestId := used }),
   .go 2, .go 2, .go 2, .go 2]

/-- What the second tenant appends. -/
def keyedAppend : AppendArgs :=
  { tenantId := 8, threadId := 1, role := "user", content := "b", requestId := some "k" }

/-- A tenant with two threads appends to the second under the request id it used on the
first. -/
def crossed : List Move :=
  [.call (.createThread { tenantId := 8, conversationId := 9 }), .go 0, .go 0, .go 0, .go 0,
   .call (.createThread { tenantId := 8, conversationId := 9 }), .go 1, .go 1, .go 1, .go 1,
   .call (.appendMessage { keyedAppend with threadId := 0, content := "a" }), .go 2, .go 2, .go 2, .go 2,
   .call (.appendMessage keyedAppend), .go 3, .go 3, .go 3, .go 3]

end AgentStudio.Threads
