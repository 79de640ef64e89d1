import AgentStudio.Threads.Dedup

/-!
# The tail of a thread

What `read_tail` sees of a numbered thread, and how a client that is alone on
the store adds to it.
-/

namespace AgentStudio.Threads

theorem tenantMessages_whole {s : World} (run : Run s) {tenantId threadId : Uuid} {row : ThreadRow}
    (found : s.store.getThread tenantId threadId = some row) :
    s.store.tenantMessages tenantId threadId = s.store.messagesOf threadId := by
  obtain ⟨mem, id_, tenant⟩ := getThread_mem found
  apply (reachable_tenanted run).tenantMessages
  rw [← id_, ← tenant]
  exact List.mem_map_of_mem (f := fun t : ThreadRow => (t.tenantId, t.id)) mem

/-- A tenant that does not own the thread has no messages on it. -/
theorem tenantMessages_numbered {s : World} (run : Run s) (tenantId threadId : Uuid) :
    Log.Numbered MessageRow.seq (s.store.tenantMessages tenantId threadId) := by
  have tenanted := reachable_tenanted run
  by_cases owner : (tenantId, threadId) ∈ s.store.owners
  · rw [tenanted.tenantMessages owner]
    exact reachable_numbered run threadId
  · have none_ : s.store.tenantMessages tenantId threadId = [] := by
      rw [Store.tenantMessages, List.filter_eq_nil_iff]
      intro m mem same
      rw [Bool.and_eq_true, beq_iff_eq, beq_iff_eq] at same
      apply owner
      rw [← same.1, ← same.2]
      exact tenanted.messages m mem
    rw [none_]
    exact Log.numbered_nil

theorem later_tenantMessages {s t : World} (later : Later s t) (tenantId threadId : Uuid) :
    s.store.tenantMessages tenantId threadId <+: t.store.tenantMessages tenantId threadId :=
  (later_messages later).filter _

/-- Ordered newest first, a numbered log is reversed. -/
theorem newest_first {log : List MessageRow} (numbered : Log.Numbered MessageRow.seq log) :
    (log.insertionSort fun a b => b.seq ≤ a.seq) = log.reverse := by
  have falling : log.reverse.Pairwise fun a b => b.seq ≤ a.seq :=
    List.pairwise_reverse.mpr (numbered.increasing.imp Nat.le_of_lt)
  have same : ∀ a b, a ∈ (log.insertionSort fun a b => b.seq ≤ a.seq) → b ∈ log.reverse →
      b.seq ≤ a.seq → a.seq ≤ b.seq → a = b := by
    intro a b memA memB le ge
    exact numbered.inj ((List.mem_insertionSort _).mp memA) (List.mem_reverse.mp memB)
      (Nat.le_antisymm ge le)
  have : Std.Total fun a b : MessageRow => b.seq ≤ a.seq := ⟨fun a b => Nat.le_total b.seq a.seq⟩
  have : IsTrans MessageRow fun a b => b.seq ≤ a.seq := ⟨fun a b c h h' => Nat.le_trans h' h⟩
  exact List.Perm.eq_of_pairwise same (List.pairwise_insertionSort _ log) falling
    ((List.perm_insertionSort _ log).trans (List.reverse_perm log).symm)

/-- `read_tail` sees the last rows of a thread, in their order. -/
theorem readTail_eq {db : Store} {tenantId threadId : Uuid} (limit : Nat)
    (numbered : Log.Numbered MessageRow.seq (db.tenantMessages tenantId threadId)) :
    db.readTail tenantId threadId limit = (db.tenantMessages tenantId threadId).drop
      ((db.tenantMessages tenantId threadId).length - limit) := by
  rw [Store.readTail, newest_first numbered, List.take_reverse, List.reverse_reverse]

/-! ## A client alone on the store -/

/-- Every call has returned. -/
def World.Quiet (s : World) : Prop := ∀ c ∈ s.calls, ∃ result, c.phase = .returned result

/-- A client alone on the store appends one message to a thread that is there. -/
theorem append_alone {s : World} (run : Run s) (quiet : s.Quiet) {a : AppendArgs} {row : ThreadRow}
    (found : s.store.getThread a.tenantId a.threadId = some row) (unkeyed : a.requestId = none) :
    ∃ (t : World) (w : Writes) (reply : Reply), Run t ∧ t.Quiet ∧
      appendMessage a s.drawn s.store = .ok (w, reply) ∧ t.store = s.store.apply w := by
  obtain ⟨⟨w, reply⟩, body⟩ : ∃ p, appendMessage a s.drawn s.store = .ok p := by
    cases body : appendMessage a s.drawn s.store with
    | ok p => exact ⟨p, rfl⟩
    | error e => rw [append_raises body] at found; cases found
  have keyless : a.key = none := by rw [AppendArgs.key, unkeyed, Option.filter_none]
  have searched : search (.appendMessage a) s.store = .searched := by
    simp only [search, keyless, Option.bind_none]
  have rowless : w.requestIds = [] := by
    obtain ⟨m, only, request, -⟩ := append_flushes body
    rw [Writes.requestIds, only, List.filterMap_cons, request, unkeyed, List.filterMap_nil]
  have admits : s.store.admits w = true :=
    append_admitted body fun key same => by rw [unkeyed] at same; cases same
  -- the call stands behind the calls that have returned
  let at_ (drawn : Uuid) (phase : Phase) : World :=
    { s with calls := s.calls ++ [⟨.appendMessage a, phase⟩], drawn := drawn }
  have last (drawn : Uuid) (phase : Phase) :
      (at_ drawn phase).calls[s.calls.length]? = some ⟨.appendMessage a, phase⟩ := by simp [at_]
  have become (drawn : Uuid) (phase phase' : Phase) : (at_ drawn phase).become s.calls.length
      ⟨.appendMessage a, phase⟩ phase' = at_ drawn phase' := by simp [at_, World.become]
  have free (t : Uuid) : (at_ s.drawn .searched).free t = true := by
    simp only [at_, World.free, List.all_append, List.all_cons, List.all_nil, Bool.and_true,
      Bool.and_eq_true, List.all_eq_true]
    refine ⟨?_, rfl⟩
    intro c mem
    obtain ⟨result, returned⟩ := quiet c mem
    simp [Call.holds, returned]
  have called : Run (at_ s.drawn .called) := .step run (.call s (.appendMessage a))
  have looked : Run (at_ s.drawn .searched) := by
    have step := Step.search _ _ _ (last s.drawn .called) rfl
    rw [become, searched] at step
    exact .step called step
  have locked : Run (at_ s.drawn .locked) := by
    have step := Step.lock _ _ _ (last s.drawn .searched) rfl
      (by rintro _ ⟨⟩; exact Option.isSome_of_eq_some found) (fun t _ => free t)
    rw [become] at step
    exact .step looked step
  have flushed : Run (at_ (s.drawn + w.draws) (.flushed w reply s.store)) := by
    have step := Step.flush _ _ _ (last s.drawn .locked) rfl w reply body admits
      (by simp [World.waits, rowless])
    rw [become] at step
    exact .step locked step
  have committed := Step.commit _ _ _ (last (s.drawn + w.draws) (.flushed w reply s.store))
    w reply s.store rfl
  rw [become] at committed
  refine ⟨_, w, reply, .step flushed committed, ?_, body, rfl⟩
  intro c mem
  rcases List.mem_append.mp mem with old | new
  · exact quiet c old
  · rw [List.mem_singleton.mp new]
    exact ⟨_, rfl⟩

/-- A thread can hold any number of messages that say the same. -/
theorem filled (text : String) (n : Nat) : ∃ s, Run s ∧ s.Quiet ∧
    (∃ row, s.store.getThread 7 0 = some row ∧ row.summaryPosition = none) ∧ (s.store.messagesOf 0).length = n ∧
    ∀ m ∈ s.store.messagesOf 0, m.role = "user" ∧ m.redactedContent = text := by
  induction n with
  | zero =>
    let made := ({} : World).after
      [.call (.createThread { tenantId := 7, conversationId := 9 }), .go 0, .go 0, .go 0, .go 0]
    refine ⟨made, run_after _, ?_, ⟨_, rfl, rfl⟩, rfl, ?_⟩
    · intro c mem
      rw [List.mem_singleton.mp mem]
      exact ⟨_, rfl⟩
    · intro m mem
      cases mem
  | succ n ih =>
    obtain ⟨s, run, quiet, ⟨row, found, fresh⟩, length, same⟩ := ih
    let a : AppendArgs := { tenantId := 7, threadId := 0, role := "user", content := text }
    obtain ⟨t, w, reply, run', quiet', body, store⟩ := append_alone run quiet (a := a) found rfl
    obtain ⟨m, only, -, -, thread, -⟩ := append_flushes body
    have written : m.role = "user" ∧ m.redactedContent = text ∧ t.store.threads = s.store.threads := by
      simp only [appendMessage, show s.store.getThread a.tenantId a.threadId = some row from found,
        Except.ok.injEq, Prod.mk.injEq] at body
      obtain ⟨rfl, -⟩ := body
      obtain rfl := List.singleton_inj.mp only
      refine ⟨rfl, ?_, by simp [store, Store.apply]⟩
      simp only [AppendArgs.redacted, a]
    have appended : t.store.messagesOf 0 = s.store.messagesOf 0 ++ [m] := by
      rw [store, messagesOf_apply, Writes.messagesOf, only]
      simp [thread, a]
    refine ⟨t, run', quiet', ?_, ?_, ?_⟩
    · refine ⟨row, ?_, fresh⟩
      rw [Store.getThread, written.2.2]
      exact found
    · rw [appended, List.length_append, length, List.length_singleton]
    · intro m' mem
      rw [appended, List.mem_append, List.mem_singleton] at mem
      rcases mem with old | rfl
      · exact same m' old
      · exact ⟨written.1, written.2.1⟩

end AgentStudio.Threads
