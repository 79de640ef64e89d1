import AgentStudio.Threads.Transactions

/-!
# The events of a thread

Every writer of the store logs an event under the seq it computes on its own.
`_max_event_seq` already adds one to the maximum; `set_summary`,
`clear_tool_results` and `set_archived` add one again, and each of them leaves a
gap that no later writer closes.
-/

namespace AgentStudio.Threads

/-- The writers that add one to `_max_event_seq`, on the thread they log to. A clearing
that finds nothing to clear logs nothing. -/
def Request.skips (r : Request) (db : Store) (t : Uuid) : Bool :=
  match r with
  | .setSummary a => a.threadId == t
  | .clearToolResults a => a.threadId == t && !(a.eligible db).isEmpty
  | .setArchived a => a.threadId == t
  | .createThread _ | .appendMessage _ | .appendEvent _ | .forkThread _ => false

/-- The numbers a request leaves out before its event. -/
def Request.gap (r : Request) (db : Store) (t : Uuid) : Nat := if r.skips db t then 1 else 0

theorem skips_thread {r : Request} {db : Store} {t : Uuid} (skips : r.skips db t = true) :
    r.thread = some t := by
  cases r with
  | createThread | appendMessage | appendEvent | forkThread => cases skips
  | setSummary a =>
    rw [Request.skips, beq_iff_eq] at skips
    simp [Request.thread, Request.row, skips]
  | clearToolResults a =>
    rw [Request.skips, Bool.and_eq_true, beq_iff_eq] at skips
    simp [Request.thread, Request.row, skips.1]
  | setArchived a =>
    rw [Request.skips, beq_iff_eq] at skips
    simp [Request.thread, Request.row, skips]

/-- The events a transaction logs on a thread count on from the last one, after the gap
it leaves. -/
structure CountsOn (db : Store) (r : Request) (w : Writes) (t : Uuid) : Prop where
  seqs : (w.eventsOf t).map EventRow.seq =
    List.range' (Log.top EventRow.seq (db.eventsOf t) + r.gap db t + 1) (w.eventsOf t).length
  logged : r.skips db t = true → w.eventsOf t ≠ []

theorem CountsOn.one {db : Store} {r : Request} {w : Writes} {t : Uuid} {event : EventRow}
    (events : w.events = [event]) (here : event.threadId = t)
    (seq : event.seq = Log.top EventRow.seq (db.eventsOf t) + r.gap db t + 1) :
    CountsOn db r w t := by
  have only : w.eventsOf t = [event] := by
    rw [Writes.eventsOf, events, List.filter_singleton, here, beq_self_eq_true]
    rfl
  exact ⟨by simp [only, seq], fun _ => by simp [only]⟩

theorem body_counts {r : Request} {newId : Uuid} {db : Store} {w : Writes} {reply : Reply}
    (body : r.body newId db = .ok (w, reply)) (unused : newId ∉ db.threadIds)
    (empty : ∀ row, w.created = some row → db.eventsOf row.id = [])
    {t : Uuid} (owns : r.thread = some t ∨ w.created.map ThreadRow.id = some t) :
    CountsOn db r w t := by
  cases r with
  | createThread a =>
    cases body
    have here : newId = t := by simpa [Request.thread, Request.row] using owns
    subst here
    refine .one rfl rfl ?_
    rw [empty _ rfl]
    rfl
  | appendMessage a =>
    simp only [Request.body, appendMessage] at body
    split at body
    · cases body
    · cases body
      have here : a.threadId = t := by simpa [Request.thread, Request.row] using owns
      subst here
      exact .one rfl rfl rfl
  | appendEvent a =>
    simp only [Request.body, appendEvent] at body
    split at body
    · cases body
    · cases body
      have here : a.threadId = t := by simpa [Request.thread, Request.row] using owns
      subst here
      exact .one rfl rfl rfl
  | setSummary a =>
    simp only [Request.body, setSummary] at body
    split at body
    · cases body
    · split at body
      · cases body
        have here : a.threadId = t := by simpa [Request.thread, Request.row] using owns
        subst here
        refine .one rfl rfl ?_
        simp [Request.gap, Request.skips, Store.maxEventSeq]
      · cases body
  | forkThread a =>
    simp only [Request.body, forkThread] at body
    split at body
    · cases body
    · rename_i source found
      split at body
      · cases body
      · split at body
        · cases body
        · cases body
          have ne : newId ≠ a.sourceThreadId := by
            rintro rfl
            obtain ⟨there, id_, -⟩ := getThread_mem found
            exact unused (List.mem_map.mpr ⟨source, there, id_⟩)
          rcases owns with thread | created
          · have here : a.sourceThreadId = t := by
              simpa [Request.thread, Request.row] using thread
            subst here
            refine ⟨?_, fun skips => by cases skips⟩
            simp [Writes.eventsOf, ne, Request.gap, Request.skips]
          · have here : newId = t := by simpa using created
            subst here
            refine ⟨?_, fun skips => by cases skips⟩
            rw [empty _ rfl]
            simp [Writes.eventsOf, ne.symm, Request.gap, Request.skips, Log.top, List.range']
  | clearToolResults a =>
    simp only [Request.body, clearToolResults] at body
    split at body
    · cases body
    · split at body
      · rename_i none_
        cases body
        refine ⟨rfl, fun skips => ?_⟩
        simp [Request.skips, none_] at skips
      · rename_i some_
        cases body
        have here : a.threadId = t := by simpa [Request.thread, Request.row] using owns
        subst here
        refine .one rfl rfl ?_
        simp [Request.gap, Request.skips, Store.maxEventSeq, some_]
  | setArchived a =>
    simp only [Request.body, setArchived] at body
    split at body
    · cases body
    · cases body
      have here : a.threadId = t := by simpa [Request.thread, Request.row] using owns
      subst here
      refine .one rfl rfl ?_
      simp [Request.gap, Request.skips, Store.maxEventSeq]

/-! ## Whole runs -/

/-- How many numbers the committed calls left out on a thread. -/
def skipped (commits : List Commit) (t : Uuid) : Nat :=
  (commits.map fun c => c.request.gap c.seen t).sum

/-- The last seq is the number of events and of the gaps before it; without a gap the
events are numbered. -/
structure EventsCounted (s : World) (t : Uuid) : Prop where
  top : Log.top EventRow.seq (s.store.eventsOf t) =
    (s.store.eventsOf t).length + skipped s.commits t
  numbered : skipped s.commits t = 0 → Log.Numbered EventRow.seq (s.store.eventsOf t)

theorem CountsOn.top {db : Store} {r : Request} {w : Writes} {t : Uuid} (h : CountsOn db r w t) :
    Log.top EventRow.seq (db.eventsOf t ++ w.eventsOf t) =
      Log.top EventRow.seq (db.eventsOf t) + r.gap db t + (w.eventsOf t).length := by
  rw [Log.top_append]
  rcases eq_or_ne (w.eventsOf t) [] with none_ | some_
  · have quiet : r.skips db t = false := by
      rw [Bool.eq_false_iff]
      exact fun skips => h.logged skips none_
    simp [none_, Request.gap, quiet, Log.top]
  · rw [Log.top_range _ h.seqs some_]
    omega

theorem step_counted {s s' : World} (h : Step s s') (valid : Valid s) (t : Uuid)
    (counted : EventsCounted s t) : EventsCounted s' t := by
  cases h with
  | call | search | lock | missing | flush | reject | raise | abort =>
    exact ⟨counted.top, counted.numbered⟩
  | commit i c here w reply seen phase =>
    have mem := List.mem_of_getElem? here
    obtain ⟨request, _⟩ := c
    obtain rfl : _ = Phase.flushed w reply seen := phase
    have seen_ := valid.seen _ mem w reply seen rfl
    have skipped_ : skipped (s.commits ++ [⟨request, seen⟩]) t =
        skipped s.commits t + request.gap seen t := by simp [skipped]
    have events_ := eventsOf_apply s.store w t
    by_cases owns : Call.owns ⟨request, .flushed w reply seen⟩ t = true
    · obtain ⟨newId, unused, body⟩ := seen_.body
      have same := seen_.events t owns
      have counts : CountsOn seen request w t := by
        refine body_counts body unused ?_ (owns_flushed.mp owns)
        intro row created
        have makes : Call.makes ⟨request, .flushed w reply seen⟩ row.id = true := by
          simp [Call.makes, created]
        rw [← seen_.events row.id (owns_of_makes makes), Store.eventsOf, List.filter_eq_nil_iff]
        intro e there eq
        rw [beq_iff_eq] at eq
        exact (valid.made _ mem row.id makes).2 (eq ▸ valid.events e there)
      have top_ := counts.top
      have before := counted.top
      rw [same] at before events_
      constructor
      · show Log.top EventRow.seq ((s.store.apply w).eventsOf t) =
          ((s.store.apply w).eventsOf t).length + skipped (s.commits ++ [⟨request, seen⟩]) t
        rw [events_, top_, List.length_append, skipped_]
        omega
      · intro none_
        have none_ : skipped s.commits t + request.gap seen t = 0 := skipped_ ▸ none_
        have old := counted.numbered (by omega)
        rw [same] at old
        show Log.Numbered EventRow.seq ((s.store.apply w).eventsOf t)
        rw [events_, Log.numbered_append old, counts.seqs, old.top_eq]
        congr 1
        omega
    · rw [Bool.not_eq_true] at owns
      have quiet : request.gap seen t = 0 := by
        rw [Request.gap, if_neg]
        intro skips
        rw [Bool.eq_false_iff] at owns
        exact owns (owns_flushed.mpr (.inl (skips_thread skips)))
      rw [(seen_.messages_other owns).2, List.append_nil] at events_
      rw [quiet, Nat.add_zero] at skipped_
      constructor
      · show Log.top EventRow.seq ((s.store.apply w).eventsOf t) =
          ((s.store.apply w).eventsOf t).length + skipped (s.commits ++ [⟨request, seen⟩]) t
        rw [events_, skipped_]
        exact counted.top
      · intro none_
        have none_ : skipped s.commits t = 0 := skipped_ ▸ none_
        show Log.Numbered EventRow.seq ((s.store.apply w).eventsOf t)
        rw [events_]
        exact counted.numbered none_

theorem reachable_counted {s : World} (h : Run s) (t : Uuid) : EventsCounted s t := by
  induction h with
  | initial => exact ⟨rfl, fun _ => Log.numbered_nil⟩
  | step run step ih => exact step_counted step (reachable_valid run) t ih

theorem skipped_eq_zero {commits : List Commit} {t : Uuid} :
    skipped commits t = 0 ↔ ∀ c ∈ commits, c.request.skips c.seen t = false := by
  simp only [skipped, List.sum_eq_zero_iff, List.mem_map, forall_exists_index, and_imp,
    forall_apply_eq_imp_iff₂]
  refine forall₂_congr fun c _ => ?_
  cases skips : c.request.skips c.seen t <;> simp [Request.gap, skips]

/-- In every reachable state the events of a thread are numbered 1, …, n exactly when no
`set_summary`, no `set_archived` and no `clear_tool_results` with something to clear
was committed on it. -/
theorem events_numbered_iff {s : World} (run : Run s) (t : Uuid) :
    (s.store.eventsOf t).map EventRow.seq = List.range' 1 (s.store.eventsOf t).length ↔
      ∀ c ∈ s.commits, c.request.skips c.seen t = false := by
  have counted := reachable_counted run t
  rw [← skipped_eq_zero]
  constructor
  · intro numbered
    have last : Log.top EventRow.seq (s.store.eventsOf t) = _ := Log.Numbered.top_eq numbered
    have := counted.top
    omega
  · exact counted.numbered

/-- A thread is created, written to and archived. -/
def archived : List Move :=
  [.call (.createThread { tenantId := 7, conversationId := 9 }), .go 0, .go 0, .go 0, .go 0,
   .call (.appendMessage { tenantId := 7, threadId := 0, role := "user", content := "a" }),
   .go 1, .go 1, .go 1, .go 1,
   .call (.setArchived { tenantId := 7, threadId := 0, archived := true }),
   .go 2, .go 2, .go 2, .go 2]

theorem events_numbered_iff_unarchived :
    (({} : World).after (archived.take 10)).commits.length = 2 ∧
    ((({} : World).after (archived.take 10)).store.eventsOf 0).map EventRow.seq =
      List.range' 1 ((({} : World).after (archived.take 10)).store.eventsOf 0).length :=
  ⟨by decide +kernel, (events_numbered_iff (run_after _) 0).mpr (by decide +kernel)⟩

theorem events_not_numbered :
    Run (({} : World).after archived) ∧
    ((({} : World).after archived).store.eventsOf 0).map EventRow.seq = [1, 2, 4] ∧
    ((({} : World).after archived).store.eventsOf 0).map EventRow.seq ≠
      List.range' 1 ((({} : World).after archived).store.eventsOf 0).length :=
  ⟨run_after _, by decide +kernel, by decide +kernel⟩

end AgentStudio.Threads
