import AgentStudio.Queue.Manager
import Mathlib.Data.List.Induction
import Mathlib.Data.List.Perm.Basic

/-!
# One pending job a thread

`_enqueue_tool_clear`, `_enqueue_memory_extract` and `_defer_to_worker` of
`api/routes/conversations.py` ask for a job of a thread under one key, which is to keep one
job pending. But the claim of the key outlives the job, and a worker that has processed the
key drops the next job with it: a turn that finds the one, or whose job meets the other, is
left without a run.
-/

namespace AgentStudio.Queue.TurnJobs

/-- The jobs that a turn may ask for. -/
inductive Kind where
  | toolClear | memoryExtract | summaryRefresh
  deriving DecidableEq, Repr

structure Turn where
  tenantId : String
  threadId : String
  number : Nat
  deriving DecidableEq, Repr

namespace Kind

def type : Kind → String
  | toolClear => "tool_result.clear"
  | memoryExtract => "memory.extract"
  | summaryRefresh => "summary.refresh"

def key (threadId : String) : Kind → String
  | toolClear => "tool-clear:" ++ threadId
  | memoryExtract => "memory-extract:" ++ threadId
  | summaryRefresh => "summary-refresh:" ++ threadId

/-- `tenant_config.features.get`; a refresh is asked for when compaction is deferred. -/
def enabled (features : String → Bool) : Kind → Bool
  | toolClear => features "clear_tool_results"
  | memoryExtract => features "memory"
  | summaryRefresh => true

/-- The payload once `enqueue` has put the key into it. -/
def payload (kind : Kind) (turn : Turn) : Payload where
  idem := some (kind.key turn.threadId)
  body := "\x7b\"tenant_id\": \"" ++ turn.tenantId ++ "\", \"thread_id\": \"" ++ turn.threadId ++
    "\"\x7d"

def job (kind : Kind) (turn : Turn) (id : JobId) : Job :=
  { id := id, type := kind.type, payload := kind.payload turn }

/-- A job of this kind for the thread of the turn. -/
def Covers (kind : Kind) (turn : Turn) (job : Job) : Prop :=
  job.type = kind.type ∧ job.payload = kind.payload turn

instance (kind : Kind) (turn : Turn) (job : Job) : Decidable (kind.Covers turn job) :=
  inferInstanceAs (Decidable (_ ∧ _))

end Kind

/-! ## Turns, the queue and its workers -/

inductive Event where
  /-- The turn is in the thread. -/
  | stored (turn : Turn)
  /-- `enqueue` has returned to the turn. -/
  | asked (turn : Turn) (kind : Kind)
  /-- The handler was called with the job. -/
  | handled (job : Job)
  deriving DecidableEq

/-- The event is a run of a job of this kind for the thread. -/
def Event.Runs (kind : Kind) (turn : Turn) : Event → Prop
  | handled job => kind.Covers turn job
  | _ => False

instance (kind : Kind) (turn : Turn) : DecidablePred (Event.Runs kind turn)
  | .handled job => inferInstanceAs (Decidable (kind.Covers turn job))
  | .stored _ => isFalse id
  | .asked .. => isFalse id

structure World where
  /-- The keys that are claimed. -/
  idem : List String := []
  /-- The keys claimed for a turn whose job is not yet on a queue. -/
  pushing : List (Turn × Kind × JobId) := []
  /-- The jobs of all queues, those that are due later with them. -/
  queued : List Job := []
  /-- The jobs that workers have dequeued. -/
  hands : List (Nat × Job) := []
  /-- The `_idem_processed` of each worker. -/
  processed : List (Nat × String) := []
  /-- For the record, the latest event first. -/
  log : List Event := []

/-- One step of anyone; a step that cannot be taken changes nothing. -/
inductive Action where
  | store (turn : Turn)
  /-- `_claim_idempotency`. -/
  | claim (turn : Turn) (kind : Kind) (id : JobId)
  /-- `_redis_enqueue`. -/
  | push (i : Nat)
  /-- The claim of a key expires. -/
  | expire (key : String)
  /-- Anyone else puts a job on a queue. -/
  | other (job : Job)
  | dequeue (worker : Nat) (i : Nat)
  /-- `process_job`; the error is what the handler has raised. -/
  | process (i : Nat) (error : Option String) (due : Nat)

namespace World

/-- The worker has processed the key of the job. -/
def Seen (w : World) (worker : Nat) (job : Job) : Prop :=
  ∃ key ∈ job.payload.idem, key ≠ "" ∧ (worker, key) ∈ w.processed

instance (w : World) (worker : Nat) (job : Job) : Decidable (w.Seen worker job) :=
  match is : job.payload.idem with
  | none => isFalse fun ⟨_, mem, _⟩ => by simp [is] at mem
  | some key => decidable_of_iff (key ≠ "" ∧ (worker, key) ∈ w.processed) (by simp [Seen, is])

/-- What the worker notes of a job whose handler has returned. -/
def note (w : World) (worker : Nat) (job : Job) : World :=
  match job.payload.idem with
  | none => w
  | some key => if key = "" then w else { w with processed := (worker, key) :: w.processed }

/-- `process_job`, once the job is no longer in hand. -/
def processJob (w : World) (worker : Nat) (job : Job) (error : Option String) (due : Nat) : World :=
  if w.Seen worker job then w
  else
    let ran := { w with log := .handled job :: w.log }
    match error with
    | none => ran.note worker job
    | some text =>
      let failed := { job with error := some text, retries := job.retries + 1 }
      if failed.retries < failed.maxRetries then
        { ran with queued := ran.queued ++ [{ failed with scheduledAt := some due }] }
      else ran

variable (features : String → String → Bool)

def next (w : World) : Action → World
  | .store turn => { w with log := .stored turn :: w.log }
  | .claim turn kind id =>
    if kind.enabled (features turn.tenantId) then
      if kind.key turn.threadId ∈ w.idem then { w with log := .asked turn kind :: w.log }
      else { w with
        idem := kind.key turn.threadId :: w.idem
        pushing := w.pushing ++ [(turn, kind, id)] }
    else w
  | .push i =>
    match w.pushing[i]? with
    | none => w
    | some (turn, kind, id) => { w with
        pushing := w.pushing.eraseIdx i
        queued := w.queued ++ [kind.job turn id]
        log := .asked turn kind :: w.log }
  | .expire key => { w with idem := w.idem.filter (· ≠ key) }
  | .other job => { w with queued := w.queued ++ [job] }
  | .dequeue worker i =>
    match w.queued[i]? with
    | none => w
    | some job => { w with
        queued := w.queued.eraseIdx i
        hands := w.hands ++ [(worker, job)] }
  | .process i error due =>
    match w.hands[i]? with
    | none => w
    | some (worker, job) =>
      { w with hands := w.hands.eraseIdx i }.processJob worker job error due

/-- The world after actions, from nothing. -/
def after (actions : List Action) : World := actions.foldl (next features) {}

/-! ## What is owed -/

/-- The jobs that are queued, about to be, or in hand. -/
def jobs (w : World) : List Job :=
  w.pushing.map (fun e => e.2.1.job e.1 e.2.2) ++ w.queued ++ w.hands.map Prod.snd

def Pending (w : World) (kind : Kind) (turn : Turn) : Prop := ∃ job ∈ w.jobs, kind.Covers turn job

instance (w : World) (kind : Kind) (turn : Turn) : Decidable (w.Pending kind turn) :=
  inferInstanceAs (Decidable (∃ job ∈ w.jobs, _))

/-- No job of the kind has run since the turn was stored. -/
def Waits (w : World) (kind : Kind) (turn : Turn) : Prop :=
  .stored turn ∈ w.log.takeWhile fun event => ¬ event.Runs kind turn

instance (w : World) (kind : Kind) (turn : Turn) : Decidable (w.Waits kind turn) :=
  inferInstanceAs (Decidable (_ ∈ _))

/-- The turn has asked for its job. -/
def Asked (w : World) (kind : Kind) (turn : Turn) : Prop := .asked turn kind ∈ w.log

instance (w : World) (kind : Kind) (turn : Turn) : Decidable (w.Asked kind turn) :=
  inferInstanceAs (Decidable (_ ∈ _))

/-- Every turn that is stored and has asked for a job has had a run of it since, or one is
still to come. -/
def Covered (w : World) : Prop :=
  ∀ kind turn, w.Asked kind turn → w.Waits kind turn → w.Pending kind turn

/-- A claim that is taken stands for a job that is pending, unless one has run since the turn was
stored; a turn that is stored after it asked still has its job pending; and a worker drops a
job as processed only where a turn that waits has another one pending. -/
def Meets (w : World) : Action → Prop
  | .store turn => ∀ kind, w.Asked kind turn → w.Pending kind turn
  | .claim turn kind _ => kind.enabled (features turn.tenantId) = true →
      kind.key turn.threadId ∈ w.idem → w.Waits kind turn → w.Pending kind turn
  | .process i _ _ => ∀ worker job, w.hands[i]? = some (worker, job) → w.Seen worker job →
      ∀ kind turn, w.Asked kind turn → w.Waits kind turn →
        { w with hands := w.hands.eraseIdx i }.Pending kind turn
  | .push _ | .expire _ | .other _ | .dequeue _ _ => True

/-! ## Steps -/

variable {features} {w : World} {kind : Kind} {turn : Turn}

theorem mem_erased {α : Type} {l : List α} {i : Nat} {x y : α} (here : l[i]? = some x) :
    y ∈ l ↔ y = x ∨ y ∈ l.eraseIdx i := by
  obtain ⟨bound, rfl⟩ := List.getElem?_eq_some_iff.mp here
  rw [← (List.getElem_cons_eraseIdx_perm bound).mem_iff, List.mem_cons]

theorem mem_jobs {job : Job} : job ∈ w.jobs ↔
    (∃ e ∈ w.pushing, e.2.1.job e.1 e.2.2 = job) ∨ job ∈ w.queued ∨
      ∃ e ∈ w.hands, e.2 = job := by
  rw [jobs, List.mem_append, List.mem_append, List.mem_map, List.mem_map, or_assoc]

theorem Pending.mono {w' : World} (pending : w.Pending kind turn)
    (more : ∀ job, kind.Covers turn job → job ∈ w.jobs → job ∈ w'.jobs) :
    w'.Pending kind turn := by
  obtain ⟨job, there, covers⟩ := pending
  exact ⟨job, more job covers there, covers⟩

/-- A log with one more turn stored. -/
theorem waits_store {w' : World} {stored : Turn} (log : w'.log = .stored stored :: w.log) :
    w'.Waits kind turn ↔ turn = stored ∨ w.Waits kind turn := by
  rw [Waits, Waits, log, List.takeWhile_cons_of_pos (by simp [Event.Runs]), List.mem_cons,
    Event.stored.injEq]

theorem waits_ask {w' : World} {asker : Turn} {kind' : Kind}
    (log : w'.log = .asked asker kind' :: w.log) :
    w'.Waits kind turn ↔ w.Waits kind turn := by
  rw [Waits, Waits, log, List.takeWhile_cons_of_pos (by simp [Event.Runs]), List.mem_cons,
    or_iff_right Event.noConfusion]

theorem waits_handle {w' : World} {job : Job} (log : w'.log = .handled job :: w.log) :
    w'.Waits kind turn ↔ ¬ kind.Covers turn job ∧ w.Waits kind turn := by
  rw [Waits, Waits, log]
  by_cases covers : kind.Covers turn job
  · rw [List.takeWhile_cons_of_neg (by simp [Event.Runs, covers])]
    simp [covers]
  · rw [List.takeWhile_cons_of_pos (by simp [Event.Runs, covers]), List.mem_cons,
      or_iff_right Event.noConfusion]
    simp [covers]

theorem asked_cons {w' : World} {event : Event} (log : w'.log = event :: w.log) :
    w'.Asked kind turn ↔ .asked turn kind = event ∨ w.Asked kind turn := by
  rw [Asked, Asked, log, List.mem_cons]

/-- A step that adds no event and keeps the jobs. -/
theorem Covered.quiet {w' : World} (covered : w.Covered) (log : w'.log = w.log)
    (more : ∀ job ∈ w.jobs, job ∈ w'.jobs) : w'.Covered := by
  intro kind turn asked waits
  rw [Asked, log] at asked
  rw [Waits, log] at waits
  exact (covered kind turn asked waits).mono fun job _ => more job

theorem store_covered (covered : w.Covered) (stored : Turn) :
    (w.next features (.store stored)).Covered ↔ w.Meets features (.store stored) := by
  have log : (w.next features (.store stored)).log = .stored stored :: w.log := rfl
  constructor
  · intro next kind asked
    exact next kind stored ((asked_cons log).mpr (.inr asked)) ((waits_store log).mpr (.inl rfl))
  · intro meets kind turn asked' waits'
    have asked := ((asked_cons log).mp asked').resolve_left Event.noConfusion
    obtain is | waits := (waits_store log).mp waits'
    · subst is
      exact meets kind asked
    · exact covered kind turn asked waits

theorem claim_covered (covered : w.Covered) (asker : Turn) (kind' : Kind) (id : JobId) :
    (w.next features (.claim asker kind' id)).Covered ↔
      w.Meets features (.claim asker kind' id) := by
  rw [next, Meets]
  by_cases enabled : kind'.enabled (features asker.tenantId) = true
  · rw [if_pos enabled]
    by_cases taken : kind'.key asker.threadId ∈ w.idem
    · rw [if_pos taken]
      constructor
      · intro next _ _ waits
        exact next kind' asker ((asked_cons (w := w) rfl).mpr (.inl rfl))
          ((waits_ask (w := w) rfl).mpr waits)
      · intro meets kind turn asked' waits'
        have waits := (waits_ask (w := w) rfl).mp waits'
        obtain same | asked := (asked_cons (w := w) rfl).mp asked'
        · obtain ⟨is, is'⟩ := Event.asked.inj same
          rw [is, is'] at waits ⊢
          exact meets enabled taken waits
        · exact covered kind turn asked waits
    · rw [if_neg taken]
      refine iff_of_true (covered.quiet rfl ?_) fun _ is => absurd is taken
      intro job there
      rw [mem_jobs] at there ⊢
      obtain ⟨e, mem, is⟩ | there := there
      · exact .inl ⟨e, List.mem_append_left _ mem, is⟩
      · exact .inr there
  · rw [if_neg enabled]
    exact iff_of_true covered fun is => absurd is enabled

theorem push_covered (covered : w.Covered) (i : Nat) : (w.next features (.push i)).Covered := by
  rw [next]
  cases here : w.pushing[i]? with
  | none => exact covered
  | some e =>
    obtain ⟨asker, kind', id⟩ := e
    dsimp only
    intro kind turn asked' waits'
    have waits := (waits_ask (w := w) rfl).mp waits'
    obtain same | asked := (asked_cons (w := w) rfl).mp asked'
    · obtain ⟨is, is'⟩ := Event.asked.inj same
      subst is is'
      refine ⟨kind.job turn id, ?_, rfl, rfl⟩
      exact mem_jobs.mpr (.inr (.inl (List.mem_append_right _ List.mem_cons_self)))
    · refine (covered kind turn asked waits).mono fun job _ there => ?_
      rw [mem_jobs] at there ⊢
      obtain ⟨e, mem, is⟩ | there | there := there
      · obtain rfl | mem := (mem_erased here).mp mem
        · exact .inr (.inl (List.mem_append_right _ (List.mem_singleton.mpr is.symm)))
        · exact .inl ⟨e, mem, is⟩
      · exact .inr (.inl (List.mem_append_left _ there))
      · exact .inr (.inr there)

theorem dequeue_covered (covered : w.Covered) (worker i : Nat) :
    (w.next features (.dequeue worker i)).Covered := by
  rw [next]
  cases here : w.queued[i]? with
  | none => exact covered
  | some job =>
    dsimp only
    refine covered.quiet rfl fun job' there => ?_
    rw [mem_jobs] at there ⊢
    obtain there | there | ⟨e, mem, is⟩ := there
    · exact .inl there
    · obtain rfl | there := (mem_erased here).mp there
      · exact .inr (.inr ⟨(worker, job'), List.mem_append_right _ List.mem_cons_self, rfl⟩)
      · exact .inr (.inl there)
    · exact .inr (.inr ⟨e, List.mem_append_left _ mem, is⟩)

/-- What is left of a job that the handler was called with. -/
theorem processJob_handled {job : Job} {worker : Nat} (fresh : ¬ w.Seen worker job)
    (error : Option String) (due : Nat) :
    (w.processJob worker job error due).log = .handled job :: w.log ∧
      ∀ job' ∈ w.jobs, job' ∈ (w.processJob worker job error due).jobs := by
  rw [processJob, if_neg fresh]
  cases error with
  | none =>
    dsimp only
    unfold note
    split
    · exact ⟨rfl, fun _ there => there⟩
    · split
      · exact ⟨rfl, fun _ there => there⟩
      · exact ⟨rfl, fun _ there => there⟩
  | some text =>
    dsimp only
    split
    · refine ⟨rfl, fun job' there => ?_⟩
      rw [mem_jobs] at there ⊢
      obtain there | there | there := there
      · exact .inl there
      · exact .inr (.inl (List.mem_append_left _ there))
      · exact .inr (.inr there)
    · exact ⟨rfl, fun _ there => there⟩

theorem process_covered (covered : w.Covered) (i : Nat) (error : Option String) (due : Nat) :
    (w.next features (.process i error due)).Covered ↔
      w.Meets features (.process i error due) := by
  rw [next, Meets]
  cases here : w.hands[i]? with
  | none => exact iff_of_true covered fun _ _ is => by cases is
  | some e =>
    obtain ⟨worker, job⟩ := e
    dsimp only
    by_cases seen : w.Seen worker job
    · have dropped : { w with hands := w.hands.eraseIdx i }.processJob worker job error due =
          { w with hands := w.hands.eraseIdx i } := if_pos seen
      rw [dropped]
      constructor
      · rintro next _ _ ⟨⟩ _ kind turn asked waits
        exact next kind turn asked waits
      · intro meets kind turn asked waits
        exact meets worker job rfl seen kind turn asked waits
    · have fresh : ¬ { w with hands := w.hands.eraseIdx i }.Seen worker job := seen
      obtain ⟨log, more⟩ := processJob_handled fresh error due
      refine iff_of_true ?_ ?_
      · intro kind turn asked waits
        have asked := ((asked_cons log).mp asked).resolve_left Event.noConfusion
        obtain ⟨other, waits⟩ := (waits_handle log).mp waits
        refine (covered kind turn asked waits).mono fun job' covers there => more job' ?_
        rw [mem_jobs] at there ⊢
        obtain there | there | ⟨e, mem, is⟩ := there
        · exact .inl there
        · exact .inr (.inl there)
        · obtain rfl | mem := (mem_erased here).mp mem
          · have is : job = job' := is
            exact absurd (is.symm ▸ covers) other
          · exact .inr (.inr ⟨e, mem, is⟩)
      · rintro _ _ ⟨⟩ is
        exact absurd is seen

/-- A step leaves every turn covered exactly if it meets the condition. -/
theorem next_covered (covered : w.Covered) (action : Action) :
    (w.next features action).Covered ↔ w.Meets features action := by
  cases action with
  | store stored => exact store_covered covered stored
  | claim asker kind id => exact claim_covered covered asker kind id
  | push i => exact iff_of_true (push_covered covered i) trivial
  | expire key => exact iff_of_true (covered.quiet rfl fun _ there => there) trivial
  | other job =>
    refine iff_of_true (covered.quiet rfl fun job' there => ?_) trivial
    rw [mem_jobs] at there ⊢
    obtain there | there | there := there
    · exact .inl there
    · exact .inr (.inl (List.mem_append_left _ there))
    · exact .inr (.inr there)
  | dequeue worker i => exact iff_of_true (dequeue_covered covered worker i) trivial
  | process i error due => exact process_covered covered i error due

theorem after_snoc (before : List Action) (action : Action) :
    after features (before ++ [action]) = (after features before).next features action := by
  rw [after, List.foldl_append]
  rfl

/-- All along a run every turn that is stored and has asked for a job is covered exactly if every
step of the run meets the condition. -/
theorem covered_iff (features : String → String → Bool) (actions : List Action) :
    (∀ before, before <+: actions → (after features before).Covered) ↔
      ∀ before action, before ++ [action] <+: actions →
        (after features before).Meets features action := by
  constructor
  · intro covered before action start
    have here := covered before ((List.prefix_append before [action]).trans start)
    have next := covered (before ++ [action]) start
    rw [after_snoc] at next
    exact (next_covered here action).mp next
  · intro meets before start
    induction before using List.reverseRecOn with
    | nil =>
      intro kind turn asked _
      cases asked
    | append_singleton before action ih =>
      rw [after_snoc]
      have here := ih ((List.prefix_append before [action]).trans start)
      exact (next_covered here action).mpr (meets before action start)

/-- The second of two turns, after the job of the first has run: the key is still claimed. -/
theorem second_turn :
    ¬ ∀ actions, ∀ before, before <+: actions → (after (fun _ _ => true) before).Covered := by
  intro all
  have covered := all _ _ (List.prefix_refl [.store ⟨"t", "th", 1⟩,
    .claim ⟨"t", "th", 1⟩ .memoryExtract 1, .push 0, .dequeue 0 0, .process 0 none 0,
    .store ⟨"t", "th", 2⟩, .claim ⟨"t", "th", 2⟩ .memoryExtract 2])
    .memoryExtract ⟨"t", "th", 2⟩
  revert covered
  decide

end World

end AgentStudio.Queue.TurnJobs
