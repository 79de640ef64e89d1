import AgentStudio.Queue.Conservation

/-!
# Scheduled jobs

Any number of producers and of workers on Redis, each command and each pipeline
one step, and no step fails. A worker reads the jobs that are due and then moves
them in a pipeline that does not look whether they are still there: a job that
another worker has moved in between is pushed a second time. When a job is due is
told by its score, `scheduled_at.timestamp()`, where `scheduled_at` is a time in
UTC without a zone and `timestamp` takes such a time for local time.
-/

namespace AgentStudio.Queue.Scheduled

open Async

/-- Redis, and the time. -/
structure State where
  store : Store := {}
  clock : Nat := 0
  /-- Every job that was put on a queue, for the record. -/
  made : List Job := []
  /-- Every job that a worker has popped, and when, for the record. -/
  delivered : List (Job × Nat) := []

/-! ## Producers and workers -/

/-- `datetime.timestamp` of a time without a zone, by the zone of the machine. -/
abbrev Timestamp := Nat → Nat

/-- `_redis_enqueue`. -/
def redisEnqueue (timestamp : Timestamp) (job : Job) : Action Unit :=
  match job.scheduledAt with
  | some at_ => do
    let now : Nat ← Coro.call (I := Calls) .utcnow
    if now < at_ then
      Coro.call (I := Calls) (.zadd (queueKey job.priority) job (timestamp at_))
    else Coro.call (I := Calls) (.lpush (queueKey job.priority) job)
  | none => Coro.call (I := Calls) (.lpush (queueKey job.priority) job)

/-- `enqueue`, once the key is claimed. -/
def enqueue (timestamp : Timestamp) (job : Job) : Action Bool :=
  excepting
    (do
      guarded (redisEnqueue timestamp job)
      pure true)
    (pure false)

inductive Call where
  | enqueue (job : Job)
  | dequeue

def body (timestamp : Timestamp) : Call → Action (Option Job)
  | .enqueue job => do
    let _ ← enqueue timestamp job
    pure none
  | .dequeue => dequeue { redis := true }

/-- How Redis answers. The jobs that are put on a queue are all different: each has its own id, and
counts its retries. Only where `contended` does a pipeline move a job that is no longer there. -/
def Answer (contended : Prop) : Answers Calls Raised State
  | .breaker, s, r, s' => s' = s ∧ r = .ok ()
  | .utcnow, s, r, s' => s' = s ∧ r = .ok s.clock
  | .zadd level job score, s, r, s' => job ∉ s.made ∧ r = .ok () ∧
    s' = { s with store := s.store.zadd level job score, made := job :: s.made }
  | .lpush level job, s, r, s' => job ∉ s.made ∧ r = .ok () ∧
    s' = { s with store := s.store.lpush level job, made := job :: s.made }
  | .zrangebyscore level now, s, r, s' => s' = s ∧ r = .ok (s.store.zrangebyscore level now)
  | .move level jobs, s, r, s' =>
    (contended ∨ ∀ job ∈ jobs, ∃ score, (level, job, score) ∈ s.store.scheduled) ∧ r = .ok () ∧
      s' = { s with store := s.store.move level jobs }
  | .brpop level, s, r, s' => r = .ok (s.store.brpop level).1 ∧
    s' = { s with
      store := (s.store.brpop level).2
      delivered := s.delivered ++ (s.store.brpop level).1.toList.map fun job => (job, s.clock) }
  | op, s, r, s' => Queue.Answer False False op s.store r s'.store ∧
    s' = { s with store := s'.store }

/-- Time goes on. -/
def Later (s s' : State) : Prop := ∃ clock, s.clock ≤ clock ∧ s' = { s with clock := clock }

abbrev World := Shared Calls Raised (Except Raised (Option Job) × Unit) State

/-- A producer or a worker takes a step, or a call starts, or time goes on. -/
abbrev Step (timestamp : Timestamp) (contended : Prop) : World → World → Prop :=
  Shared.Step (Answer contended) Later fun _ task => ∃ call, task = body timestamp call ()

/-! ## Where a job is -/

/-- The jobs that are in a list or a sorted set, and those that were popped. -/
def State.places (s : State) : List Job :=
  s.store.queued.map Prod.snd ++ s.store.scheduled.map (fun e => e.2.1) ++ s.delivered.map Prod.fst

/-- A time is over, if there is one. -/
def Due (time : Nat) (job : Job) : Prop := ∀ at_, job.scheduledAt = some at_ → at_ ≤ time

/-- Every job is in one place. No job is in a list, and none was popped, before its time. -/
structure Sound (timestamp : Timestamp) (s : State) : Prop where
  made : s.made.Nodup
  places : s.places.Perm s.made
  scores : ∀ e ∈ s.store.scheduled, ∃ at_, e.2.1.scheduledAt = some at_ ∧ e.2.2 = timestamp at_
  queued : ∀ e ∈ s.store.queued, Due s.clock e.2
  delivered : ∀ e ∈ s.delivered, Due e.2 e.1

variable {timestamp : Timestamp} {contended : Prop} {s s' : State}

theorem Due.later {time time' : Nat} {job : Job} (due : Due time job) (le : time ≤ time') :
    Due time' job := fun at_ scheduled => (due at_ scheduled).trans le

theorem Sound.nodup (sound : Sound timestamp s) : s.places.Nodup :=
  sound.places.nodup_iff.mpr sound.made

theorem Sound.scheduled (sound : Sound timestamp s) :
    (s.store.scheduled.map fun e => e.2.1).Nodup :=
  (List.nodup_append.mp (List.nodup_append.mp sound.nodup).1).2.1

/-! ### Commands -/

theorem lpush_sound {level : Level} {job : Job} (sound : Sound timestamp s) (new : job ∉ s.made)
    (due : Due s.clock job) :
    Sound timestamp { s with store := s.store.lpush level job, made := job :: s.made } := by
  refine ⟨List.nodup_cons.mpr ⟨new, sound.made⟩, sound.places.cons job, sound.scores, ?_,
    sound.delivered⟩
  intro e mem
  rcases List.mem_cons.mp mem with rfl | old
  · exact due
  · exact sound.queued e old

theorem zadd_sound {level : Level} {job : Job} {at_ : Nat} (sound : Sound timestamp s)
    (new : job ∉ s.made) (scheduled : job.scheduledAt = some at_) :
    Sound timestamp { s with
      store := s.store.zadd level job (timestamp at_), made := job :: s.made } := by
  have absent : s.store.scheduled.filter (fun e => ¬ (e.1 = level ∧ e.2.1 = job)) =
      s.store.scheduled := by
    rw [List.filter_eq_self]
    intro e mem
    simp only [decide_eq_true_eq]
    rintro ⟨-, rfl⟩
    refine new (sound.places.subset ?_)
    exact List.mem_append_left _ (List.mem_append_right _ (List.mem_map.mpr ⟨e, mem, rfl⟩))
  refine ⟨List.nodup_cons.mpr ⟨new, sound.made⟩, ?_, ?_, sound.queued, sound.delivered⟩
  · have same := sound.places.cons job
    simp only [State.places, Store.zadd, absent, List.map_append, List.map_cons, List.map_nil] at same ⊢
    refine List.Perm.trans ?_ same
    grind
  · intro e mem
    simp only [Store.zadd, absent, List.mem_append, List.mem_singleton] at mem
    rcases mem with old | rfl
    · exact sound.scores e old
    · exact ⟨at_, scheduled, rfl⟩

/-- What a pipeline takes out of the sorted set it puts into the list. -/
theorem move_sound {level : Level} {jobs : List Job} (sound : Sound timestamp s)
    (nodup : jobs.Nodup) (due : ∀ job ∈ jobs, Due s.clock job)
    (there : ∀ job ∈ jobs, ∃ score, (level, job, score) ∈ s.store.scheduled) :
    Sound timestamp { s with store := s.store.move level jobs } := by
  let taken (e : Level × Job × Nat) : Bool := e.1 = level ∧ e.2.1 ∈ jobs
  have moved : ((s.store.scheduled.filter taken).map fun e => e.2.1).Perm jobs := by
    refine (List.perm_ext_iff_of_nodup (sound.scheduled.sublist (List.filter_sublist.map _))
      nodup).mpr fun job => ?_
    simp only [List.mem_map, List.mem_filter, taken, decide_eq_true_eq]
    constructor
    · rintro ⟨e, ⟨-, -, mem⟩, rfl⟩
      exact mem
    · intro mem
      obtain ⟨score, here⟩ := there job mem
      exact ⟨(level, job, score), ⟨here, rfl, mem⟩, rfl⟩
  have split := (List.filter_append_perm taken s.store.scheduled).map fun e => e.2.1
  refine ⟨sound.made, List.Perm.trans ?_ sound.places, ?_, ?_, sound.delivered⟩
  · have left : s.store.scheduled.filter (fun e => ¬ (e.1 = level ∧ e.2.1 ∈ jobs)) =
        s.store.scheduled.filter fun e => !taken e := by
      simp only [taken, decide_not]
    simp only [State.places, Store.move, left, List.map_append, List.map_map, Function.comp_def,
      List.map_id', List.map_reverse] at split ⊢
    have front := moved.symm.append_right ((s.store.scheduled.filter fun e => !taken e).map fun e => e.2.1)
    have reversed := jobs.reverse_perm
    grind
  · intro e mem
    exact sound.scores e (List.mem_of_mem_filter mem)
  · intro e mem
    rcases List.mem_append.mp mem with new | old
    · obtain ⟨job, moving, rfl⟩ := List.mem_map.mp new
      exact due job (List.mem_reverse.mp moving)
    · exact sound.queued e old

theorem popRight_entry (level : Level) {queued left : List (Level × Job)} {job : Job}
    (h : Store.popRight level queued = some (job, left)) : queued.Perm ((level, job) :: left) := by
  induction queued generalizing left with
  | nil => cases h
  | cons e rest ih =>
    obtain ⟨key, newest⟩ := e
    simp only [Store.popRight] at h
    split at h
    next oldest left' found =>
      obtain ⟨rfl, rfl⟩ := h
      exact ((ih found).cons _).trans (.swap ..)
    next =>
      split at h
      next here =>
        obtain ⟨rfl, rfl⟩ := h
        rw [here]
      next => cases h

/-- What is popped was in the list, and its time is over. -/
theorem brpop_sound (level : Level) (sound : Sound timestamp s) :
    Sound timestamp { s with
      store := (s.store.brpop level).2
      delivered := s.delivered ++ (s.store.brpop level).1.toList.map fun job => (job, s.clock) } := by
  unfold Store.brpop
  split
  next job left found =>
    have entry := popRight_entry level found
    refine ⟨sound.made, List.Perm.trans ?_ sound.places, sound.scores, ?_, ?_⟩
    · have jobs := entry.map Prod.snd
      simp only [State.places, Option.toList_some, List.map_append, List.map_cons, List.map_nil]
        at jobs ⊢
      grind
    · intro e mem
      exact sound.queued e (entry.symm.subset (List.mem_cons_of_mem _ mem))
    · intro e mem
      rcases List.mem_append.mp mem with old | new
      · exact sound.delivered e old
      · rw [Option.toList_some, List.map_singleton, List.mem_singleton] at new
        rw [new]
        exact sound.queued (level, job) (entry.symm.subset List.mem_cons_self)
  next => simpa using sound

theorem clock_sound {clock : Nat} (le : s.clock ≤ clock) (sound : Sound timestamp s) :
    Sound timestamp { s with clock := clock } :=
  ⟨sound.made, sound.places, sound.scores, fun e mem => (sound.queued e mem).later le,
    sound.delivered⟩

/-- What a worker reads as due is due, where no score is less than the time it stands for. -/
theorem zrangebyscore_due (late : ∀ at_, at_ ≤ timestamp at_) (level : Level) {now : Nat}
    (sound : Sound timestamp s) (past : now ≤ s.clock) :
    (s.store.zrangebyscore level now).Nodup ∧
      ∀ job ∈ s.store.zrangebyscore level now, Due s.clock job := by
  constructor
  · exact sound.scheduled.sublist (List.filter_sublist.map _)
  · intro job mem
    obtain ⟨e, here, rfl⟩ := List.mem_map.mp mem
    obtain ⟨here, due⟩ := List.mem_filter.mp here
    simp only [decide_eq_true_eq] at due
    obtain ⟨at_, scheduled, score⟩ := sound.scores e here
    intro at' scheduled'
    obtain rfl := Option.some.inj (scheduled.symm.trans scheduled')
    have := late at_
    omega

/-! ### Producers and workers -/

/-- What every step keeps. -/
def Kept (timestamp : Timestamp) (s s' : State) : Prop :=
  s.clock ≤ s'.clock ∧ (Sound timestamp s → Sound timestamp s')

abbrev SafeAt {α : Type} (timestamp : Timestamp) (action : Action α)
    (Q : Except Raised α → State → Prop) (s : State) : Prop :=
  action.Safe (Answer False) (Kept timestamp) (Kept timestamp) () (fun o _ => Q o) s

/-- The rule for a command: it finds the store sound, and leaves it sound. -/
theorem safe_op {α : Type} (op : Op) {k : op.Answer → Action α}
    {Q : Except Raised α → State → Prop} (sound : Sound timestamp s)
    (h : ∀ s₁ r s₂, Sound timestamp s₁ → s.clock ≤ s₁.clock → Answer False op s₁ r s₂ →
      s₂.clock = s₁.clock ∧ Sound timestamp s₂ ∧ ∃ a, r = .ok a ∧ SafeAt timestamp (k a) Q s₂) :
    SafeAt timestamp (Coro.call (I := Calls) op >>= k) Q s := by
  refine Coro.safe_call_bind (I := Calls) op ?_
  intro s₁ moved r s₂ answer
  obtain ⟨clock, sound', a, rfl, next⟩ := h s₁ r s₂ (moved.2 sound) moved.1 answer
  refine ⟨⟨clock.ge, fun _ => sound'⟩, ?_, fun e failed => by cases failed⟩
  rintro a' ⟨⟩
  exact next

theorem safe_last {op : Op} {Q : Except Raised op.Answer → State → Prop} (sound : Sound timestamp s)
    (h : ∀ s₁ r s₂, Sound timestamp s₁ → s.clock ≤ s₁.clock → Answer False op s₁ r s₂ →
      s₂.clock = s₁.clock ∧ Sound timestamp s₂ ∧ Q r s₂) :
    SafeAt timestamp (Coro.call (I := Calls) op) Q s := by
  refine Coro.safe_call (I := Calls) op ?_
  intro s₁ moved r s₂ answer
  obtain ⟨clock, sound', ended⟩ := h s₁ r s₂ (moved.2 sound) moved.1 answer
  exact ⟨⟨clock.ge, fun _ => sound'⟩, ended⟩

theorem lpush_safe {level : Level} {job : Job} (sound : Sound timestamp s)
    (due : Due s.clock job) :
    SafeAt timestamp (Coro.call (I := Calls) (.lpush level job)) (fun _ _ => True) s := by
  refine safe_last sound ?_
  rintro s₁ r s₂ sound₁ later ⟨new, rfl, rfl⟩
  exact ⟨rfl, lpush_sound sound₁ new (due.later later), trivial⟩

theorem redisEnqueue_safe (job : Job) (sound : Sound timestamp s) :
    SafeAt timestamp (redisEnqueue timestamp job) (fun _ _ => True) s := by
  unfold redisEnqueue
  split
  next at_ scheduled =>
    refine safe_op .utcnow sound ?_
    rintro s₁ r s₂ sound₁ - ⟨rfl, rfl⟩
    refine ⟨rfl, sound₁, s₂.clock, rfl, ?_⟩
    refine iteInduction (motive := fun action => SafeAt timestamp action _ s₂) (fun _ => ?_)
      fun past => lpush_safe sound₁ ?_
    · refine safe_last sound₁ ?_
      rintro s₃ r s₄ sound₃ - ⟨new, rfl, rfl⟩
      exact ⟨rfl, zadd_sound sound₃ new scheduled, trivial⟩
    · intro at' scheduled'
      obtain rfl := Option.some.inj (scheduled.symm.trans scheduled')
      exact not_lt.mp past
  next unscheduled =>
    refine lpush_safe sound fun at_ scheduled => ?_
    cases unscheduled.symm.trans scheduled

/-- Whatever a method does, an `except Exception` whose handler gives up does no more. -/
theorem excepting_safe {α : Type} {action : Action α} {a : α}
    (h : SafeAt timestamp action (fun _ _ => True) s) :
    SafeAt timestamp (excepting action (pure a)) (fun _ _ => True) s := by
  refine Coro.Safe.tryCatch h (fun _ _ _ _ => trivial) fun e v s' _ => ?_
  split
  · exact Coro.safe_pure a trivial
  · exact Coro.safe_throw e trivial

theorem guarded_safe {α : Type} {action : Action α} (sound : Sound timestamp s)
    (h : ∀ s₁, Sound timestamp s₁ → SafeAt timestamp action (fun _ _ => True) s₁) :
    SafeAt timestamp (guarded action) (fun _ _ => True) s := by
  refine safe_op .breaker sound ?_
  rintro s₁ r s₂ sound₁ - ⟨rfl, rfl⟩
  exact ⟨rfl, sound₁, (), rfl, h s₂ sound₁⟩

theorem enqueue_safe (job : Job) (sound : Sound timestamp s) :
    SafeAt timestamp (enqueue timestamp job) (fun _ _ => True) s := by
  refine excepting_safe ?_
  refine Coro.Safe.bind (guarded_safe sound fun s₁ sound₁ => redisEnqueue_safe job sound₁) ?_ ?_
  · exact fun _ _ _ _ => trivial
  · exact fun _ _ _ _ => trivial

theorem moveScheduledJobs_safe (late : ∀ at_, at_ ≤ timestamp at_) {now : Nat} (levels : List Level)
    (sound : Sound timestamp s) (past : now ≤ s.clock) :
    SafeAt timestamp (moveScheduledJobs now levels) (fun _ s' => Sound timestamp s') s := by
  induction levels generalizing s with
  | nil => exact sound
  | cons level levels ih =>
    refine safe_op (.zrangebyscore level now) sound ?_
    rintro s₁ r s₂ sound₁ later ⟨rfl, rfl⟩
    have past₂ : now ≤ s₂.clock := past.trans later
    refine ⟨rfl, sound₁, _, rfl, ?_⟩
    obtain ⟨nodup, due⟩ := zrangebyscore_due late level sound₁ past₂
    split
    · exact ih sound₁ past₂
    · refine safe_op (.move level _) sound₁ ?_
      rintro s₃ r s₄ sound₃ later₃ ⟨there, rfl, rfl⟩
      refine ⟨rfl, ?_, (), rfl, ?_⟩
      · exact move_sound sound₃ nodup (fun job mem => (due job mem).later later₃)
          (there.resolve_left id)
      · refine ih ?_ (past₂.trans later₃)
        exact move_sound sound₃ nodup (fun job mem => (due job mem).later later₃)
          (there.resolve_left id)

theorem popFirst_safe (levels : List Level) (sound : Sound timestamp s) :
    SafeAt timestamp (popFirst levels) (fun _ _ => True) s := by
  induction levels generalizing s with
  | nil => trivial
  | cons level levels ih =>
    refine safe_op (.brpop level) sound ?_
    rintro s₁ r s₂ sound₁ - ⟨rfl, rfl⟩
    refine ⟨rfl, brpop_sound level sound₁, _, rfl, ?_⟩
    split
    · trivial
    · exact ih (brpop_sound level sound₁)

theorem dequeue_safe (late : ∀ at_, at_ ≤ timestamp at_) (sound : Sound timestamp s) :
    SafeAt timestamp (dequeue { redis := true }) (fun _ _ => True) s := by
  refine excepting_safe (guarded_safe sound fun s₁ sound₁ => ?_)
  refine safe_op .utcnow sound₁ ?_
  rintro s₂ r s₃ sound₂ - ⟨rfl, rfl⟩
  refine ⟨rfl, sound₂, s₃.clock, rfl, ?_⟩
  refine Coro.Safe.bind (moveScheduledJobs_safe late _ sound₂ le_rfl) ?_ fun _ _ _ _ => trivial
  exact fun _ _ s' sound' => popFirst_safe _ sound'

theorem body_safe (late : ∀ at_, at_ ≤ timestamp at_) (call : Call) (sound : Sound timestamp s) :
    SafeAt timestamp (body timestamp call) (fun _ _ => True) s := by
  cases call with
  | enqueue job =>
    exact Coro.Safe.bind (enqueue_safe job sound) (fun _ _ _ _ => trivial) fun _ _ _ _ => trivial
  | dequeue => exact dequeue_safe late sound

/-! ## Runs -/

abbrev Run (timestamp : Timestamp) (contended : Prop) (w : World) : Prop :=
  Relation.ReflTransGen (Step timestamp contended) { store := {} } w

theorem run_sound (late : ∀ at_, at_ ≤ timestamp at_) {w : World} (run : Run timestamp False w) :
    Sound timestamp w.store := by
  have empty : Sound timestamp {} := by constructor <;> simp [State.places]
  have others (a b : State) : Later a b → Kept timestamp a b := by
    rintro ⟨clock, le, rfl⟩
    exact ⟨le, clock_sound le⟩
  have starts (w : World) (task : Tree Calls Raised (Except Raised (Option Job) × Unit))
      (may : ∃ call, task = body timestamp call ()) (sound : Sound timestamp w.store) :
      task.Safe (Answer False) (Kept timestamp) (Kept timestamp) (fun _ _ => True) w.store := by
    obtain ⟨call, rfl⟩ := may
    exact body_safe late call sound
  exact (Shared.concurrent_run (Sound timestamp) others (fun _ => ⟨le_rfl, id⟩)
    (fun _ _ _ first second => ⟨first.1.trans second.1, second.2 ∘ first.2⟩)
    (fun _ _ moved => moved.2) starts rfl empty run).1

/-! ## A poll that finds nothing -/

/-- A worker that polls while the others wait. -/
abbrev Polls (contended : Prop) (s : State) (r : Except Raised (Option Job)) (s' : State) : Prop :=
  Tree.Ends (Answer contended) Eq (dequeue { redis := true } ()) s (r, ()) s'

abbrev Alone {α : Type} (contended : Prop) (action : Action α)
    (Q : Except Raised α → State → Prop) (s : State) : Prop :=
  action.Safe (Answer contended) Eq (fun _ _ => True) () (fun o _ => Q o) s

theorem Alone.polls {Q : Except Raised (Option Job) → State → Prop} {r : Except Raised (Option Job)}
    (h : Alone contended (dequeue { redis := true }) Q s) (polls : Polls contended s r s') : Q r s' :=
  Tree.Safe.ends (Q := fun (w : Except Raised (Option Job) × Unit) s => Q w.1 s) h (fun _ _ => id)
    polls

theorem alone_op {α : Type} (op : Op) {k : op.Answer → Action α}
    {Q : Except Raised α → State → Prop}
    (h : ∀ r s', Answer contended op s r s' → ∃ a, r = .ok a ∧ Alone contended (k a) Q s') :
    Alone contended (Coro.call (I := Calls) op >>= k) Q s := by
  refine Coro.safe_call_bind (I := Calls) op ?_
  rintro s₁ rfl r s₂ answer
  obtain ⟨a, rfl, next⟩ := h r s₂ answer
  refine ⟨trivial, ?_, fun e failed => by cases failed⟩
  rintro a' ⟨⟩
  exact next

/-- No job of these levels is left whose score is over, and no job is left that was not there. -/
structure Cleared (now : Nat) (levels : List Level) (s s' : State) : Prop where
  clock : s'.clock = s.clock
  scheduled : s'.store.scheduled ⊆ s.store.scheduled
  ahead : ∀ e ∈ s'.store.scheduled, e.1 ∈ levels → now < e.2.2

theorem move_cleared {level : Level} {now : Nat} :
    Cleared now [level] s
      { s with store := s.store.move level (s.store.zrangebyscore level now) } := by
  refine ⟨rfl, fun e mem => List.mem_of_mem_filter mem, fun e kept here => ?_⟩
  obtain ⟨mem, left⟩ := List.mem_filter.mp kept
  obtain rfl := List.mem_singleton.mp here
  by_contra past
  have read : e.2.1 ∈ s.store.zrangebyscore e.1 now :=
    List.mem_map.mpr ⟨e, List.mem_filter.mpr ⟨mem, by simp; omega⟩, rfl⟩
  simp [read] at left

theorem Cleared.cons {now : Nat} {level : Level} {levels : List Level} {s'' : State}
    (first : Cleared now [level] s s') (rest : Cleared now levels s' s'') :
    Cleared now (level :: levels) s s'' := by
  refine ⟨rest.clock.trans first.clock, List.Subset.trans rest.scheduled first.scheduled, ?_⟩
  intro e mem here
  rcases List.mem_cons.mp here with rfl | later
  · exact first.ahead e (rest.scheduled mem) List.mem_cons_self
  · exact rest.ahead e mem later

theorem moveScheduledJobs_alone (now : Nat) (levels : List Level) :
    Alone contended (moveScheduledJobs now levels)
      (fun o s' => o = .ok () ∧ Cleared now levels s s') s := by
  induction levels generalizing s with
  | nil => exact ⟨rfl, rfl, List.Subset.refl _, by simp⟩
  | cons level levels ih =>
    refine alone_op (.zrangebyscore level now) ?_
    rintro r s₁ ⟨rfl, rfl⟩
    refine ⟨_, rfl, ?_⟩
    split
    next none_ =>
      refine Coro.Safe.mono ih ?_
      rintro o _ s' ⟨ended, cleared⟩
      refine ⟨ended, Cleared.cons ⟨rfl, List.Subset.refl _, fun e mem here => ?_⟩ cleared⟩
      obtain rfl := List.mem_singleton.mp here
      have unread : e ∉ s₁.store.scheduled.filter fun e' => e'.1 = e.1 ∧ e'.2.2 ≤ now := by
        rw [List.map_eq_nil_iff.mp none_]
        exact List.not_mem_nil
      simpa [mem] using unread
    next =>
      refine alone_op (.move level _) ?_
      rintro r s₂ ⟨-, rfl, rfl⟩
      refine ⟨(), rfl, Coro.Safe.mono ih ?_⟩
      rintro o _ s' ⟨ended, cleared⟩
      exact ⟨ended, move_cleared.cons cleared⟩

theorem popRight_none {level : Level} {queued : List (Level × Job)}
    (h : Store.popRight level queued = none) : ∀ e ∈ queued, e.1 ≠ level := by
  induction queued with
  | nil => simp
  | cons e rest ih =>
    obtain ⟨key, newest⟩ := e
    simp only [Store.popRight] at h
    split at h
    next => cases h
    next none_ =>
      split at h
      next => cases h
      next other =>
        intro e mem
        rcases List.mem_cons.mp mem with rfl | old
        · exact other
        · exact ih none_ e old

theorem popFirst_alone (levels : List Level) :
    Alone contended (popFirst levels)
      (fun o s' => (∃ popped, o = .ok popped) ∧
        (o = .ok none → s' = s ∧ ∀ e ∈ s.store.queued, e.1 ∉ levels)) s := by
  induction levels generalizing s with
  | nil => exact ⟨⟨none, rfl⟩, fun _ => ⟨rfl, by simp⟩⟩
  | cons level levels ih =>
    refine alone_op (.brpop level) ?_
    rintro r s₁ ⟨rfl, rfl⟩
    refine ⟨_, rfl, ?_⟩
    split
    next job found => exact ⟨⟨some job, rfl⟩, fun none_ => by cases none_⟩
    next none_ =>
      unfold Store.brpop at none_ ⊢
      split at none_
      · cases none_
      next absent =>
        refine Coro.Safe.mono ih ?_
        rintro o _ s' ⟨ended, rest⟩
        refine ⟨ended, fun nothing => ?_⟩
        obtain ⟨rfl, empty⟩ := rest nothing
        refine ⟨by simp, fun e mem here => ?_⟩
        rcases List.mem_cons.mp here with here | later
        · exact popRight_none absent e mem here
        · exact empty e mem later

/-- Where a poll finds nothing, no list has a job and no sorted set has one whose score is
over. -/
theorem dequeue_alone :
    Alone contended (dequeue { redis := true })
      (fun o s' => o = .ok none →
        s'.store.queued = [] ∧ ∀ e ∈ s'.store.scheduled, s'.clock < e.2.2) s := by
  have all (level : Level) : level ∈ [Level.high, .default, .low] := by cases level <;> simp
  have polled {s : State} : Alone contended redisDequeue (fun o s' => (∃ popped, o = .ok popped) ∧
      (o = .ok none → s'.store.queued = [] ∧ ∀ e ∈ s'.store.scheduled, s'.clock < e.2.2)) s := by
    refine alone_op .utcnow ?_
    rintro r s₁ ⟨rfl, rfl⟩
    refine ⟨_, rfl, ?_⟩
    refine Coro.Safe.bind (moveScheduledJobs_alone s₁.clock _) ?_ ?_
    · rintro _ _ s₂ ⟨-, cleared⟩
      refine Coro.Safe.mono (popFirst_alone _) ?_
      rintro o _ s₃ ⟨ended, rest⟩
      refine ⟨ended, fun nothing => ?_⟩
      obtain ⟨rfl, empty⟩ := rest nothing
      constructor
      · exact List.eq_nil_iff_forall_not_mem.mpr fun e mem => empty e mem (all e.1)
      · intro e mem
        rw [cleared.clock]
        exact cleared.ahead e mem (all e.1)
    · rintro e _ s₂ ⟨failed, -⟩
      cases failed
  refine Coro.Safe.tryCatch (P := fun o _ s' => (∃ popped, o = .ok popped) ∧
    (o = .ok none → s'.store.queued = [] ∧ ∀ e ∈ s'.store.scheduled, s'.clock < e.2.2)) ?_ ?_ ?_
  · refine alone_op .breaker ?_
    rintro r s₁ ⟨rfl, rfl⟩
    exact ⟨(), rfl, polled⟩
  · exact fun popped _ s' h => h.2
  · rintro e _ s' ⟨⟨popped, failed⟩, -⟩
    cases failed

theorem polls_sound (late : ∀ at_, at_ ≤ timestamp at_) {r : Except Raised (Option Job)}
    (sound : Sound timestamp s) (polls : Polls False s r s') : Sound timestamp s' := by
  refine Tree.Safe.keeps (dequeue_safe late sound) ?_ ?_ (fun _ _ moved => moved.2) polls sound
  · rintro a b rfl
    exact ⟨le_rfl, id⟩
  · rintro a b rfl
    exact id

/-- In every run in which no pipeline moves a job that is no longer there, and where no score is
less than the time it stands for, each job that was put on a queue is in exactly one place, waiting
or popped once; none was popped before its time; and once a poll finds nothing, each whose score is
over was popped once. -/
theorem delivered_once (late : ∀ at_, at_ ≤ timestamp at_) {w : World}
    (run : Run timestamp False w) :
    (∀ job ∈ w.store.made, w.store.places.count job = 1) ∧
      (∀ job time at_, (job, time) ∈ w.store.delivered → job.scheduledAt = some at_ → at_ ≤ time) ∧
      ∀ s', Polls False w.store (.ok none) s' → ∀ job ∈ s'.made,
        (∀ at_, job.scheduledAt = some at_ → timestamp at_ ≤ s'.clock) →
          (s'.delivered.map Prod.fst).count job = 1 := by
  have sound := run_sound late run
  refine ⟨fun job mem => ?_, fun job time at_ mem => sound.delivered _ mem at_, ?_⟩
  · exact List.count_eq_one_of_mem sound.nodup (sound.places.symm.subset mem)
  · intro s' polls job mem over_
    have sound' := polls_sound late sound polls
    obtain ⟨queued, ahead⟩ := dequeue_alone.polls polls rfl
    have once := List.count_eq_one_of_mem sound'.nodup (sound'.places.symm.subset mem)
    have waiting : job ∉ s'.store.scheduled.map fun e => e.2.1 := by
      intro waits
      obtain ⟨e, here, rfl⟩ := List.mem_map.mp waits
      obtain ⟨at_, scheduled, score⟩ := sound'.scores e here
      have := over_ at_ scheduled
      have := ahead e here
      omega
    simpa [State.places, queued, List.count_eq_zero.mpr waiting] using once

/-! ## Jobs that are delivered twice, or early -/

/-- What Redis answers. -/
def answering : (op : Op) → State → Except Raised op.Answer × State
  | .breaker, s => (.ok (), s)
  | .utcnow, s => (.ok s.clock, s)
  | .zadd level job score, s =>
    (.ok (), { s with store := s.store.zadd level job score, made := job :: s.made })
  | .lpush level job, s =>
    (.ok (), { s with store := s.store.lpush level job, made := job :: s.made })
  | .zrangebyscore level now, s => (.ok (s.store.zrangebyscore level now), s)
  | .move level jobs, s => (.ok (), { s with store := s.store.move level jobs })
  | .brpop level, s =>
    (.ok (s.store.brpop level).1, { s with
      store := (s.store.brpop level).2
      delivered := s.delivered ++ (s.store.brpop level).1.toList.map fun job => (job, s.clock) })
  | op, s =>
    ((Queue.answering false op s.store).1,
      { s with store := (Queue.answering false op s.store).2 })

/-- Whether it may answer so: the job is new, and those that are moved are there. -/
def allowed (contended : Bool) : Op → State → Bool
  | .zadd _ job _, s | .lpush _ job, s => job ∉ s.made
  | .move level jobs, s =>
    contended || jobs.all fun job => s.store.scheduled.any fun e => e.1 = level ∧ e.2.1 = job
  | _, _ => true

theorem answering_answer {contended : Bool} (op : Op) (s : State)
    (may : allowed contended op s = true) :
    Answer (contended = true) op s (answering op s).1 (answering op s).2 := by
  cases op with
  | zadd | lpush => exact ⟨of_decide_eq_true may, rfl, rfl⟩
  | move level jobs =>
    refine ⟨?_, rfl, rfl⟩
    rcases Bool.or_eq_true_iff.mp may with yes | there
    · exact .inl yes
    · refine .inr fun job mem => ?_
      obtain ⟨e, here, same⟩ := List.any_eq_true.mp (List.all_eq_true.mp there job mem)
      obtain ⟨rfl, rfl⟩ := of_decide_eq_true same
      exact ⟨e.2.2, here⟩
  | breaker | utcnow | zrangebyscore | brpop => exact ⟨rfl, rfl⟩
  | claim | lpushDead | memoryPush | memoryPop | memoryDead | sleep | alreadyProcessed | markProcessed
  | hasHandler | handle | backoff =>
    have others (op : Op) : Queue.Answer False False op s.store (Queue.answering false op s.store).1
        (Queue.answering false op s.store).2 := Queue.answering_answer (by simp) op s.store
    exact ⟨others _, rfl⟩

/-- The world after the task at `i` got its answer, if it may. -/
def serve (contended : Bool) (w : World) (i : Nat) : World :=
  match w.tasks[i]? with
  | some (.await op k) =>
    if allowed contended op w.store then
      ⟨(answering op w.store).2, w.tasks.set i (k (answering op w.store).1)⟩
    else w
  | _ => w

theorem serve_run {contended : Bool} {w : World} (schedule : List Nat)
    (run : Run timestamp (contended = true) w) :
    Run timestamp (contended = true) (schedule.foldl (serve contended) w) := by
  induction schedule generalizing w with
  | nil => exact run
  | cons i schedule ih =>
    refine ih ?_
    unfold serve
    split
    next op k here =>
      split
      next may => exact .tail run (.answer w i op k here _ _ (answering_answer op w.store may))
      next => exact run
    next => exact run

def start (timestamp : Timestamp) (call : Call) (w : World) : World :=
  { w with tasks := w.tasks ++ [body timestamp call ()] }

def wait (clock : Nat) (w : World) : World := { w with store := { w.store with clock := clock } }

theorem start_run {w : World} (run : Run timestamp contended w) (call : Call) :
    Run timestamp contended (start timestamp call w) :=
  .tail run (.start w _ ⟨call, rfl⟩)

theorem wait_run {w : World} (run : Run timestamp contended w) {clock : Nat}
    (le : w.store.clock ≤ clock) : Run timestamp contended (wait clock w) :=
  .tail run (.env w _ ⟨clock, le, rfl⟩)

/-- A job that is due at 3600. -/
def hourly : Job := { id := 1, scheduledAt := some 3600 }

/-- The job was put on a queue, and at `clock` two workers start to poll. -/
def polled (contended : Bool) (timestamp : Timestamp) (clock : Nat) : World :=
  start timestamp .dequeue (start timestamp .dequeue (wait clock
    ([0, 0, 0].foldl (serve contended) (start timestamp (.enqueue hourly) { store := {} }))))

theorem polled_run (contended : Bool) (timestamp : Timestamp) (clock : Nat) :
    Run timestamp (contended = true) (polled contended timestamp clock) := by
  have put : Run timestamp (contended = true)
      ([0, 0, 0].foldl (serve contended) (start timestamp (.enqueue hourly) { store := {} })) :=
    serve_run _ (start_run .refl _)
  have zero : ([0, 0, 0].foldl (serve contended)
      (start timestamp (.enqueue hourly) { store := {} })).store.clock = 0 := by
    cases contended <;> rfl
  exact start_run (start_run (wait_run put (zero.le.trans (Nat.zero_le clock))) _) _

/-- One polls at 3600. -/
def once : World := [1, 1, 1, 1, 1, 1, 1, 1].foldl (serve false) (polled false id 3600)

theorem delivered_once_hourly : (hourly, 3600) ∈ once.store.delivered ∧
    (∀ job ∈ once.store.made, once.store.places.count job = 1) ∧
      (∀ job time at_, (job, time) ∈ once.store.delivered → job.scheduledAt = some at_ →
        at_ ≤ time) ∧
      ∀ s', Polls False once.store (.ok none) s' → ∀ job ∈ s'.made,
        (∀ at_, job.scheduledAt = some at_ → at_ ≤ s'.clock) →
          (s'.delivered.map Prod.fst).count job = 1 := by
  have run := serve_run [1, 1, 1, 1, 1, 1, 1, 1] (polled_run false id 3600)
  rw [Bool.false_eq_true] at run
  exact ⟨by decide, delivered_once (fun _ => le_rfl) run⟩

/-- Both read the job as due, and both move it. -/
def twice : World :=
  [1, 1, 1, 1, 2, 2, 2, 2, 2, 2, 2, 2, 1, 1, 1, 1].foldl (serve true) (polled true id 3600)

/-- One polls an hour early, where local time is an hour ahead of UTC. -/
def early : World :=
  [1, 1, 1, 1, 1, 1, 1, 1].foldl (serve false) (polled false (fun at_ => at_ - 3600) 0)

/-- A job is delivered twice; and a job is delivered an hour before its time. -/
theorem twice_early :
    (∃ w : World, Run id True w ∧ (w.store.delivered.map Prod.fst).count hourly = 2) ∧
      ∃ w : World, Run (fun at_ => at_ - 3600) False w ∧ (hourly, 0) ∈ w.store.delivered ∧
        hourly.scheduledAt = some 3600 := by
  have run := serve_run [1, 1, 1, 1, 2, 2, 2, 2, 2, 2, 2, 2, 1, 1, 1, 1] (polled_run true id 3600)
  have run' := serve_run [1, 1, 1, 1, 1, 1, 1, 1] (polled_run false (fun at_ => at_ - 3600) 0)
  rw [Bool.false_eq_true] at run'
  exact ⟨⟨twice, eq_true (rfl : true = true) ▸ run, by decide⟩, early, run', by decide, rfl⟩

end AgentStudio.Queue.Scheduled
