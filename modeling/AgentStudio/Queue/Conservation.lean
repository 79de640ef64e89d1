import AgentStudio.Queue.Manager

/-!
# Where a job is

Any number of producers and workers: methods run one after the other, in any
order, and a job that was dequeued is in hand until it is processed. A job in
hand whose handler fails is put in exactly one place, the queue or the dead
letters, unless the push that puts it there fails without effect (or the
circuit breaker refuses it): then it is nowhere.
-/

namespace AgentStudio.Queue

open Async

/-- A Redis command, the breaker or a handler has raised. -/
def Failed {α : Type} (r : Except Raised α) : Prop := ∃ message, r = .error (.exception message)

/-- How the calls are answered. Only where `refused` does a push that fails, or that the breaker
refuses, have no effect; only where `lossy` has a pop that fails taken a job. -/
def Answer (refused lossy : Prop) : Answers Calls Raised Store
  | .claim redis key, s, r, s' =>
    s' = (s.claim redis key).2 ∧ r = .ok (s.claim redis key).1 ∨
      redis = true ∧ Failed r ∧ (s' = s ∨ s' = (s.claim redis key).2)
  | .breaker, s, r, s' => s' = s ∧ (r = .ok () ∨ refused ∧ Failed r)
  | .utcnow, s, r, s' => s' = s ∧ ∃ time, r = .ok time
  | .backoff _, s, r, s' => s' = s ∧ ∃ delay, r = .ok delay
  | .zadd level job score, s, r, s' =>
    s' = s.zadd level job score ∧ (r = .ok () ∨ Failed r) ∨ refused ∧ s' = s ∧ Failed r
  | .lpush level job, s, r, s' =>
    s' = s.lpush level job ∧ (r = .ok () ∨ Failed r) ∨ refused ∧ s' = s ∧ Failed r
  | .lpushDead job, s, r, s' =>
    s' = s.lpushDead job ∧ (r = .ok () ∨ Failed r) ∨ refused ∧ s' = s ∧ Failed r
  | .zrangebyscore level now, s, r, s' =>
    s' = s ∧ (r = .ok (s.zrangebyscore level now) ∨ Failed r)
  | .move level jobs, s, r, s' =>
    s' = s.move level jobs ∧ (r = .ok () ∨ Failed r) ∨ s' = s ∧ Failed r
  | .brpop level, s, r, s' =>
    s' = (s.brpop level).2 ∧ (r = .ok (s.brpop level).1 ∨ lossy ∧ Failed r) ∨ s' = s ∧ Failed r
  | .memoryPush job, s, r, s' =>
    s' = { s with inMemoryQueue := s.inMemoryQueue ++ [job] } ∧ r = .ok ()
  | .memoryPop, s, r, s' => s' = s.memoryPop.2 ∧ r = .ok s.memoryPop.1
  | .memoryDead job, s, r, s' =>
    s' = { s with deadLetters := s.deadLetters ++ [job] } ∧ r = .ok ()
  | .sleep, s, r, s' => s' = s ∧ r = .ok ()
  | .alreadyProcessed key, s, r, s' => s' = s ∧ r = .ok (decide (key ∈ s.idemProcessed))
  | .markProcessed key, s, r, s' =>
    s' = { s with idemProcessed := key :: s.idemProcessed } ∧ r = .ok ()
  | .hasHandler _, s, r, s' => s' = s ∧ ∃ known, r = .ok known
  | .handle _, s, r, s' => s' = s ∧ (r = .ok () ∨ Failed r)

/-- The queue, and the jobs that workers have in hand. -/
structure World where
  store : Store := {}
  hands : List Job := []
  /-- Every job that was made, for the record. -/
  made : List JobId := []
  /-- Every job that was dequeued, for the record. -/
  taken : List JobId := []
  /-- Every job that `process_job` has done with, for the record. -/
  finished : List JobId := []

/-- What `dequeue` has returned. -/
def popped : Except Raised (Option Job) → List Job
  | .ok (some job) => [job]
  | _ => []

/-- A method that runs to its end. -/
abbrev Does {α : Type} (refused lossy : Prop) (action : Action α) (s : Store) (r : Except Raised α)
    (s' : Store) : Prop := Tree.Ends (Answer refused lossy) Eq (action ()) s (r, ()) s'

/-- The pushes of a producer and the pop of a worker may always be refused. -/
inductive Step (config : Config) (lossy : Prop) : World → World → Prop
  | enqueue (w : World) (job : Job) (key : Option String) (fresh : job.id ∉ w.made)
      (r : Except Raised Bool) (store : Store)
      (does : Does True lossy (enqueue config job key) w.store r store) :
      Step config lossy w { w with store := store, made := job.id :: w.made }
  | dequeue (w : World) (r : Except Raised (Option Job)) (store : Store)
      (does : Does True lossy (dequeue config) w.store r store) :
      Step config lossy w { w with
        store := store
        hands := w.hands ++ popped r
        taken := w.taken ++ (popped r).map Job.id }
  | process (w : World) (i : Nat) (job : Job) (here : w.hands[i]? = some job)
      (r : Except Raised Bool) (store : Store)
      (does : Does lossy lossy (processJob config job) w.store r store) :
      Step config lossy w { w with
        store := store
        hands := w.hands.eraseIdx i
        finished := w.finished ++ if r = .ok true then [job.id] else [] }

namespace Store

variable (s : Store)

/-- The jobs that wait for an attempt. -/
def waiting : List JobId :=
  s.queued.map (fun e => e.2.id) ++ s.scheduled.map (fun e => e.2.1.id) ++
    s.inMemoryQueue.map Job.id

def deads : List JobId := (s.dead ++ s.deadLetters).map Job.id

end Store

/-! ## Methods -/

variable {config : Config} {refused lossy : Prop} {s s' : Store}

/-- No job has moved but between the lists that wait. -/
structure Same (s s' : Store) : Prop where
  waiting : s'.waiting.Perm s.waiting
  deads : s'.deads.Perm s.deads

structure Queued (id : JobId) (s s' : Store) : Prop where
  waiting : s'.waiting.Perm (id :: s.waiting)
  deads : s'.deads.Perm s.deads

structure Buried (id : JobId) (s s' : Store) : Prop where
  waiting : s'.waiting.Perm s.waiting
  deads : s'.deads.Perm (id :: s.deads)

theorem Same.refl (s : Store) : Same s s := ⟨.refl _, .refl _⟩

theorem Same.trans {s₁ s₂ s₃ : Store} (h : Same s₁ s₂) (h' : Same s₂ s₃) : Same s₁ s₃ :=
  ⟨h'.waiting.trans h.waiting, h'.deads.trans h.deads⟩

/-! ### Commands -/

namespace Store

theorem lpush_queued (s : Store) (level : Level) (job : Job) : Queued job.id s (s.lpush level job) :=
  ⟨.refl _, .refl _⟩

theorem zadd_queued {level : Level} {job : Job} {score : Nat} (new : job.id ∉ s.waiting) :
    Queued job.id s (s.zadd level job score) := by
  have absent : s.scheduled.filter (fun e => ¬ (e.1 = level ∧ e.2.1 = job)) = s.scheduled := by
    rw [List.filter_eq_self]
    intro e mem
    simp only [decide_eq_true_eq]
    rintro ⟨-, rfl⟩
    exact new (by simp only [waiting, List.mem_append, List.mem_map]; exact .inl (.inr ⟨e, mem, rfl⟩))
  refine ⟨?_, .refl _⟩
  simp only [waiting, zadd, absent, List.map_append, List.map_cons, List.map_nil]
  grind

/-- A job that is due moves from the sorted set to the list. -/
theorem move_same (nodup : s.waiting.Nodup) (level : Level) (now : Nat) :
    Same s (s.move level (s.zrangebyscore level now)) := by
  let due (e : Level × Job × Nat) : Bool := e.1 = level ∧ e.2.2 ≤ now
  have ids : (s.scheduled.map fun e => e.2.1.id).Nodup :=
    (List.nodup_append.mp (List.nodup_append.mp nodup).1).2.1
  -- the members removed are the entries that were due
  have left : (s.move level (s.zrangebyscore level now)).scheduled =
      s.scheduled.filter fun e => !due e := by
    refine List.filter_congr fun e mem => ?_
    have same : (e.1 = level ∧ e.2.1 ∈ s.zrangebyscore level now) ↔ due e = true := by
      simp only [zrangebyscore, List.mem_map, List.mem_filter, due, decide_eq_true_eq]
      constructor
      · rintro ⟨-, e', ⟨mem', isDue⟩, job⟩
        have eq := List.inj_on_of_nodup_map ids mem' mem (congrArg Job.id job)
        exact eq ▸ isDue
      · intro isDue
        exact ⟨isDue.1, e, ⟨mem, isDue⟩, rfl⟩
    simp only [same, Bool.not_eq_true, Bool.decide_eq_false]
  have split := (List.filter_append_perm due s.scheduled).map fun e => e.2.1.id
  refine ⟨?_, .refl _⟩
  rw [waiting, left]
  simp only [waiting, move, zrangebyscore, List.map_append, List.map_map, List.map_reverse,
    Function.comp_def] at split ⊢
  have moved := List.reverse_perm ((s.scheduled.filter due).map fun e => e.2.1.id)
  refine List.Perm.append_right _ ?_
  set jobs := (s.scheduled.filter due).map fun e => e.2.1.id
  set rest := (s.scheduled.filter fun e => !due e).map fun e => e.2.1.id
  set queued := s.queued.map fun e => e.2.id
  have front : (jobs.reverse ++ queued ++ rest).Perm (queued ++ (jobs ++ rest)) := by
    rw [← List.append_assoc queued]
    exact ((moved.append_right queued).trans List.perm_append_comm).append_right rest
  exact front.trans (split.append_left queued)

theorem popRight_perm (level : Level) {queued left : List (Level × Job)} {job : Job}
    (h : popRight level queued = some (job, left)) :
    (queued.map fun e => e.2.id).Perm (job.id :: left.map fun e => e.2.id) := by
  induction queued generalizing left with
  | nil => cases h
  | cons e rest ih =>
    obtain ⟨key, newest⟩ := e
    simp only [popRight] at h
    split at h
    next oldest left' found =>
      obtain ⟨rfl, rfl⟩ := h
      exact ((ih found).cons _).trans (.swap ..)
    next =>
      split at h
      · obtain ⟨rfl, rfl⟩ := h
        exact .refl _
      · cases h

theorem brpop_takes (level : Level) {job : Job} (h : (s.brpop level).1 = some job) :
    Queued job.id (s.brpop level).2 s := by
  unfold brpop at h ⊢
  split at h
  next oldest left found =>
    obtain rfl := Option.some.inj h
    refine ⟨?_, .refl _⟩
    have := popRight_perm level found
    simp only [waiting]
    grind
  next => cases h

theorem brpop_none (level : Level) (h : (s.brpop level).1 = none) : (s.brpop level).2 = s := by
  unfold brpop at h ⊢
  split at h
  · cases h
  · rfl

theorem memoryPop_takes {job : Job} (h : s.memoryPop.1 = some job) :
    Queued job.id s.memoryPop.2 s := by
  unfold memoryPop at h ⊢
  split at h
  next first rest found =>
    obtain rfl := Option.some.inj h
    refine ⟨?_, .refl _⟩
    simp only [waiting, found, List.map_cons]
    grind
  next => cases h

end Store

/-! ### Rules -/

abbrev SafeAt {α : Type} (refused lossy : Prop) (action : Action α)
    (Q : Except Raised α → Store → Prop) (s : Store) : Prop :=
  action.Safe (Answer refused lossy) Eq (fun _ _ => True) () (fun o _ => Q o) s

theorem SafeAt.does {α : Type} {action : Action α} {Q : Except Raised α → Store → Prop}
    {r : Except Raised α} (h : SafeAt refused lossy action Q s)
    (does : Does refused lossy action s r s') : Q r s' :=
  Tree.Safe.ends (Q := fun (w : Except Raised α × Unit) s => Q w.1 s) h (fun _ _ => id) does

theorem safe_op {α : Type} (op : Op) {k : op.Answer → Action α}
    {Q : Except Raised α → Store → Prop}
    (h : ∀ r s', Answer refused lossy op s r s' →
      (∀ a, r = .ok a → SafeAt refused lossy (k a) Q s') ∧ ∀ e, r = .error e → Q (.error e) s') :
    SafeAt refused lossy (Coro.call (I := Calls) op >>= k) Q s := by
  refine Coro.safe_call_bind (I := Calls) op ?_
  rintro s₁ rfl r s₂ answer
  exact ⟨trivial, h r s₂ answer⟩

theorem excepting_safe {α : Type} {body handler : Action α} {P Q : Except Raised α → Store → Prop}
    (h : SafeAt refused lossy body P s) (ok : ∀ a s', P (.ok a) s' → Q (.ok a) s')
    (error : ∀ e s', P (.error e) s' → e.isException = false → Q (.error e) s')
    (handled : ∀ e s', P (.error e) s' → SafeAt refused lossy handler Q s') :
    SafeAt refused lossy (excepting body handler) Q s := by
  refine Coro.Safe.tryCatch h (fun a _ s' => ok a s') fun e v s' failed => ?_
  split
  next => exact handled e s' failed
  next uncaught => exact error e s' failed (Bool.eq_false_iff.mpr uncaught)

/-- Whatever it raises, `except Exception` catches. -/
def Caught {α : Type} (o : Except Raised α) : Prop := ∀ e, o = .error e → e.isException = true

theorem Caught.of_ok {α : Type} {o : Except Raised α} {a : α} (h : o = .ok a ∨ Failed o) :
    Caught o := by
  rcases h with rfl | ⟨message, rfl⟩
  · intro e h
    cases h
  · intro e h
    cases h
    rfl

/-- What is raised on is the same exception. -/
theorem Caught.raised {α β : Type} {e : Raised} (h : Caught (.error e : Except Raised α)) :
    Caught (.error e : Except Raised β) := by
  intro e' same
  cases same
  exact h e rfl

/-- An `except Exception` around what raises nothing else. -/
theorem excepting_caught {α : Type} {body handler : Action α} {P : Store → Prop}
    {Q : Except Raised α → Store → Prop}
    (h : SafeAt refused lossy body (fun o s' => Caught o ∧ P s') s)
    (ok : ∀ a s', P s' → Q (.ok a) s')
    (handled : ∀ s', P s' → SafeAt refused lossy handler Q s') :
    SafeAt refused lossy (excepting body handler) Q s := by
  refine excepting_safe h (fun a s' h => ok a s' h.2) ?_ fun e s' h => handled s' h.2
  rintro e s' ⟨caught, -⟩ uncaught
  exact absurd ((caught e rfl).symm.trans uncaught) (by simp)

/-! ### Pushes -/

/-- What becomes of a push. -/
def Pushed (refused : Prop) (id : JobId) (s s' : Store) : Prop :=
  Queued id s s' ∨ refused ∧ s' = s

theorem zadd_safe {level : Level} {job : Job} {score : Nat} (new : job.id ∉ s.waiting) :
    SafeAt refused lossy (Coro.call (I := Calls) (.zadd level job score))
      (fun o s' => Caught o ∧ Pushed refused job.id s s') s := by
  refine Coro.safe_call (I := Calls) _ ?_
  rintro s₁ rfl r s' (⟨rfl, ended⟩ | ⟨may, rfl, failed⟩)
  · exact ⟨trivial, .of_ok ended, .inl (Store.zadd_queued new)⟩
  · exact ⟨trivial, .of_ok (a := ()) (.inr failed), .inr ⟨may, rfl⟩⟩

theorem lpush_safe {level : Level} {job : Job} :
    SafeAt refused lossy (Coro.call (I := Calls) (.lpush level job))
      (fun o s' => Caught o ∧ Pushed refused job.id s s') s := by
  refine Coro.safe_call (I := Calls) _ ?_
  rintro s₁ rfl r s' (⟨rfl, ended⟩ | ⟨may, rfl, failed⟩)
  · exact ⟨trivial, .of_ok ended, .inl (Store.lpush_queued _ level job)⟩
  · exact ⟨trivial, .of_ok (a := ()) (.inr failed), .inr ⟨may, rfl⟩⟩

theorem redisEnqueue_safe {job : Job} (new : job.id ∉ s.waiting) :
    SafeAt refused lossy (redisEnqueue job)
      (fun o s' => Caught o ∧ Pushed refused job.id s s') s := by
  unfold redisEnqueue
  split
  · refine safe_op .utcnow ?_
    rintro r s' ⟨rfl, time, rfl⟩
    refine ⟨fun (now : Nat) _ => ?_, fun e failed => by cases failed⟩
    exact iteInduction (motive := fun action => SafeAt refused lossy action _ s')
      (fun _ => zadd_safe new) fun _ => lpush_safe
  · exact lpush_safe

theorem push_safe {job : Job} (new : job.id ∉ s.waiting) :
    SafeAt refused lossy (push config job)
      (fun o s' => (∃ accepted, o = .ok accepted) ∧ Pushed refused job.id s s') s := by
  unfold push
  split
  · refine excepting_caught (P := Pushed refused job.id s) ?_ (fun a _ pushed => ⟨⟨a, rfl⟩, pushed⟩)
      fun _ pushed => ⟨⟨false, rfl⟩, pushed⟩
    refine Coro.Safe.bind (P := fun o _ s' => Caught o ∧ Pushed refused job.id s s') ?_
      (fun _ _ _ h => ⟨.of_ok (.inl rfl), h.2⟩) fun e _ _ h => ⟨h.1.raised, h.2⟩
    · refine safe_op .breaker ?_
      rintro r s' ⟨rfl, ended⟩
      refine ⟨fun _ _ => redisEnqueue_safe new, fun e failed => ?_⟩
      subst failed
      rcases ended with ended | ⟨may, failed⟩
      · cases ended
      · exact ⟨.of_ok (a := ()) (.inr failed), .inr ⟨may, rfl⟩⟩
  · rintro s₁ rfl r s' ⟨rfl, -⟩
    refine ⟨trivial, ⟨true, rfl⟩, .inl ⟨?_, .refl _⟩⟩
    simp only [Store.waiting, List.map_append, List.map_cons, List.map_nil]
    grind

theorem claim_same (redis : Bool) (key : String) : Same s (s.claim redis key).2 := by
  unfold Store.claim
  split <;> exact ⟨.refl _, .refl _⟩

/-- A producer's job is queued, or it is nowhere. -/
theorem enqueue_safe {job : Job} (key : Option String) (new : job.id ∉ s.waiting) :
    SafeAt refused lossy (enqueue config job key)
      (fun _ s' => Queued job.id s s' ∨ Same s s') s := by
  have pushed {s₁ s' : Store} {job : Job} (h : Pushed refused job.id s₁ s') (same : Same s s₁) :
      Queued job.id s s' ∨ Same s s' := by
    rcases h with queued | ⟨-, rfl⟩
    · exact .inl ⟨queued.waiting.trans (same.waiting.cons _), queued.deads.trans same.deads⟩
    · exact .inr same
  unfold enqueue
  split
  · exact Coro.Safe.mono (push_safe new) fun _ _ _ h => pushed h.2 (.refl s)
  · split
    · exact Coro.Safe.mono (push_safe new) fun _ _ _ h => pushed h.2 (.refl s)
    next key _ =>
      refine safe_op (.claim config.redis key) ?_
      intro r s' answer
      have same : Same s s' := by
        rcases answer with ⟨rfl, -⟩ | ⟨-, -, rfl | rfl⟩
        · exact claim_same _ _
        · exact .refl _
        · exact claim_same _ _
      refine ⟨fun claimed _ => ?_, fun _ _ => .inr same⟩
      split
      · have still : job.id ∉ s'.waiting := fun mem => new (same.waiting.subset mem)
        exact Coro.Safe.mono (push_safe still) fun _ _ _ h => pushed h.2 same
      · exact .inr same

/-! ### Processing -/

/-- What becomes of a job that is given up. -/
theorem sendToDeadLetter_safe (job : Job) :
    SafeAt refused lossy (sendToDeadLetter config job)
      (fun o s' => o = .ok () ∧ (Buried job.id s s' ∨ refused)) s := by
  unfold sendToDeadLetter
  split
  · refine excepting_caught (P := fun s' => Buried job.id s s' ∨ refused) ?_
      (fun _ _ h => ⟨rfl, h⟩) fun _ h => ⟨rfl, h⟩
    refine Coro.safe_call (I := Calls) _ ?_
    rintro s₁ rfl r s' (⟨rfl, ended⟩ | ⟨may, rfl, failed⟩)
    · exact ⟨trivial, .of_ok ended, .inl ⟨.refl _, .refl _⟩⟩
    · exact ⟨trivial, .of_ok (a := ()) (.inr failed), .inr may⟩
  · rintro s₁ rfl r s' ⟨rfl, -⟩
    refine ⟨trivial, rfl, .inl ⟨.refl _, ?_⟩⟩
    simp only [Store.deads, List.map_append, List.map_cons, List.map_nil]
    grind

/-- A job whose handler failed is queued again, or it is given up. -/
theorem retry_safe (job : Job) (error : String) (new : job.id ∉ s.waiting) :
    SafeAt refused lossy (retry config job error)
      (fun o s' => o = .ok () ∧ (Queued job.id s s' ∨ Buried job.id s s' ∨ refused)) s := by
  simp only [retry]
  split
  · refine safe_op (.backoff _) ?_
    rintro r s' ⟨rfl, delay, rfl⟩
    refine ⟨fun (delay : Nat) _ => ?_, fun e failed => by cases failed⟩
    refine safe_op .utcnow ?_
    rintro r s' ⟨rfl, time, rfl⟩
    refine ⟨fun (now : Nat) _ => ?_, fun e failed => by cases failed⟩
    refine Coro.Safe.bind (@push_safe config _ _ _ _ new) ?_ ?_
    · rintro _ _ s' ⟨-, queued | ⟨may, -⟩⟩
      · exact ⟨rfl, .inl queued⟩
      · exact ⟨rfl, .inr (.inr may)⟩
    · rintro e _ s' ⟨⟨accepted, ended⟩, -⟩
      cases ended
  · exact Coro.Safe.mono (sendToDeadLetter_safe _) fun _ _ _ h => ⟨h.1, .inr h.2⟩

theorem seen_safe (key : Option String) :
    SafeAt refused lossy (seen key) (fun o s' => (∃ skip, o = .ok skip) ∧ s' = s) s := by
  cases key with
  | none => exact ⟨⟨_, rfl⟩, rfl⟩
  | some key =>
    have asked : SafeAt refused lossy (Coro.call (I := Calls) (.alreadyProcessed key))
        (fun o s' => (∃ skip, o = .ok skip) ∧ s' = s) s := by
      refine Coro.safe_call (I := Calls) _ ?_
      rintro s₁ rfl r s' ⟨rfl, rfl⟩
      exact ⟨trivial, ⟨_, rfl⟩, rfl⟩
    by_cases empty : key = ""
    · simp only [seen, empty, if_true]
      exact ⟨⟨_, rfl⟩, rfl⟩
    · simp only [seen, empty, if_false]
      exact asked

theorem note_safe (key : Option String) :
    SafeAt refused lossy (note key) (fun o s' => o = .ok () ∧ Same s s') s := by
  unfold note
  split
  · exact ⟨rfl, .refl s⟩
  · split
    · exact ⟨rfl, .refl s⟩
    · rintro s₁ rfl r s' ⟨rfl, -⟩
      exact ⟨trivial, rfl, .refl _, .refl _⟩

/-- What becomes of a job that is processed. -/
def Processed (refused : Prop) (id : JobId) (s : Store) (o : Except Raised Bool) (s' : Store) :
    Prop :=
  o = .ok true ∧ Same s s' ∨ o = .ok false ∧ (Queued id s s' ∨ Buried id s s' ∨ refused)

theorem processJob_safe (job : Job) (new : job.id ∉ s.waiting) :
    SafeAt refused lossy (processJob config job) (Processed refused job.id s) s := by
  refine Coro.Safe.bind (seen_safe job.payload.idem) ?_ ?_
  · rintro skip _ s' ⟨-, rfl⟩
    cases skip with
    | true => exact .inl ⟨rfl, .refl _⟩
    | false =>
      refine safe_op (.hasHandler job.type) ?_
      rintro r s₁ ⟨rfl, known, rfl⟩
      refine ⟨fun known _ => ?_, fun e failed => by cases failed⟩
      cases known with
      | false =>
        refine Coro.Safe.bind (@sendToDeadLetter_safe config _ _ _ job) ?_ ?_
        · rintro _ _ s₂ ⟨-, h⟩
          exact .inr ⟨rfl, .inr h⟩
        · rintro e _ s₂ ⟨ended, -⟩
          cases ended
      | true =>
        -- the handler itself moves no job of this queue
        refine Coro.Safe.bind (P := fun o _ s₂ => (∃ raised, o = .ok raised) ∧ s₂ = s₁) ?_ ?_ ?_
        · refine Coro.Safe.tryCatch (P := fun o _ s₂ => Caught o ∧ s₂ = s₁) ?_ ?_ ?_
          · refine safe_op (.handle job) ?_
            rintro r s₂ ⟨rfl, ended⟩
            refine ⟨fun _ _ => ⟨.of_ok (.inl rfl), rfl⟩, ?_⟩
            rintro e rfl
            exact ⟨(Caught.of_ok ended).raised, rfl⟩
          · rintro a _ s₂ ⟨-, rfl⟩
            exact ⟨⟨a, rfl⟩, rfl⟩
          · rintro e _ s₂ ⟨caught, rfl⟩
            rw [if_pos (caught e rfl)]
            exact ⟨⟨_, rfl⟩, rfl⟩
        · rintro raised _ s₂ ⟨-, rfl⟩
          cases raised with
          | none =>
            refine Coro.Safe.bind (note_safe job.payload.idem) ?_ ?_
            · rintro _ _ s₃ ⟨-, same⟩
              exact .inl ⟨rfl, same⟩
            · rintro e _ s₃ ⟨ended, -⟩
              cases ended
          | some error =>
            refine Coro.Safe.bind (@retry_safe config _ _ _ job error new) ?_ ?_
            · rintro _ _ s₃ ⟨-, h⟩
              exact .inr ⟨rfl, h⟩
            · rintro e _ s₃ ⟨ended, -⟩
              cases ended
        · rintro e _ s₂ ⟨⟨raised, ended⟩, -⟩
          cases ended
  · rintro e _ s' ⟨⟨skip, ended⟩, -⟩
    cases ended

/-! ### Popping -/

theorem moveScheduledJobs_safe (now : Nat) (levels : List Level) (nodup : s.waiting.Nodup) :
    SafeAt refused lossy (moveScheduledJobs now levels) (fun o s' => Caught o ∧ Same s s') s := by
  induction levels generalizing s with
  | nil => exact ⟨.of_ok (.inl rfl), .refl s⟩
  | cons level levels ih =>
    refine safe_op (.zrangebyscore level now) ?_
    rintro r s₁ ⟨rfl, ended⟩
    refine ⟨fun (jobs : List Job) found => ?_, ?_⟩
    · have due : jobs = s₁.zrangebyscore level now := by
        subst found
        rcases ended with ended | ⟨message, failed⟩
        · exact Except.ok.inj ended
        · cases failed
      have rest : SafeAt refused lossy
          (Coro.call (I := Calls) (.move level jobs) >>= fun _ => moveScheduledJobs now levels)
          (fun o s' => Caught o ∧ Same s₁ s') s₁ := by
        refine safe_op (.move level jobs) ?_
        intro r s₂ answer
        have same : Same s₁ s₂ := by
          rcases answer with ⟨rfl, -⟩ | ⟨rfl, -⟩
          · exact due ▸ Store.move_same nodup level now
          · exact .refl _
        refine ⟨fun _ _ => ?_, ?_⟩
        · have later := ih (s := s₂) (same.waiting.nodup_iff.mpr nodup)
          exact Coro.Safe.mono later fun _ _ _ h => ⟨h.1, same.trans h.2⟩
        · rintro e rfl
          rcases answer with ⟨-, ended⟩ | ⟨-, failed⟩
          · exact ⟨(Caught.of_ok ended).raised, same⟩
          · exact ⟨(Caught.of_ok (a := ()) (.inr failed)).raised, same⟩
      exact iteInduction (motive := fun action => SafeAt refused lossy action _ s₁)
        (fun _ => ih nodup) fun _ => rest
    · rintro e rfl
      exact ⟨(Caught.of_ok ended).raised, .refl _⟩

/-- What a dequeue does. -/
def Popped (s : Store) (o : Except Raised (Option Job)) (s' : Store) : Prop :=
  (∃ job, o = .ok (some job) ∧ Queued job.id s' s) ∨ popped o = [] ∧ Same s s'

theorem popFirst_safe (levels : List Level) :
    SafeAt refused False (popFirst levels) (fun o s' => Caught o ∧ Popped s o s') s := by
  induction levels with
  | nil => exact ⟨.of_ok (.inl rfl), .inr ⟨rfl, .refl s⟩⟩
  | cons level levels ih =>
    refine safe_op (.brpop level) ?_
    rintro r s' (⟨rfl, rfl | ⟨never, -⟩⟩ | ⟨rfl, failed⟩)
    · refine ⟨fun popped same => ?_, fun e is => by cases is⟩
      obtain rfl := Except.ok.inj same
      cases found : (s.brpop level).1 with
      | none =>
        rw [Store.brpop_none level found]
        exact ih
      | some job => exact ⟨.of_ok (.inl rfl), .inl ⟨job, rfl, Store.brpop_takes level found⟩⟩
    · exact never.elim
    · refine ⟨fun popped same => ?_, ?_⟩
      · obtain ⟨message, failed⟩ := failed
        cases same.symm.trans failed
      · rintro e rfl
        exact ⟨(Caught.of_ok (a := none) (.inr failed)).raised, .inr ⟨rfl, .refl _⟩⟩

theorem redisDequeue_safe (nodup : s.waiting.Nodup) :
    SafeAt refused False redisDequeue (fun o s' => Caught o ∧ Popped s o s') s := by
  refine safe_op .utcnow ?_
  rintro r s₁ ⟨rfl, time, rfl⟩
  refine ⟨fun now _ => ?_, fun e failed => by cases failed⟩
  refine Coro.Safe.bind (moveScheduledJobs_safe now _ nodup) ?_ ?_
  · rintro _ _ s₂ ⟨-, same⟩
    refine Coro.Safe.mono (popFirst_safe (s := s₂) _) ?_
    rintro o _ s₃ ⟨caught, ⟨job, rfl, taken⟩ | ⟨none_, later⟩⟩
    · refine ⟨caught, .inl ⟨job, rfl, ?_⟩⟩
      exact ⟨same.waiting.symm.trans taken.waiting, same.deads.symm.trans taken.deads⟩
    · exact ⟨caught, .inr ⟨none_, same.trans later⟩⟩
  · rintro e _ s₂ ⟨caught, same⟩
    exact ⟨caught.raised, .inr ⟨rfl, same⟩⟩

theorem dequeue_safe (nodup : s.waiting.Nodup) :
    SafeAt refused False (dequeue config) (Popped s) s := by
  unfold dequeue
  split
  · refine excepting_safe (P := fun o s' => Caught o ∧ Popped s o s') ?_ (fun _ _ h => h.2) ?_ ?_
    · refine safe_op .breaker ?_
      rintro r s' ⟨rfl, ended⟩
      refine ⟨fun _ _ => redisDequeue_safe nodup, ?_⟩
      rintro e rfl
      rcases ended with ended | ⟨-, failed⟩
      · cases ended
      · exact ⟨(Caught.of_ok (a := ()) (.inr failed)).raised, .inr ⟨rfl, .refl _⟩⟩
    · rintro e s' ⟨caught, -⟩ uncaught
      exact absurd ((caught e rfl).symm.trans uncaught) (by simp)
    · rintro e s' ⟨-, ⟨job, some_, -⟩ | ⟨-, same⟩⟩
      · cases some_
      · exact .inr ⟨rfl, same⟩
  · refine safe_op .memoryPop ?_
    rintro r s' ⟨rfl, rfl⟩
    refine ⟨fun popped same => ?_, fun e is => by cases is⟩
    obtain rfl := Except.ok.inj same
    cases found : s.memoryPop.1 with
    | some job => exact .inl ⟨job, rfl, Store.memoryPop_takes found⟩
    | none =>
      have still : s.memoryPop.2 = s := by
        unfold Store.memoryPop at found ⊢
        split at found
        · cases found
        · rfl
      rw [still]
      refine safe_op .sleep ?_
      rintro r s' ⟨rfl, rfl⟩
      exact ⟨fun _ _ => .inr ⟨rfl, .refl _⟩, fun e is => by cases is⟩

/-! ## Runs -/

namespace World

/-- Every job that is somewhere. -/
def places (w : World) : List JobId := w.store.waiting ++ w.store.deads ++ w.hands.map Job.id

/-- A job is in one place, or it is finished. -/
structure Sound (w : World) : Prop where
  nodup : w.places.Nodup
  made : ∀ id ∈ w.places ++ w.finished, id ∈ w.made
  finished : ∀ id ∈ w.finished, id ∉ w.places
  taken : ∀ id ∈ w.taken, id ∈ w.finished ∨ id ∈ w.places

/-- Where the jobs move from place to place. -/
theorem Sound.moved {w w' : World} (sound : w.Sound) (places : w'.places.Perm w.places)
    (made : w.made ⊆ w'.made) (finished : w'.finished = w.finished)
    (taken : ∀ id ∈ w'.taken, id ∈ w.taken ∨ id ∈ w.places) : w'.Sound := by
  refine ⟨places.nodup_iff.mpr sound.nodup, ?_, ?_, ?_⟩
  · intro id mem
    rw [finished] at mem
    exact made (sound.made id ((places.append_right w.finished).subset mem))
  · intro id mem here
    exact sound.finished id (finished ▸ mem) (places.subset here)
  · intro id mem
    rw [finished]
    rcases taken id mem with old | here
    · exact (sound.taken id old).imp_right fun here => places.symm.subset here
    · exact .inr (places.symm.subset here)

/-- Where a job is made. -/
theorem Sound.make {w w' : World} {id : JobId} (sound : w.Sound) (fresh : id ∉ w.made)
    (places : w'.places.Perm (id :: w.places)) (made : w'.made = id :: w.made)
    (finished : w'.finished = w.finished) (taken : w'.taken = w.taken) : w'.Sound := by
  have new : id ∉ w.places := fun mem => fresh (sound.made _ (List.mem_append_left _ mem))
  refine ⟨places.nodup_iff.mpr (List.nodup_cons.mpr ⟨new, sound.nodup⟩), ?_, ?_, ?_⟩
  · intro other mem
    rw [made]
    rw [finished] at mem
    rcases List.mem_append.mp mem with here | done
    · rcases List.mem_cons.mp (places.subset here) with rfl | old
      · exact List.mem_cons_self
      · exact List.mem_cons_of_mem _ (sound.made other (List.mem_append_left _ old))
    · exact List.mem_cons_of_mem _ (sound.made other (List.mem_append_right _ done))
  · intro other done here
    rw [finished] at done
    rcases List.mem_cons.mp (places.subset here) with rfl | old
    · exact fresh (sound.made _ (List.mem_append_right _ done))
    · exact sound.finished other done old
  · intro other mem
    rw [taken] at mem
    rw [finished]
    exact (sound.taken other mem).imp_right fun old =>
      places.symm.subset (List.mem_cons_of_mem _ old)

/-- Where a job is finished. -/
theorem Sound.finish {w w' : World} {id : JobId} (sound : w.Sound)
    (places : w.places.Perm (id :: w'.places)) (made : w'.made = w.made)
    (finished : w'.finished = w.finished ++ [id]) (taken : w'.taken = w.taken) : w'.Sound := by
  obtain ⟨gone, nodup⟩ := List.nodup_cons.mp (places.nodup_iff.mp sound.nodup)
  have here : id ∈ w.places := places.symm.subset List.mem_cons_self
  have left {other : JobId} (mem : other ∈ w'.places) : other ∈ w.places :=
    places.symm.subset (List.mem_cons_of_mem _ mem)
  refine ⟨nodup, ?_, ?_, ?_⟩
  · intro other mem
    rw [made]
    refine sound.made other ?_
    rw [finished, List.mem_append, List.mem_append, List.mem_singleton] at mem
    rcases mem with mem | mem | rfl
    · exact List.mem_append_left _ (left mem)
    · exact List.mem_append_right _ mem
    · exact List.mem_append_left _ here
  · intro other done mem
    rw [finished, List.mem_append, List.mem_singleton] at done
    rcases done with done | rfl
    · exact sound.finished other done (left mem)
    · exact gone mem
  · intro other mem
    rw [taken] at mem
    rw [finished, List.mem_append, List.mem_singleton]
    rcases sound.taken other mem with done | old
    · exact .inl (.inl done)
    · exact (List.mem_cons.mp (places.subset old)).imp Or.inr fun mem => mem

end World

theorem hands_perm {hands : List Job} {i : Nat} {job : Job} (here : hands[i]? = some job) :
    (hands.map Job.id).Perm (job.id :: (hands.eraseIdx i).map Job.id) := by
  obtain ⟨bound, rfl⟩ := List.getElem?_eq_some_iff.mp here
  exact ((List.getElem_cons_eraseIdx_perm bound).map Job.id).symm

theorem step_sound {w w' : World} (step : Step config False w w') (sound : w.Sound) : w'.Sound := by
  have waiting : w.store.waiting.Nodup :=
    (List.nodup_append.mp (List.nodup_append.mp sound.nodup).1).1
  cases step with
  | enqueue job key fresh r store does =>
    have new : job.id ∉ w.places := fun mem => fresh (sound.made _ (List.mem_append_left _ mem))
    have absent : job.id ∉ w.store.waiting := fun mem =>
      new (List.mem_append_left _ (List.mem_append_left _ mem))
    rcases (enqueue_safe key absent).does does with queued | same
    · exact sound.make fresh ((queued.waiting.append queued.deads).append_right _) rfl rfl rfl
    · exact sound.moved ((same.waiting.append same.deads).append_right _)
        (List.subset_cons_self _ _) rfl fun id mem => .inl mem
  | dequeue r store does =>
    rcases (dequeue_safe waiting).does does with ⟨job, rfl, taken⟩ | ⟨none_, same⟩
    · have places : (w.store.waiting ++ w.store.deads).Perm
          (job.id :: (store.waiting ++ store.deads)) := taken.waiting.append taken.deads
      refine sound.moved ?_ (fun _ => id) rfl ?_
      · simp only [World.places, popped, List.map_append, List.map_cons, List.map_nil]
        grind
      · intro id mem
        refine (List.mem_append.mp mem).imp_right fun new => ?_
        rw [List.mem_singleton.mp new]
        exact List.mem_append_left _ (places.symm.subset List.mem_cons_self)
    · refine sound.moved ?_ (fun _ => id) rfl ?_
      · simp only [World.places, none_, List.append_nil]
        exact (same.waiting.append same.deads).append_right _
      · intro id mem
        rw [none_] at mem
        exact .inl (by simpa using mem)
  | process i job here r store does =>
    have hands := hands_perm here
    have absent : job.id ∉ w.store.waiting := by
      intro mem
      have apart := (List.nodup_append.mp sound.nodup).2.2
      exact apart _ (List.mem_append_left _ mem) _ (hands.symm.subset List.mem_cons_self) rfl
    rcases (processJob_safe job absent).does does with ⟨rfl, same⟩ | ⟨rfl, put⟩
    · have places : w.places.Perm (job.id :: World.places { w with
          store := store, hands := w.hands.eraseIdx i }) := by
        have := same.waiting.append same.deads
        simp only [World.places]
        grind
      exact sound.finish places rfl (by simp) rfl
    · refine sound.moved ?_ (fun _ => id) (by simp) fun id mem => .inl mem
      rcases put with queued | buried | never
      · have := queued.waiting.append queued.deads
        simp only [World.places]
        grind
      · have := buried.waiting.append buried.deads
        simp only [World.places]
        grind
      · exact never.elim

theorem run_sound {w : World} (run : Relation.ReflTransGen (Step config False) {} w) : w.Sound := by
  induction run with
  | refl => constructor <;> simp [World.places, Store.waiting, Store.deads]
  | tail _ step ih => exact step_sound step ih

/-- In every run in which the pushes of a worker take effect, a job that was dequeued and is not
finished is either in hand or in exactly one place: queued once, or given up once. -/
theorem taken_kept {w : World} (run : Relation.ReflTransGen (Step config False) {} w) {id : JobId}
    (taken : id ∈ w.taken) (unfinished : id ∉ w.finished) :
    id ∈ w.hands.map Job.id ∧ w.store.waiting.count id + w.store.deads.count id = 0 ∨
      id ∉ w.hands.map Job.id ∧ w.store.waiting.count id + w.store.deads.count id = 1 := by
  have sound := run_sound run
  have here := (sound.taken id taken).resolve_left unfinished
  have once := List.count_eq_one_of_mem sound.nodup here
  rw [World.places, List.count_append, List.count_append] at once
  by_cases inHand : id ∈ w.hands.map Job.id
  · have := List.count_pos_iff.mpr inHand
    exact .inl ⟨inHand, by omega⟩
  · have := List.count_eq_zero.mpr inHand
    exact .inr ⟨inHand, by omega⟩

/-! ## A job whose push fails -/

/-- Every handler fails; with `refuse`, so does every push to a sorted set. -/
def answering (refuse : Bool) : (op : Op) → Store → Except Raised op.Answer × Store
  | .claim redis key, s => (.ok (s.claim redis key).1, (s.claim redis key).2)
  | .breaker, s => (.ok (), s)
  | .utcnow, s => (.ok (0 : Nat), s)
  | .backoff _, s => (.ok (1000 : Nat), s)
  | .zadd level job score, s =>
    if refuse then (.error (.exception "Connection closed by server."), s)
    else (.ok (), s.zadd level job score)
  | .lpush level job, s => (.ok (), s.lpush level job)
  | .lpushDead job, s => (.ok (), s.lpushDead job)
  | .zrangebyscore level now, s => (.ok (s.zrangebyscore level now), s)
  | .move level jobs, s => (.ok (), s.move level jobs)
  | .brpop level, s => (.ok (s.brpop level).1, (s.brpop level).2)
  | .memoryPush job, s => (.ok (), { s with inMemoryQueue := s.inMemoryQueue ++ [job] })
  | .memoryPop, s => (.ok s.memoryPop.1, s.memoryPop.2)
  | .memoryDead job, s => (.ok (), { s with deadLetters := s.deadLetters ++ [job] })
  | .sleep, s => (.ok (), s)
  | .alreadyProcessed key, s => (.ok (decide (key ∈ s.idemProcessed)), s)
  | .markProcessed key, s => (.ok (), { s with idemProcessed := key :: s.idemProcessed })
  | .hasHandler _, s => (.ok true, s)
  | .handle _, s => (.error (.exception "handler failed"), s)

theorem answering_answer {refuse : Bool} (may : refuse = true → refused) (op : Op) (s : Store) :
    Answer refused lossy op s (answering refuse op s).1 (answering refuse op s).2 := by
  cases op with
  | zadd level job score =>
    simp only [answering]
    split
    next yes => exact .inr ⟨may yes, rfl, _, rfl⟩
    next => exact .inl ⟨rfl, .inl rfl⟩
  | claim | move | lpush | lpushDead => exact .inl ⟨rfl, by first | rfl | exact .inl rfl⟩
  | brpop => exact .inl ⟨rfl, .inl rfl⟩
  | breaker | zrangebyscore => exact ⟨rfl, .inl rfl⟩
  | utcnow | backoff | hasHandler => exact ⟨rfl, _, rfl⟩
  | handle => exact ⟨rfl, .inr ⟨_, rfl⟩⟩
  | memoryPush | memoryPop | memoryDead | sleep | alreadyProcessed | markProcessed => exact ⟨rfl, rfl⟩

/-- What a method does under these answers. -/
def does {α : Type} (refuse : Bool) (action : Action α) (s : Store) : Except Raised α × Store :=
  (((action ()).drive (I := Calls) (answering refuse) s).1.1,
    ((action ()).drive (I := Calls) (answering refuse) s).2)

theorem does_does {α : Type} {refuse : Bool} (may : refuse = true → refused) (action : Action α)
    (s : Store) : Does refused lossy action s (does refuse action s).1 (does refuse action s).2 :=
  Tree.drive_ends (fun _ => rfl) (answering_answer may) (action ()) s

def delivery : Job := { id := 1, type := "webhook.deliver" }

def made (refuse : Bool) : World :=
  { store := (does refuse (enqueue {} delivery none) {}).2, made := [1] }

def held (refuse : Bool) : World :=
  let dequeued := does refuse (dequeue {}) (made refuse).store
  { made refuse with
    store := dequeued.2
    hands := [] ++ popped dequeued.1
    taken := [] ++ (popped dequeued.1).map Job.id }

/-- The job is enqueued, dequeued and processed. -/
def once (refuse : Bool) : World :=
  let processed := does refuse (processJob {} delivery) (held refuse).store
  { held refuse with
    store := processed.2
    hands := (held refuse).hands.eraseIdx 0
    finished := [] ++ if processed.1 = .ok true then [delivery.id] else [] }

theorem once_run {refuse : Bool} (may : refuse = true → lossy) :
    Relation.ReflTransGen (Step {} lossy) {} (once refuse) := by
  have first : Step {} lossy {} (made refuse) :=
    .enqueue {} delivery none (by simp) _ _ (does_does (fun _ => trivial) _ _)
  have second : Step {} lossy (made refuse) (held refuse) :=
    .dequeue (made refuse) _ _ (does_does (fun _ => trivial) _ _)
  have here : (held refuse).hands[0]? = some delivery := by cases refuse <;> rfl
  have third : Step {} lossy (held refuse) (once refuse) :=
    .process (held refuse) 0 delivery here _ _ (does_does may _ _)
  exact .tail (.tail (.single first) second) third

/-- A job whose handler failed and whose push is accepted waits for another attempt. -/
theorem taken_kept_once : 1 ∈ (once false).taken ∧
    (1 ∈ (once false).hands.map Job.id ∧
        (once false).store.waiting.count 1 + (once false).store.deads.count 1 = 0 ∨
      1 ∉ (once false).hands.map Job.id ∧
        (once false).store.waiting.count 1 + (once false).store.deads.count 1 = 1) :=
  ⟨by decide, taken_kept (once_run (by simp)) (by decide) (by decide)⟩

/-- Redis refuses the push: the job is nowhere. -/
theorem vanished : ∃ w : World, Relation.ReflTransGen (Step {} True) {} w ∧ 1 ∈ w.taken ∧
    1 ∉ w.finished ∧ 1 ∉ w.hands.map Job.id ∧ 1 ∉ w.store.waiting ∧ 1 ∉ w.store.deads :=
  ⟨once true, once_run fun _ => trivial, by decide, by decide, by decide, by decide, by decide⟩

end AgentStudio.Queue
