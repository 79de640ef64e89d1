import AgentStudio.Queue.Conservation

/-!
# One key, one job

The calls of `enqueue` that carry one idempotency key, one after the other, while
the rest of the program moves the store but not the claim of the key, which does
not expire. The key is claimed before the job is pushed, so at most one job is put
on a queue. Where the push is refused the claim stays behind: the next call finds
it and says that the job was accepted.
-/

namespace AgentStudio.Queue.Idempotent

open Async

/-- The queue, and the jobs that a call has put there, for the record. -/
@[ext]
structure Recorded where
  store : Store := {}
  put : List Job := []

/-- Where a call may be `lost`, a claim that fails may have taken effect, and a push that fails, or
that the breaker refuses, may have none. -/
def Answer (lost : Prop) : Answers Calls Raised Recorded
  | .claim redis key, s, r, s' => s'.put = s.put ∧
    (s'.store = (s.store.claim redis key).2 ∧ r = .ok (s.store.claim redis key).1 ∨
      redis = true ∧ Failed r ∧
        (s'.store = s.store ∨ lost ∧ s'.store = (s.store.claim redis key).2))
  | .zadd level job score, s, r, s' =>
    s' = ⟨s.store.zadd level job score, s.put ++ [job]⟩ ∧ (r = .ok () ∨ Failed r) ∨
      lost ∧ s' = s ∧ Failed r
  | .lpush level job, s, r, s' =>
    s' = ⟨s.store.lpush level job, s.put ++ [job]⟩ ∧ (r = .ok () ∨ Failed r) ∨
      lost ∧ s' = s ∧ Failed r
  | .memoryPush job, s, r, s' =>
    s' = ⟨{ s.store with inMemoryQueue := s.store.inMemoryQueue ++ [job] }, s.put ++ [job]⟩ ∧
      r = .ok ()
  | op, s, r, s' => s'.put = s.put ∧ Queue.Answer lost True op s.store r s'.store

/-- A call that runs to its end. -/
abbrev Does {α : Type} (lost : Prop) (action : Action α) (s : Recorded) (r : Except Raised α)
    (s' : Recorded) : Prop := Tree.Ends (Answer lost) Eq (action ()) s (r, ()) s'

/-- Where the claim of `key` is. -/
def Claimed (config : Config) (key : String) (s : Store) : Prop :=
  if config.redis then key ∈ s.idem else key ∈ s.idemSeen

structure World where
  store : Store := {}
  /-- Every job that a call with the key has put on a queue, for the record. -/
  put : List Job := []
  /-- The calls with the key that have returned `True`. -/
  accepted : Nat := 0

inductive Step (config : Config) (lost : Prop) (key : String) : World → World → Prop
  | enqueue (w : World) (job : Job) (r : Except Raised Bool) (s' : Recorded)
      (does : Does lost (enqueue config job (some key)) { store := w.store } r s') :
      Step config lost key w {
        store := s'.store
        put := w.put ++ s'.put
        accepted := w.accepted + if r = .ok true then 1 else 0 }
  /-- The rest of the program: what it does with the jobs, and with other keys. -/
  | others (w : World) (store : Store)
      (kept : Claimed config key store ↔ Claimed config key w.store) :
      Step config lost key w { w with store := store }

/-- At most one job was put on a queue, it carries the key, and it was where a call was
accepted. -/
structure World.Once (key : String) (w : World) : Prop where
  single : w.put.length ≤ 1
  carries : ∀ job ∈ w.put, job.payload.idem = some key
  accepted : 0 < w.accepted → w.put ≠ []

/-! ## What a call does -/

variable {config : Config} {lost : Prop} {key : String} {s s' : Recorded}

abbrev SafeAt {α : Type} (lost : Prop) (action : Action α) (Q : Except Raised α → Recorded → Prop)
    (s : Recorded) : Prop :=
  action.Safe (Answer lost) Eq (fun _ _ => True) () (fun o _ => Q o) s

theorem SafeAt.does {α : Type} {action : Action α} {Q : Except Raised α → Recorded → Prop}
    {r : Except Raised α} (h : SafeAt lost action Q s) (does : Does lost action s r s') : Q r s' :=
  Tree.Safe.ends (Q := fun (w : Except Raised α × Unit) s => Q w.1 s) h (fun _ _ => id) does

theorem safe_op {α : Type} (op : Op) {k : op.Answer → Action α}
    {Q : Except Raised α → Recorded → Prop}
    (h : ∀ r s', Answer lost op s r s' →
      (∀ a, r = .ok a → SafeAt lost (k a) Q s') ∧ ∀ e, r = .error e → Q (.error e) s') :
    SafeAt lost (Coro.call (I := Calls) op >>= k) Q s := by
  refine Coro.safe_call_bind (I := Calls) op ?_
  rintro s₁ rfl r s₂ answer
  exact ⟨trivial, h r s₂ answer⟩

/-- The claims stay, and the job is put on a queue, or this is lost and the job is not accepted. -/
structure Pushed (lost : Prop) (job : Job) (s : Recorded) (accepted : Prop) (s' : Recorded) :
    Prop where
  idem : s'.store.idem = s.store.idem
  idemSeen : s'.store.idemSeen = s.store.idemSeen
  put : s'.put = s.put ++ [job] ∨ lost ∧ s'.put = s.put ∧ ¬ accepted

theorem Pushed.mono {lost' accepted accepted' : Prop} {job : Job}
    (pushed : Pushed lost job s accepted s') (may : lost → lost') (imp : accepted' → accepted) :
    Pushed lost' job s accepted' s' := by
  refine ⟨pushed.idem, pushed.idemSeen, pushed.put.imp_right ?_⟩
  rintro ⟨is, put, refused⟩
  exact ⟨may is, put, fun yes => refused (imp yes)⟩

/-- Either push of Redis. -/
theorem Pushed.of_answer {job : Job} (store : Store) {r : Except Raised Unit}
    (idem : store.idem = s.store.idem) (idemSeen : store.idemSeen = s.store.idemSeen)
    (answer : s' = ⟨store, s.put ++ [job]⟩ ∧ (r = .ok () ∨ Failed r) ∨ lost ∧ s' = s ∧ Failed r) :
    Caught r ∧ Pushed lost job s (r = .ok ()) s' := by
  rcases answer with ⟨rfl, ended⟩ | ⟨may, rfl, message, rfl⟩
  · exact ⟨.of_ok ended, idem, idemSeen, .inl rfl⟩
  · exact ⟨.of_ok (a := ()) (.inr ⟨message, rfl⟩), rfl, rfl, .inr ⟨may, rfl, by simp⟩⟩

theorem redisEnqueue_safe (job : Job) :
    SafeAt lost (redisEnqueue job) (fun o s' => Caught o ∧ Pushed lost job s (o = .ok ()) s') s := by
  have lpush {s : Recorded} : SafeAt lost (Coro.call (I := Calls) (.lpush (queueKey job.priority) job))
      (fun o s' => Caught o ∧ Pushed lost job s (o = .ok ()) s') s := by
    refine Coro.safe_call (I := Calls) _ ?_
    rintro s₁ rfl r s' answer
    exact ⟨trivial, Pushed.of_answer (s.store.lpush (queueKey job.priority) job) rfl rfl answer⟩
  unfold redisEnqueue
  split
  next at_ _ =>
    refine safe_op .utcnow ?_
    rintro r s₁ ⟨put, store, time, rfl⟩
    obtain rfl : s₁ = s := Recorded.ext store put
    refine ⟨fun (now : Nat) _ => ?_, fun e failed => by cases failed⟩
    refine iteInduction (motive := fun action => SafeAt lost action _ s₁) (fun _ => ?_)
      fun _ => lpush
    refine Coro.safe_call (I := Calls) _ ?_
    rintro s₂ rfl r s' answer
    exact ⟨trivial,
      Pushed.of_answer (s₁.store.zadd (queueKey job.priority) job at_) rfl rfl answer⟩
  · exact lpush

theorem guarded_safe (job : Job) :
    SafeAt lost (guarded (redisEnqueue job))
      (fun o s' => Caught o ∧ Pushed lost job s (o = .ok ()) s') s := by
  refine safe_op .breaker ?_
  rintro r s₁ ⟨put, store, ended⟩
  obtain rfl : s₁ = s := Recorded.ext store put
  refine ⟨fun _ _ => redisEnqueue_safe job, ?_⟩
  rintro e rfl
  rcases ended with ended | ⟨may, failed⟩
  · cases ended
  · exact ⟨.of_ok (a := ()) (.inr failed), rfl, rfl, .inr ⟨may, rfl, by simp⟩⟩

/-- Without Redis nothing is lost. -/
theorem push_safe (job : Job) :
    SafeAt lost (push config job)
      (fun o s' => (∃ accepted, o = .ok accepted) ∧
        Pushed (config.redis = true ∧ lost) job s (o = .ok true) s') s := by
  unfold push
  split
  next redis =>
    refine Coro.Safe.tryCatch (P := fun o _ s' => Caught o ∧
      Pushed lost job s (∃ accepted, o = .ok accepted) s') ?_ ?_ ?_
    · refine Coro.Safe.bind (guarded_safe job) ?_ ?_
      · rintro a _ s' ⟨-, pushed⟩
        exact ⟨.of_ok (.inl rfl), pushed.mono id fun _ => rfl⟩
      · rintro e _ s' ⟨caught, pushed⟩
        exact ⟨caught.raised, pushed.mono id (by simp)⟩
    · rintro a _ s' ⟨-, pushed⟩
      exact ⟨⟨a, rfl⟩, pushed.mono (fun may => ⟨redis, may⟩) fun _ => ⟨a, rfl⟩⟩
    · rintro e v s' ⟨caught, pushed⟩
      rw [caught e rfl]
      exact ⟨⟨false, rfl⟩, pushed.mono (fun may => ⟨redis, may⟩) (by simp)⟩
  · rintro s₁ rfl r s' ⟨rfl, -⟩
    exact ⟨trivial, ⟨true, rfl⟩, rfl, rfl, .inl rfl⟩

/-- What a call with a key does: it finds the claim, or it is without effect, or the claim is new
and the job is put on a queue, or this is lost. -/
inductive Called (config : Config) (lost : Prop) (key : String) (s : Store)
    (r : Except Raised Bool) (s' : Recorded) : Prop
  | again (before : Claimed config key s) (after : Claimed config key s'.store) (put : s'.put = [])
  | failed (same : s'.store = s) (put : s'.put = []) (refused : r ≠ .ok true)
  | put (before : ¬ Claimed config key s) (after : Claimed config key s'.store) (job : Job)
      (put : s'.put = [job]) (carries : job.payload.idem = some key)
  | lost (may : config.redis = true ∧ lost) (before : ¬ Claimed config key s)
      (after : Claimed config key s'.store) (put : s'.put = []) (refused : r ≠ .ok true)

theorem claimed_claim (s : Store) : Claimed config key (s.claim config.redis key).2 := by
  unfold Claimed Store.claim
  split <;> exact List.mem_cons_self

theorem claim_won (s : Store) :
    (s.claim config.redis key).1 = true ↔ ¬ Claimed config key s := by
  unfold Claimed Store.claim
  split <;> exact decide_eq_true_iff

theorem Claimed.of_same {s s' : Store} (idem : s'.idem = s.idem) (idemSeen : s'.idemSeen = s.idemSeen)
    (claimed : Claimed config key s) : Claimed config key s' := by
  unfold Claimed at claimed ⊢
  rw [idem, idemSeen]
  exact claimed

/-- A claim that raises is without effect, or it is lost. -/
theorem claim_raised {s : Store} {s' : Recorded} {e : Raised} (put : s'.put = [])
    (kept : s'.store = s ∨ (config.redis = true ∧ lost) ∧ s'.store = (s.claim config.redis key).2) :
    Called config lost key s (.error e) s' := by
  rcases kept with same | ⟨may, same⟩
  · exact .failed same put (by simp)
  · have after : Claimed config key s'.store := same ▸ claimed_claim s
    by_cases before : Claimed config key s
    · exact .again before after put
    · exact .lost may before after put (by simp)

theorem enqueue_safe (job : Job) (s : Store) (keyed : key ≠ "") :
    SafeAt lost (enqueue config job (some key)) (Called config lost key s) { store := s } := by
  simp only [enqueue, if_neg keyed]
  refine safe_op (.claim config.redis key) ?_
  rintro r s₁ ⟨put, answer⟩
  rcases answer with ⟨store, rfl⟩ | ⟨redis, ⟨message, rfl⟩, kept⟩
  · have after : Claimed config key s₁.store := store ▸ claimed_claim s
    refine ⟨fun won same => ?_, fun e is => by cases is⟩
    obtain rfl := Except.ok.inj same
    split
    next yes =>
      have before := (claim_won s).mp yes
      refine Coro.Safe.mono (push_safe _) ?_
      rintro o _ s' ⟨-, pushed⟩
      have still := after.of_same pushed.idem pushed.idemSeen
      rcases pushed.put with added | ⟨may, none_, refused⟩
      · exact .put before still _ (by rw [added, put]; rfl) rfl
      · exact .lost may before still (none_.trans put) refused
    next no =>
      have before := not_not.mp (mt (claim_won s).mpr no)
      exact .again before after put
  · refine ⟨fun won is => (by cases is), ?_⟩
    rintro e -
    exact claim_raised put (kept.imp_right fun h => ⟨⟨redis, h.1⟩, h.2⟩)

/-! ## Runs -/

/-- What is put was claimed, and what was claimed is put unless it was lost. -/
structure Kept (config : Config) (lost : Prop) (key : String) (w : World) : Prop where
  single : w.put.length ≤ 1
  carries : ∀ job ∈ w.put, job.payload.idem = some key
  claimed : w.put ≠ [] → Claimed config key w.store
  accepted : 0 < w.accepted → Claimed config key w.store
  put : Claimed config key w.store → w.put ≠ [] ∨ config.redis = true ∧ lost

theorem step_kept {w w' : World} (keyed : key ≠ "") (step : Step config lost key w w')
    (kept : Kept config lost key w) : Kept config lost key w' := by
  cases step with
  | others store same =>
    exact ⟨kept.single, kept.carries, fun put => same.mpr (kept.claimed put),
      fun accepted => same.mpr (kept.accepted accepted), fun claimed => kept.put (same.mp claimed)⟩
  | enqueue job r s' does =>
    rcases (enqueue_safe job w.store keyed).does does with
      ⟨before, after, put⟩ | ⟨same, put, refused⟩ | ⟨before, after, new, put, carries⟩ |
      ⟨may, before, after, put, refused⟩
    · refine ⟨?_, ?_, fun _ => after, fun _ => after, fun _ => ?_⟩
      · simpa [put] using kept.single
      · simpa [put] using kept.carries
      · simpa [put] using kept.put before
    · simp only [put, List.append_nil, same, if_neg refused, Nat.add_zero]
      exact ⟨kept.single, kept.carries, kept.claimed, kept.accepted, kept.put⟩
    · have none_ : w.put = [] := not_not.mp (mt kept.claimed before)
      simp only [put, none_, List.nil_append]
      exact ⟨by simp, by simpa using carries, fun _ => after, fun _ => after, fun _ => .inl (by simp)⟩
    · have none_ : w.put = [] := not_not.mp (mt kept.claimed before)
      simp only [put, none_, List.append_nil]
      exact ⟨by simp, by simp, fun _ => after, fun _ => after, fun _ => .inr may⟩

abbrev Run (config : Config) (lost : Prop) (key : String) (w : World) : Prop :=
  Relation.ReflTransGen (Step config lost key) {} w

theorem run_kept {w : World} (keyed : key ≠ "") (run : Run config lost key w) :
    Kept config lost key w := by
  induction run with
  | refl =>
    refine ⟨by simp, by simp, by simp, by simp, fun claimed => ?_⟩
    unfold Claimed at claimed
    split at claimed <;> simp at claimed
  | tail _ step ih => exact step_kept keyed step ih

/-! ## A claim that stays behind -/

/-- The store after a claim of the key in Redis. -/
def claimedBy (key : String) (s : Store) : Store := { s with idem := key :: s.idem }

/-- The claim succeeds and the push fails. -/
theorem failed_does (s : Store) (may : lost) (keyed : key ≠ "") (new : key ∉ s.idem) :
    Does lost (enqueue { redis := true } delivery (some key)) { store := s } (.ok false)
      { store := claimedBy key s } := by
  have claim : Answer lost (.claim true key) { store := s } (.ok true)
      { store := claimedBy key s } := by
    refine ⟨rfl, .inl ⟨rfl, ?_⟩⟩
    simp [Store.claim, new]
  have breaker : Answer lost .breaker { store := claimedBy key s } (.ok ())
      { store := claimedBy key s } := ⟨rfl, rfl, .inl rfl⟩
  have push (job : Job) : Answer lost (.lpush .default job) { store := claimedBy key s }
      (.error (.exception "Connection closed by server.")) { store := claimedBy key s } :=
    .inr ⟨may, rfl, _, rfl⟩
  simp only [Does, enqueue, if_neg keyed]
  exact .await rfl claim (.await rfl breaker (.await rfl (push _) (.done _ _)))

/-- The next call finds the claim. -/
theorem skipped_does (s : Store) (job : Job) (keyed : key ≠ "") (old : key ∈ s.idem) :
    Does lost (enqueue { redis := true } job (some key)) { store := s } (.ok true)
      { store := claimedBy key s } := by
  have claim : Answer lost (.claim true key) { store := s } (.ok false)
      { store := claimedBy key s } := by
    refine ⟨rfl, .inl ⟨rfl, ?_⟩⟩
    simp [Store.claim, old]
  simp only [Does, enqueue, if_neg keyed]
  exact .await rfl claim (.done _ _)

/-- Where a push may fail, a call is accepted though no job was put on a queue. -/
theorem left_behind (may : lost) (keyed : key ≠ "") :
    ∃ w, Run { redis := true } lost key w ∧ 0 < w.accepted ∧ w.put = [] := by
  let behind : World := { store := claimedBy key {} }
  have first : Step { redis := true } lost key {} behind :=
    .enqueue {} delivery _ _ (failed_does {} may keyed (by simp))
  have second : Step { redis := true } lost key behind
      { store := claimedBy key behind.store, accepted := 1 } :=
    .enqueue behind delivery _ _ (skipped_does _ delivery keyed List.mem_cons_self)
  exact ⟨_, .tail (.single first) second, by simp, rfl⟩

/-- The second call says that the job was accepted; nothing was ever put on a queue. -/
theorem accepted_nowhere : ∃ w : World, Run { redis := true } True "order-1" w ∧ 0 < w.accepted ∧
    w.put = [] := left_behind trivial (by decide)

/-- The empty key is none: the job is pushed whatever was pushed before. -/
theorem unkeyed_does (config : Config) (lost : Prop) (s : Store) :
    ∃ store, Does lost (enqueue config delivery (some "")) { store := s } (.ok true)
      { store := store, put := [delivery] } := by
  simp only [Does, enqueue, if_true, push]
  split
  next redis =>
    have breaker : Answer lost .breaker { store := s } (.ok ()) { store := s } :=
      ⟨rfl, rfl, .inl rfl⟩
    have lpush : Answer lost (.lpush .default delivery) { store := s } (.ok ())
        ⟨s.lpush .default delivery, [] ++ [delivery]⟩ := .inl ⟨rfl, .inl rfl⟩
    exact ⟨_, .await rfl breaker (.await rfl lpush (.done _ _))⟩
  next =>
    have push : Answer lost (.memoryPush delivery) { store := s } (.ok ())
        ⟨{ s with inMemoryQueue := s.inMemoryQueue ++ [delivery] }, [] ++ [delivery]⟩ := ⟨rfl, rfl⟩
    exact ⟨_, .await rfl push (.done _ _)⟩

theorem unkeyed_twice (config : Config) (lost : Prop) :
    ∃ w, Run config lost "" w ∧ w.put.length = 2 := by
  obtain ⟨s₁, first⟩ := unkeyed_does config lost {}
  obtain ⟨s₂, second⟩ := unkeyed_does config lost s₁
  exact ⟨_, .tail (.single (.enqueue {} delivery _ _ first)) (.enqueue _ delivery _ _ second), rfl⟩

/-- Under every key, at most one job is put on a queue and it was put there when a call is
accepted, exactly where the key is not empty and no call loses its claim. -/
theorem once_iff (config : Config) (lost : Prop) (key : String) :
    (∀ w, Run config lost key w → w.Once key) ↔ key ≠ "" ∧ (config.redis = true → ¬ lost) := by
  constructor
  · intro once
    have keyed : key ≠ "" := by
      rintro rfl
      obtain ⟨w, run, two⟩ := unkeyed_twice config lost
      have := (once w run).single
      omega
    refine ⟨keyed, fun redis may => ?_⟩
    obtain ⟨w, run, accepted, none_⟩ := left_behind may keyed
    obtain rfl : config = { redis := true } := by
      cases config
      cases redis
      rfl
    exact (once w run).accepted accepted none_
  · rintro ⟨keyed, faithful⟩ w run
    have kept := run_kept keyed run
    refine ⟨kept.single, kept.carries, fun accepted => ?_⟩
    exact (kept.put (kept.accepted accepted)).resolve_right fun ⟨redis, may⟩ => faithful redis may

end AgentStudio.Queue.Idempotent
