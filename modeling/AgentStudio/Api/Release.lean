import AgentStudio.Async.Handle
import AgentStudio.Gateway.Types

/-!
# What a turn has to give back

The two routes of `conversations.py` from where the thread lease is held: an admission is awaited,
the turn runs, and a `finally` block releases the admission, the lease and the tool registry, one
after the other. Any awaited call may raise, or be cancelled.
-/

namespace AgentStudio.Api.Release

open Async Gateway

/-- What is awaited, or given back without waiting for it; the turn itself awaits whatever it
does. `admitTenant` answers `false` where it raises `AdmissionLimitExceeded`. -/
inductive Op (J : Interface) where
  | admitTenant
  | decr
  | releaseScript
  | closeSource (i : Nat)
  /-- The SSE frame of a refusal. -/
  | refuse
  | turn (op : J.Op)

abbrev Calls (J : Interface) : Interface where
  Op := Op J
  Ans
    | .admitTenant => Bool
    | .turn op => J.Ans op
    | _ => Unit

/-- What a turn holds, from when it has its lease. -/
structure Held where
  /-- The local lock under the lease. -/
  lock : Bool := true
  leaseReleased : Bool := false
  /-- The semaphores under the admission. -/
  slots : Bool := false
  admissionReleased : Bool := false
  /-- The sources of the tool registry. -/
  sources : List Nat

/-- The admission has its slots back, the lease its lock, and the registry has no source. -/
def Held.Released (held : Held) : Prop :=
  held.lock = false ∧ held.slots = false ∧ held.sources = []

/-- Whether Redis is there, for the gate and for the coordinator. -/
structure Redis where
  admission : Bool := true
  coordinator : Bool := true

variable {J : Interface} {τ α : Type} (redis : Redis)

abbrev Action (J : Interface) (α : Type) := Coro (Calls J) Raised Held α

/-- An exception is logged; anything else that is raised is raised on. -/
def logged (c : Action J Unit) : Action J Unit :=
  tryCatch c fun e => if e.isException then pure () else throw e

/-- `_release_redis_slot`. -/
def releaseRedisSlot : Action J Unit :=
  if redis.admission then Coro.call (I := Calls J) .decr else pure ()

/-- `_release_redis_lock`. -/
def releaseRedisLock : Action J Unit :=
  if redis.coordinator then logged (Coro.call (I := Calls J) .releaseScript) else pure ()

/-- `AdmissionHandle.release`. -/
def releaseAdmission : Action J Unit := do
  if (← get).admissionReleased then pure ()
  else
    modify fun held => { held with admissionReleased := true }
    releaseRedisSlot redis
    modify fun held => { held with slots := false }

/-- `CoordinatorLease.release`; a lease that is not entered has no renewal task. -/
def releaseLease : Action J Unit := do
  if (← get).leaseReleased then pure ()
  else
    modify fun held => { held with leaseReleased := true }
    releaseRedisLock redis
    modify fun held => { held with lock := false }

def closeSources : List Nat → Action J Unit
  | [] => modify fun held => { held with sources := [] }
  | i :: rest => do
    logged (Coro.call (I := Calls J) (.closeSource i))
    closeSources rest

/-- `ToolRegistry.close`. -/
def close : Action J Unit := do
  closeSources (← get).sources

/-- The `finally` block. -/
def cleanup : Action J Unit := do
  releaseAdmission redis
  releaseLease redis
  close

/-- All that the route does in its `try` block and the handlers of it. -/
def during (body : Coro J Raised τ α) (init : τ) : Action J α := fun held =>
  ((body.tree init).handle fun op => .await (I := Calls J) (.turn op) .done).bind fun o =>
    .done (o, held)

/-- From the lease on; `refused` is what a route does where it is not admitted. -/
def admitted (refused body : Action J α) : Action J α := do
  let granted : Bool ← Coro.call (I := Calls J) .admitTenant
  if granted then
    modify fun held => { held with slots := true }
    Coro.ensure body (cleanup redis)
  else
    releaseLease redis
    refused

variable (body : Coro J Raised τ α) (init : τ)

/-- `process_conversation`, from the lease on. -/
def processConversation : Action J α :=
  admitted redis
    (throw (.exception "Concurrent generation limit exceeded. Try again shortly."))
    (during body init)

/-- `event_generator`, from the lease on. -/
def streamConversation : Action J (Option α) :=
  admitted redis
    (do
      Coro.call (I := Calls J) .refuse
      pure none)
    (some <$> during body init)

/-! ## Answers that are safe -/

/-- After these answers a turn goes on giving back what it holds; one that is refused never closes
its registry. -/
def Safe (sources : List Nat) : Event (Calls J) Raised → Prop
  | ⟨.admitTenant, .ok true⟩ => True
  | ⟨.admitTenant, .ok false⟩ => sources = []
  | ⟨.admitTenant, .error _⟩ | ⟨.decr, .error _⟩ => False
  | ⟨.releaseScript, .error e⟩ | ⟨.closeSource _, .error e⟩ => e.isException = true
  | _ => True

/-- A coroutine returns after safe answers, with `P`, and otherwise raises, with `Q`. -/
def Ends (sources : List Nat) (P Q : Held → Prop) (t : Trace (Calls J) Raised)
    (o : Except Raised Unit) (held : Held) : Prop :=
  (o = .ok () ∧ (∀ ev ∈ t, Safe sources ev) ∧ P held) ∨
    ((∃ e, o = .error e) ∧ ¬ (∀ ev ∈ t, Safe sources ev) ∧ Q held)

variable {redis} {body} {init} {sources : List Nat} {held : Held} {P P' Q Q' : Held → Prop}
  {c d : Action J Unit}

theorem ends_bind (first : c.All held (Ends sources P Q)) (weaker : ∀ held, Q held → Q' held)
    (next : ∀ held, P held → d.All held (Ends sources P' Q')) :
    (do c; d : Action J Unit).All held (Ends sources P' Q') := by
  apply first.bind
  · intro t a held' ended
    obtain ⟨-, safe, holds⟩ | ⟨⟨e, raised⟩, -⟩ := ended
    · apply (next held' holds).mono
      intro t' o held'' ended
      obtain ⟨returned, safe', holds'⟩ | ⟨raised, unsafe_, holds'⟩ := ended
      · refine .inl ⟨returned, fun ev mem => ?_, holds'⟩
        obtain mem | mem := List.mem_append.mp mem
        · exact safe ev mem
        · exact safe' ev mem
      · exact .inr ⟨raised, fun all => unsafe_ fun ev mem => all ev (List.mem_append_right t mem),
          holds'⟩
    · cases raised
  · intro t e held' ended
    obtain ⟨returned, -⟩ | ⟨raised, unsafe_, holds⟩ := ended
    · cases returned
    · exact .inr ⟨raised, unsafe_, weaker held' holds⟩

theorem ends_modify {f : Held → Held} (holds : P (f held)) :
    (modify f : Action J Unit).All held (Ends sources P Q) :=
  .inl ⟨rfl, fun _ mem => absurd mem List.not_mem_nil, holds⟩

/-- A call of which an exception is logged. -/
theorem ends_logged
    (called : c.All held fun t o held' => held' = held ∧ ∃ r : Except Raised Unit, o = r ∧
      ((∀ ev ∈ t, Safe sources ev) ↔ ∀ e, r = .error e → e.isException = true))
    (holds : P held) : (logged c).All held (Ends sources P P) := by
  rw [logged, Coro.all_tryCatch]
  apply called.mono
  rintro t o _ ⟨rfl, r, rfl, safe⟩
  cases o with
  | ok u => exact .inl ⟨rfl, safe.mpr (by simp), holds⟩
  | error e =>
    by_cases exception : e.isException = true
    · simp only [if_pos exception, Coro.all_pure, List.append_nil]
      exact .inl ⟨rfl, safe.mpr (by simpa using exception), holds⟩
    · simp only [if_neg exception, Coro.all_throw, List.append_nil]
      exact .inr ⟨⟨e, rfl⟩, fun all => exception (safe.mp all e rfl), holds⟩

theorem ends_releaseScript (holds : P held) :
    (logged (Coro.call (I := Calls J) .releaseScript)).All held (Ends sources P P) := by
  apply ends_logged _ holds
  rw [Coro.all_call]
  intro r
  refine ⟨rfl, r, rfl, ?_⟩
  cases r with
  | ok u => simp [Safe]
  | error e => simp [Safe]

theorem ends_closeSource (i : Nat) (holds : P held) :
    (logged (Coro.call (I := Calls J) (.closeSource i))).All held (Ends sources P P) := by
  apply ends_logged _ holds
  rw [Coro.all_call]
  intro r
  refine ⟨rfl, r, rfl, ?_⟩
  cases r with
  | ok u => simp [Safe]
  | error e => simp [Safe]

theorem ends_decr (holds : P held) :
    (Coro.call (I := Calls J) .decr : Action J Unit).All held (Ends sources P P) := by
  rw [Coro.all_call]
  intro r
  cases r with
  | ok u => exact .inl ⟨rfl, by simp [Safe], holds⟩
  | error e => exact .inr ⟨⟨e, rfl⟩, by simp [Safe], holds⟩

theorem ends_pure (holds : P held) : (pure () : Action J Unit).All held (Ends sources P Q) :=
  .inl ⟨rfl, fun _ mem => absurd mem List.not_mem_nil, holds⟩

/-! ## What is given back -/

theorem releaseAdmission_ends (open_ : held.admissionReleased = false) :
    (releaseAdmission redis : Action J Unit).All held (Ends sources
      (· = { held with admissionReleased := true, slots := false })
      (· = { held with admissionReleased := true })) := by
  rw [releaseAdmission, Coro.all_get_bind, if_neg (by rw [open_]; decide), Coro.all_modify_bind]
  apply ends_bind (P := (· = { held with admissionReleased := true }))
  · rw [releaseRedisSlot]
    split
    · exact ends_decr rfl
    · exact ends_pure rfl
  · exact fun _ => id
  · rintro _ rfl
    exact ends_modify rfl

variable (sources) in
theorem releaseLease_ends (open_ : held.leaseReleased = false) :
    (releaseLease redis : Action J Unit).All held (Ends sources
      (· = { held with leaseReleased := true, lock := false })
      (· = { held with leaseReleased := true })) := by
  rw [releaseLease, Coro.all_get_bind, if_neg (by rw [open_]; decide), Coro.all_modify_bind]
  apply ends_bind (P := (· = { held with leaseReleased := true }))
  · rw [releaseRedisLock]
    split
    · exact ends_releaseScript rfl
    · exact ends_pure rfl
  · exact fun _ => id
  · rintro _ rfl
    exact ends_modify rfl

theorem closeSources_ends (l : List Nat) (some_ : l ≠ [] → held.sources ≠ []) :
    (closeSources l : Action J Unit).All held (Ends sources
      (· = { held with sources := [] }) (·.sources ≠ [])) := by
  induction l with
  | nil => exact ends_modify rfl
  | cons i rest ih =>
    apply ends_bind (ends_closeSource (P := (· = held)) i rfl)
    · rintro _ rfl
      exact some_ (List.cons_ne_nil i rest)
    · rintro _ rfl
      exact ih fun _ => some_ (List.cons_ne_nil i rest)

variable (sources) in
/-- Nothing is left to release exactly after safe answers. -/
theorem cleanup_ends (lock : held.lock = true) (open_ : held.leaseReleased = false)
    (open' : held.admissionReleased = false) :
    (cleanup redis : Action J Unit).All held (Ends sources Held.Released (¬ Held.Released ·)) := by
  rw [cleanup]
  apply ends_bind (releaseAdmission_ends open')
  · rintro _ rfl released
    rw [lock] at released
    cases released.1
  · rintro _ rfl
    apply ends_bind
    · exact releaseLease_ends sources open_
    · rintro _ rfl released
      rw [lock] at released
      cases released.1
    · rintro _ rfl
      rw [close, Coro.all_get_bind]
      apply (closeSources_ends _ id).mono
      rintro t o held' (⟨returned, safe, rfl⟩ | ⟨raised, unsafe_, some_⟩)
      · exact .inl ⟨returned, safe, rfl, rfl, rfl⟩
      · exact .inr ⟨raised, unsafe_, fun released => some_ released.2.2⟩

/-- A part of a route that neither takes nor gives back any of the three. -/
def Apart (sources : List Nat) (c : Action J α) : Prop :=
  ∀ held, c.All held fun t _ held' => (∀ ev ∈ t, Safe sources ev) ∧ held' = held

/-- Whatever a turn awaits is no part of the answers that matter. -/
theorem safe_handle (c : Tree J Raised (Except Raised α)) :
    (c.handle fun op => .await (I := Calls J) (.turn op) .done).All fun t _ =>
      ∀ ev ∈ t, Safe sources ev := by
  induction c with
  | done w => exact fun _ mem => absurd mem List.not_mem_nil
  | await op k ih =>
    intro r
    change ((k r).handle _).All _
    rw [Tree.all_iff]
    intro t o run
    exact List.forall_mem_cons.mpr ⟨trivial, (Tree.all_iff _ _).mp (ih r) t o run⟩

theorem apart_during : Apart sources (during body init) := by
  intro held
  change (Tree.bind _ _).All _
  rw [Tree.all_bind, Tree.all_iff]
  intro t o run
  rw [Tree.All, List.append_nil]
  exact ⟨(Tree.all_iff _ _).mp (safe_handle _) t o run, rfl⟩

theorem apart_map {β : Type} {c : Action J α} (apart : Apart sources c) (f : α → β) :
    Apart sources (f <$> c) := fun held =>
  (apart held).map (fun _ _ _ => id) fun _ _ _ => id

theorem admitted_released {refused c : Action J α} (apart : Apart sources refused)
    (apart' : Apart sources c) :
    (admitted redis refused c).All { sources := sources } fun t _ held =>
      held.Released ↔ ∀ ev ∈ t, Safe sources ev := by
  rw [admitted, Coro.all_call_bind]
  constructor
  · intro granted
    cases granted with
    | true =>
      rw [if_pos rfl, Coro.all_modify_bind]
      apply (apart' _).ensure
      rintro t o _ ⟨safe, rfl⟩
      apply (cleanup_ends sources rfl rfl rfl).mono
      rintro t' o' held (⟨-, safe', released⟩ | ⟨-, unsafe_, left⟩)
      · refine iff_of_true released (List.forall_mem_cons.mpr ⟨trivial, ?_⟩)
        exact List.forall_mem_append.mpr ⟨safe, safe'⟩
      · refine iff_of_false left fun all => unsafe_ ?_
        exact (List.forall_mem_append.mp (List.forall_mem_cons.mp all).2).2
    | false =>
      rw [if_neg Bool.false_ne_true, Coro.all_bind]
      apply (releaseLease_ends sources rfl).mono
      rintro t o held (⟨rfl, safe, rfl⟩ | ⟨⟨e, rfl⟩, unsafe_, rfl⟩)
      · apply (apart _).mono
        rintro t' _ _ ⟨safe', rfl⟩
        simp only [Held.Released, true_and, List.forall_mem_cons, List.forall_mem_append]
        exact ⟨fun empty => ⟨empty, safe, safe'⟩, fun all => all.1⟩
      · exact iff_of_false (fun released => nomatch released.1) fun all =>
          unsafe_ fun ev mem => all ev (List.mem_cons_of_mem _ mem)
  · intro e
    exact iff_of_false (fun released => nomatch released.1) fun all => all _ List.mem_cons_self

theorem apart_throw (e : Raised) : Apart sources (throw e : Action J α) := fun _ =>
  ⟨fun _ mem => absurd mem List.not_mem_nil, rfl⟩

theorem apart_refuse : Apart sources
    (do
      Coro.call (I := Calls J) .refuse
      pure none : Action J (Option α)) := by
  intro held
  rw [Coro.all_call_bind]
  exact ⟨fun _ => ⟨by simp [Safe], rfl⟩, fun _ => ⟨by simp [Safe], rfl⟩⟩

/-- In every run of either route all is released that was held exactly if every answer was safe. -/
theorem released_iff (redis : Redis) (body : Coro J Raised τ α) (init : τ) (sources : List Nat)
    (t : Trace (Calls J) Raised) (held : Held) :
    (∀ o, (processConversation redis body init).Runs { sources := sources } t o held →
      (held.Released ↔ ∀ ev ∈ t, Safe sources ev)) ∧
    (∀ o, (streamConversation redis body init).Runs { sources := sources } t o held →
      (held.Released ↔ ∀ ev ∈ t, Safe sources ev)) := by
  constructor
  · intro o run
    exact Coro.all_iff.mp (admitted_released (apart_throw _) apart_during) t o held run
  · intro o run
    exact Coro.all_iff.mp (admitted_released apart_refuse (apart_map apart_during some)) t o held run

/-- The connection to Redis is lost while the slot is counted: the thread stays locked. -/
theorem admission_fails : ¬ ∀ (J : Interface) (body : Coro J Raised Unit Unit)
    (t : Trace (Calls J) Raised) (o : Except Raised Unit) (held : Held),
      (processConversation {} body ()).Runs { sources := [] } t o held → held.Released := by
  intro all
  have released := all ⟨Empty, nofun⟩ (pure ())
    [⟨.admitTenant, .error (.exception "Connection closed by server.")⟩] _ _
    (.await _ _ _ (.done _))
  cases released.1

end AgentStudio.Api.Release
