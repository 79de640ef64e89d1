import AgentStudio.Async.Turns
import AgentStudio.Gateway.Types

/-!
# Concurrent sessions

The session counter of `session/limits.py`. `enter_session` increments it, asks the cap
of what came out, and takes the increment back where that is over; `leave_session`
decrements it and deletes the key where zero came out, which another's increment may
have followed.
-/

namespace AgentStudio.Session.Limits

open Async

abbrev Key := String

/-- The part of `EndUserLimitsConfig` that the session counter reads. -/
structure Config where
  keyPrefix : String := "neryva:eu:"
  maxConcurrentSessions : Int := 5
  sessionLeaseSeconds : Nat := 3600

def Config.sessionsKey (config : Config) (tenantId endUserId : String) : Key :=
  config.keyPrefix ++ "sessions:" ++ tenantId ++ ":" ++ endUserId

inductive Op where
  /-- `self._redis_available`. -/
  | available
  | clearAvailable
  | incr (key : Key)
  | expire (key : Key) (seconds : Nat)
  | decr (key : Key)
  | delete (key : Key)
  /-- The session is entered; the answer is that it is to be left. -/
  | active

def Op.Answer : Op → Type
  | available => Bool
  | incr _ | decr _ => Int
  | clearAvailable | expire .. | delete _ | active => Unit

abbrev Calls : Interface := ⟨Op, Op.Answer⟩

abbrev Action := Coro Calls Raised Unit

variable (config : Config)

/-! ## The limiter -/

/-- The handler of both: the limits are disabled from here on. -/
def failOpen {α : Type} (a : α) (e : Raised) : Action α := do
  if e.isException then
    let available : Bool ← Coro.call (I := Calls) .available
    if available then Coro.post (I := Calls) .clearAvailable
    pure a
  else throw e

/-- The count is over the cap; a cap of zero or less is none. -/
def Config.OverCap (count : Int) : Prop :=
  config.maxConcurrentSessions > 0 ∧ count > config.maxConcurrentSessions

instance (count : Int) : Decidable (config.OverCap count) := inferInstanceAs (Decidable (_ ∧ _))

/-- The key expires a lease after the first increment. -/
def lease (key : Key) (count : Int) : Action Unit :=
  if count = 1 then Coro.call (I := Calls) (.expire key config.sessionLeaseSeconds) else pure ()

def enterSession (tenantId endUserId : String) : Action Bool := do
  let available : Bool ← Coro.call (I := Calls) .available
  if available then
    let key := config.sessionsKey tenantId endUserId
    tryCatch (do
      let count : Int ← Coro.call (I := Calls) (.incr key)
      lease config key count
      if config.OverCap count then
        let _ : Int ← Coro.call (I := Calls) (.decr key)
        pure false
      else pure true) (failOpen true)
  else pure true

def leaveSession (tenantId endUserId : String) : Action Unit := do
  let available : Bool ← Coro.call (I := Calls) .available
  if available then
    let key := config.sessionsKey tenantId endUserId
    tryCatch (do
      let count : Int ← Coro.call (I := Calls) (.decr key)
      if count ≤ 0 then Coro.call (I := Calls) (.delete key)) (failOpen ())
  else pure ()

/-! ## The workers -/

structure Call where
  tenantId : String
  endUserId : String
  deriving DecidableEq

def Config.keyOf (call : Call) : Key := config.sessionsKey call.tenantId call.endUserId

/-- One leave for an enter that succeeded, whichever worker makes it. -/
def session (call : Call) : Action Unit := do
  let entered ← enterSession config call.tenantId call.endUserId
  if entered then
    Coro.post (I := Calls) .active
    leaveSession config call.tenantId call.endUserId
  else pure ()

abbrev Outcome := Except Raised Unit × Unit

def body (config : Config) (call : Call) : Tree Calls Raised Outcome := session config call ()

/-- For the record, by key: the sessions incremented for and not decremented for, and those of
them that were not over the cap; and the sessions that were to be left. -/
structure Store where
  counters : Key → Option Int := fun _ => none
  counted : Key → Finset ℕ := fun _ => ∅
  accepted : Key → Finset ℕ := fun _ => ∅
  asked : List ℕ := []

namespace Store

variable (s : Store)

/-- What Redis takes a missing counter for. -/
def value (key : Key) : Int := (s.counters key).getD 0

def incr (i : ℕ) (key : Key) : Store where
  counters := Function.update s.counters key (some (s.value key + 1))
  counted := Function.update s.counted key (insert i (s.counted key))
  accepted := if config.OverCap (s.value key + 1) then s.accepted
    else Function.update s.accepted key (insert i (s.accepted key))
  asked := s.asked

def decr (i : ℕ) (key : Key) : Store where
  counters := Function.update s.counters key (some (s.value key - 1))
  counted := Function.update s.counted key ((s.counted key).erase i)
  accepted := Function.update s.accepted key ((s.accepted key).erase i)
  asked := s.asked

def delete (key : Key) : Store := { s with counters := Function.update s.counters key none }

def ask (i : ℕ) : Store := { s with asked := i :: s.asked }

end Store

/-- Every command is answered, and is one step. Only where `racing` does a `DELETE` find a
counter that is above zero again. -/
def Replies (racing : Prop) : Pool.Replies Call Calls Raised Store
  | _, _, .available, s, r, s' => s' = s ∧ r = .ok true
  | _, _, .clearAvailable, s, r, s' => s' = s ∧ r = .ok ()
  | i, _, .incr key, s, r, s' => s' = s.incr config i key ∧ r = .ok (s.value key + 1)
  | _, _, .expire .., s, r, s' => s' = s ∧ r = .ok ()
  | i, _, .decr key, s, r, s' => s' = s.decr i key ∧ r = .ok (s.value key - 1)
  | _, _, .delete key, s, r, s' => (racing ∨ s.value key ≤ 0) ∧ s' = s.delete key ∧ r = .ok ()
  | i, _, .active, s, r, s' => s' = s.ask i ∧ r = .ok ()

abbrev World := Pool Call Calls Raised Outcome Store

abbrev Runs (config : Config) (racing : Prop) : World → World → Prop :=
  Pool.Turns (Replies config racing) (fun _ _ => False) (body config)

/-! ## What is a session's own -/

/-- Nothing is counted for it. -/
structure Out (i : ℕ) (s : Store) : Prop where
  counted : ∀ key, i ∉ s.counted key
  accepted : ∀ key, i ∉ s.accepted key

/-- It is counted at this key, and accepted. -/
structure In (i : ℕ) (key : Key) (s : Store) : Prop where
  counted : ∀ other, i ∈ s.counted other ↔ other = key
  accepted : ∀ other, i ∈ s.accepted other ↔ other = key

/-- It is counted at this key, and over the cap. -/
structure Above (i : ℕ) (key : Key) (s : Store) : Prop where
  counted : ∀ other, i ∈ s.counted other ↔ other = key
  accepted : ∀ other, i ∉ s.accepted other

structure Sound (s : Store) : Prop where
  value : ∀ key, s.value key = (s.counted key).card
  subset : ∀ key, s.accepted key ⊆ s.counted key
  cap : 0 < config.maxConcurrentSessions →
    ∀ key, ((s.accepted key).card : Int) ≤ config.maxConcurrentSessions

structure Frame (i : ℕ) (s s' : Store) : Prop where
  counted : ∀ key, i ∈ s'.counted key ↔ i ∈ s.counted key
  accepted : ∀ key, i ∈ s'.accepted key ↔ i ∈ s.accepted key

/-- Only a session that is in is asked to leave. -/
def Asks (i : ℕ) (call : Call) (s s' : Store) : Prop :=
  s'.asked = s.asked ∨ In i (config.keyOf call) s

abbrev Rely := Pool.Rely (Sound config) Frame

abbrev Guar (i : ℕ) (call : Call) := Pool.Guar (Sound config) Frame (Asks config i call) i

variable {config} {s s' : Store} {i : ℕ} {call : Call} {key : Key}

theorem Frame.refl (i : ℕ) (s : Store) : Frame i s s := ⟨fun _ => .rfl, fun _ => .rfl⟩

theorem Frame.trans {a b c : Store} (first : Frame i a b) (next : Frame i b c) : Frame i a c :=
  ⟨fun key => (next.counted key).trans (first.counted key),
    fun key => (next.accepted key).trans (first.accepted key)⟩

theorem Out.moved (out : Out i s) (moved : Rely config i s s') : Out i s' :=
  ⟨fun key mem => out.counted key ((moved.2.counted key).mp mem),
    fun key mem => out.accepted key ((moved.2.accepted key).mp mem)⟩

theorem In.moved (has : In i key s) (moved : Rely config i s s') : In i key s' :=
  ⟨fun other => (moved.2.counted other).trans (has.counted other),
    fun other => (moved.2.accepted other).trans (has.accepted other)⟩

theorem Above.moved (has : Above i key s) (moved : Rely config i s s') : Above i key s' :=
  ⟨fun other => (moved.2.counted other).trans (has.counted other),
    fun other mem => has.accepted other ((moved.2.accepted other).mp mem)⟩

/-! ## Steps -/

theorem value_update (s : Store) (key other : Key) (count : Option Int) :
    ({ s with counters := Function.update s.counters key count } : Store).value other =
      if other = key then count.getD 0 else s.value other := by
  by_cases its : other = key
  · simp [Store.value, its]
  · simp [Store.value, its]

theorem mem_insert_at (sets : Key → Finset ℕ) (j : ℕ) (other : Key) :
    j ∈ Function.update sets key (insert i (sets key)) other ↔
      j = i ∧ other = key ∨ j ∈ sets other := by
  by_cases its : other = key
  · rw [its, Function.update_self, Finset.mem_insert]
    simp
  · rw [Function.update_of_ne its]
    simp [its]

theorem mem_erase_at (sets : Key → Finset ℕ) (j : ℕ) (other : Key) :
    j ∈ Function.update sets key ((sets key).erase i) other ↔
      ¬ (j = i ∧ other = key) ∧ j ∈ sets other := by
  by_cases its : other = key
  · rw [its, Function.update_self, Finset.mem_erase]
    simp
  · rw [Function.update_of_ne its]
    simp [its]

theorem guar_refl (sound : Sound config s) : Guar config i call s s :=
  ⟨sound, .inl rfl, fun j _ => Frame.refl j s⟩

theorem accepted_incr (config : Config) (s : Store) (i : ℕ) (key : Key) :
    (s.incr config i key).accepted = if config.OverCap (s.value key + 1) then s.accepted
      else Function.update s.accepted key (insert i (s.accepted key)) := rfl

theorem guar_incr (sound : Sound config s) (out : Out i s) :
    Guar config i call s (s.incr config i key) ∧
      (config.OverCap (s.value key + 1) → Above i key (s.incr config i key)) ∧
      (¬ config.OverCap (s.value key + 1) → In i key (s.incr config i key)) := by
  have counted (j : ℕ) (other : Key) : j ∈ (s.incr config i key).counted other ↔
      j = i ∧ other = key ∨ j ∈ s.counted other := mem_insert_at s.counted j other
  have own (other : Key) : i ∈ (s.incr config i key).counted other ↔ other = key := by
    simp [counted, out.counted other]
  have size : (insert i (s.counted key)).card = (s.counted key).card + 1 :=
    Finset.card_insert_of_notMem (out.counted key)
  have value (other : Key) : (s.incr config i key).value other =
      ((s.incr config i key).counted other).card := by
    refine (value_update s key other _).trans ?_
    by_cases its : other = key
    · rw [if_pos its, its, Option.getD_some, sound.value key]
      simp [Store.incr, size]
    · rw [if_neg its, sound.value other]
      simp [Store.incr, Function.update_of_ne its]
  by_cases above : config.OverCap (s.value key + 1)
  · have accepted : (s.incr config i key).accepted = s.accepted := if_pos above
    have sound' : Sound config (s.incr config i key) := by
      refine ⟨value, fun other j mem => ?_, fun bounded other => ?_⟩
      · rw [accepted] at mem
        exact (counted j other).mpr (.inr (sound.subset other mem))
      · rw [accepted]
        exact sound.cap bounded other
    refine ⟨⟨sound', .inl rfl, fun j other => ⟨fun k => ?_, fun k => ?_⟩⟩, fun _ => ⟨own, fun k => ?_⟩,
      fun within => absurd above within⟩
    · simp [counted, other]
    · rw [accepted]
    · rw [accepted]
      exact out.accepted k
  · have accepted (j : ℕ) (other : Key) : j ∈ (s.incr config i key).accepted other ↔
        j = i ∧ other = key ∨ j ∈ s.accepted other := by
      rw [accepted_incr, if_neg above]
      exact mem_insert_at s.accepted j other
    have sound' : Sound config (s.incr config i key) := by
      refine ⟨value, fun other j mem => ?_, fun bounded other => ?_⟩
      · rw [counted]
        exact ((accepted j other).mp mem).imp_right fun mem => sound.subset other mem
      · rw [accepted_incr, if_neg above]
        by_cases its : other = key
        · -- those accepted are counted, and the count is what was asked
          rw [its, Function.update_self, Finset.card_insert_of_notMem (out.accepted key)]
          have fewer := Finset.card_le_card (sound.subset key)
          have count := sound.value key
          have within : s.value key + 1 ≤ config.maxConcurrentSessions := by
            by_contra more
            exact above ⟨bounded, not_le.mp more⟩
          omega
        · rw [Function.update_of_ne its]
          exact sound.cap bounded other
    refine ⟨⟨sound', .inl rfl, fun j other => ⟨fun k => ?_, fun k => ?_⟩⟩,
      fun capped => absurd capped above, fun _ => ⟨own, fun k => ?_⟩⟩
    · simp [counted, other]
    · simp [accepted, other]
    · simp [accepted, out.accepted k]

theorem guar_decr (sound : Sound config s) (has : ∀ other, i ∈ s.counted other ↔ other = key) :
    Guar config i call s (s.decr i key) ∧ Out i (s.decr i key) := by
  have counted (j : ℕ) (other : Key) : j ∈ (s.decr i key).counted other ↔
      ¬ (j = i ∧ other = key) ∧ j ∈ s.counted other := mem_erase_at s.counted j other
  have accepted (j : ℕ) (other : Key) : j ∈ (s.decr i key).accepted other ↔
      ¬ (j = i ∧ other = key) ∧ j ∈ s.accepted other := mem_erase_at s.accepted j other
  have mem : i ∈ s.counted key := (has key).mpr rfl
  have size := Finset.card_erase_add_one mem
  have sound' : Sound config (s.decr i key) := by
    refine ⟨fun other => ?_, fun other j mem => ?_, fun bounded other => ?_⟩
    · refine (value_update s key other _).trans ?_
      by_cases its : other = key
      · rw [if_pos its, its, Option.getD_some, sound.value key]
        simp only [Store.decr, Function.update_self]
        omega
      · rw [if_neg its, sound.value other]
        simp [Store.decr, Function.update_of_ne its]
    · rw [counted]
      exact ((accepted j other).mp mem).imp_right fun mem => sound.subset other mem
    · refine le_trans ?_ (sound.cap bounded other)
      have fewer : (s.decr i key).accepted other ⊆ s.accepted other := fun j mem =>
        ((accepted j other).mp mem).2
      exact_mod_cast Finset.card_le_card fewer
  refine ⟨⟨sound', .inl rfl, fun j other => ⟨fun k => ?_, fun k => ?_⟩⟩, fun k mem => ?_,
    fun k mem => ?_⟩
  · simp [counted, other]
  · simp [accepted, other]
  · obtain ⟨differs, mem⟩ := (counted i k).mp mem
    exact differs ⟨rfl, (has k).mp mem⟩
  · obtain ⟨differs, mem⟩ := (accepted i k).mp mem
    exact differs ⟨rfl, (has k).mp (sound.subset k mem)⟩

/-- Where it finds zero, the delete is without effect. -/
theorem guar_delete (sound : Sound config s) (empty : s.value key ≤ 0) :
    Guar config i call s (s.delete key) := by
  have zero : s.value key = 0 := by
    have count := sound.value key
    omega
  refine ⟨⟨fun other => ?_, sound.subset, sound.cap⟩, .inl rfl, fun j _ =>
    ⟨fun _ => .rfl, fun _ => .rfl⟩⟩
  refine (value_update s key other none).trans ?_
  by_cases its : other = key
  · rw [if_pos its, its, Option.getD_none, ← zero]
    exact sound.value key
  · rw [if_neg its]
    exact sound.value other

theorem guar_ask (sound : Sound config s) (has : In i (config.keyOf call) s) :
    Guar config i call s (s.ask i) :=
  ⟨⟨sound.value, sound.subset, sound.cap⟩, .inr has, fun _ _ => ⟨fun _ => .rfl, fun _ => .rfl⟩⟩

/-! ## Sessions -/

variable (config) in
abbrev SafeAs {α : Type} (i : ℕ) (call : Call) (action : Action α)
    (Q : Except Raised α → Unit → Store → Prop) (s : Store) : Prop :=
  action.Safe (Replies config False i call) (Rely config i) (Guar config i call) () Q s

/-- What both ask first. -/
theorem available_safe {α : Type} {k : Bool → Action α} {Q : Except Raised α → Unit → Store → Prop}
    {P : Store → Prop} (here : P s) (moved : ∀ s s', P s → Rely config i s s' → P s')
    (next : ∀ s₁, P s₁ → SafeAs config i call (k true) Q s₁) :
    SafeAs config i call (Coro.call (I := Calls) .available >>= k) Q s := by
  refine Coro.safe_call_bind (I := Calls) .available ?_
  rintro s₁ before r s₂ ⟨rfl, rfl⟩
  refine ⟨guar_refl before.1, fun a is => ?_, fun e is => by cases is⟩
  obtain rfl := Except.ok.inj is
  exact next s₂ (moved s s₂ here before)

/-- A command that changes nothing that is counted. -/
theorem lease_safe {count : Int} {P : Store → Prop} (here : P s)
    (moved : ∀ s s', P s → Rely config i s s' → P s') :
    SafeAs config i call (lease config key count) (fun o _ s' => o = .ok () ∧ P s') s := by
  refine iteInduction (motive := fun action => SafeAs config i call action _ s) (fun _ => ?_)
    fun _ => ⟨rfl, here⟩
  refine Coro.safe_call (I := Calls) (.expire key config.sessionLeaseSeconds) ?_
  rintro s₁ before r s₂ ⟨rfl, rfl⟩
  exact ⟨guar_refl before.1, rfl, moved s s₂ here before⟩

theorem enterSession_safe (tenantId endUserId : String) (out : Out i s) :
    SafeAs config i call (enterSession config tenantId endUserId) (fun o _ s' =>
      o = .ok true ∧ In i (config.sessionsKey tenantId endUserId) s' ∨ o = .ok false ∧ Out i s')
      s := by
  refine available_safe out (fun _ _ => Out.moved) fun s₁ out₁ => ?_
  refine Coro.Safe.tryCatch (P := fun o _ s' =>
    o = .ok true ∧ In i (config.sessionsKey tenantId endUserId) s' ∨ o = .ok false ∧ Out i s')
    ?_ (fun _ _ _ => id) ?_
  · refine Coro.safe_call_bind (I := Calls) (.incr _) ?_
    rintro s₂ before r s₃ ⟨rfl, rfl⟩
    obtain ⟨guar, above, within⟩ := guar_incr before.1 (out₁.moved before)
    refine ⟨guar, fun (count : Int) is => ?_, fun e is => by cases is⟩
    have its : s₂.value (config.sessionsKey tenantId endUserId) + 1 = count := Except.ok.inj is
    rw [its] at above within
    by_cases capped : config.OverCap count
    · refine Coro.Safe.bind (lease_safe (above capped) fun _ _ => Above.moved) ?_
        fun e _ _ h => by cases h.1
      rintro - - s₄ ⟨-, above₄⟩
      rw [if_pos capped]
      refine Coro.safe_call_bind (I := Calls) (.decr _) ?_
      rintro s₅ before' r s₆ ⟨rfl, rfl⟩
      obtain ⟨guar', out'⟩ := guar_decr before'.1 (above₄.moved before').counted
      exact ⟨guar', fun _ _ => .inr ⟨rfl, out'⟩, fun e is => by cases is⟩
    · refine Coro.Safe.bind (lease_safe (within capped) fun _ _ => In.moved) ?_
        fun e _ _ h => by cases h.1
      rintro - - s₄ ⟨-, in₄⟩
      rw [if_neg capped]
      exact .inl ⟨rfl, in₄⟩
  · rintro e - s₂ (⟨is, -⟩ | ⟨is, -⟩) <;> cases is

theorem leaveSession_safe (tenantId endUserId : String)
    (has : In i (config.sessionsKey tenantId endUserId) s) :
    SafeAs config i call (leaveSession config tenantId endUserId)
      (fun o _ s' => o = .ok () ∧ Out i s') s := by
  refine available_safe has (fun _ _ => In.moved) fun s₁ in₁ => ?_
  refine Coro.Safe.tryCatch (P := fun o _ s' => o = .ok () ∧ Out i s') ?_ (fun _ _ _ => id)
    fun e _ _ h => by cases h.1
  refine Coro.safe_call_bind (I := Calls) (.decr _) ?_
  rintro s₂ before r s₃ ⟨rfl, rfl⟩
  obtain ⟨guar, out⟩ := guar_decr before.1 (in₁.moved before).counted
  refine ⟨guar, fun (count : Int) is => ?_, fun e is => by cases is⟩
  refine iteInduction (motive := fun action => SafeAs config i call action
    (fun o _ s' => o = .ok () ∧ Out i s') (s₂.decr i (config.sessionsKey tenantId endUserId)))
    (fun _ => ?_) fun _ => ⟨rfl, out⟩
  refine Coro.safe_call (I := Calls) (.delete _) ?_
  rintro s₄ before' r s₅ ⟨racing | empty, rfl, rfl⟩
  · exact racing.elim
  · have out₄ := out.moved before'
    exact ⟨guar_delete before'.1 empty, rfl, out₄.counted, out₄.accepted⟩

theorem session_safe (out : Out i s) :
    SafeAs config i call (session config call) (fun _ _ s' => Out i s') s := by
  refine Coro.Safe.bind (enterSession_safe call.tenantId call.endUserId out) ?_ ?_
  · rintro entered - s₁ (⟨is, in₁⟩ | ⟨is, out₁⟩)
    · obtain rfl := Except.ok.inj is
      rintro s₂ before r s₃ ⟨rfl, -⟩
      have in₂ := in₁.moved before
      refine ⟨guar_ask before.1 in₂, ?_⟩
      have in₃ : In i (config.sessionsKey call.tenantId call.endUserId) (s₂.ask i) :=
        ⟨in₂.counted, in₂.accepted⟩
      exact (leaveSession_safe call.tenantId call.endUserId in₃).mono fun _ _ _ h => h.2
    · obtain rfl := Except.ok.inj is
      exact out₁
  · rintro e - s₁ (⟨is, -⟩ | ⟨is, -⟩) <;> cases is

/-! ## Runs -/

theorem framed (config : Config) : Pool.Framed (Replies config False) (fun _ _ => False)
    (body config) (Sound config) Frame (Asks config) Out (fun i _ _ s => Out i s) where
  refl := Frame.refl
  trans _ _ _ _ := Frame.trans
  env _ _ never := never.elim
  fresh _ _ _ moved out := out.moved moved
  ended _ _ _ _ _ moved out := out.moved moved
  start _ _ _ _ out := session_safe out

def World.empty : World := ⟨{}, []⟩

/-- It was entered, and was not yet told to leave. -/
def Active (config : Config) (key : Key) : Option (Task Call Calls Raised Outcome) → Bool
  | some ⟨call, _, .await .active _⟩ => config.keyOf call = key
  | _ => false

/-- The active sessions of a key. -/
def active (config : Config) (w : World) (key : Key) : Finset ℕ :=
  (Finset.range w.tasks.length).filter fun i => Active config key w.tasks[i]? = true

/-- No call of `enter_session` or `leave_session` is in progress. -/
def Quiet (w : World) : Prop :=
  ∀ task ∈ w.tasks, (∃ o, task.rest = .done o) ∨ ∃ k, task.rest = .await .active k

/-- Between calls a counter is the number of its active sessions, and where there is a cap they
are at no time more. -/
structure Counted (config : Config) (w : World) : Prop where
  value : Quiet w → ∀ key, w.store.value key = (active config w key).card
  cap : 0 < config.maxConcurrentSessions →
    ∀ key, ((active config w key).card : Int) ≤ config.maxConcurrentSessions

theorem active_in {w : World} (sound : Sound config w.store) (stands : ∀ i, Pool.Stands
    (Replies config False) (Sound config) Frame (Asks config) Out (fun i _ _ s => Out i s) i
    w.tasks[i]? w.store) (mem : i ∈ active config w key) : In i key w.store := by
  have its := (Finset.mem_filter.mp mem).2
  have mine := stands i
  unfold Active at its
  split at its
  next call trace k here =>
    rw [here] at mine
    have asks := (framed config).own_step sound mine
      (show Replies config False i call .active w.store (.ok ()) (w.store.ask i) from ⟨rfl, rfl⟩)
    rcases asks with same | has
    · have longer := congrArg List.length same
      simp [Store.ask] at longer
    · rwa [of_decide_eq_true its] at has
  next => cases its

/-- In every run of any number of workers in which each `DELETE` of a leave finds the counter
still at zero, of sessions of any users in any order. -/
theorem sessions_counted (config : Config) (w : World) (run : Runs config False World.empty w) :
    Counted config w := by
  have zero : Sound config World.empty.store := by
    refine ⟨fun _ => rfl, fun _ => Finset.Subset.refl _, fun bounded key => ?_⟩
    exact bounded.le
  have out (i : ℕ) : Out i World.empty.store :=
    ⟨fun _ => Finset.notMem_empty i, fun _ => Finset.notMem_empty i⟩
  obtain ⟨sound, stands⟩ := Pool.turns_framed (framed config) run zero out
  refine ⟨fun quiet key => ?_, fun bounded key => ?_⟩
  · have same : w.store.counted key = active config w key := by
      ext i
      refine ⟨fun mem => ?_, fun mem => ((active_in sound stands mem).counted key).mpr rfl⟩
      have mine := stands i
      cases here : w.tasks[i]? with
      | none =>
        rw [here] at mine
        exact absurd mem (mine.counted key)
      | some task =>
        rw [here] at mine
        obtain ⟨call, trace, rest⟩ := task
        rcases quiet _ (List.mem_of_getElem? here) with ⟨o, rfl⟩ | ⟨k, rfl⟩
        · exact absurd mem (mine.counted key)
        · have inside := (List.getElem?_eq_some_iff.mp here).1
          have its : i ∈ active config w (config.keyOf call) :=
            Finset.mem_filter.mpr ⟨Finset.mem_range.mpr inside, by simp [here, Active]⟩
          have at_ := ((active_in sound stands its).counted key).mp mem
          rwa [at_]
    rw [← same]
    exact sound.value key
  · have fewer : active config w key ⊆ w.store.accepted key := fun i mem =>
      ((active_in sound stands mem).accepted key).mpr rfl
    refine le_trans ?_ (sound.cap bounded key)
    exact_mod_cast Finset.card_le_card fewer

/-! ## A delete that comes late -/

/-- The commands as they are. -/
def answering (config : Config) (i : ℕ) (_ : Call) :
    (op : Op) → Store → Except Raised op.Answer × Store
  | .available, s => (.ok true, s)
  | .clearAvailable, s => (.ok (), s)
  | .incr key, s => (.ok (s.value key + 1), s.incr config i key)
  | .expire .., s => (.ok (), s)
  | .decr key, s => (.ok (s.value key - 1), s.decr i key)
  | .delete key, s => (.ok (), s.delete key)
  | .active, s => (.ok (), s.ask i)

/-- A delete finds the counter still at zero. -/
def inTime (_ : ℕ) (_ : Call) : Op → Store → Bool
  | .delete key, s => s.value key ≤ 0
  | _, _ => true

theorem answering_replies {racing : Prop} (config : Config) (i : ℕ) (call : Call) (op : Op)
    (s : Store) (timely : racing ∨ inTime i call op s = true) :
    Replies config racing i call op s (answering config i call op s).1
      (answering config i call op s).2 := by
  cases op with
  | delete key => exact ⟨timely.imp_right of_decide_eq_true, rfl, rfl⟩
  | available | clearAvailable | incr | expire | decr | active => exact ⟨rfl, rfl⟩

def single : Config := { maxConcurrentSessions := 1 }

def visitor : Call := ⟨"acme", "u"⟩

def visitors (n : ℕ) : World :=
  ⟨{}, List.replicate n ⟨visitor, [], body single visitor⟩⟩

theorem visitors_runs {racing : Prop} (n : ℕ) : Runs single racing World.empty (visitors n) := by
  induction n with
  | zero => exact .refl
  | succ n ih =>
    have next := ih.tail (.start _ visitor)
    rwa [visitors, List.replicate_succ']

def after (n : ℕ) (schedule : List ℕ) : World :=
  schedule.foldl (Pool.serve (answering single)) (visitors n)

/-- A session is left before the next is entered. -/
theorem sessions_counted_one : Quiet (after 2 [0, 0, 0, 0, 0, 0, 0, 1, 1, 1]) ∧
    (after 2 [0, 0, 0, 0, 0, 0, 0, 1, 1, 1]).store.value (single.keyOf visitor) = 1 ∧
    active single (after 2 [0, 0, 0, 0, 0, 0, 0, 1, 1, 1]) (single.keyOf visitor) = {1} := by
  have checked : Pool.Checked (answering single) inTime (visitors 2)
      [0, 0, 0, 0, 0, 0, 0, 1, 1, 1] = true := rfl
  have run : Runs single False World.empty (after 2 [0, 0, 0, 0, 0, 0, 0, 1, 1, 1]) :=
    (visitors_runs 2).trans (Pool.turns_checked
      (fun i call op s timely => answering_replies single i call op s (.inr timely)) _ _ checked)
  have quiet : Quiet (after 2 [0, 0, 0, 0, 0, 0, 0, 1, 1, 1]) := by
    intro task mem
    rcases List.mem_cons.mp mem with rfl | mem
    · exact .inl ⟨_, rfl⟩
    · obtain rfl := List.mem_singleton.mp mem
      exact .inr ⟨_, rfl⟩
  have inside : active single (after 2 [0, 0, 0, 0, 0, 0, 0, 1, 1, 1]) (single.keyOf visitor) =
      {1} := by decide
  refine ⟨quiet, ?_, inside⟩
  rw [(sessions_counted single _ run).value quiet, inside]
  rfl

/-- The first session is left; between its `DECR` and its `DELETE` the second is entered. -/
def erased (n : ℕ) : World := after n [0, 0, 0, 0, 0, 0, 1, 1, 1, 0]

/-- The counter has lost the second session, and a third is entered. -/
theorem overrun : Quiet (erased 2) ∧ (erased 2).store.value (single.keyOf visitor) = 0 ∧
    active single (erased 2) (single.keyOf visitor) = {1} ∧
    active single (after 3 [0, 0, 0, 0, 0, 0, 1, 1, 1, 0, 2, 2, 2]) (single.keyOf visitor) =
      {1, 2} ∧
    ¬ ∀ w, Runs single True World.empty w → Counted single w := by
  have inside : active single (after 3 [0, 0, 0, 0, 0, 0, 1, 1, 1, 0, 2, 2, 2])
      (single.keyOf visitor) = {1, 2} := by decide
  refine ⟨?_, by decide, by decide, inside, fun always => ?_⟩
  · intro task mem
    rcases List.mem_cons.mp mem with rfl | mem
    · exact .inl ⟨_, rfl⟩
    · obtain rfl := List.mem_singleton.mp mem
      exact .inr ⟨_, rfl⟩
  · have run : Runs single True World.empty
        (after 3 [0, 0, 0, 0, 0, 0, 1, 1, 1, 0, 2, 2, 2]) :=
      (visitors_runs 3).trans (Pool.turns_serve
        (fun i call op s => answering_replies single i call op s (.inl trivial)) _ _)
    have bound := (always _ run).cap (by decide) (single.keyOf visitor)
    rw [inside] at bound
    exact absurd bound (by decide)

end AgentStudio.Session.Limits
