import AgentStudio.Async.Turns
import AgentStudio.Session.Coordinator

/-!
# What an outage leaves locked

`session/coordinator.py` once more, for all threads of one process, with the flag
`_redis_available`: a `SET` that raises clears it for good, and `release` then leaves
the key. An `acquire` that is cancelled between the two locks leaves the local one.
-/

namespace AgentStudio.Session.Outage

open Async
open Coordinator (Token Vars)

abbrev Key := String

structure Config where
  keyPrefix : String := "neryva:threadlock:"
  leaseSeconds : Nat := 120
  wait : Nat := 15000

def lockKey (config : Config) (tenantId threadId : String) : Key :=
  config.keyPrefix ++ tenantId ++ ":" ++ threadId

structure Lease where
  key : Key
  token : Token
  redisHeld : Bool

inductive Op where
  | monotonic
  | lockLocal (key : Key) (timeout : Nat)
  | unlockLocal (key : Key)
  | uuid4
  | setNx (key : Key) (token : Token) (px : Nat)
  /-- `self._redis_available`. -/
  | available
  | clearAvailable
  | sleep (time : Nat)
  | releaseScript (key : Key) (token : Token)
  | renewScript (key : Key) (token : Token) (px : Nat)
  | createRenewal (token : Token)
  | cancelRenewal (token : Token)
  | work

def Op.Answer : Op → Type
  | monotonic | uuid4 => Nat
  | lockLocal .. | setNx .. | available | renewScript .. => Bool
  | unlockLocal _ | clearAvailable | sleep _ | releaseScript .. | createRenewal _
  | cancelRenewal _ | work => Unit

abbrev Calls : Interface := ⟨Op, Op.Answer⟩

abbrev Action := Coro Calls Raised Vars

variable (config : Config)

/-! ## The coordinator -/

/-- `_renew_loop`. -/
def renewLoop (key : Key) (token : Token) : Nat → Action Unit
  | 0 => throw .outOfFuel
  | rounds + 1 => do
    Coro.call (I := Calls) (.sleep (max 1000 (config.leaseSeconds * 1000 / 3)))
    let renewed : Bool ← tryCatch
      (Coro.call (I := Calls) (.renewScript key token (config.leaseSeconds * 1000)))
      fun e => if e.isException then pure false else throw e
    if renewed then renewLoop key token rounds else pure ()

/-- `_release_redis_lock`. -/
def releaseRedisLock (key : Key) (token : Token) : Action Unit := do
  let available : Bool ← Coro.call (I := Calls) .available
  if available then
    tryCatch (Coro.call (I := Calls) (.releaseScript key token)) fun e =>
      if e.isException then pure () else throw e
  else pure ()

/-- `SET NX PX`, with its handler. -/
def trySet (key : Key) (token : Token) : Action Bool :=
  tryCatch (Coro.call (I := Calls) (.setNx key token (config.leaseSeconds * 1000))) fun e =>
    if e.isException then do
      let available : Bool ← Coro.call (I := Calls) .available
      if available then
        Coro.post (I := Calls) .clearAvailable
        pure true
      else pure true
    else throw e

/-- `_acquire_redis_lock`. -/
def acquireRedisLock (key : Key) (token : Token) (deadline : Nat) : Nat → Action Bool
  | 0 => throw .outOfFuel
  | rounds + 1 => do
    let now : Nat ← Coro.call (I := Calls) .monotonic
    if now < deadline then
      let acquired ← trySet config key token
      if acquired then pure true
      else
        Coro.call (I := Calls) (.sleep 50)
        acquireRedisLock key token deadline rounds
    else pure false

/-- `acquire`; `none` where it raises `CoordinatorBusy`. -/
def acquire (rounds : Nat) (tenantId threadId : String) : Action (Option Lease) := do
  let key := lockKey config tenantId threadId
  let start : Nat ← Coro.call (I := Calls) .monotonic
  let locked : Bool ← Coro.call (I := Calls) (.lockLocal key config.wait)
  if locked then
    let token : Nat ← Coro.call (I := Calls) .uuid4
    let redisHeld ← acquireRedisLock config key token (start + config.wait) rounds
    if redisHeld then pure (some ⟨key, token, redisHeld⟩)
    else
      Coro.post (I := Calls) (.unlockLocal key)
      pure none
  else pure none

/-- `__aenter__`. -/
def enter (lease : Lease) : Action Unit := do
  if lease.redisHeld then
    modify fun v => { v with renewal := true }
    Coro.post (I := Calls) (.createRenewal lease.token)
  else pure ()

/-- The renewal task is cancelled and awaited; that it was cancelled is passed over. -/
def stopRenewal (lease : Lease) : Bool → Action Unit
  | true => tryCatch (Coro.call (I := Calls) (.cancelRenewal lease.token)) fun e =>
      if e = .cancelled then pure () else throw e
  | false => pure ()

def release (lease : Lease) : Action Unit := do
  if (← get).released then pure ()
  else
    modify fun v => { v with released := true }
    stopRenewal lease (← get).renewal
    if lease.redisHeld then releaseRedisLock lease.key lease.token
    Coro.post (I := Calls) (.unlockLocal lease.key)

/-! ## Its callers -/

inductive Use where
  | enter
  | work

/-- Whatever comes of the work, it is over. -/
def useLease (lease : Lease) : List Use → Action Unit
  | [] => pure ()
  | .enter :: uses => do
    enter lease
    useLease lease uses
  | .work :: uses => do
    tryCatch (Coro.call (I := Calls) .work) fun _ => pure ()
    useLease lease uses

inductive Reply where
  | busy
  | done

/-- An `acquire`, the uses of its lease, and its release. -/
def hold (rounds : Nat) (tenantId threadId : String) (uses : List Use) : Action Reply := do
  match ← acquire config rounds tenantId threadId with
  | none => pure .busy
  | some lease =>
    useLease lease uses
    release lease
    pure .done

inductive Call where
  | hold (rounds : Nat) (tenantId threadId : String) (uses : List Use)
  | renewal (rounds : Nat) (key : Key) (token : Token)

def Call.isRenewal : Call → Bool
  | .hold .. => false
  | .renewal .. => true

abbrev Outcome := Except Raised Reply × Vars

def body (config : Config) : Call → Tree Calls Raised Outcome
  | .hold rounds tenantId threadId uses => hold config rounds tenantId threadId uses {}
  | .renewal rounds key token => (do
      renewLoop config key token rounds
      pure Reply.done) {}

/-! ## The stores -/

/-- For the record, by task: the tokens drawn, the local locks acquired and not released, and
those whose release found Redis out of reach. -/
structure Store where
  available : Bool := true
  keys : Key → Option Token := fun _ => none
  locked : List Key := []
  drawn : List Token := []
  tokens : List (Nat × Token) := []
  holders : List (Nat × Key) := []
  missed : List Nat := []

namespace Store

variable (s : Store)

def lock (i : Nat) (key : Key) : Store :=
  { s with locked := key :: s.locked, holders := (i, key) :: s.holders }

def unlock (i : Nat) (key : Key) : Store :=
  { s with locked := s.locked.erase key, holders := s.holders.erase (i, key) }

def draw (i : Nat) (token : Token) : Store :=
  { s with drawn := token :: s.drawn, tokens := (i, token) :: s.tokens }

def grant (key : Key) (token : Token) : Store :=
  { s with keys := Function.update s.keys key (some token) }

/-- Compare and delete. -/
def free (key : Key) (token : Token) : Store :=
  { s with keys := if s.keys key = some token then Function.update s.keys key none else s.keys }

def miss (i : Nat) : Store := { s with missed := i :: s.missed }

end Store

def Failed {α : Type} (r : Except Raised α) : Prop := ∃ message, r = .error (.exception message)

def Cancelled {α : Type} (r : Except Raised α) : Prop := r = .error .cancelled

/-- How the calls are answered: Redis may fail, with effect or without, and waiting calls may
be cancelled. Only where `faulty` does a `SET` raise, or is an `acquire` cancelled that has the
local lock. -/
def Replies (faulty : Prop) : Pool.Replies Call Calls Raised Store
  | _, _, .monotonic, s, r, s' => s' = s ∧ ∃ time, r = .ok time
  | i, _, .lockLocal key _, s, r, s' =>
    key ∉ s.locked ∧ s' = s.lock i key ∧ r = .ok true ∨ s' = s ∧ (r = .ok false ∨ Cancelled r)
  | i, _, .unlockLocal key, s, r, s' => s' = s.unlock i key ∧ r = .ok ()
  | i, _, .uuid4, s, r, s' => ∃ token ∉ s.drawn, s' = s.draw i token ∧ r = .ok token
  | _, _, .setNx key token _, s, r, s' =>
    s.keys key = none ∧ s' = s.grant key token ∧ (r = .ok true ∨ faulty ∧ (Failed r ∨ Cancelled r)) ∨
      s' = s ∧ (s.keys key ≠ none ∧ r = .ok false ∨ faulty ∧ (Failed r ∨ Cancelled r))
  | _, _, .available, s, r, s' => s' = s ∧ r = .ok s.available
  | _, _, .clearAvailable, s, r, s' => s' = { s with available := false } ∧ r = .ok ()
  | _, call, .sleep _, s, r, s' =>
    s' = s ∧ (r = .ok () ∨ (call.isRenewal = true ∨ faulty) ∧ Cancelled r)
  | i, _, .releaseScript key token, s, r, s' =>
    s' = s.free key token ∧ r = .ok () ∨ (s' = s.miss i ∨ s' = (s.free key token).miss i) ∧ Failed r
  | _, _, .renewScript key token _, s, r, s' =>
    s' = s ∧ (r = .ok (decide (s.keys key = some token)) ∨ Failed r ∨ Cancelled r)
  | _, _, .createRenewal _, s, r, s' => s' = s ∧ r = .ok ()
  | _, _, .cancelRenewal _, s, r, s' => s' = s ∧ (r = .ok () ∨ Cancelled r)
  | _, _, .work, s, r, s' => s' = s ∧ (r = .ok () ∨ ∃ e, r = .error e)

/-- A key runs out. -/
def Expires (s s' : Store) : Prop := ∃ key, s' = { s with keys := Function.update s.keys key none }

abbrev World := Pool Call Calls Raised Outcome Store

abbrev Runs (config : Config) (faulty : Prop) : World → World → Prop :=
  Pool.Turns (Replies faulty) Expires (body config)

/-! ## What is a task's own -/

/-- No local lock is the task's, and no key carries a token of its own. -/
structure Free (i : Nat) (s : Store) : Prop where
  lock : ∀ key, (i, key) ∉ s.holders
  keys : ∀ token, (i, token) ∈ s.tokens → ∀ key, s.keys key ≠ some token

/-- Nothing is recorded of the task. -/
structure Bare (i : Nat) (s : Store) : Prop where
  lock : ∀ key, (i, key) ∉ s.holders
  tokens : ∀ token, (i, token) ∉ s.tokens

/-- Of the task is this lock, and no token yet. -/
structure Locks (i : Nat) (key : Key) (s : Store) : Prop where
  lock : ∀ other, (i, other) ∈ s.holders ↔ other = key
  tokens : ∀ token, (i, token) ∉ s.tokens

/-- Of the task are this lock and this token, which is at no other key. -/
structure Has (i : Nat) (key : Key) (token : Token) (s : Store) : Prop where
  lock : ∀ other, (i, other) ∈ s.holders ↔ other = key
  tokens : ∀ other, (i, other) ∈ s.tokens ↔ other = token
  keys : ∀ other, s.keys other = some token → other = key

structure Sound (s : Store) : Prop where
  available : s.available = true
  drawn : ∀ e ∈ s.tokens, e.2 ∈ s.drawn
  tokens : (s.tokens.map Prod.snd).Nodup
  known : ∀ key token, s.keys key = some token → token ∈ s.drawn
  locked : ∀ key ∈ s.locked, ∃ i, (i, key) ∈ s.holders
  held : ∀ e ∈ s.holders, e.2 ∈ s.locked
  holders : (s.holders.map Prod.snd).Nodup
  once : s.locked.Nodup

structure Frame (i : Nat) (s s' : Store) : Prop where
  tokens : ∀ token, (i, token) ∈ s'.tokens ↔ (i, token) ∈ s.tokens
  holders : ∀ key, (i, key) ∈ s'.holders ↔ (i, key) ∈ s.holders
  missed : i ∈ s'.missed ↔ i ∈ s.missed
  keys : ∀ key token, (i, token) ∈ s.tokens → s'.keys key = some token → s.keys key = some token

abbrev Rely := Pool.Rely Sound Frame

abbrev Guar := Pool.Guar Sound Frame fun _ _ => True

variable {config : Config} {s s' : Store} {i : Nat} {call : Call} {key : Key} {token : Token}

theorem Frame.refl (i : Nat) (s : Store) : Frame i s s :=
  ⟨fun _ => .rfl, fun _ => .rfl, .rfl, fun _ _ _ => id⟩

theorem Frame.trans {a b c : Store} (first : Frame i a b) (next : Frame i b c) : Frame i a c := by
  refine ⟨fun token => (next.tokens token).trans (first.tokens token),
    fun key => (next.holders key).trans (first.holders key), next.missed.trans first.missed,
    fun key token mem is => ?_⟩
  exact first.keys key token mem (next.keys key token ((first.tokens token).mpr mem) is)

theorem Free.moved (free : Free i s) (moved : Rely i s s') : Free i s' := by
  obtain ⟨-, frame⟩ := moved
  refine ⟨fun key mem => free.lock key ((frame.holders key).mp mem), fun token mem key is => ?_⟩
  have own := (frame.tokens token).mp mem
  exact free.keys token own key (frame.keys key token own is)

theorem Bare.moved (bare : Bare i s) (moved : Rely i s s') : Bare i s' :=
  ⟨fun key mem => bare.lock key ((moved.2.holders key).mp mem),
    fun token mem => bare.tokens token ((moved.2.tokens token).mp mem)⟩

theorem Bare.free (bare : Bare i s) : Free i s :=
  ⟨bare.lock, fun token mem => absurd mem (bare.tokens token)⟩

theorem Has.moved (has : Has i key token s) (moved : Rely i s s') : Has i key token s' := by
  obtain ⟨-, frame⟩ := moved
  refine ⟨fun other => (frame.holders other).trans (has.lock other),
    fun other => (frame.tokens other).trans (has.tokens other), fun other is => ?_⟩
  exact has.keys other (frame.keys other token ((has.tokens token).mpr rfl) is)

theorem Locks.moved (locks : Locks i key s) (moved : Rely i s s') : Locks i key s' :=
  ⟨fun other => (moved.2.holders other).trans (locks.lock other),
    fun token mem => locks.tokens token ((moved.2.tokens token).mp mem)⟩

/-! ## Steps -/

theorem guar_refl (sound : Sound s) : Guar i s s := ⟨sound, trivial, fun j _ => Frame.refl j s⟩

theorem guar_lock (sound : Sound s) (free : key ∉ s.locked) (bare : Bare i s) :
    Guar i s (s.lock i key) ∧ Locks i key (s.lock i key) := by
  have sound' : Sound (s.lock i key) := by
    refine ⟨sound.available, sound.drawn, sound.tokens, sound.known, ?_, ?_, ?_,
      List.nodup_cons.mpr ⟨free, sound.once⟩⟩
    · intro other mem
      rcases List.mem_cons.mp mem with rfl | mem
      · exact ⟨i, List.mem_cons_self⟩
      · obtain ⟨j, held⟩ := sound.locked other mem
        exact ⟨j, List.mem_cons_of_mem _ held⟩
    · intro e mem
      rcases List.mem_cons.mp mem with rfl | mem
      · exact List.mem_cons_self
      · exact List.mem_cons_of_mem _ (sound.held e mem)
    · refine List.nodup_cons.mpr ⟨fun mem => ?_, sound.holders⟩
      obtain ⟨e, memE, its⟩ := List.mem_map.mp mem
      have is : e.2 = key := its
      exact free (is ▸ sound.held e memE)
  refine ⟨⟨sound', trivial, fun j other => ⟨fun _ => .rfl, fun k => ?_, .rfl, fun _ _ _ => id⟩⟩,
    ⟨fun k => ?_, bare.tokens⟩⟩
  · refine List.mem_cons.trans (or_iff_right fun same => ?_)
    exact other (congrArg Prod.fst same)
  · refine List.mem_cons.trans ((or_iff_left (bare.lock k)).trans ?_)
    simp

theorem guar_unlock (sound : Sound s) (lock : ∀ other, (i, other) ∈ s.holders ↔ other = key) :
    Guar i s (s.unlock i key) ∧ ∀ other, (i, other) ∉ (s.unlock i key).holders := by
  have has := (lock key).mpr rfl
  have nodup : s.holders.Nodup := List.Nodup.of_map _ sound.holders
  have others (e : Nat × Key) (mem : e ∈ s.holders) (other : e ≠ (i, key)) : e.2 ≠ key := by
    intro same
    exact other (List.inj_on_of_nodup_map sound.holders mem has same)
  have sound' : Sound (s.unlock i key) := by
    refine ⟨sound.available, sound.drawn, sound.tokens, sound.known, ?_, ?_,
      sound.holders.sublist (List.erase_sublist.map _), sound.once.erase _⟩
    · intro other mem
      obtain ⟨differs, mem⟩ := sound.once.mem_erase_iff.mp mem
      obtain ⟨j, held⟩ := sound.locked other mem
      refine ⟨j, nodup.mem_erase_iff.mpr ⟨fun same => ?_, held⟩⟩
      exact differs (congrArg Prod.snd same)
    · intro e mem
      obtain ⟨other, mem⟩ := nodup.mem_erase_iff.mp mem
      exact sound.once.mem_erase_iff.mpr ⟨others e mem other, sound.held e mem⟩
  refine ⟨⟨sound', trivial, fun j other => ⟨fun _ => .rfl, fun k => ?_, .rfl, fun _ _ _ => id⟩⟩,
    fun other mem => ?_⟩
  · refine nodup.mem_erase_iff.trans (and_iff_right fun same => ?_)
    exact other (congrArg Prod.fst same)
  · obtain ⟨differs, mem⟩ := nodup.mem_erase_iff.mp mem
    exact differs (by rw [(lock other).mp mem])

/-- A token that is drawn is at no key. -/
theorem guar_draw (sound : Sound s) (locks : Locks i key s) (fresh : token ∉ s.drawn) :
    Guar i s (s.draw i token) ∧ Has i key token (s.draw i token) ∧
      ∀ other, (s.draw i token).keys other ≠ some token := by
  have nowhere (other : Key) : s.keys other ≠ some token := fun is =>
    fresh (sound.known other token is)
  have sound' : Sound (s.draw i token) := by
    refine ⟨sound.available, ?_, ?_, ?_, sound.locked, sound.held, sound.holders, sound.once⟩
    · intro e mem
      rcases List.mem_cons.mp mem with rfl | mem
      · exact List.mem_cons_self
      · exact List.mem_cons_of_mem _ (sound.drawn e mem)
    · refine List.nodup_cons.mpr ⟨fun mem => ?_, sound.tokens⟩
      obtain ⟨e, memE, its⟩ := List.mem_map.mp mem
      have is : e.2 = token := its
      exact fresh (is ▸ sound.drawn e memE)
    · intro key token is
      exact List.mem_cons_of_mem _ (sound.known key token is)
  refine ⟨⟨sound', trivial, fun j other => ⟨fun t => ?_, fun _ => .rfl, .rfl, fun _ _ _ => id⟩⟩,
    ⟨locks.lock, fun t => ?_, fun other is => absurd is (nowhere other)⟩, nowhere⟩
  · refine List.mem_cons.trans (or_iff_right fun same => ?_)
    exact other (congrArg Prod.fst same)
  · refine List.mem_cons.trans ((or_iff_left (locks.tokens t)).trans ?_)
    simp

/-- Keys that change only where they carry the task's token, or come to carry it. -/
theorem guar_keys (sound : Sound s) (has : Has i key token s) (keys : Key → Option Token)
    (only : ∀ other, keys other = s.keys other ∨ keys other = none ∨
      other = key ∧ keys other = some token) (missed : List Nat)
    (noted : ∀ j, j ≠ i → (j ∈ missed ↔ j ∈ s.missed)) :
    Guar i s { s with keys := keys, missed := missed } ∧
      Has i key token { s with keys := keys, missed := missed } := by
  have own := (has.tokens token).mpr rfl
  refine ⟨⟨⟨sound.available, sound.drawn, sound.tokens, fun k t is => ?_, sound.locked, sound.held,
    sound.holders, sound.once⟩, trivial, fun j other => ⟨fun _ => .rfl, fun _ => .rfl,
      noted j other, fun k t mem is => ?_⟩⟩, has.lock, has.tokens, fun k is => ?_⟩
  · rcases only k with same | none_ | ⟨-, its⟩
    · exact sound.known k t (same.symm.trans is)
    · exact absurd (none_.symm.trans is) (by simp)
    · rw [← Option.some.inj (its.symm.trans is)]
      exact sound.drawn _ own
  · rcases only k with same | none_ | ⟨-, its⟩
    · exact same.symm.trans is
    · exact absurd (none_.symm.trans is) (by simp)
    · rw [← Option.some.inj (its.symm.trans is)] at mem
      have same := List.inj_on_of_nodup_map sound.tokens mem own rfl
      exact absurd (congrArg Prod.fst same) other
  · rcases only k with same | none_ | ⟨its, -⟩
    · exact has.keys k (same.symm.trans is)
    · exact absurd (none_.symm.trans is) (by simp)
    · exact its

theorem guar_grant (sound : Sound s) (has : Has i key token s) :
    Guar i s (s.grant key token) ∧ Has i key token (s.grant key token) := by
  refine guar_keys sound has _ (fun other => ?_) s.missed fun _ _ => .rfl
  by_cases its : other = key
  · exact .inr (.inr ⟨its, by rw [its, Function.update_self]⟩)
  · exact .inl (Function.update_of_ne its _ _)

theorem free_keys (s : Store) (key : Key) (token : Token) : (s.free key token).keys =
    if s.keys key = some token then Function.update s.keys key none else s.keys := rfl

theorem free_only (s : Store) (key : Key) (token : Token) (other : Key) :
    (s.free key token).keys other = s.keys other ∨ (s.free key token).keys other = none ∨
      other = key ∧ (s.free key token).keys other = some token := by
  by_cases owned : s.keys key = some token
  · by_cases its : other = key
    · refine .inr (.inl ?_)
      rw [free_keys, if_pos owned, its, Function.update_self]
    · refine .inl ?_
      rw [free_keys, if_pos owned, Function.update_of_ne its]
  · refine .inl ?_
    rw [free_keys, if_neg owned]

theorem guar_free (sound : Sound s) (has : Has i key token s) :
    Guar i s (s.free key token) ∧ Has i key token (s.free key token) ∧
      ∀ other, (s.free key token).keys other ≠ some token := by
  obtain ⟨guar, has'⟩ := guar_keys sound has _ (free_only s key token) s.missed fun _ _ => .rfl
  refine ⟨guar, has', fun other is => ?_⟩
  have its := has'.keys other is
  subst its
  by_cases owned : s.keys other = some token
  · rw [free_keys, if_pos owned, Function.update_self] at is
    cases is
  · rw [free_keys, if_neg owned] at is
    exact owned is

/-- A release whose script raised, with effect or without. -/
theorem guar_missed (sound : Sound s) (has : Has i key token s)
    (is : s' = s.miss i ∨ s' = (s.free key token).miss i) :
    Guar i s s' ∧ Has i key token s' ∧ i ∈ s'.missed := by
  have noted (j : Nat) (other : j ≠ i) : j ∈ i :: s.missed ↔ j ∈ s.missed :=
    List.mem_cons.trans (or_iff_right other)
  rcases is with rfl | rfl
  · obtain ⟨guar, has'⟩ := guar_keys sound has s.keys (fun _ => .inl rfl) (i :: s.missed) noted
    exact ⟨guar, has', List.mem_cons_self⟩
  · obtain ⟨guar, has'⟩ := guar_keys sound has _ (free_only s key token) (i :: s.missed) noted
    exact ⟨guar, has', List.mem_cons_self⟩

/-! ## Tasks -/

abbrev SafeAs {α : Type} (i : Nat) (call : Call) (action : Action α) (v : Vars)
    (Q : Except Raised α → Vars → Store → Prop) (s : Store) : Prop :=
  action.Safe (Replies False i call) (Rely i) (Guar i) v Q s

/-- A call that leaves the store as it is. -/
theorem safe_still {α : Type} {op : Op} {k : op.Answer → Action α} {v : Vars}
    {Q : Except Raised α → Vars → Store → Prop} {P : Store → Prop} (here : P s)
    (moved : ∀ s s', P s → Rely i s s' → P s')
    (still : ∀ s r s', Replies False i call op s r s' → s' = s)
    (next : ∀ a s₁, P s₁ → Sound s₁ → Replies False i call op s₁ (.ok a) s₁ →
      SafeAs i call (k a) v Q s₁)
    (raised : ∀ e s₁, P s₁ → Replies False i call op s₁ (.error e) s₁ → Q (.error e) v s₁) :
    SafeAs i call (Coro.call (I := Calls) op >>= k) v Q s := by
  refine Coro.safe_call_bind (I := Calls) op ?_
  intro s₁ before r s₂ reply
  obtain rfl := still s₁ r s₂ reply
  have at_ := moved s s₂ here before
  refine ⟨guar_refl before.1, fun a is => ?_, fun e is => ?_⟩
  · subst is
    exact next a s₂ at_ before.1 reply
  · subst is
    exact raised e s₂ at_ reply

/-- Where no `SET` raises, the token is at its key if it was granted, else at none. -/
theorem trySet_safe {v : Vars} (has : Has i key token s) (nowhere : ∀ k, s.keys k ≠ some token) :
    SafeAs i call (trySet config key token) v (fun o v' s' => v' = v ∧ Has i key token s' ∧
      (o = .ok true ∨ o = .ok false ∧ ∀ k, s'.keys k ≠ some token)) s := by
  refine Coro.Safe.tryCatch (P := fun o v' s' => v' = v ∧ Has i key token s' ∧
    (o = .ok true ∨ o = .ok false ∧ ∀ k, s'.keys k ≠ some token)) ?_ (fun _ _ _ => id) ?_
  · refine Coro.safe_call (I := Calls) _ ?_
    intro s₁ before r s₂ reply
    have has₁ := has.moved before
    rcases reply with ⟨-, rfl, rfl | ⟨never, -⟩⟩ | ⟨rfl, ⟨-, rfl⟩ | ⟨never, -⟩⟩
    · obtain ⟨guar, after⟩ := guar_grant before.1 has₁
      exact ⟨guar, rfl, after, .inl rfl⟩
    · exact never.elim
    · refine ⟨guar_refl before.1, rfl, has₁, .inr ⟨rfl, fun k is => ?_⟩⟩
      exact nowhere k (before.2.keys k token ((has.tokens token).mpr rfl) is)
    · exact never.elim
  · rintro e v' s' ⟨-, -, is | ⟨is, -⟩⟩ <;> cases is

theorem acquireRedisLock_safe {v : Vars} (acquires : call.isRenewal = false)
    (deadline rounds : Nat) (has : Has i key token s) (nowhere : ∀ k, s.keys k ≠ some token) :
    SafeAs i call (acquireRedisLock config key token deadline rounds) v
      (fun o v' s' => v' = v ∧ (o = .error .outOfFuel ∨ Has i key token s' ∧
        (o = .ok true ∨ o = .ok false ∧ ∀ k, s'.keys k ≠ some token))) s := by
  have moved (s s' : Store) (h : Has i key token s ∧ ∀ k, s.keys k ≠ some token)
      (before : Rely i s s') : Has i key token s' ∧ ∀ k, s'.keys k ≠ some token :=
    ⟨h.1.moved before, fun k is =>
      h.2 k (before.2.keys k token ((h.1.tokens token).mpr rfl) is)⟩
  induction rounds generalizing s with
  | zero => exact ⟨rfl, .inl rfl⟩
  | succ rounds ih =>
    refine safe_still ⟨has, nowhere⟩ moved (fun _ _ _ reply => reply.1)
      (fun (now : Nat) s₁ held₁ _ _ => ?_) ?_
    · refine iteInduction (motive := fun action => SafeAs i call action v _ s₁) (fun _ => ?_)
        fun _ => ⟨rfl, .inr ⟨held₁.1, .inr ⟨rfl, held₁.2⟩⟩⟩
      refine Coro.Safe.bind (trySet_safe held₁.1 held₁.2) ?_ ?_
      · rintro acquired _ s₂ ⟨rfl, has₂, is | ⟨is, nowhere₂⟩⟩
        · obtain rfl := Except.ok.inj is
          exact ⟨rfl, .inr ⟨has₂, .inl rfl⟩⟩
        · obtain rfl := Except.ok.inj is
          refine safe_still ⟨has₂, nowhere₂⟩ moved (fun _ _ _ reply => reply.1)
            (fun _ s₃ held₃ _ _ => ih held₃.1 held₃.2) ?_
          rintro e s₃ - ⟨-, answered | ⟨renews | never, -⟩⟩
          · cases answered
          · rw [acquires] at renews
            cases renews
          · exact never.elim
      · rintro e _ s₂ ⟨-, -, is | ⟨is, -⟩⟩ <;> cases is
    · rintro e s₁ - ⟨-, time, is⟩
      cases is

/-- What `acquire` leaves: a lease with its lock and its token, or nothing. -/
theorem acquire_safe {v : Vars} (acquires : call.isRenewal = false) (rounds : Nat)
    (tenantId threadId : String) (bare : Bare i s) :
    SafeAs i call (acquire config rounds tenantId threadId) v (fun o v' s' => v' = v ∧
      (o = .error .outOfFuel ∨ (o = .ok none ∨ ∃ e, o = .error e) ∧ Free i s' ∨
        ∃ lease, o = .ok (some lease) ∧ lease.redisHeld = true ∧
          Has i lease.key lease.token s')) s := by
  refine safe_still bare (fun _ _ => Bare.moved) (fun _ _ _ reply => reply.1)
    (fun start s₁ bare₁ _ _ => ?_) ?_
  · refine Coro.safe_call_bind (I := Calls) (.lockLocal _ config.wait) ?_
    rintro s₂ before r s₃ (⟨free, rfl, rfl⟩ | ⟨rfl, answered⟩)
    · obtain ⟨guar, locks⟩ := guar_lock before.1 free (bare₁.moved before)
      refine ⟨guar, fun locked is => ?_, fun e is => by cases is⟩
      obtain rfl := Except.ok.inj is
      refine Coro.safe_call_bind (I := Calls) .uuid4 ?_
      rintro s₄ before' r s₅ ⟨token, fresh, rfl, rfl⟩
      obtain ⟨guar', has, nowhere⟩ := guar_draw before'.1 (locks.moved before') fresh
      refine ⟨guar', fun drawn is => ?_, fun e is => by cases is⟩
      obtain rfl := Except.ok.inj is
      refine Coro.Safe.bind (acquireRedisLock_safe acquires _ rounds has nowhere) ?_ ?_
      · rintro granted _ s₆ ⟨rfl, is | ⟨has₆, is | ⟨is, nowhere₆⟩⟩⟩
        · cases is
        · obtain rfl := Except.ok.inj is
          exact ⟨rfl, .inr (.inr ⟨_, rfl, rfl, has₆⟩)⟩
        · obtain rfl := Except.ok.inj is
          rintro s₇ before'' r s₈ ⟨rfl, -⟩
          have has₇ := has₆.moved before''
          obtain ⟨guar'', gone⟩ := guar_unlock before''.1 has₇.lock
          refine ⟨guar'', rfl, .inr (.inl ⟨.inl rfl, gone, fun other mem k carries => ?_⟩)⟩
          obtain rfl := (has₇.tokens other).mp mem
          exact nowhere₆ k (before''.2.keys k other ((has₆.tokens other).mpr rfl) carries)
      · rintro e _ s₆ ⟨rfl, is | ⟨-, is | ⟨is, -⟩⟩⟩
        · cases is
          exact ⟨rfl, .inl rfl⟩
        · cases is
        · cases is
    · have bare₂ := bare₁.moved before
      refine ⟨guar_refl before.1, fun locked is => ?_, fun e is => ?_⟩
      · subst is
        rcases answered with answered | answered
        · obtain rfl := Except.ok.inj answered
          exact ⟨rfl, .inr (.inl ⟨.inl rfl, bare₂.free⟩)⟩
        · cases answered
      · exact ⟨rfl, .inr (.inl ⟨.inr ⟨e, rfl⟩, bare₂.free⟩)⟩
  · rintro e s₁ - ⟨-, time, is⟩
    cases is

variable {lease : Lease} {v : Vars}

theorem useLease_safe (uses : List Use) (open_ : v.released = false)
    (has : Has i lease.key lease.token s) :
    SafeAs i call (useLease lease uses) v (fun o v' s' => o = .ok () ∧ v'.released = false ∧
      Has i lease.key lease.token s') s := by
  induction uses generalizing v s with
  | nil => exact ⟨rfl, open_, has⟩
  | cons use uses ih =>
    cases use with
    | enter =>
      refine Coro.Safe.bind (P := fun o v' s' => o = .ok () ∧ v'.released = false ∧
        Has i lease.key lease.token s') ?_ (fun _ _ _ h => ih h.2.1 h.2.2) fun e _ _ h => ?_
      · unfold enter
        refine iteInduction (motive := fun action => SafeAs i call action v _ s) (fun _ => ?_)
          fun _ => ⟨rfl, open_, has⟩
        refine (Coro.safe_modify_bind _).mpr ?_
        rintro s₁ before r s₂ ⟨rfl, -⟩
        exact ⟨guar_refl before.1, rfl, open_, has.moved before⟩
      · cases h.1
    | work =>
      refine Coro.Safe.bind (P := fun o v' s' => o = .ok () ∧ v'.released = false ∧
        Has i lease.key lease.token s') ?_ (fun _ _ _ h => ih h.2.1 h.2.2) fun e _ _ h => ?_
      · refine Coro.Safe.tryCatch (P := fun _ v' s' => v'.released = false ∧
          Has i lease.key lease.token s') ?_ (fun _ _ _ h => ⟨rfl, h⟩) fun _ _ _ h => ⟨rfl, h⟩
        refine Coro.safe_call (I := Calls) .work ?_
        rintro s₁ before r s₂ ⟨rfl, -⟩
        exact ⟨guar_refl before.1, open_, has.moved before⟩
      · cases h.1

/-- While the flag stands the key is deleted, unless Redis is out of reach. -/
theorem releaseRedisLock_safe (has : Has i key token s) :
    SafeAs i call (releaseRedisLock key token) v (fun o _ s' => o = .ok () ∧ Has i key token s' ∧
      (i ∈ s'.missed ∨ ∀ other, s'.keys other ≠ some token)) s := by
  refine safe_still has (fun _ _ => Has.moved) (fun _ _ _ reply => reply.1)
    (fun (available : Bool) s₁ has₁ sound reply => ?_) ?_
  · have up : available = true := (Except.ok.inj reply.2).trans sound.available
    subst up
    refine Coro.Safe.tryCatch (P := fun o _ s' => (o = .ok () ∨ Failed o) ∧ Has i key token s' ∧
      (i ∈ s'.missed ∨ ∀ other, s'.keys other ≠ some token)) ?_ ?_ ?_
    · refine Coro.safe_call (I := Calls) (.releaseScript key token) ?_
      rintro s₂ before r s₃ (⟨rfl, rfl⟩ | ⟨is, failed⟩)
      · obtain ⟨guar, has₃, nowhere⟩ := guar_free before.1 (has₁.moved before)
        exact ⟨guar, .inl rfl, has₃, .inr nowhere⟩
      · obtain ⟨guar, has₃, missed⟩ := guar_missed before.1 (has₁.moved before) is
        exact ⟨guar, .inr failed, has₃, .inl missed⟩
    · rintro a _ s₂ ⟨-, rest⟩
      exact ⟨rfl, rest⟩
    · rintro e _ s₂ ⟨is | ⟨message, is⟩, rest⟩
      · cases is
      · obtain rfl := Except.error.inj is
        exact ⟨rfl, rest⟩
  · rintro e s₁ - ⟨-, is⟩
    cases is

theorem stopRenewal_safe (renewal : Bool) (has : Has i key token s) :
    SafeAs i call (stopRenewal lease renewal) v (fun o _ s' => o = .ok () ∧ Has i key token s')
      s := by
  cases renewal with
  | false => exact ⟨rfl, has⟩
  | true =>
    refine Coro.Safe.tryCatch (P := fun o _ s' => (o = .ok () ∨ Cancelled o) ∧ Has i key token s')
      ?_ (fun _ _ _ h => ⟨rfl, h.2⟩) ?_
    · refine Coro.safe_call (I := Calls) (.cancelRenewal lease.token) ?_
      rintro s₁ before r s₂ ⟨rfl, answered⟩
      exact ⟨guar_refl before.1, answered, has.moved before⟩
    · rintro e _ s₁ ⟨is | is, has₁⟩
      · cases is
      · obtain rfl := Except.error.inj is
        exact ⟨rfl, has₁⟩

theorem release_safe (held : lease.redisHeld = true) (open_ : v.released = false)
    (has : Has i lease.key lease.token s) :
    SafeAs i call (release lease) v (fun o _ s' => o = .ok () ∧ (i ∈ s'.missed ∨ Free i s')) s := by
  unfold release
  refine Coro.safe_get_bind.mpr ?_
  rw [if_neg (by simp [open_])]
  refine (Coro.safe_modify_bind _).mpr (Coro.safe_get_bind.mpr ?_)
  refine Coro.Safe.bind (stopRenewal_safe v.renewal has) ?_ fun e _ _ h => by cases h.1
  rintro - v₁ s₁ ⟨-, has₁⟩
  rw [if_pos held]
  refine Coro.Safe.bind (releaseRedisLock_safe has₁) ?_ fun e _ _ h => by cases h.1
  rintro - v₂ s₂ ⟨-, has₂, deleted⟩ s₃ before r s₄ ⟨rfl, -⟩
  have has₃ := has₂.moved before
  obtain ⟨guar, gone⟩ := guar_unlock before.1 has₃.lock
  refine ⟨guar, rfl, ?_⟩
  rcases deleted with missed | nowhere
  · exact .inl (before.2.missed.mpr missed)
  · refine .inr ⟨gone, fun other mem k carries => ?_⟩
    obtain rfl := (has₃.tokens other).mp mem
    exact nowhere k (before.2.keys k _ ((has₂.tokens _).mpr rfl) carries)

/-- What is left when a task is over, unless it is only out of fuel. -/
def Over (i : Nat) (o : Except Raised Reply) (s : Store) : Prop :=
  o ≠ .error .outOfFuel → i ∉ s.missed → Free i s

theorem hold_safe (acquires : call.isRenewal = false) (rounds : Nat) (tenantId threadId : String)
    (uses : List Use) (bare : Bare i s) :
    SafeAs i call (hold config rounds tenantId threadId uses) {} (fun o _ s' => Over i o s') s := by
  refine Coro.Safe.bind (acquire_safe acquires rounds tenantId threadId bare) ?_ ?_
  · rintro acquired _ s₁ ⟨rfl, is | ⟨failed, free⟩ | ⟨lease, is, held, has⟩⟩
    · cases is
    · cases acquired with
      | none => exact fun _ _ => free
      | some lease => rcases failed with is | ⟨e, is⟩ <;> cases is
    · obtain rfl := Except.ok.inj is
      refine Coro.Safe.bind (useLease_safe uses rfl has) ?_ fun e _ _ h => by cases h.1
      rintro - v₂ s₂ ⟨-, open_, has₂⟩
      refine Coro.Safe.bind (release_safe held open_ has₂) ?_ fun e _ _ h => by cases h.1
      rintro - v₃ s₃ ⟨-, left⟩ - reached
      exact left.resolve_left reached
  · rintro e _ s₁ ⟨rfl, is | ⟨-, free⟩ | ⟨lease, is, -⟩⟩
    · cases is
      exact fun other => absurd rfl other
    · exact fun _ _ => free
    · cases is

/-- A renewal changes neither who holds a key nor anything else that is recorded. -/
theorem renewLoop_safe (rounds : Nat) :
    SafeAs i call (renewLoop config key token rounds) v (fun _ _ _ => True) s := by
  induction rounds generalizing s v with
  | zero => trivial
  | succ rounds ih =>
    refine safe_still (P := fun _ => True) trivial (fun _ _ _ _ => trivial)
      (fun _ _ _ reply => reply.1) (fun _ s₁ _ _ _ => ?_) fun _ _ _ _ => trivial
    refine Coro.Safe.bind (P := fun _ _ _ => True) ?_ ?_ fun _ _ _ _ => trivial
    · refine Coro.Safe.tryCatch (P := fun _ _ _ => True) ?_ (fun _ _ _ _ => trivial) ?_
      · refine Coro.safe_call (I := Calls) _ ?_
        rintro s₂ before r s₃ ⟨rfl, -⟩
        exact ⟨guar_refl before.1, trivial⟩
      · intro e v' s' _
        split <;> trivial
    · rintro renewed v' s' -
      refine iteInduction (motive := fun action => SafeAs i _ action v' _ s') (fun _ => ih)
        fun _ => trivial

/-! ## Runs -/

theorem expires_sound (expires : Expires s s') (sound : Sound s) :
    Sound s' ∧ ∀ i, Frame i s s' := by
  obtain ⟨key, rfl⟩ := expires
  have fewer (other : Key) (token : Token)
      (is : Function.update s.keys key none other = some token) : s.keys other = some token := by
    by_cases its : other = key
    · rw [its, Function.update_self] at is
      cases is
    · rwa [Function.update_of_ne its] at is
  refine ⟨⟨sound.available, sound.drawn, sound.tokens, ?_, sound.locked, sound.held,
    sound.holders, sound.once⟩, fun i => ⟨fun _ => .rfl, fun _ => .rfl, .rfl, ?_⟩⟩
  · exact fun other token is => sound.known other token (fewer other token is)
  · exact fun other token _ is => fewer other token is

/-- What a task leaves. -/
def Left (i : Nat) : Call → Outcome → Store → Prop
  | .hold .., w, s => Over i w.1 s
  | .renewal .., _, _ => True

theorem framed (config : Config) : Pool.Framed (Replies False) Expires (body config) Sound Frame
    (fun _ _ _ _ => True) Bare Left where
  refl := Frame.refl
  trans _ _ _ _ := Frame.trans
  env _ _ := expires_sound
  fresh _ _ _ moved bare := bare.moved moved
  ended i call w s s' moved left := by
    cases call with
    | hold =>
      intro fuel reached
      exact (left fuel (moved.2.missed.not.mp reached)).moved moved
    | renewal => trivial
  start i call s _ bare := by
    cases call with
    | hold rounds tenantId threadId uses => exact hold_safe rfl rounds tenantId threadId uses bare
    | renewal rounds key token =>
      have ends : SafeAs i (.renewal rounds key token) (do
          renewLoop config key token rounds
          pure Reply.done) {} (fun _ _ _ => True) s :=
        Coro.Safe.bind (renewLoop_safe rounds) (fun _ _ _ _ => trivial) fun _ _ _ _ => trivial
      exact ends

def World.empty : World := ⟨{}, []⟩

/-- What is asked of a run's end: an `acquire` that is over, whose lease was released within
reach of Redis if it had one, holds no local lock and has its token at no key; and a local lock
is locked only while a task holds it. -/
def Released (w : World) : Prop :=
  (∀ i rounds tenantId threadId uses trace o v,
    w.tasks[i]? = some ⟨.hold rounds tenantId threadId uses, trace, .done (o, v)⟩ →
      o ≠ .error .outOfFuel → i ∉ w.store.missed → Free i w.store) ∧
  ∀ key ∈ w.store.locked, ∃ i, (i, key) ∈ w.store.holders

/-- In every run of one process in which no `SET` raises and no `acquire` that has the local
lock is cancelled, whatever else of Redis fails and whatever runs out, nothing is left held. -/
theorem released_once_over (config : Config) (w : World) (run : Runs config False World.empty w) :
    Released w := by
  have unlocked : Sound World.empty.store := by
    refine ⟨rfl, ?_, List.nodup_nil, ?_, ?_, ?_, List.nodup_nil, List.nodup_nil⟩
    · intro e mem
      cases mem
    · intro key token is
      cases is
    · intro key mem
      cases mem
    · intro e mem
      cases mem
  have bare (i : Nat) : Bare i World.empty.store := by
    constructor
    · intro key mem
      cases mem
    · intro token mem
      cases mem
  obtain ⟨sound, stands⟩ := Pool.turns_framed (framed config) run unlocked bare
  refine ⟨fun i rounds tenantId threadId uses trace o v here fuel reached => ?_, sound.locked⟩
  have over_ := stands i
  rw [here] at over_
  exact over_ fuel reached

/-! ## One failure, and one cancellation -/

/-- Every call is answered at once, but the `SET` of the first token is answered with
`fault`. -/
def answering (fault : Option Raised) (i : Nat) (_ : Call) :
    (op : Op) → Store → Except Raised op.Answer × Store
  | .monotonic, s => (.ok (0 : Nat), s)
  | .lockLocal key _, s => if key ∈ s.locked then (.ok false, s) else (.ok true, s.lock i key)
  | .unlockLocal key, s => (.ok (), s.unlock i key)
  | .uuid4, s => (.ok (s.drawn.sum + 1), s.draw i (s.drawn.sum + 1))
  | .setNx key token _, s =>
    if token = 1 ∧ fault.isSome then (.error (fault.getD .cancelled), s)
    else if s.keys key = none then (.ok true, s.grant key token)
    else (.ok false, s)
  | .available, s => (.ok s.available, s)
  | .clearAvailable, s => (.ok (), { s with available := false })
  | .sleep _, s => (.ok (), s)
  | .releaseScript key token, s => (.ok (), s.free key token)
  | .renewScript key token _, s => (.ok (decide (s.keys key = some token)), s)
  | .createRenewal _, s => (.ok (), s)
  | .cancelRenewal _, s => (.ok (), s)
  | .work, s => (.ok (), s)

theorem fresh_token (s : Store) : s.drawn.sum + 1 ∉ s.drawn := by
  intro drawn
  have bound := List.single_le_sum (fun _ _ => Nat.zero_le _) _ drawn
  omega

theorem answering_replies {faulty : Prop} (fault : Option Raised)
    (fails : ∀ e, fault = some e → faulty ∧ (e = .cancelled ∨ ∃ message, e = .exception message))
    (i : Nat) (call : Call) (op : Op) (s : Store) :
    Replies faulty i call op s (answering fault i call op s).1 (answering fault i call op s).2 := by
  cases op with
  | monotonic => exact ⟨rfl, _, rfl⟩
  | lockLocal key timeout =>
    simp only [answering]
    split
    next => exact .inr ⟨rfl, .inl rfl⟩
    next free => exact .inl ⟨free, rfl, rfl⟩
  | uuid4 => exact ⟨_, fresh_token s, rfl, rfl⟩
  | setNx key token px =>
    simp only [answering]
    split
    next raises =>
      obtain ⟨e, is⟩ := Option.isSome_iff_exists.mp raises.2
      rw [is, Option.getD_some]
      obtain ⟨may, rfl | ⟨message, rfl⟩⟩ := fails e is
      · exact .inr ⟨rfl, .inr ⟨may, .inr rfl⟩⟩
      · exact .inr ⟨rfl, .inr ⟨may, .inl ⟨message, rfl⟩⟩⟩
    next =>
      split
      next free => exact .inl ⟨free, rfl, .inl rfl⟩
      next taken => exact .inr ⟨rfl, .inl ⟨taken, rfl⟩⟩
  | sleep => exact ⟨rfl, .inl rfl⟩
  | releaseScript key token => exact .inl ⟨rfl, rfl⟩
  | renewScript | cancelRenewal | work => exact ⟨rfl, .inl rfl⟩
  | unlockLocal | available | clearAvailable | createRenewal => exact ⟨rfl, rfl⟩

/-- Two leases of a thread, one after the other. -/
def twice (fault : Option Raised) : World :=
  (List.replicate 12 0 ++ List.replicate 12 1).foldl (Pool.serve (answering fault))
    ⟨{}, [⟨.hold 1 "acme" "t" [.work], [], body {} (.hold 1 "acme" "t" [.work])⟩,
      ⟨.hold 1 "acme" "t" [.work], [], body {} (.hold 1 "acme" "t" [.work])⟩]⟩

theorem twice_runs {faulty : Prop} (fault : Option Raised)
    (fails : ∀ e, fault = some e → faulty ∧ (e = .cancelled ∨ ∃ message, e = .exception message)) :
    Runs {} faulty World.empty (twice fault) :=
  ((Relation.ReflTransGen.single (.start World.empty (.hold 1 "acme" "t" [.work]))).tail
    (.start _ (Call.hold 1 "acme" "t" [.work]))).trans
      (Pool.turns_serve (answering_replies fault fails) _ _)

theorem released_once_over_twice : Free 0 (twice none).store ∧ Free 1 (twice none).store ∧
    (twice none).store.drawn = [2, 1] := by
  have run : Runs {} False World.empty (twice none) := twice_runs none fun e is => by cases is
  obtain ⟨over_, -⟩ := released_once_over {} (twice none) run
  exact ⟨over_ 0 1 "acme" "t" [.work] _ (.ok .done) _ rfl (by simp) (by decide),
    over_ 1 1 "acme" "t" [.work] _ (.ok .done) _ rfl (by simp) (by decide), by decide⟩

/-- After one `SET` that raised, the next lease is released with its key still set; and an
`acquire` cancelled in its `SET` leaves the local lock to nobody. -/
theorem left_locked :
    ((∃ trace v, (twice (some (.exception "down"))).tasks[1]? =
          some ⟨.hold 1 "acme" "t" [.work], trace, .done (.ok .done, v)⟩) ∧
        (twice (some (.exception "down"))).store.missed = [] ∧
        (1, 2) ∈ (twice (some (.exception "down"))).store.tokens ∧
        (twice (some (.exception "down"))).store.keys (lockKey {} "acme" "t") = some 2) ∧
      ((∃ trace v, (twice (some .cancelled)).tasks[0]? =
          some ⟨.hold 1 "acme" "t" [.work], trace, .done (.error .cancelled, v)⟩) ∧
        lockKey {} "acme" "t" ∈ (twice (some .cancelled)).store.locked) ∧
      ¬ ∀ w, Runs {} True World.empty w → Released w := by
  have fails : ∀ e, some (Raised.exception "down") = some e →
      True ∧ (e = .cancelled ∨ ∃ message, e = .exception message) := by
    intro e is
    cases is
    exact ⟨trivial, .inr ⟨_, rfl⟩⟩
  refine ⟨⟨⟨_, _, rfl⟩, rfl, by decide, by decide⟩, ⟨⟨_, _, rfl⟩, by decide⟩, fun always => ?_⟩
  obtain ⟨over_, -⟩ := always _ (twice_runs (some (.exception "down")) fails)
  have free := over_ 1 1 "acme" "t" [.work] _ (.ok .done) _ rfl (by simp) (by decide)
  exact free.keys 2 (by decide) (lockKey {} "acme" "t") (by decide)

end AgentStudio.Session.Outage
