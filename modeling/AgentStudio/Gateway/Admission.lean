import AgentStudio.Async.Turns

/-!
# Admission control

`gateway/admission.py`: two local semaphores and a Redis counter are taken one after
the other, and a handle gives them back. A call of `admit` and the handle it returns
are followed as one task; many of them, in any number of workers, interleave.
-/

namespace AgentStudio.Admission

open Async

/-- `AdmissionConfig`. -/
structure Config where
  keyPrefix : String := "neryva:admission:"
  maxConcurrentPerTenant : Nat := 5
  maxConcurrentPlatform : Nat := 50
  waitSeconds : ℚ := 5

inductive Raised where
  | limitExceeded (retryAfter : ℚ)
  | timeout
  | cancelled
  | redisError (message : String)
  deriving DecidableEq

/-- The local semaphores: one for each tenant and one for all. -/
inductive Sem where
  | tenant (tenantId : String)
  | platform
  deriving DecidableEq

/-- `acquire` is awaited under `wait_for`, `incr` is the pipeline of `INCR` and `EXPIRE`.
`free` gives a semaphore back and is not awaited. In `use` the handle is out. -/
inductive Op where
  | acquire (sem : Sem)
  | free (sem : Sem)
  | incr (key : String)
  | decr (key : String)
  | use

abbrev Calls : Interface where
  Op := Op
  Ans
    | .incr _ => ℤ
    | _ => Unit

/-- `ConcurrencyGate`. -/
structure Gate where
  config : Config := {}
  redisAvailable : Bool := true

/-- `AdmissionHandle`; whether it is released is a variable of its own. -/
structure Handle where
  tenantId : String

namespace Gate

variable (gate : Gate) (tenantId : String)

def key : String := gate.config.keyPrefix ++ tenantId

/-- The count above which an increment is refused. -/
def limit : Nat := gate.config.maxConcurrentPerTenant

/-- The value a semaphore is made with. -/
def initial : Sem → Nat
  | .tenant _ => gate.config.maxConcurrentPerTenant
  | .platform => gate.config.maxConcurrentPlatform

section
variable {σ : Type}

/-- `_acquire_redis_slot`. -/
def acquireRedisSlot : Coro Calls Raised σ Bool := do
  if !gate.redisAvailable then pure true
  else
    let count ← Coro.call (I := Calls) (.incr (gate.key tenantId))
    if count > gate.limit then
      Coro.call (I := Calls) (.decr (gate.key tenantId))
      pure false
    else pure true

/-- `_release_redis_slot`. -/
def releaseRedisSlot : Coro Calls Raised σ Unit := do
  if !gate.redisAvailable then pure ()
  else Coro.call (I := Calls) (.decr (gate.key tenantId))

/-- `admit` (a tactic of Lean has the name). -/
def admitTenant : Coro Calls Raised σ Handle := do
  tryCatch (Coro.call (I := Calls) (.acquire (.tenant tenantId))) fun
    | .timeout => throw (.limitExceeded gate.config.waitSeconds)
    | e => throw e
  tryCatch (Coro.call (I := Calls) (.acquire .platform)) fun
    | .timeout => do
      Coro.post (I := Calls) (.free (.tenant tenantId))
      throw (.limitExceeded gate.config.waitSeconds)
    | e => throw e
  if !(← gate.acquireRedisSlot tenantId) then
    Coro.post (I := Calls) (.free .platform)
    Coro.post (I := Calls) (.free (.tenant tenantId))
    throw (.limitExceeded 1)
  pure ⟨tenantId⟩

end

/-- `AdmissionHandle.release`; its variable is `_released`. -/
def release (handle : Handle) : Coro Calls Raised Bool Unit := do
  if ← get then pure ()
  else
    set true
    gate.releaseRedisSlot handle.tenantId
    Coro.post (I := Calls) (.free .platform)
    Coro.post (I := Calls) (.free (.tenant handle.tenantId))

/-- However often a handle is released, and while it is: only the first call of `release`
does anything. -/
theorem release_again (handle : Handle) :
    gate.release handle true = (pure () : Coro Calls Raised Bool Unit) true := rfl

/-- A call of `admit`, and the first of `release` on its handle. -/
def admission : Coro Calls Raised Unit Unit := do
  let handle ← gate.admitTenant tenantId
  Coro.post (I := Calls) .use
  Coro.scope (gate.release handle) false

end Gate

/-! ## Where an admission stands -/

abbrev Rest := Tree Calls Raised (Except Raised Unit × Unit)

inductive Stage where
  /-- It waits for the semaphore of its tenant. -/
  | entering
  /-- It has that one and waits for the platform's. -/
  | queued
  /-- It has both and waits for the count. -/
  | counting
  /-- The count was over the limit. -/
  | undoing
  | inUse
  | returning
  /-- It gives back both, or the tenant's. -/
  | clearing (o : Except Raised Unit)
  | leaving (o : Except Raised Unit)
  /-- It has ended with nothing, and otherwise with what it never gives back. -/
  | ended (o : Except Raised Unit)
  | lostTenant (o : Except Raised Unit)
  | lostBoth (o : Except Raised Unit)

namespace Stage

section
variable (gate : Gate) (tenantId : String)

def leavingRest (o : Except Raised Unit) : Rest :=
  .await (.free (.tenant tenantId)) fun _ => .done (o, ())

def clearingRest (o : Except Raised Unit) : Rest :=
  .await (.free .platform) fun _ => leavingRest tenantId o

def returningRest : Rest :=
  .await (.decr (gate.key tenantId)) fun
    | .ok _ => clearingRest tenantId (.ok ())
    | .error e => .done (.error e, ())

def usingRest : Rest :=
  .await .use fun _ =>
    if gate.redisAvailable then returningRest gate tenantId else clearingRest tenantId (.ok ())

def undoingRest : Rest :=
  .await (.decr (gate.key tenantId)) fun
    | .ok _ => clearingRest tenantId (.error (.limitExceeded 1))
    | .error e => .done (.error e, ())

def countingRest : Rest :=
  .await (.incr (gate.key tenantId)) fun
    | .ok count => if count > (gate.limit : ℤ) then undoingRest gate tenantId else usingRest gate tenantId
    | .error e => .done (.error e, ())

def queuedRest : Rest :=
  .await (.acquire .platform) fun
    | .ok _ => if gate.redisAvailable then countingRest gate tenantId else usingRest gate tenantId
    | .error .timeout => leavingRest tenantId (.error (.limitExceeded gate.config.waitSeconds))
    | .error e => .done (.error e, ())

def enteringRest : Rest :=
  .await (.acquire (.tenant tenantId)) fun
    | .ok _ => queuedRest gate tenantId
    | .error .timeout => .done (.error (.limitExceeded gate.config.waitSeconds), ())
    | .error e => .done (.error e, ())

/-- What it does from there. -/
def rest : Stage → Rest
  | entering => enteringRest gate tenantId
  | queued => queuedRest gate tenantId
  | counting => countingRest gate tenantId
  | undoing => undoingRest gate tenantId
  | inUse => usingRest gate tenantId
  | returning => returningRest gate tenantId
  | clearing o => clearingRest tenantId o
  | leaving o => leavingRest tenantId o
  | ended o | lostTenant o | lostBoth o => .done (o, ())

end

end Stage

/-- The calls of an admission, one stage after the other. -/
theorem Gate.admission_eq (gate : Gate) (tenantId : String) :
    gate.admission tenantId () = Stage.entering.rest gate tenantId := by
  obtain ⟨config, available⟩ := gate
  refine congrArg (Tree.await _) (funext fun r => ?_)
  cases r with
  | error e => cases e <;> rfl
  | ok =>
    refine congrArg (Tree.await _) (funext fun r => ?_)
    cases r with
    | error e => cases e <;> rfl
    | ok =>
      cases available with
      | false => rfl
      | true =>
        refine congrArg (Tree.await _) (funext fun r => ?_)
        cases r with
        | error e => rfl
        | ok count =>
          by_cases above : count > ((⟨config, true⟩ : Gate).limit : ℤ)
          · simp only [above, if_true, Tree.bind]
            refine congrArg (Tree.await _) (funext fun r => ?_)
            cases r <;> rfl
          · simp only [above, if_false, Tree.bind]
            refine congrArg (Tree.await _) (funext fun r => ?_)
            refine congrArg (Tree.await _) (funext fun r => ?_)
            cases r <;> rfl

namespace Stage

section
variable (gate : Gate) (tenantId : String)

/-- How an admission goes on when it is answered. -/
inductive Goes : Stage → Event Calls Raised → Stage → Prop
  | enter : Goes entering ⟨.acquire (.tenant tenantId), .ok ()⟩ queued
  | turnedAway {e : Raised} (o : Except Raised Unit) :
      Goes entering ⟨.acquire (.tenant tenantId), .error e⟩ (ended o)
  | count (available : gate.redisAvailable = true) :
      Goes queued ⟨.acquire .platform, .ok ()⟩ counting
  | uncounted (unavailable : gate.redisAvailable = false) :
      Goes queued ⟨.acquire .platform, .ok ()⟩ inUse
  | waited (o : Except Raised Unit) : Goes queued ⟨.acquire .platform, .error .timeout⟩ (leaving o)
  | cancelled {e : Raised} (other : e ≠ .timeout) (o : Except Raised Unit) :
      Goes queued ⟨.acquire .platform, .error e⟩ (lostTenant o)
  | granted {count : ℤ} (below : count ≤ gate.limit) :
      Goes counting ⟨.incr (gate.key tenantId), .ok count⟩ inUse
  | refused {count : ℤ} (above : gate.limit < count) :
      Goes counting ⟨.incr (gate.key tenantId), .ok count⟩ undoing
  | countFailed {e : Raised} (o : Except Raised Unit) :
      Goes counting ⟨.incr (gate.key tenantId), .error e⟩ (lostBoth o)
  | undone (o : Except Raised Unit) : Goes undoing ⟨.decr (gate.key tenantId), .ok ()⟩ (clearing o)
  | undoFailed {e : Raised} (o : Except Raised Unit) :
      Goes undoing ⟨.decr (gate.key tenantId), .error e⟩ (lostBoth o)
  | give (available : gate.redisAvailable = true) (r : Except Raised Unit) :
      Goes inUse ⟨.use, r⟩ returning
  | giveUncounted (unavailable : gate.redisAvailable = false) (r : Except Raised Unit)
      (o : Except Raised Unit) : Goes inUse ⟨.use, r⟩ (clearing o)
  | returned (o : Except Raised Unit) :
      Goes returning ⟨.decr (gate.key tenantId), .ok ()⟩ (clearing o)
  | returnFailed {e : Raised} (o : Except Raised Unit) :
      Goes returning ⟨.decr (gate.key tenantId), .error e⟩ (lostBoth o)
  | clear (r : Except Raised Unit) (o : Except Raised Unit) :
      Goes (clearing o) ⟨.free .platform, r⟩ (leaving o)
  | leave (r : Except Raised Unit) (o : Except Raised Unit) :
      Goes (leaving o) ⟨.free (.tenant tenantId), r⟩ (ended o)

variable {gate tenantId}

/-- The call that a stage awaits decides, with its answer, where it goes. -/
theorem rest_goes {stage : Stage} {op : Op} {k : Except Raised (Calls.Ans op) → Rest}
    (h : stage.rest gate tenantId = .await op k) (r : Except Raised (Calls.Ans op)) :
    ∃ stage', Goes gate tenantId stage ⟨op, r⟩ stage' ∧ k r = stage'.rest gate tenantId := by
  cases stage with
  | entering =>
    cases h
    cases r with
    | ok => exact ⟨_, .enter, rfl⟩
    | error e => cases e <;> exact ⟨_, .turnedAway _, rfl⟩
  | queued =>
    cases h
    cases r with
    | ok =>
      by_cases available : gate.redisAvailable = true
      · exact ⟨_, .count available, by simp [available, rest]⟩
      · exact ⟨_, .uncounted (by simpa using available), by simp [available, rest]⟩
    | error e =>
      cases e with
      | timeout => exact ⟨_, .waited _, rfl⟩
      | _ => exact ⟨_, .cancelled (by simp) _, rfl⟩
  | counting =>
    cases h
    cases r with
    | ok count =>
      by_cases above : count > (gate.limit : ℤ)
      · exact ⟨_, .refused above, by simp [above, rest]⟩
      · exact ⟨_, .granted (not_lt.mp above), by simp [above, rest]⟩
    | error e => exact ⟨_, .countFailed _, rfl⟩
  | undoing =>
    cases h
    cases r with
    | ok => exact ⟨_, .undone _, rfl⟩
    | error e => exact ⟨_, .undoFailed _, rfl⟩
  | inUse =>
    cases h
    by_cases available : gate.redisAvailable = true
    · exact ⟨_, .give available _, by simp [available, rest]⟩
    · exact ⟨_, .giveUncounted (by simpa using available) _ (.ok ()), by simp [available, rest]⟩
  | returning =>
    cases h
    cases r with
    | ok => exact ⟨_, .returned _, rfl⟩
    | error e => exact ⟨_, .returnFailed _, rfl⟩
  | clearing o =>
    cases h
    exact ⟨_, .clear _ o, rfl⟩
  | leaving o =>
    cases h
    exact ⟨_, .leave _ o, rfl⟩
  | ended | lostTenant | lostBoth => cases h

end

end Stage

/-! ## Many of them -/

/-- A call of `admit` in one of the workers. -/
structure Call where
  worker : Nat
  tenantId : String

def Gate.body (gate : Gate) (call : Call) : Rest := gate.admission call.tenantId ()

/-- The counter of a tenant. It has a value, zero where there is no key, and a lease that
`EXPIRE` sets and `DECR` does not. Beside them stand the numbers of the calls whose increments it
has counted and not been told to take back, slots and refused ones, and of the slots that were
lost when the key expired. -/
structure Counter where
  value : ℤ := 0
  leased : Bool := false
  slots : Finset ℕ := ∅
  refused : Finset ℕ := ∅
  expired : Finset ℕ := ∅

namespace Counter

/-- `INCR` and `EXPIRE`. -/
def incr (limit i : ℕ) (c : Counter) : Counter :=
  if c.value + 1 ≤ limit then
    { c with value := c.value + 1, leased := true, slots := insert i c.slots }
  else { c with value := c.value + 1, leased := true, refused := insert i c.refused }

/-- `DECR`. -/
def decr (i : ℕ) (c : Counter) : Counter :=
  { c with value := c.value - 1, slots := c.slots.erase i, refused := c.refused.erase i }

/-- The lease runs out and the key is gone. -/
def expire (c : Counter) : Counter := { expired := c.expired ∪ c.slots }

end Counter

/-- What the calls share: the counters, and in each worker the semaphores, with the numbers of
the calls that have taken them. -/
structure Store where
  values : ℕ → Sem → ℕ
  holders : ℕ → Sem → Finset ℕ := fun _ _ => ∅
  counters : String → Counter := fun _ => {}

namespace Store

def take (s : Store) (worker : ℕ) (sem : Sem) (i : ℕ) : Store :=
  { s with
    values := fun w x => if w = worker ∧ x = sem then s.values w x - 1 else s.values w x
    holders := fun w x => if w = worker ∧ x = sem then insert i (s.holders w x) else s.holders w x }

def give (s : Store) (worker : ℕ) (sem : Sem) (i : ℕ) : Store :=
  { s with
    values := fun w x => if w = worker ∧ x = sem then s.values w x + 1 else s.values w x
    holders := fun w x => if w = worker ∧ x = sem then (s.holders w x).erase i else s.holders w x }

def setCounter (s : Store) (key : String) (c : Counter) : Store :=
  { s with counters := Function.update s.counters key c }

end Store

/-- What an awaited Redis call may raise. -/
def Raised.OfRedis (e : Raised) : Prop := e = .cancelled ∨ ∃ message, e = .redisError message

/-- How the calls are answered. A Redis call that raises may have been carried out. -/
def Gate.replies (gate : Gate) : Pool.Replies Call Calls Raised Store
  | i, call, .acquire sem, s, .ok _, s' =>
    0 < s.values call.worker sem ∧ s' = s.take call.worker sem i
  | _, _, .acquire _, s, .error e, s' => (e = .timeout ∨ e = .cancelled) ∧ s' = s
  | i, call, .free sem, s, r, s' => r = .ok () ∧ s' = s.give call.worker sem i
  | i, _, .incr key, s, .ok count, s' => count = (s.counters key).value + 1 ∧
      s' = s.setCounter key ((s.counters key).incr gate.limit i)
  | i, _, .incr key, s, .error e, s' => e.OfRedis ∧
      (s' = s ∨ s' = s.setCounter key ((s.counters key).incr gate.limit i))
  | i, _, .decr key, s, .ok _, s' => s' = s.setCounter key ((s.counters key).decr i)
  | i, _, .decr key, s, .error e, s' => e.OfRedis ∧
      (s' = s ∨ s' = s.setCounter key ((s.counters key).decr i))
  | _, _, .use, s, r, s' => r = .ok () ∧ s' = s

/-- A key that has a lease expires. -/
def Lapses (s s' : Store) : Prop :=
  ∃ key, (s.counters key).leased = true ∧ s' = s.setCounter key (s.counters key).expire

abbrev Admitting := Task Call Calls Raised (Except Raised Unit × Unit)

abbrev World := Pool Call Calls Raised (Except Raised Unit × Unit) Store

def Gate.fresh (gate : Gate) : World := ⟨{ values := fun _ => gate.initial }, []⟩

def Gate.Reachable (gate : Gate) (w : World) : Prop :=
  Pool.Turns gate.replies Lapses gate.body gate.fresh w

/-- Every call is answered at once; while Redis is down its calls raise. -/
def Gate.answer (gate : Gate) (down : Bool) (i : ℕ) (call : Call) :
    (op : Op) → Store → Except Raised (Calls.Ans op) × Store
  | .acquire sem, s =>
    if 0 < s.values call.worker sem then (.ok (), s.take call.worker sem i) else (.error .timeout, s)
  | .free sem, s => (.ok (), s.give call.worker sem i)
  | .incr key, s =>
    if down then (.error (.redisError "down"), s)
    else (.ok ((s.counters key).value + 1), s.setCounter key ((s.counters key).incr gate.limit i))
  | .decr key, s =>
    if down then (.error (.redisError "down"), s)
    else (.ok (), s.setCounter key ((s.counters key).decr i))
  | .use, s => (.ok (), s)

theorem Gate.answer_replies (gate : Gate) (down : Bool) (i : ℕ) (call : Call) (op : Op) (s : Store) :
    gate.replies i call op s (gate.answer down i call op s).1 (gate.answer down i call op s).2 := by
  cases op with
  | acquire sem =>
    by_cases free : 0 < s.values call.worker sem
    · simp only [Gate.answer, if_pos free]
      exact ⟨free, rfl⟩
    · simp only [Gate.answer, if_neg free]
      exact ⟨.inl rfl, rfl⟩
  | free sem => exact ⟨rfl, rfl⟩
  | incr key =>
    cases down with
    | true => exact ⟨.inr ⟨_, rfl⟩, .inl rfl⟩
    | false => exact ⟨rfl, rfl⟩
  | decr key =>
    cases down with
    | true => exact ⟨.inr ⟨_, rfl⟩, .inl rfl⟩
    | false => rfl
  | use => exact ⟨rfl, rfl⟩

end AgentStudio.Admission
