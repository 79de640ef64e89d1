import AgentStudio.Async.Shared
import AgentStudio.Gateway.Types

/-!
# The thread coordinator

`session/coordinator.py`, while Redis answers, and the two routes' use of it: a
turn takes the local lock of its worker, then the Redis key of the thread, with
an expiry that a renewal task extends. Times are in milliseconds.
-/

namespace AgentStudio.Session.Coordinator

open Async

abbrev Worker := Nat

abbrev Token := Nat

structure Config where
  leaseSeconds : Nat := 120
  wait : Nat := 15000

/-- `lease_seconds * 1000`. -/
def Config.lease (config : Config) : Nat := config.leaseSeconds * 1000

structure Lease where
  worker : Worker
  token : Token
  deriving DecidableEq

/-- What is awaited, for one thread. `run` is all that a route does under the lease. -/
inductive Op where
  | monotonic
  | lockLocal (worker : Worker) (timeout : Nat)
  | unlockLocal (worker : Worker)
  | uuid4
  | setNx (token : Token) (px : Nat)
  | sleep (time : Nat)
  | releaseScript (token : Token)
  | renewScript (token : Token) (px : Nat)
  | createRenewal (token : Token)
  | cancelRenewal (token : Token)
  | admitTenant
  | run
  | releaseAdmission

def Op.Answer : Op → Type
  | monotonic | uuid4 => Nat
  | lockLocal .. | setNx .. | renewScript .. | admitTenant => Bool
  | unlockLocal _ | sleep _ | releaseScript _ | createRenewal _ | cancelRenewal _ | run
  | releaseAdmission => Unit

abbrev Calls : Interface := ⟨Op, Op.Answer⟩

/-- What a `CoordinatorLease` keeps. -/
structure Vars where
  renewal : Bool := false
  released : Bool := false
  deriving DecidableEq

abbrev Action := Coro Calls Raised Vars

variable (config : Config)

/-! ## Renewal -/

/-- `_renew_loop`; a renewal that fails ends it. -/
def renewLoop (token : Token) : Nat → Action Unit
  | 0 => throw .outOfFuel
  | rounds + 1 => do
    Coro.call (I := Calls) (.sleep (max 1000 (config.lease / 3)))
    let renewed : Bool ← tryCatch (Coro.call (I := Calls) (.renewScript token config.lease))
      fun e => if e.isException then pure false else throw e
    if renewed then renewLoop token rounds else pure ()

/-! ## The lease -/

/-- `__aenter__`. -/
def enter (lease : Lease) : Action Unit := do
  modify fun v => { v with renewal := true }
  Coro.post (I := Calls) (.createRenewal lease.token)

/-- The renewal task is cancelled and awaited, when there is one. -/
def stopRenewal (lease : Lease) : Bool → Action Unit
  | true => Coro.call (I := Calls) (.cancelRenewal lease.token)
  | false => pure ()

/-- `release`, and `__aexit__`. -/
def release (lease : Lease) : Action Unit := do
  if (← get).released then pure ()
  else
    modify fun v => { v with released := true }
    stopRenewal lease (← get).renewal
    tryCatch (Coro.call (I := Calls) (.releaseScript lease.token))
      fun e => if e.isException then pure () else throw e
    Coro.post (I := Calls) (.unlockLocal lease.worker)

/-! ## Acquiring -/

/-- `_acquire_redis_lock`. -/
def acquireRedisLock (token : Token) (deadline : Nat) : Nat → Action Bool
  | 0 => throw .outOfFuel
  | rounds + 1 => do
    let now : Nat ← Coro.call (I := Calls) .monotonic
    if now < deadline then
      let acquired : Bool ← Coro.call (I := Calls) (.setNx token config.lease)
      if acquired then pure true
      else
        Coro.call (I := Calls) (.sleep 50)
        acquireRedisLock token deadline rounds
    else pure false

/-- `acquire`, within the wait budget; `none` where it raises `CoordinatorBusy`. -/
def acquire (rounds : Nat) (worker : Worker) : Action (Option Lease) := do
  let start : Nat ← Coro.call (I := Calls) .monotonic
  let locked : Bool ← Coro.call (I := Calls) (.lockLocal worker config.wait)
  if locked then
    let token : Nat ← Coro.call (I := Calls) .uuid4
    let held ← acquireRedisLock config token (start + config.wait) rounds
    if held then pure (some ⟨worker, token⟩)
    else
      Coro.post (I := Calls) (.unlockLocal worker)
      pure none
  else pure none

/-! ## The routes -/

inductive Reply where
  | busy
  | limited
  | done

/-- `process_conversation` and `event_generator` from `acquire` on: neither enters the
lease. -/
def turn (rounds : Nat) (worker : Worker) : Action Reply := do
  match ← acquire config rounds worker with
  | none => pure .busy
  | some lease =>
    let admitted : Bool ← Coro.call (I := Calls) .admitTenant
    if admitted then
      Coro.ensure
        (do
          Coro.call (I := Calls) .run
          pure .done)
        (do
          Coro.call (I := Calls) .releaseAdmission
          release lease)
    else
      release lease
      pure .limited

end AgentStudio.Session.Coordinator
