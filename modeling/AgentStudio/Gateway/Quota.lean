import AgentStudio.Gateway.Types

/-!
# Quota: reservation and reconciliation of US dollars

`gateway/quota.py`. The two Lua scripts run atomically on one hash of the Redis
store; `reserve`, `reconcile`, `release` and `_rollback` are the coroutines that
call them, one key at a time.
-/

namespace AgentStudio.Quota
open Async

/-- The hash under one level key. A missing field reads as zero. -/
structure Hash where
  reserved : ℚ
  spent : ℚ
  deriving DecidableEq

abbrev Store := String → Hash

def Store.set (store : Store) (key : String) (hash : Hash) : Store :=
  fun k => if k = key then hash else store k

/-- The two registered scripts. -/
inductive Script where
  | reserve (key : String) (limit est : ℚ)
  | reconcile (key : String) (est actual : ℚ)
  deriving DecidableEq

/-- `reserve` answers `{ok, projected}`; Redis truncates a Lua number to an
integer on the way out. -/
abbrev Redis : Interface where
  Op := Script
  Ans
    | .reserve .. => Bool × ℤ
    | .reconcile .. => Unit

/-- `_RESERVE_LUA`. -/
def reserveLua (key : String) (limit est : ℚ) (store : Store) : (Bool × ℤ) × Store :=
  let reserved := (store key).reserved
  let spent := (store key).spent
  if limit > 0 ∧ spent + reserved + est > limit then
    ((false, ⌊spent + reserved⌋), store)
  else
    ((true, ⌊spent + reserved + est⌋), store.set key ⟨reserved + est, spent⟩)

/-- `_RECONCILE_LUA`. -/
def reconcileLua (key : String) (est actual : ℚ) (store : Store) : Store :=
  let prev := (store key).reserved
  store.set key ⟨max 0 (prev - est), (store key).spent + actual⟩

def exec : (op : Script) → Store → Redis.Ans op × Store
  | .reserve key limit est, store => reserveLua key limit est store
  | .reconcile key est actual, store => ((), reconcileLua key est actual store)

/-- `QuotaLimits`: zero is an unlimited level. -/
structure Limits where
  platformUsd : ℚ := 0
  tenantUsd : ℚ := 0
  surfaceUsd : ℚ := 0
  endUserUsd : ℚ := 0
  deriving DecidableEq

def Limits.levelLimit (limits : Limits) : Level → ℚ
  | .platform => limits.platformUsd
  | .tenant => limits.tenantUsd
  | .surface => limits.surfaceUsd
  | .endUser => limits.endUserUsd

/-- `QuotaReservation`. -/
structure Reservation where
  requestId : String
  estimatedUsd : ℚ
  levels : List Level
  keys : List String
  window : String
  deriving DecidableEq

/-- `QuotaService`: its key prefix and whether Redis answered at start-up. -/
structure Service where
  keyPrefix : String := "neryva:gateway:quota:"
  available : Bool := true

/-- An absent surface or end user is formatted as `None`. -/
def idText (id : Option String) : String := id.getD "None"

/-- `_level_key`. -/
def Service.levelKey (svc : Service) (level : Level) (tenantId : String)
    (surfaceId endUserId : Option String) (window : String) : String :=
  match level with
  | .platform => svc.keyPrefix ++ "platform:" ++ window
  | .tenant => svc.keyPrefix ++ "t:" ++ tenantId ++ ":" ++ window
  | .surface => svc.keyPrefix ++ "t:" ++ tenantId ++ ":s:" ++ idText surfaceId ++ ":" ++ window
  | .endUser => svc.keyPrefix ++ "t:" ++ tenantId ++ ":u:" ++ idText endUserId ++ ":" ++ window

/-- The arguments of one `reserve` call, with the clock's window and the `uuid4`
drawn at the call. -/
structure ReserveArgs where
  limits : Limits
  tenantId : String
  surfaceId : Option String := none
  endUserId : Option String := none
  estimatedUsd : ℚ := 0
  requestId : String := ""
  uuid : String := ""
  window : String

def ReserveArgs.key (svc : Service) (args : ReserveArgs) (level : Level) : String :=
  svc.levelKey level args.tenantId args.surfaceId args.endUserId args.window

/-- `request_id or f"quota-{uuid4()}"`. -/
def ReserveArgs.reservationId (args : ReserveArgs) : String :=
  if args.requestId = "" then "quota-" ++ args.uuid else args.requestId

/-- The local lists of `reserve`. -/
structure Acquired where
  levels : List Level := []
  keys : List String := []
  deriving DecidableEq

section
variable {σ : Type}

/-- `for key in keys: await self._reconcile_script(...)`. -/
def reconcileKeys (est actual : ℚ) : List String → Coro Redis Raised σ Unit
  | [] => pure ()
  | key :: rest => do
    Coro.call (I := Redis) (.reconcile key est actual)
    reconcileKeys est actual rest

/-- `_rollback`: best effort, so an `Exception` is dropped. -/
def rollback (svc : Service) (keys : List String) (est : ℚ) : Coro Redis Raised σ Unit :=
  if !svc.available || keys.isEmpty then pure ()
  else
    tryCatch (reconcileKeys est 0 keys) fun e =>
      if e.isException then pure () else throw e

/-- `reconcile`: move the reservation into spent. -/
def reconcile (svc : Service) (reservation : Option Reservation) (actualUsd : ℚ) :
    Coro Redis Raised σ Unit :=
  match reservation with
  | none => pure ()
  | some r =>
    if r.keys.isEmpty then pure ()
    else if !svc.available then pure ()
    else
      tryCatch (reconcileKeys r.estimatedUsd actualUsd r.keys) fun e =>
        if e.isException then pure () else throw e

/-- `release`: return the reservation without spending. -/
def release (svc : Service) (reservation : Option Reservation) : Coro Redis Raised σ Unit :=
  match reservation with
  | none => pure ()
  | some r => if r.keys.isEmpty then pure () else reconcile svc (some r) 0

end

/-- The `for level in _LEVELS` loop. An unlimited level is not charged; a
refused level returns what the earlier ones were charged, then raises. -/
def reserveLevels (svc : Service) (args : ReserveArgs) :
    List Level → Coro Redis Raised Acquired Unit
  | [] => pure ()
  | level :: rest => do
    let limit := args.limits.levelLimit level
    if limit ≤ 0 then reserveLevels svc args rest
    else
      let key := args.key svc level
      let (ok, projected) ← Coro.call (I := Redis) (.reserve key limit args.estimatedUsd)
      if ok then
        modify fun a => ⟨a.levels ++ [level], a.keys ++ [key]⟩
        reserveLevels svc args rest
      else
        rollback svc (← get).keys args.estimatedUsd
        throw (.quotaExceeded level limit projected)

/-- `QuotaService.reserve`. -/
def reserve (svc : Service) (args : ReserveArgs) : Coro Redis Raised Acquired (Option Reservation) :=
  if args.estimatedUsd ≤ 0 then pure none
  else if !svc.available then pure none
  else
    tryCatch
      (do
        reserveLevels svc args Level.all
        let acquired ← get
        pure (some ⟨args.reservationId, args.estimatedUsd, acquired.levels, acquired.keys, args.window⟩))
      fun e => do
        if e.isQuotaExceeded then throw e
        else if e.isException then
          rollback svc (← get).keys args.estimatedUsd
          pure none
        else throw e

end AgentStudio.Quota
