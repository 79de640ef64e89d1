import Mathlib.Algebra.Order.Field.Rat
import Mathlib.Data.Rat.Floor
import Mathlib.Logic.Function.Basic
import AgentStudio.Rate.Metered

/-!
# The rate limiter

`infrastructure/patterns/rate_limiter.py`: a token bucket for each key, in Redis or in
the process. Times are in seconds; the script is given milliseconds, and a window in
seconds. All arithmetic is exact.
-/

namespace AgentStudio.Rate

structure Config where
  maxRequests : ℕ := 100
  windowSeconds : ℚ := 60
  burstMultiplier : ℚ := 3 / 2
  keyPrefix : String := "neryva:rl:"

/-! ## The Redis path -/

/-- The hash of a key in Redis, and when it expires, in milliseconds. -/
structure Hash where
  tokens : ℚ
  ts : ℚ
  expiry : ℚ

/-- The first part of `_TOKEN_BUCKET_LUA`: what the bucket is refilled to. -/
def refilled (max : ℕ) (window now : ℚ) : Option Hash → ℚ
  | none => max
  | some h =>
    if now - h.ts ≥ window then max else min (max : ℚ) (h.tokens + (now - h.ts) * (max / window))

/-- `HMSET`, then `PEXPIRE`, which deletes a key that has no time left. -/
def store (window now tokens : ℚ) : Option Hash :=
  if ⌊window * 1000⌋ ≤ 0 then none else some ⟨tokens, now, now + ⌊window * 1000⌋⟩

/-- `_TOKEN_BUCKET_LUA`: whether it is allowed, and the hash. -/
def tokenBucket (max : ℕ) (window : ℚ) (cost : ℤ) (now : ℚ) (bucket : Option Hash) :
    Bool × Option Hash :=
  let tokens := refilled max window now bucket
  if tokens ≥ cost then (true, store window now (tokens - cost))
  else (false, store window now tokens)

/-! ## The limiter -/

structure Bucket where
  tokens : ℚ
  lastRefill : ℚ

/-- Redis and `_buckets`. -/
structure Store where
  redis : String → Option Hash := fun _ => none
  buckets : String → Option Bucket := fun _ => none

/-- What `HMGET` finds. -/
def Store.find (s : Store) (key : String) (now : ℚ) : Option Hash :=
  (s.redis key).filter fun h => now < h.expiry

def Store.write (s : Store) (key : String) (bucket : Bucket) : Store :=
  { s with buckets := Function.update s.buckets key (some bucket) }

/-- How the call of the script goes. Where it raises, it may have run. -/
inductive Script where
  | answered
  | raised (ran : Bool)

structure Call where
  key : String
  tokens : ℤ := 1
  now : ℚ
  script : Script := .answered

variable (config : Config)

/-- `_key`. -/
def Config.name (key : String) : String := config.keyPrefix ++ key

def redisAcquire (call : Call) (s : Store) : Bool × Store :=
  let nowMs := call.now * 1000
  let name := config.name call.key
  let r := tokenBucket config.maxRequests config.windowSeconds call.tokens nowMs (s.find name nowMs)
  (r.1, { s with redis := Function.update s.redis name r.2 })

/-- The first part of `_memory_acquire`, on the bucket if there is one. -/
def memoryRefilled (now : ℚ) (bucket : Option Bucket) : ℚ :=
  let bucket := bucket.getD ⟨config.maxRequests, now⟩
  let elapsed := now - bucket.lastRefill
  let refill := elapsed * (config.maxRequests / config.windowSeconds)
  min (bucket.tokens + refill) (config.maxRequests * config.burstMultiplier)

def memoryAcquire (call : Call) (s : Store) : Bool × Store :=
  let tokens := memoryRefilled config call.now (s.buckets call.key)
  if tokens ≥ call.tokens then (true, s.write call.key ⟨tokens - call.tokens, call.now⟩)
  else (false, s.write call.key ⟨tokens, call.now⟩)

/-- `acquire`; `connected` is that there is a client of Redis. -/
def acquire (connected : Bool) (call : Call) (s : Store) : Bool × Store :=
  if connected then
    match call.script with
    | .answered => redisAcquire config call s
    | .raised ran => memoryAcquire config call (if ran then (redisAcquire config call s).2 else s)
  else memoryAcquire config call s

/-- Calls one after the other, each with what it returned. -/
def acquireAll (connected : Bool) (s : Store) : List Call → List (Call × Bool)
  | [] => []
  | call :: calls =>
    let r := acquire config connected call s
    (call, r.1) :: acquireAll connected r.2 calls

/-! ## The bound -/

inductive Path where
  | redis
  | memory

/-- The call is on this path. -/
def Path.Takes : Path → Bool → Call → Prop
  | redis, connected, call => connected = true ∧ call.script = .answered
  | memory, connected, call => connected = false ∨ ∃ ran, call.script = .raised ran

/-- The tokens granted on a key from `start` on, for `length`. -/
def granted (key : String) (start length : ℚ) (results : List (Call × Bool)) : ℤ :=
  ((results.filter fun r => r.2 ∧ r.1.key = key ∧ start ≤ r.1.now ∧ r.1.now ≤ start + length).map
    fun r => r.1.tokens).sum

/-- `max_requests * burst_multiplier + T * max_requests / window_seconds`. -/
def Config.bound (length : ℚ) : ℚ :=
  config.maxRequests * config.burstMultiplier + length * config.maxRequests / config.windowSeconds

/-- No calls on this path, at times that do not decrease, are granted more in an interval of
this length. -/
def Within (path : Path) (length : ℚ) : Prop :=
  ∀ connected calls, (∀ call ∈ calls, path.Takes connected call) →
    (calls.Pairwise fun a b => a.now ≤ b.now) → ∀ key start,
      (granted key start length (acquireAll config connected {} calls) : ℚ) ≤ config.bound length

/-! ## As metered spending -/

open Metered

/-- The attempts on a key. -/
def attempts (key : String) (results : List (Call × Bool)) : List (Attempt ℚ) :=
  (results.filter fun r => r.1.key = key).map fun r => ⟨r.1.now, r.1.tokens, r.2⟩

theorem attempts_cons (key : String) (r : Call × Bool) (results : List (Call × Bool)) :
    attempts key (r :: results) = if r.1.key = key
      then ⟨r.1.now, r.1.tokens, r.2⟩ :: attempts key results else attempts key results := by
  by_cases its : r.1.key = key
  · simp [attempts, its]
  · simp [attempts, its]

theorem granted_cons (key : String) (start length : ℚ) (r : Call × Bool)
    (results : List (Call × Bool)) :
    granted key start length (r :: results) =
      (if r.2 ∧ r.1.key = key ∧ start ≤ r.1.now ∧ r.1.now ≤ start + length then r.1.tokens else 0) +
        granted key start length results := by
  by_cases counts : r.2 ∧ r.1.key = key ∧ start ≤ r.1.now ∧ r.1.now ≤ start + length
  · rw [if_pos counts, granted, List.filter_cons_of_pos (by simpa using counts)]
    rfl
  · rw [if_neg counts, zero_add, granted, List.filter_cons_of_neg (by simpa using counts)]
    rfl

theorem granted_spent (key : String) (start length : ℚ) (results : List (Call × Bool)) :
    (granted key start length results : ℚ) = spentIn start length (attempts key results) := by
  induction results with
  | nil => rfl
  | cons r results ih =>
    rw [granted_cons, attempts_cons, Int.cast_add, ih]
    by_cases its : r.1.key = key
    · rw [if_pos its]
      by_cases inside : start ≤ r.1.now ∧ r.1.now ≤ start + length
      · rw [spentIn_inside inside.1 inside.2]
        by_cases ok : r.2 = true
        · simp [Attempt.spent, ok, its, inside]
        · simp [Attempt.spent, ok]
      · rw [spentIn_outside inside, if_neg fun counts => inside counts.2.2]
        simp
    · rw [if_neg its, if_neg fun counts => its counts.2.1]
      simp

end AgentStudio.Rate
