import AgentStudio.Async.Balance
import AgentStudio.Py.Dict

/-!
# Batched usage counts

`infrastructure/patterns/last_active.py` and `apply_last_active_batch`: a touch counts in a
Redis hash, or in a buffer of the process once Redis has failed, and a flush hands what
both hold to the database. What Redis executes is one step, and so is the database's
transaction; a call that raises may have taken effect. Only `close` ends the loop that
flushes, so a flush is a call like any other.
-/

namespace AgentStudio.LastActive

open Async
open Py (Dict)

inductive Raised where
  | cancelled
  | error (message : String)
  deriving DecidableEq

/-- A count: of the process, or as Redis replies it, which is text (`decode_responses`). -/
inductive Delta where
  | int (n : Nat)
  | str (text : String)
  deriving DecidableEq

namespace Delta

/-- What the database adds for it. -/
def amount : Delta → Nat
  | int n => n
  | str text => text.toNat?.getD 0

/-- `+` with an integer on its right. -/
def plus (n : Nat) : Delta → Except Raised Delta
  | int m => .ok (.int (m + n))
  | str _ => .error (.error "can only concatenate str (not \"int\") to str")

end Delta

/-- `_pairs_to_dict`, with `value` what the texts are taken for. -/
def pairsToDict {ν : Type} (value : String → ν) : List String → Dict String ν → Dict String ν
  | key :: text :: pairs, out => pairsToDict value pairs (out.set key (value text))
  | _, out => out

/-- `d.update(more)`. -/
def update {ν : Type} (d more : Dict String ν) : Dict String ν :=
  more.entries.foldl (fun d e => d.set e.1 e.2) d

/-! ## The stores -/

/-- A row of `api_keys`. -/
structure ApiKey where
  usageCount : Nat := 0
  lastUsedAt : Option String := none
  revoked : Bool := false
  deriving DecidableEq

/-- A pair of buffers: the counts and the times of the keys. -/
structure Buffer where
  counts : Dict String Nat := .empty
  times : Dict String String := .empty

/-- `n` processes, each with a batcher. -/
structure Store (n : Nat) where
  redis : Buffer := {}
  available : Fin n → Bool
  memory : Fin n → Buffer := fun _ => {}
  rows : String → Option ApiKey

abbrev Entry := String × Delta × String

/-- One more touch of a key. -/
def Buffer.touch (b : Buffer) (key now : String) : Buffer where
  counts := b.counts.set key ((b.counts.get? key).getD 0 + 1)
  times := b.times.set key now

/-- What `HGETALL` replies of the two hashes. -/
def Buffer.replies (b : Buffer) : List String × List String :=
  (b.counts.entries.flatMap fun e => [e.1, Nat.repr e.2],
    b.times.entries.flatMap fun e => [e.1, e.2])

/-- The loop over `_memory_counts`. -/
def merge (memory : List (String × Nat)) (counts : Dict String Delta) :
    Except Raised (Dict String Delta) :=
  memory.foldlM
    (fun counts e => do
      let sum ← ((counts.get? e.1).getD (.int 0)).plus e.2
      pure (counts.set e.1 sum))
    counts

/-- One `UPDATE` of `apply_last_active_batch`. -/
def applyEntry (rows : String → Option ApiKey) (e : Entry) : String → Option ApiKey :=
  Function.update rows e.1 ((rows e.1).map fun row =>
    if row.revoked then row
    else { row with usageCount := row.usageCount + e.2.1.amount, lastUsedAt := some e.2.2 })

namespace Store

variable {n : Nat} (s : Store n)

/-- The pipeline of `touch`. -/
def pipeline (key now : String) : Store n := { s with redis := s.redis.touch key now }

def down (process : Fin n) : Store n :=
  { s with available := Function.update s.available process false }

def setMemory (process : Fin n) (b : Buffer) : Store n :=
  { s with memory := Function.update s.memory process b }

/-- `_FLUSH_LUA`. -/
def drain : Store n := { s with redis := {} }

/-- `flush` takes what the process holds, unless the loop raises. -/
def take (process : Fin n) (counts : Dict String Delta) (times : Dict String String) :
    Except Raised (Dict String Delta × Dict String String) × Store n :=
  if (s.memory process).counts.entries = [] then (.ok (counts, times), s)
  else match merge (s.memory process).counts.entries counts with
    | .ok merged => (.ok (merged, update times (s.memory process).times), s.setMemory process {})
    | .error e => (.error e, s)

/-- The transaction of `apply_last_active_batch`. -/
def apply (entries : List Entry) : Store n := { s with rows := entries.foldl applyEntry s.rows }

end Store

/-! ## The batcher -/

inductive Op (n : Nat) where
  | available (process : Fin n)
  | pipeline (key now : String)
  | down (process : Fin n)
  | remember (process : Fin n) (key now : String)
  | eval
  | take (process : Fin n) (counts : Dict String Delta) (times : Dict String String)
  | apply (entries : List Entry)

abbrev Calls (n : Nat) : Interface where
  Op := Op n
  Ans
    | .available _ => Bool
    | .eval => List String × List String
    | .take _ _ _ => Dict String Delta × Dict String String
    | .apply _ => Nat
    | _ => Unit

section

variable {n : Nat} {σ : Type}

/-- `touch`; a cancellation is no `Exception`. -/
def touch (process : Fin n) (key now : String) : Coro (Calls n) Raised σ Unit := do
  if ← Coro.call (I := Calls n) (.available process) then
    tryCatch (Coro.call (I := Calls n) (.pipeline key now)) fun
    | .cancelled => throw .cancelled
    | .error _ => do
      Coro.call (I := Calls n) (.down process)
      Coro.call (I := Calls n) (.remember process key now)
  else Coro.call (I := Calls n) (.remember process key now)

/-- The entries of a batch; a key without a time is given the present one. -/
def batch (now : String) (counts : Dict String Delta) (times : Dict String String) : List Entry :=
  counts.entries.map fun e => (e.1, e.2, ((times.get? e.1).filter (· ≠ "")).getD now)

/-- What `flush` reads of Redis. -/
def drained (process : Fin n) :
    Coro (Calls n) Raised σ (Dict String Delta × Dict String String) := do
  if ← Coro.call (I := Calls n) (.available process) then
    tryCatch
      (do
        let (countsRaw, timesRaw) ← Coro.call (I := Calls n) .eval
        pure (pairsToDict .str countsRaw .empty, pairsToDict id timesRaw .empty))
      fun
      | .cancelled => throw .cancelled
      | .error _ => do
        Coro.call (I := Calls n) (.down process)
        pure (.empty, .empty)
  else pure (.empty, .empty)

/-- The rest of `flush`. -/
def handOver (hasDb : Fin n → Bool) (process : Fin n) (now : String) (counts : Dict String Delta)
    (times : Dict String String) : Coro (Calls n) Raised σ Nat := do
  let (counts, times) ← Coro.call (I := Calls n) (.take process counts times)
  if counts.entries = [] then pure 0
  else if hasDb process then Coro.call (I := Calls n) (.apply (batch now counts times))
  else pure 0

/-- `flush` of a process that has a database or none. -/
def flush (hasDb : Fin n → Bool) (process : Fin n) (now : String) :
    Coro (Calls n) Raised σ Nat := do
  let (counts, times) ← drained process
  handOver hasDb process now counts times

end

inductive Call (n : Nat) where
  | touch (process : Fin n) (key now : String)
  | flush (process : Fin n) (now : String)

/-- The state in which the processes start: keys that the database has, and nothing buffered. -/
structure Setup (n : Nat) where
  available : Fin n → Bool
  hasDb : Fin n → Bool
  rows : String → Option ApiKey

abbrev Progress (n : Nat) := Tree (Calls n) Raised (Except Raised Unit × Unit)

abbrev World (n : Nat) := Pool (Call n) (Calls n) Raised (Except Raised Unit × Unit) (Store n)

namespace Setup

variable {n : Nat} (setup : Setup n)

def body : Call n → Progress n
  | .touch process key now => touch process key now ()
  | .flush process now => (do let _ ← flush setup.hasDb process now; pure ()) ()

def fresh : World n := ⟨{ available := setup.available, rows := setup.rows }, []⟩

end Setup

/-! ## Runs -/

section

variable {n : Nat}

/-- How a call is answered. -/
def Answer (_ : Nat) (_ : Call n) :
    (op : Op n) → Store n → Except Raised ((Calls n).Ans op) → Store n → Prop
  | .available process, s, r, s' => r = .ok (s.available process) ∧ s' = s
  | .pipeline key now, s, .ok _, s' => s' = s.pipeline key now
  | .pipeline key now, s, .error _, s' => s' = s ∨ s' = s.pipeline key now
  | .down process, s, r, s' => r = .ok () ∧ s' = s.down process
  | .remember process key now, s, r, s' =>
    r = .ok () ∧ s' = s.setMemory process ((s.memory process).touch key now)
  | .eval, s, .ok raw, s' => raw = s.redis.replies ∧ s' = s.drain
  | .eval, s, .error _, s' => s' = s ∨ s' = s.drain
  | .take process counts times, s, r, s' => (r, s') = s.take process counts times
  | .apply entries, s, .ok applied, s' => applied = entries.length ∧ s' = s.apply entries
  | .apply entries, s, .error _, s' => s' = s ∨ s' = s.apply entries

/-- A key is revoked, or a hash expires. -/
inductive Moves (s : Store n) : Store n → Prop
  | revoke (key : String) : Moves s { s with
      rows := Function.update s.rows key ((s.rows key).map fun row => { row with revoked := true }) }
  | expireCounts : Moves s { s with redis.counts := .empty }
  | expireTimes : Moves s { s with redis.times := .empty }

/-- The runs of any number of touches and flushes. -/
def Setup.Reachable (setup : Setup n) (w : World n) : Prop :=
  Pool.Turns Answer Moves setup.body setup.fresh w

/-! ## What is counted -/

/-- What entries have of a key. -/
def tally {ν : Type} (amount : ν → Nat) (key : String) (entries : List (String × ν)) : Nat :=
  (entries.map fun e => if e.1 = key then amount e.2 else 0).sum

namespace Store

variable (s : Store n) (key : String)

/-- The `usage_count` of a key. -/
def applied : Nat := ((s.rows key).map ApiKey.usageCount).getD 0

/-- What Redis and the processes have of a key. -/
def buffered : Nat :=
  tally id key s.redis.counts.entries + ∑ process, tally id key (s.memory process).counts.entries

end Store

/-- What a flush under way has taken and has not yet handed to the database. -/
def inHand (key : String) : Progress n → Nat
  | .await (.take _ counts _) _ => tally Delta.amount key counts.entries
  | .await (.apply entries) _ => tally (fun e : Delta × String => e.1.amount) key entries
  | _ => 0

/-- A touch of the key that is over and has not raised. -/
def touched (key : String) : Call n → Progress n → Nat
  | .touch _ key' _, .done (.ok _, _) => if key' = key then 1 else 0
  | _, _ => 0

namespace World

variable (w : World n) (key : String)

def touches : Nat := (w.tasks.map fun task => touched key task.call task.rest).sum

def underWay : Nat := (w.tasks.map fun task => inHand key task.rest).sum

end World

end

end AgentStudio.LastActive
