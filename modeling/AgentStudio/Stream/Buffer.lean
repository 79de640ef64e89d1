import AgentStudio.Async.Shared
import AgentStudio.Gateway.Types
import AgentStudio.Log.Keyed

/-!
# The stream buffer

`infrastructure/stream/buffer.py` and the overflow table of `overflow.py`, for
one stream of one process. What runs between two awaits is one step on the
process's own state. Times are in milliseconds, and the process and Redis read
one clock. A record that goes through Redis or the table comes back as it was.
-/

namespace AgentStudio.Stream

open Async Log

/-- The JSON text of a payload. -/
abbrev Data := String

structure Record where
  id : Nat
  type : String
  data : Data
  deriving DecidableEq, Repr

structure Config where
  ttlSeconds : Nat := 3600
  /-- `EXPIRE` with no time left deletes a key. -/
  ttlPos : 0 < ttlSeconds := by decide
  /-- The overflow table is configured. -/
  db : Bool := true
  overflowMaxChunks : Nat := 0

def Config.ttl (config : Config) : Nat := config.ttlSeconds * 1000

/-- An entry of `_memory`. -/
structure Entry where
  entries : List Record
  ttl : Nat
  deriving DecidableEq, Repr

/-- The Redis list of the stream, with its expiry. -/
structure RedisList where
  items : List Record := []
  expiry : Option Nat := none
  deriving DecidableEq, Repr

/-- The buffer, Redis and the table, for one stream. -/
structure Store where
  now : Nat := 0
  seq : Nat := 0
  redisAvailable : Bool := true
  memory : Option Entry := none
  redis : RedisList := {}
  overflow : List Record := []
  /-- Every record that an append made, for the record. -/
  log : List Record := []
  /-- The records that were in the hot tier when it ran out, for the record. -/
  lapsed : List Record := []
  /-- The records that were taken from the hot tier to be written to the table, for the record. -/
  moving : List Record := []
  deriving DecidableEq, Repr

namespace Store

variable (config : Config) (s : Store)

/-! ## The process -/

/-- `_mem_get`. -/
def memGet : Option Entry := s.memory.filter fun entry => s.now ≤ entry.ttl

/-- What `_mem_get` finds. -/
def memEntries : List Record := (s.memGet.map Entry.entries).getD []

/-- `_mem_append`. -/
def memAppend (record : Record) : Store :=
  { s with memory := some ⟨s.memEntries ++ [record], s.now + config.ttl⟩ }

/-- `_mem_read`. -/
def memRead (after : Nat) : List Record := s.memEntries.filter fun r => after < r.id

/-- How many entries are over the cap. -/
def excess (size : Nat) : Nat :=
  if config.overflowMaxChunks = 0 then 0 else size - config.overflowMaxChunks

/-- The oldest entries leave memory. -/
def memSpill : Store :=
  let spills := s.memEntries.take (excess config s.memEntries.length)
  { s with
    memory := s.memory.map fun entry => { entry with entries := entry.entries.drop spills.length }
    moving := s.moving ++ spills }

/-- `_mark_redis_down`. -/
def markRedisDown : Store := { s with redisAvailable := false }

/-- The next record of the stream. -/
def record (type : String) (data : Data) : Record := ⟨s.seq + 1, type, data⟩

def count (type : String) (data : Data) : Store :=
  { s with seq := s.seq + 1, log := s.log ++ [s.record type data] }

/-- `append` up to its first await: the record, and what is spilled when Redis is down. -/
def enter (type : String) (data : Data) : (Record × Option (List Record)) × Store :=
  let record := s.record type data
  let counted := s.count type data
  if s.redisAvailable then ((record, none), counted)
  else
    let kept := counted.memAppend config record
    ((record, some (kept.memEntries.take (excess config kept.memEntries.length))),
      kept.memSpill config)

/-! ## Redis and the table -/

def list : List Record := if s.redis.expiry.all fun at_ => s.now ≤ at_ then s.redis.items else []

/-- A list that has run out is a new one. -/
def rpush (record : Record) : Store :=
  { s with redis := ⟨s.list ++ [record], if s.list = [] then none else s.redis.expiry⟩ }

def expire : Store :=
  { s with redis := ⟨s.list, if s.list = [] then none else some (s.now + config.ttl)⟩ }

def ltrim (start : Nat) (read : List Record) : Store :=
  { s with redis := { s.redis with items := s.list.drop start }, moving := s.moving ++ read }

/-- `write_chunks`: each row is merged. -/
def writeChunks (chunks : List Record) : Store :=
  { s with
    overflow := putAll Record.id s.overflow chunks
    moving := s.moving.filter fun r => r ∉ chunks }

/-- `read_chunks`. -/
def readChunks (after : Nat) : List Record :=
  sorted Record.id (s.overflow.filter fun r => after < r.id)

/-! ## The rest of the world -/

/-- An append to another stream of the process. -/
def elsewhere : Store := { s with seq := s.seq + 1 }

/-- Time passes. -/
def wait (time : Nat) : Store :=
  let later := { s with now := s.now + time }
  { later with lapsed := s.lapsed ++ (s.memEntries.filter fun r => r ∉ later.memEntries) ++
      s.list.filter fun r => r ∉ later.list }

end Store

/-! ## The methods -/

/-- What is awaited, or runs between two awaits. -/
inductive Op where
  | enter (type : String) (data : Data)
  | rpush (record : Record)
  | expire
  | llen
  | lrange (stop : Option Nat)
  /-- `ltrim key start -1`; `read` is what the same append read from the list before. -/
  | ltrim (start : Nat) (read : List Record)
  | writeChunks (chunks : List Record)
  /-- `_mark_redis_down` and `_mem_append`. -/
  | fallBack (record : Record)
  /-- The test of `_redis_available`, and `_mem_read` where it fails. -/
  | hot (after : Nat)
  /-- `_mark_redis_down` and `_mem_read`. -/
  | fallBackRead (after : Nat)
  | readChunks (after : Nat)

def Op.Answer : Op → Type
  | enter .. => Record × Option (List Record)
  | rpush _ | llen | writeChunks _ => Nat
  | expire => Bool
  | lrange _ | fallBackRead _ | readChunks _ => List Record
  | ltrim .. | fallBack _ => Unit
  | hot _ => Option (List Record)

abbrev Calls : Interface := ⟨Op, Op.Answer⟩

abbrev Action := Coro Calls Raised Unit

/-- `except Exception`. -/
def excepting {α : Type} (body : Action α) (handler : Action α) : Action α :=
  tryCatch body fun e => if e.isException then handler else throw e

variable (config : Config)

/-- `_spill_overflow`. -/
def spillOverflow (spills : List Record) : Action Unit :=
  if spills = [] then pure ()
  else if config.db then
    excepting (do let _ : Nat ← Coro.call (I := Calls) (.writeChunks spills)) (pure ())
  else pure ()

/-- The cap of the Redis list. -/
def trimRedis : Action Unit :=
  if config.overflowMaxChunks = 0 then pure ()
  else do
    let size : Nat ← Coro.call (I := Calls) .llen
    if config.overflowMaxChunks < size then
      let excess := size - config.overflowMaxChunks
      let spillRaw : List Record ← Coro.call (I := Calls) (.lrange (some (excess - 1)))
      Coro.call (I := Calls) (.ltrim excess spillRaw)
      spillOverflow config spillRaw
    else pure ()

def append (type : String) (data : Data) : Action Nat := do
  let entered : Record × Option (List Record) ← Coro.call (I := Calls) (.enter type data)
  match entered with
  | (record, some spills) =>
    spillOverflow config spills
    pure record.id
  | (record, none) =>
    excepting
      (do
        let _ : Nat ← Coro.call (I := Calls) (.rpush record)
        let _ : Bool ← Coro.call (I := Calls) .expire
        trimRedis config
        pure record.id)
      (do
        Coro.post (I := Calls) (.fallBack record)
        pure record.id)

/-- The hot records that `replay` works with; the whole list where Redis answers. -/
def readHot (after : Nat) : Action (List Record) := do
  let read : Option (List Record) ← Coro.call (I := Calls) (.hot after)
  match read with
  | some records => pure records
  | none =>
    excepting
      (do
        let raw : List Record ← Coro.call (I := Calls) (.lrange none)
        if raw = [] then pure raw
        else
          let _ : Bool ← Coro.call (I := Calls) .expire
          pure raw)
      (Coro.call (I := Calls) (.fallBackRead after))

def readOverflow (after : Nat) : Action (List Record) :=
  if config.db then excepting (Coro.call (I := Calls) (.readChunks after)) (pure []) else pure []

/-- Overflow records, then the hot ones that are not among them, in the order of their ids. -/
def merge (overflow hot : List Record) : List Record :=
  sorted Record.id (putAllNew Record.id (putAll Record.id [] overflow) hot)

def replay (after : Nat) : Action (List Record) := do
  let hot ← readHot after
  let overflow ← readOverflow config after
  pure (merge overflow hot)

end AgentStudio.Stream
