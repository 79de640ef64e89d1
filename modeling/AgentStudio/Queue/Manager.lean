import AgentStudio.Async.Shared
import AgentStudio.Gateway.Types

/-!
# The job queue

`infrastructure/queue/manager.py`: jobs wait in three Redis lists, or in a
sorted set until they are due; without Redis they wait in memory. A worker pops
a job and runs its handler; a job that fails is enqueued again, or goes to the
dead letters. A job that is serialized and read back is the job that it was. The
circuit breaker may refuse any call.
-/

namespace AgentStudio.Queue

open Async

abbrev JobId := Nat

/-- The payload: `_idem`, and the rest of the object. -/
structure Payload where
  idem : Option String := none
  body : String := "\x7b\x7d"
  deriving DecidableEq, Repr

structure Job where
  id : JobId
  type : String := ""
  payload : Payload := {}
  priority : Int := 0
  scheduledAt : Option Nat := none
  retries : Nat := 0
  maxRetries : Nat := 3
  error : Option String := none
  deriving DecidableEq, Repr

inductive Level where
  | high | default | low
  deriving DecidableEq, Repr

/-- `_queue_key`. -/
def queueKey (priority : Int) : Level :=
  if 0 < priority then .high else if priority < 0 then .low else .default

structure Config where
  /-- `_client` is set. -/
  redis : Bool := true

/-! ## Redis and memory -/

structure Store where
  /-- The three lists, each with its newest job first. -/
  queued : List (Level × Job) := []
  /-- The three sorted sets, each job with its score. -/
  scheduled : List (Level × Job × Nat) := []
  /-- The lists of dead letters, each job under its type. -/
  dead : List Job := []
  idem : List String := []
  inMemoryQueue : List Job := []
  deadLetters : List Job := []
  idemSeen : List String := []
  idemProcessed : List String := []
  deriving DecidableEq, Repr

namespace Store

variable (s : Store)

def lpush (level : Level) (job : Job) : Store := { s with queued := (level, job) :: s.queued }

/-- A member that is there gets the new score. -/
def zadd (level : Level) (job : Job) (score : Nat) : Store :=
  { s with scheduled :=
      (s.scheduled.filter fun e => ¬ (e.1 = level ∧ e.2.1 = job)) ++ [(level, job, score)] }

def lpushDead (job : Job) : Store := { s with dead := job :: s.dead }

def zrangebyscore (level : Level) (now : Nat) : List Job :=
  (s.scheduled.filter fun e => e.1 = level ∧ e.2.2 ≤ now).map fun e => e.2.1

/-- The pipeline of `_move_scheduled_jobs`. -/
def move (level : Level) (jobs : List Job) : Store :=
  { s with
    queued := jobs.reverse.map (fun job => (level, job)) ++ s.queued
    scheduled := s.scheduled.filter fun e => ¬ (e.1 = level ∧ e.2.1 ∈ jobs) }

/-- The oldest job of a list, and what is left. -/
def popRight (level : Level) : List (Level × Job) → Option (Job × List (Level × Job))
  | [] => none
  | (key, job) :: rest =>
    match popRight level rest with
    | some (oldest, left) => some (oldest, (key, job) :: left)
    | none => if key = level then some (job, rest) else none

def brpop (level : Level) : Option Job × Store :=
  match popRight level s.queued with
  | some (job, left) => (some job, { s with queued := left })
  | none => (none, s)

def memoryPop : Option Job × Store :=
  match s.inMemoryQueue with
  | job :: rest => (some job, { s with inMemoryQueue := rest })
  | [] => (none, s)

/-- `SET NX`, or the set of the process. -/
def claim (redis : Bool) (key : String) : Bool × Store :=
  if redis then (key ∉ s.idem, { s with idem := key :: s.idem })
  else (key ∉ s.idemSeen, { s with idemSeen := key :: s.idemSeen })

end Store

/-! ## The methods -/

/-- What is awaited, or changes what outlives the call. -/
inductive Op where
  | claim (redis : Bool) (key : String)
  | breaker
  | utcnow
  | zadd (level : Level) (job : Job) (score : Nat)
  | lpush (level : Level) (job : Job)
  | lpushDead (job : Job)
  | zrangebyscore (level : Level) (now : Nat)
  | move (level : Level) (jobs : List Job)
  | brpop (level : Level)
  | memoryPush (job : Job)
  | memoryPop
  | memoryDead (job : Job)
  | sleep
  | alreadyProcessed (key : String)
  | markProcessed (key : String)
  | hasHandler (type : String)
  | handle (job : Job)
  /-- `ExponentialBackoff.delay`, with its jitter. -/
  | backoff (retries : Nat)

def Op.Answer : Op → Type
  | claim .. | alreadyProcessed _ | hasHandler _ => Bool
  | breaker | zadd .. | lpush .. | lpushDead _ | move .. | memoryPush _ | memoryDead _ | sleep
  | markProcessed _ | handle _ => Unit
  | utcnow | backoff _ => Nat
  | zrangebyscore .. => List Job
  | brpop _ | memoryPop => Option Job

abbrev Calls : Interface := ⟨Op, Op.Answer⟩

abbrev Action := Coro Calls Raised Unit

/-- `except Exception`. -/
def excepting {α : Type} (body : Action α) (handler : Action α) : Action α :=
  tryCatch body fun e => if e.isException then handler else throw e

/-- `CircuitBreaker.call`. -/
def guarded {α : Type} (body : Action α) : Action α := do
  Coro.call (I := Calls) .breaker
  body

variable (config : Config)

/-- `_redis_enqueue`. -/
def redisEnqueue (job : Job) : Action Unit :=
  match job.scheduledAt with
  | some at_ => do
    let now : Nat ← Coro.call (I := Calls) .utcnow
    if now < at_ then Coro.call (I := Calls) (.zadd (queueKey job.priority) job at_)
    else Coro.call (I := Calls) (.lpush (queueKey job.priority) job)
  | none => Coro.call (I := Calls) (.lpush (queueKey job.priority) job)

/-- `enqueue`, once the key is claimed. -/
def push (job : Job) : Action Bool :=
  if config.redis then
    excepting
      (do
        guarded (redisEnqueue job)
        pure true)
      (pure false)
  else do
    Coro.post (I := Calls) (.memoryPush job)
    pure true

def enqueue (job : Job) : Option String → Action Bool
  | none => push config job
  | some key =>
    if key = "" then push config job
    else do
      let claimed : Bool ← Coro.call (I := Calls) (.claim config.redis key)
      if claimed then push config { job with payload := { job.payload with idem := some key } }
      else pure true

def moveScheduledJobs (now : Nat) : List Level → Action Unit
  | [] => pure ()
  | level :: levels => do
    let jobs : List Job ← Coro.call (I := Calls) (.zrangebyscore level now)
    if jobs = [] then moveScheduledJobs now levels
    else
      Coro.call (I := Calls) (.move level jobs)
      moveScheduledJobs now levels

def popFirst : List Level → Action (Option Job)
  | [] => pure none
  | level :: levels => do
    let popped : Option Job ← Coro.call (I := Calls) (.brpop level)
    match popped with
    | some job => pure (some job)
    | none => popFirst levels

/-- `_redis_dequeue`. -/
def redisDequeue : Action (Option Job) := do
  let now : Nat ← Coro.call (I := Calls) .utcnow
  moveScheduledJobs now [.high, .default, .low]
  popFirst [.high, .default, .low]

def dequeue : Action (Option Job) :=
  if config.redis then excepting (guarded redisDequeue) (pure none)
  else do
    let popped : Option Job ← Coro.call (I := Calls) .memoryPop
    match popped with
    | some job => pure (some job)
    | none =>
      Coro.call (I := Calls) .sleep
      pure none

/-- `_send_to_dead_letter`. -/
def sendToDeadLetter (job : Job) : Action Unit :=
  if config.redis then excepting (Coro.call (I := Calls) (.lpushDead job)) (pure ())
  else Coro.post (I := Calls) (.memoryDead job)

/-- What `process_job` does with a job whose handler has raised. -/
def retry (job : Job) (error : String) : Action Unit := do
  let failed := { job with error := some error, retries := job.retries + 1 }
  if failed.retries < failed.maxRetries then
    let delay : Nat ← Coro.call (I := Calls) (.backoff failed.retries)
    let now : Nat ← Coro.call (I := Calls) .utcnow
    let _ ← enqueue config { failed with scheduledAt := some (now + delay) } none
  else sendToDeadLetter config failed

/-- The key of a job was processed before. -/
def seen : Option String → Action Bool
  | none => pure false
  | some key => if key = "" then pure false else Coro.call (I := Calls) (.alreadyProcessed key)

def note : Option String → Action Unit
  | none => pure ()
  | some key => if key = "" then pure () else Coro.post (I := Calls) (.markProcessed key)

def processJob (job : Job) : Action Bool := do
  let skip ← seen job.payload.idem
  if skip then pure true
  else
    let known : Bool ← Coro.call (I := Calls) (.hasHandler job.type)
    if known then
      let raised : Option String ← tryCatch
        (do
          Coro.call (I := Calls) (.handle job)
          pure none)
        fun e => if e.isException then pure (some e.text) else throw e
      match raised with
      | none =>
        note job.payload.idem
        pure true
      | some error =>
        retry config job error
        pure false
    else
      sendToDeadLetter config job
      pure false

end AgentStudio.Queue
