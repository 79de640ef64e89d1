import AgentStudio.Async.Turns
import AgentStudio.Gateway.Service
import AgentStudio.Py.Text

/-!
# The cost ledger

`CostLedger.record`, the `cost_ledger.write` handler with `process_job` around it,
and the repositories they write to. The event and each level are written in
transactions of their own; between the `select` of `record_spend` and its commit
others may commit. Each row leaves one of the scope columns NULL, so the unique
constraint, for which NULLs differ, keeps no two rows apart. Amounts are exact.
-/

namespace AgentStudio.Ledger

open Async
open AgentStudio.Gateway (UsageRecord)

inductive ScopeType where
  | platform | tenant | surface | endUser
  deriving DecidableEq, Repr

structure Scope where
  scopeType : ScopeType
  tenantId : String
  surfaceId : Option String
  endUserId : Option String
  deriving DecidableEq

/-- The columns that `record_spend` looks a row up by. -/
structure Key where
  scope : Scope
  /-- The first of a month: its year and its month. -/
  windowStartedAt : Nat × Nat
  deriving DecidableEq

/-- A row of `quota_state`; for the record, the generations whose USD its value is made of. -/
structure QuotaState where
  id : Nat
  key : Key
  spentUsd : ℚ
  shares : List (Nat × ℚ)
  deriving DecidableEq

/-- A row of `spend_events`; for the record, the generation it was written for. -/
structure SpendEvent where
  generation : Nat
  record : UsageRecord

/-- A `cost_ledger.write` job; for the record, the generation it was made for. Its payload
has no `_idem`. -/
structure Job where
  generation : Nat
  payload : UsageRecord
  retries : Nat := 0
  maxRetries : Nat := 3
  scheduledAt : Option Nat := none
  error : Option String := none

inductive Op where
  /-- `queue.enqueue(Job(...))` of a completed generation. -/
  | enqueue (record : UsageRecord)
  | requeue (job : Job)
  | sendToDeadLetter (job : Job)
  | dequeue
  | backoff (retries : Nat)
  | now
  /-- `SpendEventRepository.add`. -/
  | addEvent (record : UsageRecord)
  | select (key : Key)
  /-- The flush and the commit of a new row. -/
  | insert (key : Key) (spentUsd : ℚ)
  /-- The flush and the commit of `row.spent_usd += spent_usd`, on the row as it was read. -/
  | update (row : QuotaState) (spentUsd : ℚ)

def Op.Answer : Op → Type
  | enqueue _ | requeue _ => Bool
  | sendToDeadLetter _ | addEvent _ | insert .. | update .. => Unit
  | dequeue => Option Job
  | backoff _ | now => Nat
  | select _ => List QuotaState

abbrev Calls : Interface := ⟨Op, Op.Answer⟩

abbrev Action := Coro Calls Raised Unit

/-! ## The worker -/

/-- `window_started_at`. -/
def windowStartedAt (micros : Nat) : Nat × Nat :=
  let (year, month, _) := Py.civil (micros / 1000000 / 86400)
  (year, month)

def recordSpend (key : Key) (spentUsd : ℚ) : Action Unit := do
  let rows : List QuotaState ← Coro.call (I := Calls) (.select key)
  match rows with
  | [] => Coro.call (I := Calls) (.insert key spentUsd)
  | [row] => Coro.call (I := Calls) (.update row spentUsd)
  | _ => throw (.exception "Multiple rows were found when one or none was required")

/-- `not record.surface_id`, and so for the end user. -/
def skipped (record : UsageRecord) : ScopeType → Bool
  | .surface => Py.orElse record.surfaceId "" = ""
  | .endUser => Py.orElse record.endUserId "" = ""
  | _ => false

def scope (record : UsageRecord) (scopeType : ScopeType) : Scope where
  scopeType := scopeType
  tenantId := if scopeType = .platform then "" else record.tenantId
  surfaceId := if scopeType = .surface then record.surfaceId else none
  endUserId := if scopeType = .endUser then record.endUserId else none

def recordLevels (record : UsageRecord) (window : Nat × Nat) : List ScopeType → Action Unit
  | [] => pure ()
  | level :: levels =>
    if skipped record level then recordLevels record window levels
    else do
      recordSpend ⟨scope record level, window⟩ record.usd
      recordLevels record window levels

def levels : List ScopeType := [.platform, .tenant, .surface, .endUser]

def handleCostLedgerWrite (record : UsageRecord) : Action Unit := do
  Coro.call (I := Calls) (.addEvent record)
  let now : Nat ← Coro.call (I := Calls) .now
  recordLevels record (windowStartedAt now) levels

/-- What `process_job` does with a job whose handler has raised. -/
def retry (job : Job) (error : String) : Action Unit := do
  let failed := { job with error := some error, retries := job.retries + 1 }
  if failed.retries < failed.maxRetries then
    let delay : Nat ← Coro.call (I := Calls) (.backoff failed.retries)
    let now : Nat ← Coro.call (I := Calls) .now
    let _ : Bool ← Coro.call (I := Calls) (.requeue { failed with scheduledAt := some (now + delay) })
  else Coro.call (I := Calls) (.sendToDeadLetter failed)

def processJob (job : Job) : Action Bool := do
  let raised : Option String ← tryCatch
    (do
      handleCostLedgerWrite job.payload
      pure none)
    fun e => if e.isException then pure (some e.text) else throw e
  match raised with
  | none => pure true
  | some error =>
    retry job error
    pure false

/-- One round of a worker. -/
def work : Action Unit := do
  let job : Option Job ← Coro.call (I := Calls) .dequeue
  match job with
  | none => pure ()
  | some job =>
    let _ ← processJob job

/-! ## The gateway -/

structure CostLedger where
  queue : Bool := true
  db : Bool := true

/-- `CostLedger.record`. -/
def record (ledger : CostLedger) (record : UsageRecord) : Action Unit := do
  let ok : Bool ←
    if ledger.queue then
      tryCatch (Coro.call (I := Calls) (.enqueue record)) fun e =>
        if e.isException then pure false else throw e
    else pure false
  if ok then pure ()
  else if ledger.db then Coro.call (I := Calls) (.addEvent record)
  else throw (.exception ("cost ledger has no write path: configure queue or db " ++
    "(enqueue failed and no repository fallback)"))

/-! ## The stores -/

/-- A completed generation is recorded, or a worker goes to the queue. -/
inductive Call where
  | complete (record : UsageRecord)
  | work

structure Store where
  queue : List Job := []
  dead : List Job := []
  events : List SpendEvent := []
  rows : List QuotaState := []
  /-- The ids of new rows, drawn in turn. -/
  nextId : Nat := 0
  /-- The job that a worker has dequeued, for the record. -/
  hand : Nat → Option Job := fun _ => none

namespace Store

variable (s : Store)

/-- The generation that task `i` writes for. -/
def generation (i : Nat) : Call → Nat
  | .complete _ => i
  | .work => ((s.hand i).map Job.generation).getD i

def enqueued (i : Nat) (record : UsageRecord) : Store :=
  { s with queue := s.queue ++ [{ generation := i, payload := record }] }

def requeued (i : Nat) (job : Job) : Store :=
  { s with queue := s.queue ++ [job], hand := Function.update s.hand i none }

def dropped (i : Nat) : Store := { s with hand := Function.update s.hand i none }

def buried (i : Nat) (job : Job) : Store :=
  { s with dead := s.dead ++ [job], hand := Function.update s.hand i none }

def taken (i : Nat) (job : Job) (queue : List Job) : Store :=
  { s with queue := queue, hand := Function.update s.hand i (some job) }

def withEvent (generation : Nat) (record : UsageRecord) : Store :=
  { s with events := s.events ++ [⟨generation, record⟩] }

def lookup (key : Key) : List QuotaState := s.rows.filter fun row => row.key = key

def inserted (generation : Nat) (key : Key) (spentUsd : ℚ) : Store :=
  { s with
    rows := s.rows ++ [⟨s.nextId, key, spentUsd, [(generation, spentUsd)]⟩]
    nextId := s.nextId + 1 }

/-- `UPDATE ... SET spent_usd` to a value that was read, and the amount. -/
def updated (generation : Nat) (row : QuotaState) (spentUsd : ℚ) : Store :=
  { s with rows := s.rows.map fun r =>
      if r.id = row.id then
        { r with
          spentUsd := row.spentUsd + spentUsd
          shares := row.shares ++ [(generation, spentUsd)] }
      else r }

end Store

def Failed {α : Type} (r : Except Raised α) : Prop := ∃ message, r = .error (.exception message)

/-- How the calls are answered. Only where `faulty`: a completion's job is not enqueued, or
this is not reported; a job that raised is not enqueued again, or is given up; a transaction
is committed and raises, or one of a job that has its event raises; a row is written over
that was committed to since it was read. -/
def Replies (faulty : Prop) : Pool.Replies Call Calls Raised Store
  | i, _, .enqueue record, s, r, s' =>
    s' = s.enqueued i record ∧ r = .ok true ∨
      faulty ∧ (s' = s.enqueued i record ∨ s' = s) ∧ (r = .ok false ∨ Failed r)
  | i, _, .requeue job, s, r, s' =>
    s' = s.requeued i job ∧ (r = .ok true ∨ r = .ok false) ∨
      faulty ∧ s' = s.dropped i ∧ r = .ok false
  | i, _, .sendToDeadLetter job, s, r, s' => faulty ∧ s' = s.buried i job ∧ r = .ok ()
  | i, _, .dequeue, s, r, s' =>
    (∃ pre job post, s.queue = pre ++ job :: post ∧ s' = s.taken i job (pre ++ post) ∧
      r = .ok (some job)) ∨ s' = s ∧ r = .ok none
  | _, _, .backoff _, s, r, s' => s' = s ∧ ∃ delay, r = .ok delay
  | _, _, .now, s, r, s' => s' = s ∧ ∃ time, r = .ok time
  | i, call, .addEvent record, s, r, s' =>
    s' = s.withEvent (s.generation i call) record ∧ (r = .ok () ∨ faulty ∧ Failed r) ∨
      s' = s ∧ Failed r
  | _, _, .select key, s, r, s' => s' = s ∧ (r = .ok (s.lookup key) ∨ faulty ∧ Failed r)
  | i, call, .insert key spentUsd, s, r, s' =>
    s' = s.inserted (s.generation i call) key spentUsd ∧ (s.lookup key = [] ∧ r = .ok () ∨
      faulty ∧ (r = .ok () ∨ Failed r)) ∨ faulty ∧ s' = s ∧ Failed r
  | i, call, .update row spentUsd, s, r, s' =>
    s' = s.updated (s.generation i call) row spentUsd ∧ (row ∈ s.rows ∧ r = .ok () ∨
      faulty ∧ (r = .ok () ∨ Failed r)) ∨ faulty ∧ s' = s ∧ Failed r

abbrev Outcome := Except Raised Unit × Unit

abbrev World := Pool Call Calls Raised Outcome Store

def body (ledger : CostLedger) : Call → Tree Calls Raised Outcome
  | .complete usage => record ledger usage ()
  | .work => work ()

/-- Any number of completions and workers, in any order. -/
abbrev Runs (ledger : CostLedger) (faulty : Prop) : World → World → Prop :=
  Pool.Turns (Replies faulty) (fun _ _ => False) (body ledger)

end AgentStudio.Ledger
