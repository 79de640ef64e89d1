import AgentStudio.Async.Shared
import AgentStudio.Gateway.Types
import AgentStudio.Threads.Store

/-!
# The event outbox

`modules/webhooks`: a request records an event in the outbox. Relays take the
pending rows in batches; for each they look up the subscriptions, record the
event for replay, put one delivery job for each matching subscription on the
queue, and acknowledge the row.
-/

namespace AgentStudio.Webhooks

open Async Threads

inductive Json where
  | null
  | text (value : String)
  | other (json : String)
  deriving DecidableEq, Repr

abbrev Data := List (String × Json)

structure Subscription where
  id : Uuid
  tenantId : Uuid
  active : Bool := true
  events : List String := []
  deriving DecidableEq, Repr

inductive Status where
  | pending
  | published
  | failed
  deriving DecidableEq, Repr

structure OutboxRow where
  eventId : Uuid
  tenantId : Uuid
  eventType : String
  payload : Data := []
  sessionId : Option String := none
  status : Status := .pending
  attempts : Nat := 0
  lastError : Option String := none
  /-- The subscriptions that were due when the row stopped being pending, for the record. -/
  due : List Subscription := []
  deriving DecidableEq, Repr

/-- A row of `webhook_events`. -/
structure WebhookEvent where
  id : Uuid
  tenantId : Uuid
  eventType : String
  payload : Data
  deriving DecidableEq, Repr

/-- Idempotency keys: `outbox.relay` and `webhook:{event_id}:{subscription_id}`. -/
inductive Key where
  | relay
  | delivery (eventId subscriptionId : Uuid)
  deriving DecidableEq, Repr

/-- The jobs `webhook.deliver` and `outbox.relay`, with their payloads. -/
inductive Work where
  | deliver (eventId subscriptionId tenantId : Uuid)
  | relay (limit : Nat)
  deriving DecidableEq, Repr

structure Job where
  work : Work
  idem : Option Key := none
  deriving DecidableEq, Repr

/-- `active and event_type in (events or [])`, of a tenant's subscriptions. -/
def matching (eventType : String) (subscriptions : List Subscription) : List Subscription :=
  subscriptions.filter fun s => s.active && s.events.contains eventType

/-- `{"session_id": session_id, **data}`. -/
def withSession (sessionId : Option String) (data : Data) : Data :=
  ("session_id", (data.lookup "session_id").getD (sessionId.elim .null .text)) ::
    data.filter fun entry => entry.1 ≠ "session_id"

/-! ## The calls -/

/-- What requests and relays await. For the record, the work goes with the claim of its key,
and the subscriptions that a publication found with the acknowledgement of its row. -/
inductive Op where
  | findOutbox (eventId : Uuid)
  | insertOutbox (row : OutboxRow)
  | listPending (limit : Nat)
  | listSubscriptions (tenantId : Uuid)
  | findEvent (eventId : Uuid)
  | insertEvent (event : WebhookEvent)
  | claim (key : Key) (work : Work)
  | push (job : Job)
  | markPublished (eventId : Uuid) (found : Option (List Subscription))
  | markFailed (eventId : Uuid) (error : String) (found : Option (List Subscription))

def Op.Answer : Op → Type
  | findOutbox _ | findEvent _ | claim .. => Bool
  | listPending _ => List OutboxRow
  | listSubscriptions _ => List Subscription
  | insertOutbox _ | insertEvent _ | push _ | markPublished .. | markFailed .. => Unit

abbrev Calls : Interface := ⟨Op, Op.Answer⟩

/-- What the publication under way has found, nothing before it has read. -/
abbrev Found := Option (List Subscription)

abbrev Action := Coro Calls Raised Found

/-- `except Exception: pass`. -/
def swallow (e : Raised) : Action Unit := if e.isException then pure () else throw e

/-! ## The queue -/

/-- `QueueManager.enqueue`, with a key: true when the job was accepted, or its key had been claimed. -/
def enqueue (work : Work) (key : Key) : Action Bool := do
  let claimed : Bool ← Coro.call (I := Calls) (.claim key work)
  if claimed then
    tryCatch
      (do
        Coro.call (I := Calls) (.push ⟨work, some key⟩)
        pure true)
      fun e => if e.isException then pure false else throw e
  else pure true

/-! ## Publishing -/

/-- `WebhookRepository.record_event`. -/
def recordEvent (event : WebhookEvent) : Action Unit := do
  let existing : Bool ← Coro.call (I := Calls) (.findEvent event.id)
  if existing then pure ()
  else Coro.call (I := Calls) (.insertEvent event)

/-- The loop of `publish`; what `enqueue` returns is dropped. -/
def enqueueAll (eventId tenantId : Uuid) : List Subscription → Action Unit
  | [] => pure ()
  | subscription :: rest => do
    let _ ← enqueue (.deliver eventId subscription.id tenantId)
      (.delivery eventId subscription.id)
    enqueueAll eventId tenantId rest

/-- `WebhookPublisher.publish`, with the event id that the outbox row has. -/
def publish (eventType : String) (tenantId : Uuid) (data : Data) (sessionId : Option String)
    (eventId : Uuid) : Action (Option Uuid) := do
  let subscriptions ← Coro.call (I := Calls) (.listSubscriptions tenantId)
  let found := matching eventType subscriptions
  set (some found)
  if found.isEmpty then pure none
  else
    recordEvent ⟨eventId, tenantId, eventType, withSession sessionId data⟩
    enqueueAll eventId tenantId found
    pure (some eventId)

/-! ## Draining -/

/-- One round of `drain`: what was not published is acknowledged as failed. -/
def drainRow (row : OutboxRow) : Action Bool := do
  set (none : Found)
  tryCatch
    (do
      -- a row that matches nothing is acknowledged like any other
      let _ ← publish row.eventType row.tenantId row.payload row.sessionId row.eventId
      let found ← get
      Coro.call (I := Calls) (.markPublished row.eventId found)
      pure true)
    fun e =>
      if e.isException then do
        let found ← get
        Coro.call (I := Calls) (.markFailed row.eventId e.text found)
        pure false
      else throw e

def drainRows : List OutboxRow → Nat → Action Nat
  | [], published => pure published
  | row :: rest, published => do
    let done ← drainRow row
    drainRows rest (if done then published + 1 else published)

/-- `OutboxRelay.drain`. -/
def drain (limit : Nat) : Action Nat := do
  let pending ← Coro.call (I := Calls) (.listPending limit)
  drainRows pending 0

def handleOutboxRelay (limit : Nat) : Action Unit := do
  let _ ← drain limit
  pure ()

/-! ## Requests -/

/-- `EventOutboxRepository.record`. -/
def record (eventId tenantId : Uuid) (eventType : String) (payload : Data)
    (sessionId : Option String) : Action Unit := do
  let existing : Bool ← Coro.call (I := Calls) (.findOutbox eventId)
  if existing then pure ()
  else Coro.call (I := Calls) (.insertOutbox {
    eventId := eventId, tenantId := tenantId, eventType := eventType, payload := payload,
    sessionId := sessionId })

def enqueueOutboxRelay (limit : Nat) : Action Bool := enqueue (.relay limit) .relay

/-- `_publish_webhook_event`, with the event id that it draws. -/
def publishWebhookEvent (eventType : String) (tenantId : Uuid) (data : Data) (sessionId : String)
    (eventId : Uuid) : Action Unit :=
  tryCatch
    (do
      record eventId tenantId eventType data (some sessionId)
      tryCatch
        (do
          let _ ← enqueueOutboxRelay 50
          pure ())
        swallow
      tryCatch
        (do
          let _ ← drain 50
          pure ())
        swallow)
    swallow

end AgentStudio.Webhooks
