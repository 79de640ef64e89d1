import AgentStudio.Log.Chain
import AgentStudio.Py.Text

/-!
# The audit trail

`AuditRepository`: `add`, the hash of the predecessor it stores, and
`verify_chain`. The trail is a list of rows in the order they were added; both
queries read it in the order of `(created_at, id)`. SHA-256 is a parameter, and
`details` stands for its canonical JSON.
-/

namespace AgentStudio.Audit

/-- The text of a `uuid4`: hexadecimal digits and hyphens. -/
abbrev EventId := {text : String // '|' ∉ text.toList}

/-- What `add` is called with, the id it draws and the clock it reads (microseconds). -/
structure Event where
  id : EventId
  tenantId : Option String := none
  actorType : String := "system"
  actorId : Option String := none
  action : String
  resourceType : String
  resourceId : Option String := none
  details : String := "\x7b\x7d"
  createdAt : Nat
  deriving DecidableEq

structure Row extends Event where
  prevHash : Option String
  /-- `none` on rows older than the chain. -/
  eventHash : Option String
  deriving DecidableEq

variable (sha256 : String → String)

/-- `_compute_hash`. -/
def computeHash (prevHash : Option String) (event : Event) : String :=
  sha256 (Py.join "|" [
    prevHash.getD "",
    event.id.val,
    event.tenantId.getD "",
    event.actorType,
    event.actorId.getD "",
    event.action,
    event.resourceType,
    event.resourceId.getD "",
    event.details,
    Py.isoformat event.createdAt])

/-- `(created_at, id)`. -/
def Event.key (event : Event) : Nat ×ₗ EventId := toLex (event.createdAt, event.id)

/-- `order_by(created_at.asc(), id.asc())`. -/
def canonical (rows : List Row) : List Row := Log.inOrder (fun r => r.key) rows

/-- `_previous_hash`. -/
def previousHash (trail : List Row) (eventId : EventId) (createdAt : Nat) : Option String :=
  (canonical (trail.filter fun r =>
    r.createdAt < createdAt ∨ r.createdAt = createdAt ∧ r.id < eventId)).getLast?.bind Row.eventHash

/-- `add`; `none` where the id is taken and the insert raises. -/
def add (trail : List Row) (event : Event) : Option (List Row) :=
  let prevHash := previousHash trail event.id event.createdAt
  if ∃ r ∈ trail, r.id = event.id then none
  else some (trail ++ [{ event with
    prevHash := prevHash
    eventHash := some (computeHash sha256 prevHash event) }])

/-- The loop of `verify_chain`. -/
def verifyFrom (prevHash : Option String) : List Row → Bool × Option EventId
  | [] => (true, none)
  | row :: rest =>
    match row.eventHash with
    | none => verifyFrom none rest
    | some hash =>
      if hash ≠ computeHash sha256 prevHash row.toEvent then (false, some row.id)
      else verifyFrom (some hash) rest

/-- `verify_chain`. -/
def verifyChain (trail : List Row) (tenantId : Option String) : Bool × Option EventId :=
  let rows := match tenantId with
    | none => trail
    | some tenant => if tenant = "" then trail else trail.filter fun r => r.tenantId = some tenant
  verifyFrom sha256 none (canonical rows)

/-- One call after another; a call that raises leaves the trail. -/
def run (calls : List Event) : List Row :=
  calls.foldl (fun trail event => (add sha256 trail event).getD trail) []

end AgentStudio.Audit
