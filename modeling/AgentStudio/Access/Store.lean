import AgentStudio.Access.Routes
import AgentStudio.Async.Heeds
import AgentStudio.Py.Dict

/-!
# The store under the routes

The rows and the two in-memory stores, and how each call may be answered: whatever the clock,
the provider, the random source and the ciphers say, and with any statement failing, before it
took effect or after.
-/

namespace AgentStudio.Access

open Async

structure Store where
  keys : List ApiKey := []
  sessions : List OperatorSession := []
  states : Py.Dict String StateEntry := .empty
  codes : Py.Dict String CodeEntry := .empty

namespace Store

variable (s : Store)

def updateMfa (id : String) (secret : Option String) (enabled : Bool) : Store :=
  { s with keys := s.keys.map fun key =>
      if key.id = id then { key with mfaSecret := secret, mfaEnabled := enabled } else key }

def revokeKey (id : String) : Store :=
  { s with keys := s.keys.map fun key => if key.id = id then { key with revoked := true } else key }

/-- `revoke_all_for_tenant`, when a tenant is offboarded. -/
def revokeAllForTenant (tenantId : String) : Store :=
  { s with keys := s.keys.map fun key =>
      if key.tenantId = some tenantId then { key with revoked := true } else key }

def createKey (key : ApiKey) : Store := { s with keys := s.keys ++ [key] }

def createSession (row : OperatorSession) : Store := { s with sessions := s.sessions ++ [row] }

/-- `_prune_stores`. -/
def prune (now : Time) : Store :=
  { s with
    states := s.states.filterMap fun entry => if entry.expiresAt < now then none else some entry
    codes := s.codes.filterMap fun entry => if entry.expiresAt < now then none else some entry }

end Store

/-- The row of a new key. -/
def NewKey.row (key : NewKey) (id : String) : ApiKey where
  id := id
  name := key.name
  keyHash := key.keyHash
  role := key.role
  tenantId := key.tenantId
  expiresAt := key.expiresAt

/-- The row of a new session, whose hash is of the token. -/
def NewSession.row (session : NewSession) (id tokenHash : String) (expiresAt : Time) :
    OperatorSession where
  id := id
  tokenHash := tokenHash
  name := session.name
  role := session.role
  tenantId := session.tenantId
  idpSub := session.idpSub
  authMethod := session.authMethod
  expiresAt := expiresAt

/-- A statement that answers `a` and leaves `after`; it may fail, in effect or not. -/
def Stated {α : Type} (s : Store) (r : Except Raised α) (s' : Store) (a : α) (after : Store) : Prop :=
  s' = after ∧ r = .ok a ∨ (s' = s ∨ s' = after) ∧ ∃ e, r = .error e

/-- A call that changes nothing. -/
abbrev Idle (s s' : Store) : Prop := s' = s

variable (oidc : Oidc) (settings : Settings)

def Replies : Pool.Replies Request Calls Raised Store
  | _, _, .now, s, _, s' => Idle s s'
  | _, _, .token, s, _, s' => Idle s s'
  | _, _, .tokenBytes, s, _, s' => Idle s s'
  | _, _, .acquire _, s, _, s' => Idle s s'
  | _, _, .audit _, s, _, s' => Idle s s'
  | _, _, .touch _, s, _, s' => Idle s s'
  | _, _, .encrypt _, s, _, s' => Idle s s'
  | _, _, .decrypt _, s, _, s' => Idle s s'
  | _, _, .signingKeyFile, s, _, s' => Idle s s'
  | _, _, .discovery, s, _, s' => Idle s s'
  | _, _, .jwks, s, _, s' => Idle s s'
  | _, _, .tokenEndpoint _, s, _, s' => Idle s s'
  | _, _, .keyByHash keyHash, s, r, s' => Stated s r s' (s.keys.find? (·.keyHash = keyHash)) s
  | _, _, .keyById id, s, r, s' => Stated s r s' (s.keys.find? (·.id = id)) s
  | _, _, .listKeys, s, r, s' => Stated s r s' s.keys.reverse s
  | _, _, .sessionByHash tokenHash, s, r, s' =>
    Stated s r s' (s.sessions.find? (·.tokenHash = tokenHash)) s
  | _, _, .createKey key, s, r, s' => ∃ id, (∀ row ∈ s.keys, row.id ≠ id) ∧
    Stated s r s' (key.row id) (s.createKey (key.row id))
  | _, _, .updateMfa id secret enabled, s, r, s' => ∃ found,
    Stated s r s' found (s.updateMfa id secret enabled)
  | _, _, .revokeKey id, s, r, s' =>
    Stated s r s' (s.keys.any (·.id = id)) (s.revokeKey id)
  | _, _, .createSession session, s, r, s' => ∃ id token now,
    (∀ row ∈ s.sessions, row.id ≠ id) ∧
      let row := session.row id (oidc.sha256 (operatorTokenPrefix ++ token))
        (now + seconds settings.operatorSessionTtlSeconds)
      Stated s r s' (operatorTokenPrefix ++ token, row) (s.createSession row)
  | _, _, .pruneStores, s, r, s' => ∃ now, s' = s.prune now ∧ r = .ok ()
  | _, _, .setState state entry, s, r, s' =>
    s' = { s with states := s.states.set state entry } ∧ r = .ok ()
  | _, _, .popState state, s, r, s' =>
    s' = { s with states := s.states.erase state } ∧ r = .ok (s.states.get? state)
  | _, _, .setCode code entry, s, r, s' =>
    s' = { s with codes := s.codes.set code entry } ∧ r = .ok ()
  | _, _, .popCode code, s, r, s' =>
    s' = { s with codes := s.codes.erase code } ∧ r = .ok (s.codes.get? code)

/-- What moves the rows beside the routes: tenants are offboarded. -/
def Others (s s' : Store) : Prop := ∃ tenantId, s' = s.revokeAllForTenant tenantId

abbrev Calls.History := Async.History Request Calls Raised

abbrev World := Pool Request Calls Raised Outcome Store

/-- Any requests in any interleaving, with the history of their calls. -/
abbrev Runs (oidc : Oidc) (settings : Settings) (init : World) :
    Calls.History → World → Prop :=
  Pool.Recorded (Replies oidc settings) Others (serve oidc settings) init

/-- No request has been made, and nobody is signing on. -/
structure Begins (init : World) : Prop where
  tasks : init.tasks = []
  sessions : init.store.sessions = []
  states : init.store.states = .empty
  codes : init.store.codes = .empty

end AgentStudio.Access
