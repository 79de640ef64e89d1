import AgentStudio.Async.Shared
import AgentStudio.Access.Totp
import AgentStudio.Py.Uuid
import AgentStudio.Py.Split

/-!
# Operators and their keys

What the handlers of operator authentication work on: rows of API keys and of operator
sessions, the two in-memory stores of the login flow, and the calls to all of these, to the
clock and to the identity provider. Times are in microseconds.
-/

namespace AgentStudio.Access

open Async

abbrev Uuid := ℕ

abbrev Time := ℕ

inductive Raised where
  /-- `HTTPException`. -/
  | http (status : ℕ) (detail : String)
  | rateLimitExceeded (detail : String)
  | oidcError (detail : String)
  | keyUnavailable (detail : String)
  | exception (detail : String)
  | cancelled
  deriving DecidableEq, Repr, Inhabited

/-- `isinstance(e, Exception)`. -/
def Raised.isException : Raised → Bool
  | .cancelled => false
  | _ => true

inductive Json where
  | null
  | bool (b : Bool)
  | num (q : ℚ)
  | nan
  | inf (negative : Bool)
  | str (s : String)
  | arr (items : List Json)
  | obj (items : List (String × Json))
  deriving BEq

structure Settings where
  authEnabled : Bool := true
  oidcEnabled : Bool := false
  oidcDiscoveryUrl : Option String := none
  oidcClientId : Option String := none
  oidcClientSecret : Option String := none
  oidcRedirectUri : Option String := none
  oidcFrontendRedirect : String := "http://localhost:5173/login"
  oidcScopes : String := "openid profile email"
  oidcRoleClaim : String := "roles"
  oidcRoleMap : List (String × String) := []
  operatorSessionTtlSeconds : ℕ := 28800
  mfaSigningKey : Option String := none
  mfaProofTtlSeconds : ℕ := 60
  mfaIssuer : String := "Neryva Agent Studio"

/-- A row of `api_keys`, with what authentication reads of it. -/
structure ApiKey where
  id : String
  name : String
  keyHash : String
  role : String
  tenantId : Option String := none
  scopes : List String := []
  expiresAt : Option Time := none
  revoked : Bool := false
  mfaSecret : Option String := none
  mfaEnabled : Bool := false
  deriving DecidableEq, Repr

/-- A row of `operator_sessions`. -/
structure OperatorSession where
  id : String
  tokenHash : String
  name : String
  role : String
  tenantId : Option String := none
  scopes : List String := ["*"]
  idpSub : Option String := none
  authMethod : String := "oidc"
  expiresAt : Time
  revokedAt : Option Time := none
  deriving DecidableEq, Repr

/-- An entry of `_state_store`. -/
structure StateEntry where
  nonce : String
  expiresAt : Time
  deriving DecidableEq, Repr

/-- An entry of `_code_store`: `claims`, and when it expires. -/
structure CodeEntry where
  sub : String
  name : String
  email : Option String
  role : String
  tenantId : Option String := none
  expiresAt : Time
  deriving DecidableEq, Repr

structure Discovery where
  issuer : String
  authorizationEndpoint : String
  tokenEndpoint : String
  jwksUri : String
  deriving DecidableEq, Repr

/-- A key of the provider's key set. -/
structure Jwk where
  kty : Option String := none
  kid : Option Json := none
  n : Option String := none
  e : Option String := none

structure AuditEntry where
  action : String
  resourceType : String
  resourceId : Option String := none
  tenantId : Option String := none
  actorType : String := "system"
  actorId : Option String := none
  details : List (String × String) := []
  deriving DecidableEq, Repr

/-- What `ApiKeyRepository.create` is asked for. -/
structure NewKey where
  name : String
  keyHash : String
  role : String
  tenantId : Option String
  expiresAt : Option Time
  deriving DecidableEq, Repr

/-- What `OperatorSessionRepository.create` is asked for. -/
structure NewSession where
  name : String
  role : String
  tenantId : Option String
  idpSub : Option String
  authMethod : String
  deriving DecidableEq, Repr

inductive Op where
  | now
  /-- `secrets.token_urlsafe` and `secrets.token_hex`. -/
  | token
  /-- `secrets.token_bytes`. -/
  | tokenBytes
  /-- `_rate_limiter.acquire_or_raise`. -/
  | acquire (key : String)
  | keyByHash (keyHash : String)
  | keyById (id : String)
  | createKey (key : NewKey)
  | updateMfa (id : String) (secret : Option String) (enabled : Bool)
  | listKeys
  | revokeKey (id : String)
  | sessionByHash (tokenHash : String)
  | createSession (session : NewSession)
  | audit (entry : AuditEntry)
  /-- The last-active batcher takes note of a use. -/
  | touch (id : String)
  | encrypt (secret : String)
  | decrypt (stored : String)
  /-- The key file of the proof tokens, made where it cannot be read. -/
  | signingKeyFile
  /-- The discovery document, fetched on first use. -/
  | discovery
  | jwks
  /-- The body of the token endpoint's answer to a code. -/
  | tokenEndpoint (code : String)
  | pruneStores
  | setState (state : String) (entry : StateEntry)
  | popState (state : String)
  | setCode (code : String) (entry : CodeEntry)
  | popCode (code : String)

def Op.Answer : Op → Type
  | now => Time
  | token | encrypt _ | decrypt _ => String
  | tokenBytes | signingKeyFile => List ℕ
  | acquire _ | audit _ | touch _ | pruneStores | setState .. | setCode .. => Unit
  | keyByHash _ | keyById _ => Option ApiKey
  | createKey _ => ApiKey
  | updateMfa .. | revokeKey _ => Bool
  | listKeys => List ApiKey
  | sessionByHash _ => Option OperatorSession
  | createSession _ => String × OperatorSession
  | discovery => Discovery
  | jwks => List Jwk
  | tokenEndpoint _ => Json
  | popState _ => Option StateEntry
  | popCode _ => Option CodeEntry

abbrev Calls : Interface := ⟨Op, Op.Answer⟩

abbrev Action (α : Type) := Coro Calls Raised Unit α

/-- Await a call. -/
abbrev ask (op : Op) : Action op.Answer := Coro.call (I := Calls) op

def seconds (n : ℕ) : Time := n * 1000000

end AgentStudio.Access
