import AgentStudio.Access.Oidc

/-!
# Principals

`api/dependencies/auth.py`: who a request comes from, what the role allows, and the second
factor that privileged requests are asked for.
-/

namespace AgentStudio.Access

open Async

/-- The headers a request is authenticated by. -/
structure Credentials where
  apiKey : Option String := none
  authorization : String := ""
  mfaProof : String := ""
  deriving DecidableEq, Repr

structure Principal where
  keyId : String
  name : String
  role : String
  tenantId : Option Uuid
  scopes : List String
  deriving DecidableEq, Repr

/-- The principal of a key. -/
def ApiKey.principal (row : ApiKey) (tenantId : Option Uuid) : Principal where
  keyId := row.id
  name := row.name
  role := row.role
  tenantId := tenantId
  scopes := row.scopes

def OperatorSession.principal (row : OperatorSession) (tenantId : Option Uuid) : Principal where
  keyId := row.id
  name := row.name
  role := row.role
  tenantId := tenantId
  scopes := row.scopes

def superAdmin : String := "super_admin"
def tenantAdmin : String := "tenant_admin"
def operator : String := "operator"
def auditor : String := "auditor"

def allRoles : List String := [superAdmin, tenantAdmin, operator, auditor]

def rolePermissions (role : String) : List String :=
  if role = superAdmin then
    ["tenants:read", "tenants:write", "conversations:read", "conversations:write",
      "api_keys:manage", "audit:read", "escalations:read", "escalations:write", "webhooks:read",
      "webhooks:write", "knowledge:write", "evals:run", "policies:read", "policies:write",
      "models:read", "models:write", "evals:read", "billing:read", "tools:read", "tools:write",
      "prompts:read", "prompts:write"]
  else if role = tenantAdmin then
    ["tenants:read", "conversations:read", "conversations:write", "escalations:read",
      "escalations:write", "webhooks:read", "webhooks:write", "knowledge:write", "evals:run",
      "api_keys:manage", "policies:read", "policies:write", "models:read", "models:write",
      "evals:read", "billing:read", "tools:read", "tools:write", "prompts:read", "prompts:write"]
  else if role = operator then ["conversations:read", "escalations:read", "escalations:write"]
  else if role = auditor then ["tenants:read", "audit:read"]
  else []

def Principal.hasPermission (principal : Principal) (permission : String) : Bool :=
  permission ∈ rolePermissions principal.role ∨ "*" ∈ principal.scopes

def operatorTokenPrefix : String := "nry_ops_"

def keyPrefix : String := "nrv_live_"

/-- `s[len(start):]` where `s.startswith(start)`. -/
def afterStart (start s : String) : Option String :=
  if start.toList.isPrefixOf s.toList then some (String.ofList (s.toList.drop start.length))
  else none

/-- The tenant that a row is bound to. -/
def tenantOf (tenantId : Option String) : Option Uuid :=
  (tenantId.filter (· ≠ "")).bind Py.Uuid.parse

/-- `UUID(text) if text else None`. -/
def boundTenant (tenantId : Option String) : Action (Option Uuid) :=
  match tenantId.filter (· ≠ "") with
  | none => pure none
  | some text =>
    match Py.Uuid.parse text with
    | some u => pure (some u)
    | none => throw (.exception "badly formed hexadecimal UUID string")

variable (oidc : Oidc) (settings : Settings)

/-- One request is taken from the caller's rate. -/
def acquire (key : String) : Action Unit :=
  tryCatch (ask (.acquire key)) fun e =>
    match e with
    | .rateLimitExceeded detail => throw (.http 429 detail)
    | e => throw e

def resolveOperatorSession (cred : Credentials) : Action (Option Principal) := do
  match (afterStart "Bearer " cred.authorization).map Py.strip with
  | none => pure none
  | some token =>
    if (afterStart operatorTokenPrefix token).isNone then pure none
    else
      let tokenHash := oidc.sha256 token
      acquire tokenHash
      let record : Option OperatorSession ← ask (.sessionByHash tokenHash)
      match record with
      | none => throw (.http 401 "Invalid operator session")
      | some record =>
        if record.revokedAt.isSome then throw (.http 401 "Operator session revoked")
        let now : Time ← ask .now
        if record.expiresAt < now then throw (.http 401 "Operator session expired")
        let tenantId ← boundTenant record.tenantId
        pure (some (record.principal tenantId))

def development : Principal := ⟨"dev", "development", superAdmin, none, ["*"]⟩

/-- A failed authentication is written down before it is answered. -/
def authFailure (keyId : Option String) (reason detail : String) : Action Unit := do
  ask (.audit {
    action := "auth.failure", resourceType := "api_key", resourceId := keyId
    actorType := "api_key", actorId := keyId, details := [("reason", reason)] })
  throw (.http 401 detail)

def getPrincipal (cred : Credentials) : Action Principal := do
  if ¬ settings.authEnabled then return development
  match cred.apiKey.filter (· ≠ "") with
  | none =>
    match ← resolveOperatorSession oidc cred with
    | some session => pure session
    | none => throw (.http 401 "Missing X-API-Key header")
  | some rawKey =>
    let keyHash := oidc.sha256 rawKey
    acquire keyHash
    let record : Option ApiKey ← ask (.keyByHash keyHash)
    match record with
    | none =>
      authFailure none "unknown_key" "Invalid API key"
      throw (.http 401 "Invalid API key")
    | some record =>
      if record.revoked then authFailure (some record.id) "revoked" "API key revoked"
      if let some expires := record.expiresAt then
        let now : Time ← ask .now
        if expires < now then authFailure (some record.id) "expired" "API key expired"
      Coro.post (I := Calls) (.touch record.id)
      let tenantId ← boundTenant record.tenantId
      pure (record.principal tenantId)

def requirePermission (principal : Principal) (permission : String) : Action Unit :=
  if principal.hasPermission permission then pure ()
  else throw (.http 403 ("Role '" ++ principal.role ++ "' lacks permission '" ++ permission ++ "'"))

def requireOperator (principal : Principal) : Action Unit :=
  if principal.role ∈ [superAdmin, tenantAdmin, operator] then pure ()
  else throw (.http 403 ("Role '" ++ principal.role ++ "' cannot access operator surfaces"))

/-! ## Proof tokens -/

/-- `int(text)` of an optional sign and digits, single underscores between them. -/
def parseInt (text : String) : Option ℤ :=
  let s := (Py.strip text).toList
  let sign : ℤ := if s.head? = some '-' then -1 else 1
  let s := if s.head? = some '-' ∨ s.head? = some '+' then s.drop 1 else s
  let groups := s.splitOn '_'
  if groups.all fun g => !g.isEmpty && g.all Char.isDigit then
    some (sign * ((groups.flatten.map fun c => c.toNat - 48).foldl (fun n d => n * 10 + d) 0 : ℕ))
  else none

/-- The key of the proof tokens. -/
def mfaSigningKey : Action (List ℕ) := do
  match settings.mfaSigningKey with
  | some key =>
    if key ≠ "" then pure (key.toUTF8.toList.map UInt8.toNat)
    else fromFile
  | none => fromFile
where
  fromFile : Action (List ℕ) := do
    let key : List ℕ ← ask .signingKeyFile
    if key.length < 16 then
      throw (.exception "MFA signing key file must contain at least 16 bytes")
    pure key

/-- The token that binds a key to the second it expires at. -/
def mfaProofText (key : List ℕ) (keyId : String) (expires : ℤ) : String :=
  let signature := oidc.hmacSha256 key (keyId ++ "|" ++ toString expires)
  keyId ++ "." ++ toString expires ++ "." ++ signature

def signMfaProof (keyId : String) (expires : ℤ) : Action String := do
  let key ← mfaSigningKey settings
  pure (mfaProofText oidc key keyId expires)

/-- The last second that `datetime.fromtimestamp` takes. -/
def maxTimestamp : ℤ := 253402300799

def verifyMfaProof (proof keyId : String) : Action Bool := do
  match Py.split '.' proof with
  | [claimedKey, expPart, _] =>
    if claimedKey ≠ keyId then return false
    match parseInt expPart with
    | none => pure false
    | some expires =>
      if expires < -62135596800 ∨ maxTimestamp < expires then return false
      let now : Time ← ask .now
      let at_ : ℤ := expires * 1000000
      if ¬ ((now : ℤ) ≤ at_ ∧ at_ ≤ now + seconds settings.mfaProofTtlSeconds) then return false
      let expected ← signMfaProof oidc settings keyId expires
      match Totp.compareDigest expected proof with
      | some same => pure same
      | none => throw (.exception "comparing strings with non-ASCII characters is not supported")
  | _ => pure false

/-- The second factor of privileged requests; keys without it pass, and so do sessions. -/
def requireMfaProof (cred : Credentials) (principal : Principal) : Action Unit := do
  let record : Option ApiKey ← ask (.keyById principal.keyId)
  if record.any (·.mfaEnabled) then
    if cred.mfaProof = "" then throw (.http 403 "mfa_required")
    if ¬ (← verifyMfaProof oidc settings cred.mfaProof principal.keyId) then
      throw (.http 403 "mfa_required")

end AgentStudio.Access
