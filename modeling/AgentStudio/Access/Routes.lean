import AgentStudio.Access.Principal

/-!
# The routes

`api/routes/operator_auth.py`, and the routes of API keys in `api/routes/conversations.py`:
sign-on in three requests, the life of a second factor, and keys that are made and revoked.
-/

namespace AgentStudio.Access

open Async

structure ApiKeyCreateRequest where
  name : String
  role : String := operator
  tenantId : Option String := none
  expiresAt : Option Time := none
  deriving DecidableEq, Repr

inductive Request where
  | oidcAuthorize
  | oidcCallback (code state error : Option String)
  | oidcExchange (code : String)
  | mfaStatus (cred : Credentials)
  | mfaSetup (cred : Credentials)
  | mfaConfirm (cred : Credentials) (code : String)
  | mfaProof (cred : Credentials) (code : String)
  | mfaDisable (cred : Credentials)
  | createApiKey (cred : Credentials) (request : ApiKeyCreateRequest)
  | listApiKeys (cred : Credentials)
  | revokeApiKey (cred : Credentials) (keyId : String)
  deriving DecidableEq, Repr

inductive Response where
  | redirect (url : String)
  | session (token : String) (row : OperatorSession)
  | mfaStatus (enabled sessionBased : Bool)
  | pending (secret otpauthUri : String)
  | enabled (on : Bool)
  | proof (proof : String) (expiresAt : Time)
  | created (key : ApiKey) (raw : String)
  | keys (rows : List ApiKey)
  | noContent
  deriving DecidableEq, Repr

variable (oidc : Oidc) (settings : Settings)

/-! ## Sign-on -/

def stateTtlSeconds : ℕ := 600

def codeTtlSeconds : ℕ := 60

/-- Only errors of sign-on are caught. -/
def onOidcError {α : Type} (body : Action α) (caught : String → Action α) : Action α :=
  tryCatch body fun e =>
    match e with
    | .oidcError detail => caught detail
    | e => throw e

def oidcAuthorize : Action Response := do
  let (state, nonce, url) ← onOidcError (do
      let state : String ← ask .token
      let nonce : String ← ask .token
      let url ← authorizationUrl oidc settings state nonce
      pure (state, nonce, url))
    fun detail => throw (.http 404 detail)
  ask .pruneStores
  let now : Time ← ask .now
  ask (.setState state { nonce := nonce, expiresAt := now + seconds stateTtlSeconds })
  pure (.redirect url)

/-- Back to the frontend, with an error. -/
def refused (error : String) : Action Response :=
  pure (.redirect (settings.oidcFrontendRedirect ++ "?error=" ++ error))

def oidcCallback (code state error : Option String) : Action Response := do
  if (error.getD "") ≠ "" then
    return ← refused settings (oidc.urlencode [("error", error.getD "")])
  let entry : Option StateEntry ← ask (.popState (state.getD ""))
  match entry with
  | none => refused settings "invalid_state"
  | some entry =>
    let now : Time ← ask .now
    if entry.expiresAt < now then return ← refused settings "state_expired"
    if (code.getD "") = "" then return ← refused settings "missing_code"
    let claims ← onOidcError (do
        let idToken ← exchangeCode settings (code.getD "")
        match idToken with
        | .str idToken =>
          let claims ← verifyIdToken oidc settings idToken (some entry.nonce)
          pure (some claims)
        | _ => throw (.exception "object has no attribute 'split'"))
      fun _ => pure none
    match claims with
    | none => refused settings "exchange_failed"
    | some claims =>
      match mapOidcRole settings claims.roles with
      | none => refused settings "role_denied"
      | some role =>
        let exchange : String ← ask .token
        ask .pruneStores
        let now : Time ← ask .now
        ask (.setCode exchange {
          sub := claims.sub
          name := Py.orElse claims.name (Py.orElse claims.email claims.sub)
          email := claims.email, role := role
          expiresAt := now + seconds codeTtlSeconds })
        pure (.redirect (settings.oidcFrontendRedirect ++ "?" ++ oidc.urlencode [("code", exchange)]))

def oidcExchange (code : String) : Action Response := do
  let entry : Option CodeEntry ← ask (.popCode code)
  match entry with
  | none => throw (.http 401 "Invalid or expired exchange code")
  | some entry =>
    let now : Time ← ask .now
    if entry.expiresAt < now then throw (.http 401 "Invalid or expired exchange code")
    let made : String × OperatorSession ← ask (.createSession {
      name := entry.name, role := entry.role, tenantId := entry.tenantId
      idpSub := some entry.sub, authMethod := "oidc" })
    ask (.audit {
      action := "auth.oidc_login", resourceType := "operator_session"
      resourceId := some made.2.id, actorType := "operator_session", actorId := some made.2.id
      details := [("idp_sub", entry.sub), ("role", entry.role)] })
    pure (.session made.1 made.2)

/-! ## The second factor -/

/-- The drifts that a code is tried with. -/
def drifts : List ℤ := [-1, 0, 1]

/-- The loop of `verify_totp`; each round reads the clock. -/
def tryDrifts (secret code : String) : List ℤ → Action Bool
  | [] => pure false
  | drift :: rest => do
    let now : Time ← ask .now
    match Totp.totpCode oidc.toExternals secret drift now with
    | none => throw (.exception "Incorrect padding")
    | some expected =>
      match Totp.compareDigest expected code with
      | none => throw (.exception "comparing strings with non-ASCII characters is not supported")
      | some true => pure true
      | some false => tryDrifts secret code rest

def verifyTotp (secret code : String) : Action Bool :=
  let code := Py.strip code
  if ¬ Totp.isdigit oidc.toExternals code ∨ code.length ≠ Totp.digits then pure false
  else tryDrifts oidc secret code drifts

/-- `decrypt_secret` of what is stored, in the routes. -/
def decryptStored (stored : String) : Action String :=
  tryCatch (ask (.decrypt stored)) fun e =>
    if e.isException then
      throw (.http 500 "Stored MFA secret cannot be decrypted (master key rotated?)")
    else throw e

def mfaStatus (cred : Credentials) : Action Response := do
  let principal ← getPrincipal oidc settings cred
  let record : Option ApiKey ← ask (.keyById principal.keyId)
  match record with
  | none => pure (.mfaStatus false true)
  | some record => pure (.mfaStatus record.mfaEnabled false)

/-- What `Depends(require_operator)` gives. -/
def operatorPrincipal (cred : Credentials) : Action Principal := do
  let principal ← getPrincipal oidc settings cred
  requireOperator principal
  pure principal

def mfaSetup (cred : Credentials) : Action Response := do
  let principal ← operatorPrincipal oidc settings cred
  let record : Option ApiKey ← ask (.keyById principal.keyId)
  if record.isNone then
    throw (.http 400 "MFA is managed by the identity provider for this session")
  let token : List ℕ ← ask .tokenBytes
  let secret := Totp.generateSecret token
  let encrypted : String ← tryCatch (ask (.encrypt secret)) fun e =>
    match e with
    | .keyUnavailable _ =>
      throw (.http 503 "Secret encryption unavailable (master key not provisioned)")
    | e => throw e
  let _ : Bool ← ask (.updateMfa principal.keyId (some encrypted) false)
  let account := principal.name ++ " (" ++ String.ofList (principal.keyId.toList.take 8) ++ ")"
  pure (.pending secret (oidc.otpauthUri secret account settings.mfaIssuer))

def mfaConfirm (cred : Credentials) (code : String) : Action Response := do
  let principal ← operatorPrincipal oidc settings cred
  let record : Option ApiKey ← ask (.keyById principal.keyId)
  match (record.bind (·.mfaSecret)).filter (· ≠ "") with
  | none => throw (.http 400 "No pending MFA enrollment; call /auth/mfa/setup first")
  | some stored =>
    let pending ← decryptStored stored
    if ¬ (← verifyTotp oidc pending code) then throw (.http 403 "Invalid TOTP code")
    let _ : Bool ← ask (.updateMfa principal.keyId (some stored) true)
    ask (.audit {
      action := "mfa.enabled", resourceType := "api_key", resourceId := some principal.keyId
      actorType := "api_key", actorId := some principal.keyId })
    pure (.enabled true)

def mfaProof (cred : Credentials) (code : String) : Action Response := do
  let principal ← operatorPrincipal oidc settings cred
  let record : Option ApiKey ← ask (.keyById principal.keyId)
  match ((record.filter (·.mfaEnabled)).bind (·.mfaSecret)).filter (· ≠ "") with
  | none => throw (.http 400 "MFA is not enabled for this key")
  | some stored =>
    let secret ← decryptStored stored
    if ¬ (← verifyTotp oidc secret code) then throw (.http 403 "Invalid TOTP code")
    let now : Time ← ask .now
    let expires := now + seconds settings.mfaProofTtlSeconds
    let proof ← signMfaProof oidc settings principal.keyId (expires / 1000000 : ℕ)
    pure (.proof proof expires)

def mfaDisable (cred : Credentials) : Action Response := do
  let principal ← operatorPrincipal oidc settings cred
  let record : Option ApiKey ← ask (.keyById principal.keyId)
  if ¬ record.any (·.mfaEnabled) then
    let _ : Bool ← ask (.updateMfa principal.keyId none false)
    return .enabled false
  if cred.mfaProof = "" then throw (.http 403 "mfa_required")
  if ¬ (← verifyMfaProof oidc settings cred.mfaProof principal.keyId) then
    throw (.http 403 "mfa_required")
  let _ : Bool ← ask (.updateMfa principal.keyId none false)
  ask (.audit {
    action := "mfa.disabled", resourceType := "api_key", resourceId := some principal.keyId
    actorType := "api_key", actorId := some principal.keyId })
  pure (.enabled false)

/-! ## Keys -/

/-- What the dependencies of the routes of keys give. -/
def keyManager (cred : Credentials) : Action Principal := do
  let principal ← getPrincipal oidc settings cred
  requirePermission principal "api_keys:manage"
  pure principal

/-- The tenant a new key is bound to. -/
def effectiveTenant (principal : Principal) (request : ApiKeyCreateRequest) :
    Action (Option String) :=
  match principal.tenantId with
  | none => pure request.tenantId
  | some tenant => do
    if request.tenantId.isSome ∧ request.tenantId ≠ some (Py.Uuid.str tenant) then
      throw (.http 403 "Delegated admin can only create keys for their own tenant")
    if request.role = superAdmin then
      throw (.http 403 "Delegated admin cannot create super_admin keys")
    pure (some (Py.Uuid.str tenant))

def createApiKey (cred : Credentials) (request : ApiKeyCreateRequest) : Action Response := do
  let principal ← keyManager oidc settings cred
  requireMfaProof oidc settings cred principal
  if request.role ∉ allRoles then
    throw (.http 422 "role must be one of: super_admin, tenant_admin, operator, auditor")
  let tenantId ← effectiveTenant principal request
  let token : String ← ask .token
  let raw := keyPrefix ++ token
  let record : ApiKey ← ask (.createKey {
    name := request.name, keyHash := oidc.sha256 raw, role := request.role
    tenantId := tenantId, expiresAt := request.expiresAt })
  ask (.audit {
    action := "api_key.created", resourceType := "api_key", resourceId := some record.id
    tenantId := record.tenantId, actorType := "api_key", actorId := some principal.keyId
    details := [("name", request.name), ("role", request.role)] })
  pure (.created record raw)

def listApiKeys (cred : Credentials) : Action Response := do
  let principal ← keyManager oidc settings cred
  let rows : List ApiKey ← ask .listKeys
  match principal.tenantId with
  | none => pure (.keys rows)
  | some tenant => pure (.keys (rows.filter fun r => r.tenantId = some (Py.Uuid.str tenant)))

def revokeApiKey (cred : Credentials) (keyId : String) : Action Response := do
  let principal ← keyManager oidc settings cred
  requireMfaProof oidc settings cred principal
  let rows : List ApiKey ← ask .listKeys
  match rows.find? fun r => r.id = keyId with
  | none => throw (.http 404 ("API key not found: " ++ keyId))
  | some target =>
    if principal.tenantId.any fun tenant => target.tenantId ≠ some (Py.Uuid.str tenant) then
      throw (.http 403 "Delegated admin can only revoke keys of their own tenant")
    let revoked : Bool ← ask (.revokeKey keyId)
    if ¬ revoked then throw (.http 404 ("API key not found: " ++ keyId))
    ask (.audit {
      action := "api_key.revoked", resourceType := "api_key", resourceId := some keyId
      actorType := "api_key", actorId := some principal.keyId })
    pure .noContent

def handle : Request → Action Response
  | .oidcAuthorize => oidcAuthorize oidc settings
  | .oidcCallback code state error => oidcCallback oidc settings code state error
  | .oidcExchange code => oidcExchange code
  | .mfaStatus cred => mfaStatus oidc settings cred
  | .mfaSetup cred => mfaSetup oidc settings cred
  | .mfaConfirm cred code => mfaConfirm oidc settings cred code
  | .mfaProof cred code => mfaProof oidc settings cred code
  | .mfaDisable cred => mfaDisable oidc settings cred
  | .createApiKey cred request => createApiKey oidc settings cred request
  | .listApiKeys cred => listApiKeys oidc settings cred
  | .revokeApiKey cred keyId => revokeApiKey oidc settings cred keyId

abbrev Outcome := Except Raised Response × Unit

/-- The task of a request. -/
def serve (request : Request) : Tree Calls Raised Outcome := handle oidc settings request ()

end AgentStudio.Access
