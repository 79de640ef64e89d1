import AgentStudio.Access.Store

/-!
# What a request has to show

Whatever a request does to the rows or to the stores of the login flow follows from the answers
it was given before. `Licensed` says from which, one case for each kind of call, and `licensed`
that every route keeps to it.
-/

namespace AgentStudio.Access

open Async

abbrev Answers := Trace Calls Raised

/-- The call was answered so. -/
def Answered (t : Answers) (op : Op) (a : op.Answer) : Prop :=
  (⟨op, .ok a⟩ : Event Calls Raised) ∈ t

/-- What a request does, beside reading, noting and tidying. -/
def Op.acts : Op → Bool
  | createKey _ | updateMfa .. | revokeKey _ | createSession _ | setState .. | popState _
  | setCode .. | popCode _ => true
  | _ => false

/-- What was done, in order. -/
def done (t : Answers) : List Op := (t.filter (·.op.acts)).map (·.op)

/-- The calls went on from `t`, and did nothing. -/
structure Quietly (t t' : Answers) : Prop where
  grown : t <+: t'
  done : done t' = done t

variable (oidc : Oidc) (settings : Settings)

/-- How a request got its principal. -/
inductive Authenticated (cred : Credentials) (t : Answers) : Principal → Prop
  | development (off : settings.authEnabled = false) : Authenticated cred t development
  | apiKey (raw : String) (row : ApiKey) (given : cred.apiKey = some raw)
      (read : Answered t (.keyByHash (oidc.sha256 raw)) (some row)) (live : row.revoked = false)
      (fresh : ∀ expires, row.expiresAt = some expires → ∃ now : Time, Answered t .now now ∧ now ≤ expires) :
      Authenticated cred t (row.principal (tenantOf row.tenantId))
  | session (token : String) (row : OperatorSession)
      (bearer : (afterStart "Bearer " cred.authorization).map Py.strip = some token)
      (marked : (afterStart operatorTokenPrefix token).isSome)
      (read : Answered t (.sessionByHash (oidc.sha256 token)) (some row))
      (live : row.revokedAt = none) (fresh : ∃ now : Time, Answered t .now now ∧ now ≤ row.expiresAt) :
      Authenticated cred t (row.principal (tenantOf row.tenantId))

/-- The key that proof tokens are signed with, as it was read. -/
def SigningKey (t : Answers) (key : List ℕ) : Prop :=
  (∃ text, settings.mfaSigningKey = some text ∧ key = text.toUTF8.toList.map UInt8.toNat) ∨
    Answered t .signingKeyFile key

/-- The request carries the proof token of its key, and the second the token names is not past,
and no further off than a proof may live. -/
def Proven (cred : Credentials) (keyId : String) (t : Answers) : Prop :=
  ∃ (key : List ℕ) (expires : ℤ) (now : Time), SigningKey settings t key ∧ Answered t .now now ∧
    cred.mfaProof = mfaProofText oidc key keyId expires ∧
      (∃ second signature, Py.split '.' cred.mfaProof = [keyId, second, signature]) ∧
      (now : ℤ) ≤ expires * 1000000 ∧
        expires * 1000000 ≤ now + seconds settings.mfaProofTtlSeconds

/-- The second factor was asked for where the key has one. -/
def Passed (cred : Credentials) (keyId : String) (t : Answers) : Prop :=
  ∃ record : Option ApiKey, Answered t (.keyById keyId) record ∧
    (record.any (·.mfaEnabled) = true → Proven oidc settings cred keyId t)

/-- The code is that of the secret, at the step of a clock reading or beside it. -/
def Accepted (secret code : String) (t : Answers) : Prop :=
  ∃ drift ∈ drifts, ∃ now : Time, Answered t .now now ∧
    Totp.totpCode oidc.toExternals secret drift now = some (Py.strip code)

/-- The signature over header and payload holds. -/
inductive Signed (header : List (String × Json)) (content signature : String) (t : Answers) : Prop
  | rs256 (keys : List Jwk) (n e : String)
      (algorithm : (Json.field header "alg").isText "RS256") (read : Answered t .jwks keys)
      (chosen : signingKey keys (Json.field header "kid") = some (n, e))
      (valid : oidc.verifyRs256 n e signature content)
  | hs256 (secret : String) (algorithm : (Json.field header "alg").isText "HS256")
      (given : settings.oidcClientSecret = some secret)
      (valid : oidc.verifyHs256 secret signature content)

/-- The claims hold now, are of this provider for this client, and answer this login. -/
structure Claimed (payload : List (String × Json)) (nonce : String) (claims : IdTokenClaims)
    (t : Answers) : Prop where
  clock : ∃ now : Time, Answered t .now now ∧
    (Json.field payload "exp").isBelow (now / 1000000) = some false ∧
      (Json.field payload "iat").isAbove (now / 1000000 + clockSkewSeconds) = some false
  issuer : ∃ document : Discovery, Answered t .discovery document ∧
    (Json.field payload "iss").isText document.issuer
  audience : (Json.field payload "aud").names (settings.oidcClientId.getD "")
  nonce : (Json.field payload "nonce").isText nonce
  sub : (Json.field payload "sub").truthy ∧ claims.sub = toText oidc (Json.field payload "sub")
  roles : claims.roles = extractRoles oidc (Json.field payload settings.oidcRoleClaim)

/-- The token was checked, against this nonce. -/
def Checked (idToken nonce : String) (claims : IdTokenClaims) (t : Answers) : Prop :=
  ∃ headerPart payloadPart signature header payload,
    Py.split '.' idToken = [headerPart, payloadPart, signature] ∧
      oidc.decodeJson headerPart = some (.obj header) ∧
        oidc.decodeJson payloadPart = some (.obj payload) ∧
          Signed oidc settings header (headerPart ++ "." ++ payloadPart) signature t ∧
            Claimed oidc settings payload nonce claims t

/-- The state was still open, and a token that was checked against its nonce is of this subject
and has the role. -/
def Identified (opened : StateEntry) (entry : CodeEntry) (t : Answers) : Prop :=
  ∃ (returned : Time) (idToken : String) (claims : IdTokenClaims) (now : Time),
    Answered t .now returned ∧ returned ≤ opened.expiresAt ∧
      Checked oidc settings idToken opened.nonce claims t ∧
        entry.sub = claims.sub ∧ mapOidcRole settings claims.roles = some entry.role ∧
          entry.tenantId = none ∧
            Answered t .now now ∧ entry.expiresAt = now + seconds codeTtlSeconds

/-- The login that a one-time code is for. -/
def LoggedIn (state : Option String) (entry : CodeEntry) (t : Answers) : Prop :=
  ∃ opened : StateEntry, Answered t (.popState (state.getD "")) (some opened) ∧
    Identified oidc settings opened entry t

/-- A new key is within what its maker may give. -/
structure Granted (principal : Principal) (request : ApiKeyCreateRequest) (key : NewKey) : Prop where
  permitted : principal.hasPermission "api_keys:manage"
  role : key.role = request.role ∧ request.role ∈ allRoles
  expires : key.expiresAt = request.expiresAt
  unbound : principal.tenantId = none → key.tenantId = request.tenantId
  bound : ∀ tenant, principal.tenantId = some tenant →
    key.tenantId = some (Py.Uuid.str tenant) ∧ key.role ≠ superAdmin

/-- What the answers before a call have to be. -/
def Licensed (request : Request) (t : Answers) : Op → Prop
  | .setState _ entry => request = .oidcAuthorize ∧ done t = [] ∧
      Answered t .token entry.nonce ∧
        ∃ now : Time, Answered t .now now ∧ entry.expiresAt = now + seconds stateTtlSeconds
  | .popState state => done t = [] ∧
      ∃ code given error, request = .oidcCallback code given error ∧ state = given.getD ""
  | .setCode _ entry => ∃ code state error, request = .oidcCallback code state error ∧
      done t = [.popState (state.getD "")] ∧ LoggedIn oidc settings state entry t
  | .popCode code => done t = [] ∧ request = .oidcExchange code
  | .createSession session => ∃ (code : String) (entry : CodeEntry) (now : Time), request = .oidcExchange code ∧
      done t = [.popCode code] ∧ Answered t (.popCode code) (some entry) ∧
        Answered t .now now ∧ now ≤ entry.expiresAt ∧
          session = ⟨entry.name, entry.role, entry.tenantId, some entry.sub, "oidc"⟩
  | .createKey key => ∃ cred asked principal, request = .createApiKey cred asked ∧ done t = [] ∧
      Authenticated oidc settings cred t principal ∧ Passed oidc settings cred principal.keyId t ∧
        Granted principal asked key
  | .revokeKey id => ∃ cred principal, request = .revokeApiKey cred id ∧ done t = [] ∧
      Authenticated oidc settings cred t principal ∧ Passed oidc settings cred principal.keyId t ∧
        principal.hasPermission "api_keys:manage" ∧
          ∃ (rows : List ApiKey) (row : ApiKey), Answered t .listKeys rows ∧ row ∈ rows ∧ row.id = id ∧
            ∀ tenant, principal.tenantId = some tenant → row.tenantId = some (Py.Uuid.str tenant)
  | .updateMfa id secret enabled => done t = [] ∧ ∃ cred principal, id = principal.keyId ∧
      Authenticated oidc settings cred t principal ∧
        ((∃ (token : List ℕ) (encrypted : String), request = .mfaSetup cred ∧
            secret = some encrypted ∧ enabled = false ∧ Answered t .tokenBytes token ∧
              Answered t (.encrypt (Totp.generateSecret token)) encrypted) ∨
          (∃ (code stored pending : String) (record : ApiKey), request = .mfaConfirm cred code ∧
            secret = some stored ∧ enabled = true ∧ Answered t (.keyById id) (some record) ∧
              record.mfaSecret = some stored ∧ Answered t (.decrypt stored) pending ∧
                Accepted oidc pending code t) ∨
          request = .mfaDisable cred ∧ secret = none ∧ enabled = false ∧
            Passed oidc settings cred id t)
  | _ => True

end AgentStudio.Access
