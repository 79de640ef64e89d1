import AgentStudio.Access.Calls

/-!
# Sign-on

`modules/sso/oidc.py`: the address a login begins at, the exchange of a code, and what is
checked of an identity token before its roles count.
-/

namespace AgentStudio.Access

open Async

/-- The library functions that sign-on calls: base 64 and JSON, signatures, and text forms. -/
structure Oidc extends Externals where
  /-- `json.loads(_b64url_decode(part))`; `none` is a `ValueError`. -/
  decodeJson : String → Option Json
  /-- PKCS #1 v1.5 with SHA-256: modulus, exponent, signature, content. -/
  verifyRs256 : String → String → String → String → Bool
  /-- HMAC with SHA-256: secret, signature, content. -/
  verifyHs256 : String → String → String → Bool
  /-- `str` of what is not a text. -/
  repr : Json → String := fun _ => ""
  urlencode : List (String × String) → String
  otpauthUri : String → String → String → String := fun _ _ _ => ""

namespace Json

/-- `bool(value)`. -/
def truthy : Json → Bool
  | null => false
  | bool b => b
  | num q => q ≠ 0
  | nan | inf _ => true
  | str s => s ≠ ""
  | arr items => !items.isEmpty
  | obj items => !items.isEmpty

def field (items : List (String × Json)) (key : String) : Json :=
  ((items.find? fun e => e.1 = key).map Prod.snd).getD null

/-- `payload.get(key)`. -/
def get (j : Json) (key : String) : Action Json :=
  match j with
  | obj items => pure (field items key)
  | _ => throw (.exception "object has no attribute 'get'")

/-- `value < bound` for a number; `none` where it is none. -/
def isBelow (bound : ℚ) : Json → Option Bool
  | num q => some (q < bound)
  | bool b => some ((if b then 1 else 0 : ℚ) < bound)
  | nan => some false
  | inf negative => some negative
  | _ => none

/-- `value > bound` for a number. -/
def isAbove (bound : ℚ) : Json → Option Bool
  | num q => some (bound < q)
  | bool b => some (bound < (if b then 1 else 0 : ℚ))
  | nan => some false
  | inf negative => some (!negative)
  | _ => none

def isText (s : String) : Json → Bool
  | str t => t = s
  | _ => false

/-- The text of a claim that is one. -/
def text? : Json → Option String
  | str s => some s
  | _ => none

end Json

structure IdTokenClaims where
  sub : String
  email : Option String
  name : Option String
  roles : List String
  deriving DecidableEq, Repr

variable (oidc : Oidc) (settings : Settings)

def toText : Json → String
  | .str s => s
  | j => oidc.repr j

def extractRoles (raw : Json) : List String :=
  match raw with
  | .str s => ((Py.split ',' s).map Py.strip).filter (· ≠ "")
  | .arr items => (items.filter Json.truthy).map (toText oidc)
  | _ => []

def priority (role : String) : ℕ :=
  match role with
  | "super_admin" => 4
  | "tenant_admin" => 3
  | "operator" => 2
  | "auditor" => 1
  | _ => 0

def mapOidcRole (roles : List String) : Option String :=
  settings.oidcRoleMap.foldl (fun best entry =>
    if entry.1 ∈ roles ∧
        (best.isNone ∨ priority entry.2 > (best.map priority).getD 0) then some entry.2
    else best) none

def requireConfigured : Action Unit := do
  if ¬ settings.oidcEnabled ∨ (settings.oidcDiscoveryUrl.getD "") = "" then
    throw (.oidcError "OIDC SSO is not configured on this deployment")
  if (settings.oidcClientId.getD "") = "" then throw (.oidcError "OIDC_CLIENT_ID is not set")

def discovery : Action Discovery := do
  requireConfigured settings
  ask .discovery

def authorizationUrl (state nonce : String) : Action String := do
  let document ← discovery settings
  pure (document.authorizationEndpoint ++ "?" ++ oidc.urlencode [
    ("response_type", "code"),
    ("client_id", settings.oidcClientId.getD ""),
    ("redirect_uri", settings.oidcRedirectUri.getD ""),
    ("scope", settings.oidcScopes),
    ("state", state),
    ("nonce", nonce)])

/-- The identity token of a code. -/
def exchangeCode (code : String) : Action Json := do
  let _ ← discovery settings
  if (settings.oidcClientSecret.getD "") = "" then
    throw (.oidcError "OIDC_CLIENT_SECRET is not set")
  let body : Json ← ask (.tokenEndpoint code)
  let idToken ← body.get "id_token"
  if ¬ idToken.truthy then throw (.oidcError "OIDC token response missing id_token")
  pure idToken

/-- The first RSA key that the token may be signed with. -/
def signingKey (keys : List Jwk) (kid : Json) : Option (String × String) :=
  (keys.find? fun candidate =>
    candidate.kty = some "RSA" ∧ (kid == .null ∨ candidate.kid.getD .null == kid) ∧
      candidate.n.isSome ∧ candidate.e.isSome).map fun candidate =>
    (candidate.n.getD "", candidate.e.getD "")

def checkRs256 (signature content : String) (kid : Json) : Action Unit := do
  requireConfigured settings
  let keys : List Jwk ← ask .jwks
  match signingKey keys kid with
  | none => throw (.oidcError "no matching RSA JWK for id_token kid")
  | some (n, e) =>
    if ¬ oidc.verifyRs256 n e signature content then
      throw (.oidcError "id_token signature invalid")

def checkHs256 (signature content : String) : Action Unit := do
  let secret := settings.oidcClientSecret.getD ""
  if secret = "" then throw (.oidcError "HS256 id_token requires OIDC_CLIENT_SECRET")
  if ¬ oidc.verifyHs256 secret signature content then
    throw (.oidcError "id_token signature invalid")

/-- A text names itself, and a container what is in it. -/
def Json.names (clientId : String) : Json → Bool
  | .str s => s = clientId
  | .arr items => items.any (Json.isText clientId)
  | .obj items => items.any fun e => e.1 = clientId
  | _ => false

/-- `OIDC_CLIENT_ID in (audience or [])`, for a text a list of it. -/
def inAudience (clientId : String) (audience : Json) : Action Bool :=
  match audience with
  | .num _ | .bool _ | .nan | .inf _ =>
    if audience.truthy then throw (.exception "argument is not iterable") else pure false
  | audience => pure (audience.names clientId)

def clockSkewSeconds : ℕ := 300

/-- What is checked of the claims once the signature is. -/
def checkClaims (payload : Json) (expectedNonce : Option String) : Action IdTokenClaims := do
  let now : Time ← ask .now
  let exp ← payload.get "exp"
  let iat ← payload.get "iat"
  if exp.isBelow (now / 1000000) ≠ some false then throw (.oidcError "id_token expired")
  if iat.isAbove (now / 1000000 + clockSkewSeconds) ≠ some false then
    throw (.oidcError "id_token issued in the future")
  let document ← discovery settings
  if ¬ (← payload.get "iss").isText document.issuer then
    throw (.oidcError "id_token issuer mismatch")
  if ¬ (← inAudience (settings.oidcClientId.getD "") (← payload.get "aud")) then
    throw (.oidcError "id_token audience mismatch")
  let nonce ← payload.get "nonce"
  if expectedNonce.any fun expected => !nonce.isText expected then
    throw (.oidcError "id_token nonce mismatch")
  let sub ← payload.get "sub"
  if ¬ sub.truthy then throw (.oidcError "id_token missing sub")
  pure {
    sub := toText oidc sub
    email := (← payload.get "email").text?
    name := (← payload.get "name").text?
    roles := extractRoles oidc (← payload.get settings.oidcRoleClaim) }

def verifyIdToken (idToken : String) (expectedNonce : Option String) : Action IdTokenClaims := do
  match Py.split '.' idToken with
  | [headerPart, payloadPart, signature] =>
    match oidc.decodeJson headerPart, oidc.decodeJson payloadPart with
    | some header, some payload =>
      let content := headerPart ++ "." ++ payloadPart
      let algorithm ← header.get "alg"
      if algorithm.isText "RS256" then
        checkRs256 oidc settings signature content (← header.get "kid")
      else if algorithm.isText "HS256" then checkHs256 oidc settings signature content
      else throw (.oidcError ("unsupported id_token alg '" ++ toText oidc algorithm ++
        "' (support: RS256, HS256)"))
      checkClaims oidc settings payload expectedNonce
    | _, _ => throw (.oidcError "id_token not JSON")
  | _ => throw (.oidcError "malformed id_token")

end AgentStudio.Access
