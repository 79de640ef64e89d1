import AgentStudio.Access.Licences

/-!
# Keys that make keys

Over every interleaving of the routes, with tenants offboarded meanwhile: where each key comes
from, what a key of one tenant can bring about, and what is left of a key once it is revoked.

* `replies_moved`: for each part of the store, what any answer to any call can make of it.
* `keys_confined`: what a key bound to a tenant makes, by however many hands, stays bound to it.
* `revoked_for_good`: a revoked key stays so, and no later request is authenticated by it.
-/

namespace AgentStudio.Access

open Async

/-! ## What the calls do to the store -/

section

/-- What no statement changes of a row. -/
def ApiKey.core (row : ApiKey) : ApiKey :=
  { row with revoked := false, mfaSecret := none, mfaEnabled := false }

/-- The calls that take an entry out of one of the stores of the login flow. -/
def Op.pops : Op → Bool
  | popState _ | popCode _ => true
  | _ => false

/-- What a call can make of the store, whatever it answers. -/
inductive Moved (oidc : Oidc) (s : Store) : Op → Store → Prop
  | idle (op : Op) (keeps : op.pops = false) : Moved oidc s op s
  | createKey (key : NewKey) (id : String) (fresh : ∀ row ∈ s.keys, row.id ≠ id) :
      Moved oidc s (.createKey key) (s.createKey (key.row id))
  | updateMfa (id : String) (secret : Option String) (enabled : Bool) :
      Moved oidc s (.updateMfa id secret enabled) (s.updateMfa id secret enabled)
  | revokeKey (id : String) : Moved oidc s (.revokeKey id) (s.revokeKey id)
  | createSession (session : NewSession) (id token : String) (now : Time) :
      Moved oidc s (.createSession session)
        (s.createSession (session.row id (oidc.sha256 token) now))
  | prune (now : Time) : Moved oidc s .pruneStores (s.prune now)
  | setState (state : String) (entry : StateEntry) :
      Moved oidc s (.setState state entry) { s with states := s.states.set state entry }
  | popState (state : String) :
      Moved oidc s (.popState state) { s with states := s.states.erase state }
  | setCode (code : String) (entry : CodeEntry) :
      Moved oidc s (.setCode code entry) { s with codes := s.codes.set code entry }
  | popCode (code : String) : Moved oidc s (.popCode code) { s with codes := s.codes.erase code }

variable {oidc : Oidc} {settings : Settings} {row : ApiKey} {s s' : Store} {i : ℕ}
  {request : Request} {op : Op} {r : Except Raised op.Answer}

theorem Stated.store {α : Type} {r : Except Raised α} {a : α} {after : Store}
    (stated : Stated s r s' a after) : s' = s ∨ s' = after := by
  rcases stated with ⟨is, -⟩ | ⟨is, -⟩
  · exact .inr is
  · exact is

theorem Stated.answer {α : Type} {a b : α} {after : Store} (stated : Stated s (.ok b) s' a after) :
    b = a ∧ s' = after := by
  rcases stated with ⟨is, answered⟩ | ⟨-, e, failed⟩
  · cases answered
    exact ⟨rfl, is⟩
  · cases failed

theorem Stated.moved {α : Type} {r : Except Raised α} {a : α} {after : Store}
    (stated : Stated s r s' a after) (keeps : op.pops = false) (moved : Moved oidc s op after) :
    Moved oidc s op s' := by
  rcases stated.store with rfl | rfl
  · exact .idle op keeps
  · exact moved

theorem replies_moved (reply : Replies oidc settings i request op s r s') : Moved oidc s op s' := by
  cases op with
  | createKey key =>
    obtain ⟨id, fresh, stated⟩ := reply
    exact Stated.moved stated rfl (.createKey key id fresh)
  | updateMfa id secret enabled =>
    obtain ⟨found, stated⟩ := reply
    exact Stated.moved stated rfl (.updateMfa id secret enabled)
  | revokeKey id => exact Stated.moved reply rfl (.revokeKey id)
  | createSession session =>
    obtain ⟨id, token, now, -, stated⟩ := reply
    exact Stated.moved stated rfl (.createSession session id _ _)
  | keyByHash _ => exact Stated.moved reply rfl (.idle _ rfl)
  | keyById _ => exact Stated.moved reply rfl (.idle _ rfl)
  | listKeys => exact Stated.moved reply rfl (.idle _ rfl)
  | sessionByHash _ => exact Stated.moved reply rfl (.idle _ rfl)
  | pruneStores =>
    obtain ⟨now, rfl, -⟩ := reply
    exact .prune now
  | setState state entry =>
    obtain ⟨rfl, -⟩ := reply
    exact .setState state entry
  | popState state =>
    obtain ⟨rfl, -⟩ := reply
    exact .popState state
  | setCode code entry =>
    obtain ⟨rfl, -⟩ := reply
    exact .setCode code entry
  | popCode code =>
    obtain ⟨rfl, -⟩ := reply
    exact .popCode code
  | now | token | tokenBytes | acquire _ | audit _ | touch _ | encrypt _ | decrypt _
  | signingKeyFile | discovery | jwks | tokenEndpoint _ =>
    cases reply
    exact .idle _ rfl

/-! ### The rows of keys -/

@[simp] theorem core_row (key : NewKey) (id : String) : (key.row id).core = key.row id := rfl

theorem id_of_core {row row' : ApiKey} (same : row.core = row'.core) : row.id = row'.id := by
  have ids : row.core.id = row'.core.id := congrArg ApiKey.id same
  exact ids

theorem tenantId_of_core {row row' : ApiKey} (same : row.core = row'.core) :
    row.tenantId = row'.tenantId := by
  have tenants : row.core.tenantId = row'.core.tenantId := congrArg ApiKey.tenantId same
  exact tenants

theorem role_of_core {row row' : ApiKey} (same : row.core = row'.core) : row.role = row'.role := by
  have roles : row.core.role = row'.core.role := congrArg ApiKey.role same
  exact roles

/-- A statement that changes rows in place. -/
def InPlace (s s' : Store) : Prop :=
  ∃ f : ApiKey → ApiKey, s'.keys = s.keys.map f ∧
    ∀ row, (f row).core = row.core ∧ (row.revoked = true → (f row).revoked = true)

theorem inPlace_same (same : s'.keys = s.keys) : InPlace s s' :=
  ⟨id, by simp [same], fun _ => ⟨rfl, fun is => is⟩⟩

theorem inPlace_updateMfa (s : Store) (id : String) (secret : Option String) (enabled : Bool) :
    InPlace s (s.updateMfa id secret enabled) := by
  refine ⟨_, rfl, fun row => ?_⟩
  split
  · exact ⟨rfl, fun is => is⟩
  · exact ⟨rfl, fun is => is⟩

theorem inPlace_revokeKey (s : Store) (id : String) : InPlace s (s.revokeKey id) := by
  refine ⟨_, rfl, fun row => ?_⟩
  split
  · exact ⟨rfl, fun _ => rfl⟩
  · exact ⟨rfl, fun is => is⟩

theorem inPlace_others (moved : Others s s') : InPlace s s' := by
  obtain ⟨tenantId, rfl⟩ := moved
  refine ⟨_, rfl, fun row => ?_⟩
  split
  · exact ⟨rfl, fun _ => rfl⟩
  · exact ⟨rfl, fun is => is⟩

theorem InPlace.mem (inPlace : InPlace s s') (mem : row ∈ s'.keys) :
    ∃ old ∈ s.keys, row.core = old.core ∧ (old.revoked = true → row.revoked = true) := by
  obtain ⟨f, keys, kept⟩ := inPlace
  rw [keys] at mem
  obtain ⟨old, there, rfl⟩ := List.mem_map.mp mem
  exact ⟨old, there, (kept old).1, (kept old).2⟩

theorem InPlace.stays (inPlace : InPlace s s') (mem : row ∈ s.keys) :
    ∃ new ∈ s'.keys, new.core = row.core := by
  obtain ⟨f, keys, kept⟩ := inPlace
  exact ⟨f row, keys ▸ List.mem_map_of_mem mem, (kept row).1⟩

/-- All that a call can do to the rows of keys. -/
theorem Moved.keys (moved : Moved oidc s op s') :
    InPlace s s' ∨ ∃ key id, op = .createKey key ∧ (∀ row ∈ s.keys, row.id ≠ id) ∧
      s'.keys = s.keys ++ [key.row id] := by
  cases moved with
  | createKey key id fresh => exact .inr ⟨key, id, rfl, fresh, rfl⟩
  | updateMfa id secret enabled => exact .inl (inPlace_updateMfa s id secret enabled)
  | revokeKey id => exact .inl (inPlace_revokeKey s id)
  | _ => exact .inl (inPlace_same rfl)

/-! ### Sessions, states and codes -/

/-- All that a call can do to the rows of sessions. -/
theorem Moved.sessions (moved : Moved oidc s op s') :
    s'.sessions = s.sessions ∨ ∃ session id token expiresAt, op = .createSession session ∧
      s'.sessions = s.sessions ++ [session.row id (oidc.sha256 token) expiresAt] := by
  cases moved with
  | createSession session id token now => exact .inr ⟨session, id, token, now, rfl, rfl⟩
  | _ => exact .inl rfl

/-- What is left of a store was there, where entries are dropped. -/
theorem get?_pruned {ν : Type} {d : Py.Dict String ν} {past : ν → Prop} [DecidablePred past]
    {k : String} {v : ν}
    (there : (d.filterMap fun v => if past v then none else some v).get? k = some v) :
    d.get? k = some v := by
  rw [Py.Dict.get?_filterMap, Option.bind_eq_some_iff] at there
  obtain ⟨v', is, kept⟩ := there
  split at kept
  · cases kept
  · rw [is, kept]

/-- An entry of the states was there and is not taken, or is put. -/
theorem Moved.states (moved : Moved oidc s op s') {state : String} {entry : StateEntry}
    (there : s'.states.get? state = some entry) :
    op = .setState state entry ∨ op ≠ .popState state ∧ s.states.get? state = some entry := by
  cases moved with
  | setState state' entry' =>
    rw [Py.Dict.get?_set] at there
    split at there
    next is => exact .inl (by rw [is, Option.some.inj there])
    next => exact .inr ⟨by simp, there⟩
  | popState state' =>
    rw [Py.Dict.get?_erase] at there
    split at there
    next => cases there
    next other => exact .inr ⟨by simp [Ne.symm other], there⟩
  | prune now => exact .inr ⟨by simp, get?_pruned there⟩
  | idle _ keeps =>
    refine .inr ⟨?_, there⟩
    rintro rfl
    cases keeps
  | _ => exact .inr ⟨by simp, there⟩

/-- An entry of the codes was there and is not taken, or is put. -/
theorem Moved.codes (moved : Moved oidc s op s') {code : String} {entry : CodeEntry}
    (there : s'.codes.get? code = some entry) :
    op = .setCode code entry ∨ op ≠ .popCode code ∧ s.codes.get? code = some entry := by
  cases moved with
  | setCode code' entry' =>
    rw [Py.Dict.get?_set] at there
    split at there
    next is => exact .inl (by rw [is, Option.some.inj there])
    next => exact .inr ⟨by simp, there⟩
  | popCode code' =>
    rw [Py.Dict.get?_erase] at there
    split at there
    next => cases there
    next other => exact .inr ⟨by simp [Ne.symm other], there⟩
  | prune now => exact .inr ⟨by simp, get?_pruned there⟩
  | idle _ keeps =>
    refine .inr ⟨?_, there⟩
    rintro rfl
    cases keeps
  | _ => exact .inr ⟨by simp, there⟩

/-! ### Answers without a failure -/

/-- What the provider, the clock and the random source say, each always the same. -/
structure Says where
  now : Time
  token : String
  tokenBytes : List ℕ
  signingKey : List ℕ
  discovery : Discovery
  jwks : List Jwk
  body : Json

/-- The id of the next row. -/
def Store.nextId (s : Store) : String := "row-" ++ toString (s.keys.length + s.sessions.length)

/-- Every call is answered, and every statement takes effect. -/
def Says.answer (oidc : Oidc) (settings : Settings) (world : Says) (_ : ℕ) (_ : Request) :
    (op : Op) → Store → Except Raised op.Answer × Store
  | .now, s => (.ok world.now, s)
  | .token, s => (.ok world.token, s)
  | .tokenBytes, s => (.ok world.tokenBytes, s)
  | .acquire _, s => (.ok (), s)
  | .audit _, s => (.ok (), s)
  | .touch _, s => (.ok (), s)
  | .encrypt secret, s => (.ok secret, s)
  | .decrypt stored, s => (.ok stored, s)
  | .signingKeyFile, s => (.ok world.signingKey, s)
  | .discovery, s => (.ok world.discovery, s)
  | .jwks, s => (.ok world.jwks, s)
  | .tokenEndpoint _, s => (.ok world.body, s)
  | .keyByHash keyHash, s => (.ok (s.keys.find? (·.keyHash = keyHash)), s)
  | .keyById id, s => (.ok (s.keys.find? (·.id = id)), s)
  | .listKeys, s => (.ok s.keys.reverse, s)
  | .sessionByHash tokenHash, s => (.ok (s.sessions.find? (·.tokenHash = tokenHash)), s)
  | .createKey key, s => (.ok (key.row s.nextId), s.createKey (key.row s.nextId))
  | .updateMfa id secret enabled, s => (.ok (s.keys.any (·.id = id)), s.updateMfa id secret enabled)
  | .revokeKey id, s => (.ok (s.keys.any (·.id = id)), s.revokeKey id)
  | .createSession session, s =>
    let row := session.row s.nextId (oidc.sha256 (operatorTokenPrefix ++ world.token))
      (world.now + seconds settings.operatorSessionTtlSeconds)
    (.ok (operatorTokenPrefix ++ world.token, row), s.createSession row)
  | .pruneStores, s => (.ok (), s.prune world.now)
  | .setState state entry, s => (.ok (), { s with states := s.states.set state entry })
  | .popState state, s => (.ok (s.states.get? state), { s with states := s.states.erase state })
  | .setCode code entry, s => (.ok (), { s with codes := s.codes.set code entry })
  | .popCode code, s => (.ok (s.codes.get? code), { s with codes := s.codes.erase code })

/-- The next id is new. -/
def freshId (_ : ℕ) (_ : Request) (op : Op) (s : Store) : Bool :=
  match op with
  | .createKey _ => s.keys.all fun row => row.id ≠ s.nextId
  | .createSession _ => s.sessions.all fun row => row.id ≠ s.nextId
  | _ => true

theorem answer_allowed (world : Says) (i : ℕ) (request : Request) (op : Op) (s : Store)
    (fresh : freshId i request op s = true) :
    Replies oidc settings i request op s (world.answer oidc settings i request op s).1
      (world.answer oidc settings i request op s).2 := by
  cases op with
  | createKey key =>
    exact ⟨s.nextId, by simpa [freshId] using fresh, .inl ⟨rfl, rfl⟩⟩
  | createSession session =>
    exact ⟨s.nextId, world.token, world.now, by simpa [freshId] using fresh, .inl ⟨rfl, rfl⟩⟩
  | updateMfa id secret enabled => exact ⟨_, .inl ⟨rfl, rfl⟩⟩
  | pruneStores => exact ⟨world.now, rfl, rfl⟩
  | keyByHash _ | keyById _ | listKeys | sessionByHash _ | revokeKey _ => exact .inl ⟨rfl, rfl⟩
  | setState _ _ | popState _ | setCode _ _ | popCode _ => exact ⟨rfl, rfl⟩
  | now | token | tokenBytes | acquire _ | audit _ | touch _ | encrypt _ | decrypt _
  | signingKeyFile | discovery | jwks | tokenEndpoint _ => rfl

/-! ### A day

A delegated admin enrols a second factor, makes a key and revokes it, and an operator signs on. -/

def plainOidc : Oidc where
  sha256 := id
  hmacSha256 := fun _ _ => "m"
  hmacSha1 := fun _ _ => List.replicate 20 0
  decodeJson := fun part =>
    if part = "h" then some (.obj [("alg", .str "HS256")])
    else if part = "p" then some (.obj [("exp", .num 200), ("iat", .num 100), ("iss", .str "iss"),
      ("aud", .str "c"), ("nonce", .str "t"), ("sub", .str "u"), ("roles", .arr [.str "staff"])])
    else none
  verifyRs256 := fun _ _ _ _ => false
  verifyHs256 := fun _ _ _ => true
  urlencode := fun _ => ""

def plainSettings : Settings where
  oidcEnabled := true
  oidcDiscoveryUrl := some "d"
  oidcClientId := some "c"
  oidcClientSecret := some "s"
  oidcRoleMap := [("staff", operator)]
  mfaSigningKey := some "key"

def daySays : Says where
  now := seconds 100
  token := "t"
  tokenBytes := [0, 0, 0, 0, 0]
  signingKey := []
  discovery := ⟨"iss", "", "", ""⟩
  jwks := []
  body := .obj [("id_token", .str "h.p.s")]

/-- A delegated admin, and its tenant. -/
def adminKey : ApiKey where
  id := "k"
  name := "admin"
  keyHash := "raw"
  role := tenantAdmin
  tenantId := some (Py.Uuid.str 1)

def dayRequests : List Request :=
  let cred : Credentials := { apiKey := some "raw" }
  let proven : Credentials := { apiKey := some "raw", mfaProof := "k.160.m" }
  [.mfaSetup cred, .mfaConfirm cred "000000", .mfaProof cred "000000",
    .createApiKey proven { name := "new" }, .revokeApiKey proven "row-1",
    .oidcAuthorize, .oidcCallback (some "x") (some "t") none, .oidcExchange "t"]

def dayBegun : World := ⟨{ keys := [adminKey] }, []⟩

def dayStarted : World :=
  ⟨dayBegun.store, dayRequests.map fun r => ⟨r, [], serve plainOidc plainSettings r⟩⟩

def dayTurns : List ℕ := (List.range 8).flatMap fun i => List.replicate 14 i

def dayNotes : Calls.History :=
  Pool.noted (daySays.answer plainOidc plainSettings) dayStarted dayTurns

def dayEnded : World :=
  dayTurns.foldl (Pool.serve (daySays.answer plainOidc plainSettings)) dayStarted

theorem day_runs : Runs plainOidc plainSettings dayBegun dayNotes dayEnded :=
  Pool.recorded_checked (answer_allowed daySays) (Pool.recorded_starts .init dayRequests) dayTurns
    (by decide +kernel)

theorem day_begins : Begins dayBegun := ⟨rfl, rfl, rfl, rfl⟩

end

section
variable (oidc : Oidc) (settings : Settings)

/-- After the calls before it, this one made the key, for this principal. -/
def MadeBy (pre : Calls.History) (e : Stamp Request Calls Raised) (row : ApiKey)
    (principal : Principal) : Prop :=
  ∃ cred asked key id, e.call = .createApiKey cred asked ∧ e.op = .createKey key ∧
    row.core = key.row id ∧ Authenticated oidc settings cred (History.own pre e.number) principal ∧
      Passed oidc settings cred principal.keyId (History.own pre e.number) ∧
        Granted principal asked key

/-- The keys that made this one, the last maker first, back to one that was there before or to
an operator who had signed on. Each was read before it made the next. -/
inductive Lineage (init : Store) : Calls.History → ApiKey → List ApiKey → Prop
  | old (h : Calls.History) (row old : ApiKey) (there : old ∈ init.keys)
      (same : row.core = old.core) : Lineage init h row []
  | signedOn (pre post : Calls.History) (e : Stamp Request Calls Raised) (row : ApiKey)
      (session : OperatorSession)
      (made : MadeBy oidc settings pre e row (session.principal (tenantOf session.tenantId))) :
      Lineage init (pre ++ e :: post) row []
  | made (pre post : Calls.History) (e : Stamp Request Calls Raised) (row maker : ApiKey)
      (chain : List ApiKey)
      (made : MadeBy oidc settings pre e row (maker.principal (tenantOf maker.tenantId)))
      (before : Lineage init pre maker chain) : Lineage init (pre ++ e :: post) row (maker :: chain)

end

variable {oidc : Oidc} {settings : Settings} {init : Store} {h : Calls.History} {row : ApiKey}
  {chain : List ApiKey} {s s' : Store}

/-! ## Where a key comes from -/

theorem tenantOf_str {tenant : Uuid} (fits : tenant < 2 ^ 128) :
    tenantOf (some (Py.Uuid.str tenant)) = some tenant := by
  have parsed := Py.Uuid.parse_str fits
  have given : Py.Uuid.str tenant ≠ "" := by
    have nothing : Py.Uuid.parse "" = none := by decide
    intro empty
    rw [empty, nothing] at parsed
    cases parsed
  simp [tenantOf, Option.filter, given, parsed]

theorem tenantOf_lt {tenantId : Option String} {tenant : Uuid}
    (is : tenantOf tenantId = some tenant) : tenant < 2 ^ 128 := by
  obtain ⟨text, -, parsed⟩ := Option.bind_eq_some_iff.mp is
  exact Py.Uuid.parse_lt parsed

/-- The answer to this call holds the row. -/
def Gives (e : Stamp Request Calls Raised) (row : ApiKey) : Prop :=
  (∃ keyHash, e.event = ⟨.keyByHash keyHash, .ok (some row)⟩) ∨
    (∃ id, e.event = ⟨.keyById id, .ok (some row)⟩) ∨
      ∃ rows : List ApiKey, e.event = ⟨.listKeys, .ok rows⟩ ∧ row ∈ rows

/-- The row was given in this history. -/
def Known (h : Calls.History) (row : ApiKey) : Prop := ∃ e ∈ h, Gives e row

theorem known_snoc {e : Stamp Request Calls Raised} (known : Known (h ++ [e]) row) :
    Known h row ∨ Gives e row := by
  obtain ⟨e', mem, gives⟩ := known
  rcases List.mem_append.mp mem with mem | mem
  · exact .inl ⟨e', mem, gives⟩
  · exact .inr (List.mem_singleton.mp mem ▸ gives)

theorem known_of_answered {i : ℕ} {keyHash : String}
    (read : Answered (History.own h i) (.keyByHash keyHash) (some row)) : Known h row := by
  obtain ⟨e, mem, -, is⟩ := mem_own.mp read
  exact ⟨e, mem, .inl ⟨keyHash, is⟩⟩

/-- A row that was just given stands in the store. -/
theorem Gives.stands {e : Stamp Request Calls Raised} (gives : Gives e row)
    (reply : Replies oidc settings e.number e.call e.op s e.reply s') : row ∈ s.keys := by
  obtain ⟨number, call, op, r⟩ := e
  rcases gives with ⟨keyHash, is⟩ | ⟨id, is⟩ | ⟨rows, is, mem⟩
  · cases is
    exact List.mem_of_find?_eq_some (Stated.answer reply).1.symm
  · cases is
    exact List.mem_of_find?_eq_some (Stated.answer reply).1.symm
  · cases is
    rw [(Stated.answer reply).1] at mem
    exact List.mem_reverse.mp mem

theorem Lineage.of_core (lineage : Lineage oidc settings init h row chain) {row' : ApiKey}
    (same : row'.core = row.core) : Lineage oidc settings init h row' chain := by
  cases lineage with
  | old h row old there is => exact .old h row' old there (same.trans is)
  | signedOn pre post e row session made =>
    obtain ⟨cred, asked, key, id, call, op, is, rest⟩ := made
    exact .signedOn pre post e row' session ⟨cred, asked, key, id, call, op, same.trans is, rest⟩
  | made pre post e row maker chain made before =>
    obtain ⟨cred, asked, key, id, call, op, is, rest⟩ := made
    exact .made pre post e row' maker chain ⟨cred, asked, key, id, call, op, same.trans is, rest⟩ before

theorem Lineage.snoc (lineage : Lineage oidc settings init h row chain)
    (e : Stamp Request Calls Raised) : Lineage oidc settings init (h ++ [e]) row chain := by
  cases lineage with
  | old h row old there is => exact .old _ row old there is
  | signedOn pre post e' row session made =>
    rw [List.append_assoc, List.cons_append]
    exact .signedOn pre (post ++ [e]) e' row session made
  | made pre post e' row maker chain made before =>
    rw [List.append_assoc, List.cons_append]
    exact .made pre (post ++ [e]) e' row maker chain made before

/-- What a maker who is bound to a tenant makes is bound to it. -/
theorem MadeBy.bound {e : Stamp Request Calls Raised} {principal : Principal} {tenant : Uuid}
    (made : MadeBy oidc settings h e row principal) (is : principal.tenantId = some tenant)
    (fits : tenant < 2 ^ 128) : tenantOf row.tenantId = some tenant ∧ row.role ≠ superAdmin := by
  obtain ⟨cred, asked, key, id, -, -, same, -, -, granted⟩ := made
  obtain ⟨to_, notSuper⟩ := granted.bound tenant is
  have tenantId : row.tenantId = key.tenantId := tenantId_of_core (same.trans (core_row key id).symm)
  have role : row.role = key.role := role_of_core (same.trans (core_row key id).symm)
  exact ⟨by rw [tenantId, to_, tenantOf_str fits], role ▸ notSuper⟩

theorem Lineage.confined (lineage : Lineage oidc settings init h row chain) {maker : ApiKey}
    {tenant : Uuid} (mem : maker ∈ chain) (bound : tenantOf maker.tenantId = some tenant) :
    tenantOf row.tenantId = some tenant ∧ row.role ≠ superAdmin := by
  induction lineage with
  | old _ _ _ _ _ => cases mem
  | signedOn _ _ _ _ _ _ => cases mem
  | made pre post e row next chain made before ih =>
    have next_ : tenantOf next.tenantId = some tenant := by
      rcases List.mem_cons.mp mem with rfl | earlier
      · exact bound
      · exact (ih earlier).1
    exact made.bound next_ (tenantOf_lt next_)

/-- Whoever authenticated with a key, its row was answered; whoever did with a session has its. -/
theorem Authenticated.answered {cred : Credentials} {t : Answers} {principal : Principal}
    (enabled : settings.authEnabled = true) (auth : Authenticated oidc settings cred t principal) :
    (∃ (keyHash : String) (row : ApiKey), Answered t (.keyByHash keyHash) (some row) ∧
      principal = row.principal (tenantOf row.tenantId)) ∨
    ∃ (keyHash : String) (row : OperatorSession), Answered t (.sessionByHash keyHash) (some row) ∧
      principal = row.principal (tenantOf row.tenantId) := by
  cases auth with
  | development off => simp [enabled] at off
  | apiKey raw row given read live fresh => exact .inl ⟨_, row, read, rfl⟩
  | session token row bearer marked read live fresh => exact .inr ⟨_, row, read, rfl⟩

/-- Every row of the store, and every row that was answered, has a lineage. -/
def Traced (init : Store) (oidc : Oidc) (settings : Settings) (h : Calls.History) (s : Store) :
    Prop :=
  ∀ row, row ∈ s.keys ∨ Known h row → ∃ chain, Lineage oidc settings init h row chain

theorem traced_step (enabled : settings.authEnabled = true) {e : Stamp Request Calls Raised}
    (licensed : Licensed oidc settings e.call (History.own h e.number) e.op)
    (reply : Replies oidc settings e.number e.call e.op s e.reply s')
    (traced : Traced init oidc settings h s) : Traced init oidc settings (h ++ [e]) s' := by
  have earlier {row : ApiKey} (there : row ∈ s.keys ∨ Known h row) :
      ∃ chain, Lineage oidc settings init (h ++ [e]) row chain := by
    obtain ⟨chain, lineage⟩ := traced row there
    exact ⟨chain, lineage.snoc e⟩
  rintro row (mem | known)
  · rcases (replies_moved reply).keys with inPlace | ⟨key, id, op, -, keys⟩
    · obtain ⟨old, there, same, -⟩ := inPlace.mem mem
      obtain ⟨chain, lineage⟩ := earlier (.inl there)
      exact ⟨chain, lineage.of_core same⟩
    · rw [keys] at mem
      rcases List.mem_append.mp mem with mem | mem
      · exact earlier (.inl mem)
      · obtain rfl := List.mem_singleton.mp mem
        rw [op] at licensed
        obtain ⟨cred, asked, principal, call, -, auth, passed, granted⟩ := licensed
        have made : MadeBy oidc settings h e (key.row id) principal :=
          ⟨cred, asked, key, id, call, op, rfl, auth, passed, granted⟩
        rcases auth.answered enabled with ⟨keyHash, maker, read, rfl⟩ | ⟨keyHash, session, read, rfl⟩
        · obtain ⟨chain, before⟩ := traced maker (.inr (known_of_answered read))
          exact ⟨maker :: chain, .made h [] e _ maker chain made before⟩
        · exact ⟨[], .signedOn h [] e _ session made⟩
  · rcases known_snoc known with known | gives
    · exact earlier (.inr known)
    · exact earlier (.inl (gives.stands reply))

theorem traced_others (moved : Others s s') (traced : Traced init oidc settings h s) :
    Traced init oidc settings h s' := by
  rintro row (mem | known)
  · obtain ⟨old, there, same, -⟩ := (inPlace_others moved).mem mem
    obtain ⟨chain, lineage⟩ := traced old (.inl there)
    exact ⟨chain, lineage.of_core same⟩
  · exact traced row (.inr known)

/-- Every key there is goes back, maker by maker, to one that was there before or to an operator
who had signed on; and what has a maker bound to a tenant among these is bound to it, and is no
super admin. -/
theorem keys_confined {begun q : World} (enabled : settings.authEnabled = true)
    (begins : Begins begun) (run : Runs oidc settings begun h q) (mem : row ∈ q.store.keys) :
    ∃ chain, Lineage oidc settings begun.store h row chain ∧
      ∀ maker ∈ chain, ∀ tenant, tenantOf maker.tenantId = some tenant →
        tenantOf row.tenantId = some tenant ∧ row.role ≠ superAdmin := by
  have traced : Traced begun.store oidc settings h q.store := by
    refine run.keeps routes_licensed begins.tasks ?_ ?_ ?_
    · rintro row (mem | ⟨e, none_, -⟩)
      · exact ⟨[], .old [] row row mem rfl⟩
      · exact absurd none_ List.not_mem_nil
    · exact fun h s s' moved traced => traced_others moved traced
    · exact fun h e s s' licensed reply traced => traced_step enabled licensed reply traced
  obtain ⟨chain, lineage⟩ := traced row (.inl mem)
  exact ⟨chain, lineage, fun maker mem tenant bound => lineage.confined mem bound⟩

theorem keys_confined_new : ∃ row ∈ dayEnded.store.keys, row.id = "row-1" ∧
    ∃ chain, Lineage plainOidc plainSettings dayBegun.store dayNotes row chain ∧
      ∀ maker ∈ chain, ∀ tenant, tenantOf maker.tenantId = some tenant →
        tenantOf row.tenantId = some tenant ∧ row.role ≠ superAdmin := by
  obtain ⟨row, mem, is⟩ : ∃ row ∈ dayEnded.store.keys, row.id = "row-1" := by decide +kernel
  exact ⟨row, mem, is, keys_confined rfl day_begins day_runs mem⟩

/-! ## Keys that were revoked -/

/-- There is a key with this id, and it is revoked. -/
def Revoked (id : String) (s : Store) : Prop :=
  (∃ row ∈ s.keys, row.id = id) ∧ ∀ row ∈ s.keys, row.id = id → row.revoked = true

theorem InPlace.revoked {id : String} (inPlace : InPlace s s') (revoked : Revoked id s) :
    Revoked id s' := by
  obtain ⟨⟨row, mem, is⟩, all⟩ := revoked
  refine ⟨?_, fun new there named => ?_⟩
  · obtain ⟨new, there, same⟩ := inPlace.stays mem
    exact ⟨new, there, (id_of_core same).trans is⟩
  · obtain ⟨old, before, same, kept⟩ := inPlace.mem there
    exact kept (all old before ((id_of_core same).symm.trans named))

/-- No call makes a revoked key live, nor another key of its id. -/
theorem Moved.revoked {op : Op} {id : String} (moved : Moved oidc s op s')
    (revoked : Revoked id s) : Revoked id s' := by
  rcases moved.keys with inPlace | ⟨key, id', -, fresh, keys⟩
  · exact inPlace.revoked revoked
  · obtain ⟨⟨row, mem, is⟩, all⟩ := revoked
    refine ⟨⟨row, keys ▸ List.mem_append_left _ mem, is⟩, fun new there named => ?_⟩
    rw [keys] at there
    rcases List.mem_append.mp there with there | there
    · exact all new there named
    · rw [List.mem_singleton.mp there] at named
      exact absurd (is.trans named.symm) (fresh row mem)

/-- The request read a live row of the key that it came with. -/
def AsKey (oidc : Oidc) (cred : Credentials) (t : Answers) (id : String) : Prop :=
  ∃ raw row, cred.apiKey = some raw ∧ Answered t (.keyByHash (oidc.sha256 raw)) (some row) ∧
    row.revoked = false ∧ row.id = id

/-- Whatever is read of the key after it was revoked says so. -/
def SaysRevoked (id : String) (post : Calls.History) : Prop :=
  ∀ e ∈ post, ∀ keyHash row, e.event = ⟨.keyByHash keyHash, .ok (some row)⟩ → row.id = id →
    row.revoked = true

theorem revoked_kept {begun q : World} (run : Runs oidc settings begun h q)
    {pre post : Calls.History} {e : Stamp Request Calls Raised} {id : String}
    (cut : h = pre ++ e :: post) (revoked : e.event = ⟨.revokeKey id, .ok true⟩) :
    Revoked id q.store ∧ SaysRevoked id post := by
  let revokes : Stamp Request Calls Raised → Prop := fun e => e.event = ⟨.revokeKey id, .ok true⟩
  refine run.since (K := Revoked id) ?_ ?_ ?_ cut (show revokes e from revoked) fun _ _ => not_false
  · exact fun s s' moved held => (inPlace_others moved).revoked held
  · intro h e p p' _ _ reply is
    -- the statement found a row, and revokes each one with this id
    obtain ⟨number, call, op, r⟩ := e
    cases is
    obtain ⟨found, store⟩ := Stated.answer reply
    obtain ⟨row, mem, named⟩ := List.any_eq_true.mp found.symm
    have is : row.id = id := by simpa using named
    rw [store]
    refine ⟨⟨{ row with revoked := true }, ?_, is⟩, fun row mem named => ?_⟩
    · exact List.mem_map.mpr ⟨row, mem, by rw [if_pos is]⟩
    · obtain ⟨old, -, rfl⟩ := List.mem_map.mp mem
      by_cases mine : old.id = id
      · rw [if_pos mine]
      · rw [if_neg mine] at named
        exact absurd named mine
  · intro e s s' reply _ held
    exact ⟨(replies_moved reply).revoked held, fun keyHash row read named =>
      held.2 row (Gives.stands (.inl ⟨keyHash, read⟩) reply) named⟩

/-- A key that was revoked stays revoked; and whatever request had made no call by then is not
authenticated by it. -/
theorem revoked_for_good {begun q : World}
    (run : Runs oidc settings begun h q) {pre post : Calls.History}
    {e : Stamp Request Calls Raised} {id : String} (cut : h = pre ++ e :: post)
    (revoked : e.event = ⟨.revokeKey id, .ok true⟩) :
    (∀ row ∈ q.store.keys, row.id = id → row.revoked = true) ∧
      ∀ n, (∀ x ∈ pre, x.number ≠ n) → ∀ cred, ¬ AsKey oidc cred (History.own h n) id := by
  obtain ⟨held, told⟩ := revoked_kept run cut revoked
  refine ⟨held.2, fun n later cred asKey => ?_⟩
  obtain ⟨raw, row, -, read, live, named⟩ := asKey
  obtain ⟨e', mem, number, is⟩ := mem_own.mp read
  rw [cut] at mem
  rcases List.mem_append.mp mem with mem | mem
  · exact later e' mem number
  · rcases List.mem_cons.mp mem with rfl | mem
    · rw [revoked] at is
      cases is
    · rw [told e' mem _ row is named] at live
      cases live

def revoking : Stamp Request Calls Raised :=
  ⟨4, .revokeApiKey { apiKey := some "raw", mfaProof := "k.160.m" } "row-1", .revokeKey "row-1",
    .ok true⟩

theorem revoked_for_good_new :
    (∀ row ∈ dayEnded.store.keys, row.id = "row-1" → row.revoked = true) ∧
      ∀ n, (∀ x ∈ dayNotes.take 36, x.number ≠ n) →
        ∀ cred, ¬ AsKey plainOidc cred (History.own dayNotes n) "row-1" := by
  have there : dayNotes[36]? = some revoking := by rfl
  exact revoked_for_good day_runs (cut_at there) rfl

/-! ## Rows that stay -/

/-- The headers that a request came with, where it has to show a principal. -/
def Request.credentials : Request → Option Credentials
  | .oidcAuthorize | .oidcCallback .. | .oidcExchange _ => none
  | .mfaStatus cred | .mfaSetup cred | .mfaConfirm cred _ | .mfaProof cred _ | .mfaDisable cred
  | .createApiKey cred _ | .listApiKeys cred | .revokeApiKey cred _ => some cred

theorem InPlace.core_stays (inPlace : InPlace s s') (stays : ∃ here ∈ s.keys, here.core = row.core) :
    ∃ here ∈ s'.keys, here.core = row.core := by
  obtain ⟨here, mem, same⟩ := stays
  obtain ⟨new, mem, is⟩ := inPlace.stays mem
  exact ⟨new, mem, is.trans same⟩

theorem Moved.core_stays {op : Op} (moved : Moved oidc s op s')
    (stays : ∃ here ∈ s.keys, here.core = row.core) : ∃ here ∈ s'.keys, here.core = row.core := by
  rcases moved.keys with inPlace | ⟨key, id, -, -, keys⟩
  · exact inPlace.core_stays stays
  · obtain ⟨here, mem, same⟩ := stays
    exact ⟨here, keys ▸ List.mem_append_left _ mem, same⟩

/-- Every row that was given is in the store still, but for its revocation and its second
factor. -/
theorem runs_stays {begun q : World} (begins : Begins begun) (run : Runs oidc settings begun h q)
    (known : Known h row) : ∃ here ∈ q.store.keys, here.core = row.core := by
  refine run.keeps (J := fun h s => ∀ row, Known h row → ∃ here ∈ s.keys, here.core = row.core)
    routes_licensed begins.tasks ?_ ?_ ?_ row known
  · rintro row ⟨e, none_, -⟩
    exact absurd none_ List.not_mem_nil
  · exact fun h s s' moved stays row known => (inPlace_others moved).core_stays (stays row known)
  · intro h e s s' _ reply stays row known
    refine (replies_moved reply).core_stays ?_
    rcases known_snoc known with known | gives
    · exact stays row known
    · exact ⟨row, gives.stands reply, rfl⟩

end AgentStudio.Access
