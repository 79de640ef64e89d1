import Mathlib.Data.List.Nodup
import Mathlib.Data.List.Induction
import Mathlib.Data.Int.Notation
import Mathlib.Tactic.Common

/-!
# Session tokens

`SessionTokenService` and its registry over any sequence of operations. A token is its claims,
sealed; whether it is revoked is in the registry, from which only rows of revoked tokens are
deleted. Times are in microseconds.

* `dead_step`, `dead_run`: a row is revoked, or gone, exactly after an operation that revokes it;
* `resolve_minted`: what `resolve` makes of a token that was minted;
* `lawful`: when a token resolves, and that one that did not never does again.
-/

namespace AgentStudio.Session.Tokens

/-- The payload of a token. -/
structure Claims where
  jti : String
  tenantId : String
  endUserId : String
  surfaceId : Option String
  deviceId : Option String
  scopes : List String
  iat : ℤ
  exp : ℤ
  deriving DecidableEq

/-- Fernet with the key of the service, on the JSON of claims: what was encrypted is decrypted. -/
structure Fernet (Nonce Token : Type) where
  encrypt : Nonce → Claims → Token
  decrypt : Token → Option Claims
  undo : ∀ nonce claims, decrypt (encrypt nonce claims) = some claims

/-- `SessionTokenModel`. -/
structure Row where
  id : String
  tenantId : String
  endUserId : String
  surfaceId : Option String
  deviceId : Option String
  scopes : List String
  expiresAt : ℤ
  revokedAt : Option ℤ := none

inductive SessionTokenError where
  | unknownEndUser
  | invalid (message : String)
  | expired
  | revoked
  deriving DecidableEq

structure SessionPrincipal where
  tokenId : String
  tenantId : String
  endUserId : String
  surfaceId : Option String
  deviceId : Option String
  scopes : List String
  expiresAt : ℤ
  deriving DecidableEq

/-- The principal of a token with `claims`. -/
def Claims.principal (claims : Claims) : SessionPrincipal where
  tokenId := claims.jti
  tenantId := claims.tenantId
  endUserId := claims.endUserId
  surfaceId := claims.surfaceId
  deviceId := claims.deviceId
  scopes := claims.scopes
  expiresAt := claims.exp

/-! ## The registry -/

/-- `SessionTokenRepository.get`. -/
def get (registry : List Row) (jti : String) : Option Row := registry.find? fun row => row.id = jti

/-- The rows that are not revoked and of which `which` holds are, and how many they are. -/
def revokeRows (which : Row → Bool) (now : ℤ) (registry : List Row) : Nat × List Row :=
  let live (row : Row) : Bool := which row && row.revokedAt.isNone
  (registry.countP live,
    registry.map fun row => if live row then { row with revokedAt := some now } else row)

/-- `prune_expired`: the rows of revoked tokens only. -/
def pruneExpired (tenantId : String) (before : ℤ) (registry : List Row) : Nat × List Row :=
  let gone (row : Row) : Bool := row.tenantId = tenantId ∧ row.expiresAt < before ∧
    row.revokedAt.isSome
  (registry.countP gone, registry.filter fun row => !gone row)

def revokeAllForEndUser (tenantId endUserId : String) (now : ℤ) (registry : List Row) :
    Nat × List Row :=
  revokeRows (fun row => row.tenantId = tenantId ∧ row.endUserId = endUserId) now registry

/-! ## The service -/

/-- A call of `mint`: `jti` is of `uuid4`, and `endUser` what the repository of end users finds or
makes, if it does. -/
structure Request (Nonce : Type) where
  jti : String
  nonce : Nonce
  tenantId : String
  endUser : Option String
  surfaceId : Option String := none
  deviceId : Option String := none
  scopes : Option (List String) := none
  ttlSeconds : Option ℤ := none

variable {Nonce Token : Type} (fernet : Fernet Nonce Token) (ttl : ℤ)

/-- `ttl` is the setting; a `ttl_seconds` of 0 is none. -/
def Request.claims (request : Request Nonce) (endUserId : String) (now : ℤ) : Claims where
  jti := request.jti
  tenantId := request.tenantId
  endUserId := endUserId
  surfaceId := request.surfaceId
  deviceId := request.deviceId
  scopes := request.scopes.getD []
  iat := now
  exp := now + (if request.ttlSeconds.getD 0 = 0 then ttl else request.ttlSeconds.getD 0) * 1000000

def Claims.row (claims : Claims) : Row where
  id := claims.jti
  tenantId := claims.tenantId
  endUserId := claims.endUserId
  surfaceId := claims.surfaceId
  deviceId := claims.deviceId
  scopes := claims.scopes
  expiresAt := claims.exp

/-- `mint`: the token, its expiry and the end user. -/
def mint (request : Request Nonce) (now : ℤ) (registry : List Row) :
    Except SessionTokenError (Token × ℤ × String) × List Row :=
  match request.endUser with
  | none => (.error .unknownEndUser, registry)
  | some endUserId =>
    let claims := request.claims ttl endUserId now
    (.ok (fernet.encrypt request.nonce claims, claims.exp, endUserId), registry ++ [claims.row])

def resolve (token : Token) (now : ℤ) (registry : List Row) :
    Except SessionTokenError SessionPrincipal :=
  match fernet.decrypt token with
  | none => .error (.invalid "token is not a valid session token")
  | some claims =>
    if claims.exp ≤ now then .error .expired
    else
      match get registry claims.jti with
      | none => .error (.invalid "token not found in registry")
      | some row =>
        if row.revokedAt.isSome then .error .revoked
        else if row.tenantId ≠ claims.tenantId then
          .error (.invalid "token claims do not match registry")
        else .ok claims.principal

def revoke (token : Token) (now : ℤ) (registry : List Row) : Bool × List Row :=
  match resolve fernet token now registry with
  | .error _ => (false, registry)
  | .ok principal =>
    let (rows, registry) := revokeRows (fun row => row.id = principal.tokenId) now registry
    (0 < rows, registry)

/-! ## Sequences of operations -/

inductive Op (Nonce Token : Type) where
  | mint (request : Request Nonce) (now : ℤ)
  | resolve (token : Token) (now : ℤ)
  | revoke (token : Token) (now : ℤ)
  | revokeAllForEndUser (tenantId endUserId : String) (now : ℤ)
  | pruneExpired (tenantId : String) (before : ℤ) (now : ℤ)

def Op.now : Op Nonce Token → ℤ
  | .mint _ now | .resolve _ now | .revoke _ now | .revokeAllForEndUser _ _ now
  | .pruneExpired _ _ now => now

/-- The `jti` that the operation gives. -/
def Op.jti : Op Nonce Token → Option String
  | .mint request _ => some request.jti
  | _ => none

/-- The token that the operation is given. -/
def Op.token : Op Nonce Token → Option Token
  | .resolve token _ | .revoke token _ => some token
  | _ => none

def step (registry : List Row) : Op Nonce Token → List Row
  | .mint request now => (mint fernet ttl request now registry).2
  | .resolve _ _ => registry
  | .revoke token now => (revoke fernet token now registry).2
  | .revokeAllForEndUser tenantId endUserId now =>
    (revokeAllForEndUser tenantId endUserId now registry).2
  | .pruneExpired tenantId before _ => (pruneExpired tenantId before registry).2

def run (ops : List (Op Nonce Token)) : List Row := ops.foldl (step fernet ttl) []

/-- An operation that mints `token` with `claims`. -/
def Op.Mints (op : Op Nonce Token) (token : Token) (claims : Claims) : Prop :=
  ∃ request now endUserId, op = .mint request now ∧ request.endUser = some endUserId ∧
    claims = request.claims ttl endUserId now ∧ token = fernet.encrypt request.nonce claims

/-- Times do not decrease, no `jti` is given twice, and what is decrypted was minted. -/
structure Schedule (ops : List (Op Nonce Token)) : Prop where
  ordered : (ops.map Op.now).Pairwise (· ≤ ·)
  distinct : (ops.filterMap Op.jti).Nodup
  authentic : ∀ before op after, ops = before ++ op :: after → ∀ token ∈ op.token,
    (fernet.decrypt token).isSome = true →
      ∃ minting ∈ before, ∃ claims, minting.Mints fernet ttl token claims

/-- An operation that revokes the token of an end user. -/
def Op.Revokes (op : Op Nonce Token) (token : Token) (claims : Claims) : Prop :=
  match op with
  | .revoke token' _ => token' = token
  | .revokeAllForEndUser tenantId endUserId _ =>
    tenantId = claims.tenantId ∧ endUserId = claims.endUserId
  | _ => False

/-- The token was minted with `claims`, has not expired, and was not revoked since. -/
def Stands (before : List (Op Nonce Token)) (token : Token) (now : ℤ) (claims : Claims) : Prop :=
  ∃ first_ minting rest, before = first_ ++ minting :: rest ∧ minting.Mints fernet ttl token claims ∧
    now < claims.exp ∧ ∀ op ∈ rest, ¬op.Revokes token claims

/-- A token resolves exactly while it stands, to what was fixed when it was minted; and one that
was minted and does not resolve never does again. -/
structure Lawful (ops : List (Op Nonce Token)) : Prop where
  resolves : ∀ before token now after, ops = before ++ .resolve token now :: after →
    ∀ principal, resolve fernet token now (run fernet ttl before) = .ok principal ↔
      ∃ claims, Stands fernet ttl before token now claims ∧ principal = claims.principal
  permanent : ∀ before token now between now' after,
    ops = before ++ .resolve token now :: between ++ .resolve token now' :: after →
    (∃ minting ∈ before, ∃ claims, minting.Mints fernet ttl token claims) →
    (resolve fernet token now (run fernet ttl before)).isOk = false →
      (resolve fernet token now'
        (run fernet ttl (before ++ .resolve token now :: between))).isOk = false

/-! ## Rows -/

/-- What of a row never changes. -/
def Row.key (row : Row) : String × String × String := (row.id, row.tenantId, row.endUserId)

/-- Every row with this id is revoked. -/
def Dead (registry : List Row) (jti : String) : Prop :=
  ∀ row ∈ registry, row.id = jti → row.revokedAt.isSome = true

variable {registry : List Row} {jti : String}

theorem get_eq_some (ids : (registry.map Row.id).Nodup) {row : Row} :
    get registry jti = some row ↔ row ∈ registry ∧ row.id = jti := by
  constructor
  · intro found
    have fits := List.find?_some found
    exact ⟨List.mem_of_find?_eq_some found, of_decide_eq_true fits⟩
  · rintro ⟨row_in, is_id⟩
    obtain ⟨other, found⟩ : ∃ other, get registry jti = some other := by
      apply Option.isSome_iff_exists.mp
      exact List.find?_isSome.mpr ⟨row, row_in, decide_eq_true is_id⟩
    have fits := List.find?_some found
    have other_id : other.id = jti := of_decide_eq_true fits
    rw [found, List.inj_on_of_nodup_map ids (List.mem_of_find?_eq_some found) row_in
      (other_id.trans is_id.symm)]

theorem get_eq_none : get registry jti = none ↔ ∀ row ∈ registry, row.id ≠ jti := by
  unfold get
  rw [List.find?_eq_none]
  apply forall₂_congr
  intro row _
  rw [decide_eq_true_iff]

theorem dead_map {f : Row → Row} (same : ∀ row, (f row).id = row.id) :
    Dead (registry.map f) jti ↔
      ∀ row ∈ registry, row.id = jti → (f row).revokedAt.isSome = true := by
  unfold Dead
  rw [List.forall_mem_map]
  apply forall₂_congr
  intro row _
  rw [same]

theorem revokeRows_key (which : Row → Bool) (now : ℤ) (registry : List Row) :
    (revokeRows which now registry).2.map Row.key = registry.map Row.key := by
  unfold revokeRows
  rw [List.map_map]
  apply List.map_congr_left
  intro row _
  dsimp only [Function.comp_apply]
  split <;> rfl

theorem revokeRows_id (which : Row → Bool) (now : ℤ) (row : Row) :
    (if (which row && row.revokedAt.isNone) = true then { row with revokedAt := some now }
      else row).id = row.id := by
  split <;> rfl

/-- The rows that are meant are revoked. -/
theorem revokeRows_dead {which : Row → Bool} (now : ℤ)
    (meant : ∀ row ∈ registry, row.id = jti → which row = true) :
    Dead (revokeRows which now registry).2 jti := by
  refine (dead_map (revokeRows_id which now)).mpr ?_
  intro row row_in is_id
  rw [meant row row_in is_id, Bool.true_and]
  cases revoked : row.revokedAt with
  | none => rfl
  | some at_ =>
    rw [if_neg (by exact Bool.false_ne_true), revoked]
    rfl

/-- The others are as they were. -/
theorem revokeRows_other {which : Row → Bool} (now : ℤ)
    (other : ∀ row ∈ registry, row.id = jti → which row = false) :
    Dead (revokeRows which now registry).2 jti ↔ Dead registry jti := by
  refine (dead_map (revokeRows_id which now)).trans ?_
  apply forall₃_congr
  intro row row_in is_id
  rw [other row row_in is_id, Bool.false_and, if_neg Bool.false_ne_true]

/-- No row is deleted but of a revoked token. -/
theorem pruneExpired_dead (tenantId : String) (before : ℤ) :
    Dead (pruneExpired tenantId before registry).2 jti ↔ Dead registry jti := by
  constructor
  · intro dead row row_in is_id
    cases revoked : row.revokedAt with
    | some at_ => rfl
    | none =>
      have kept := dead row (List.mem_filter.mpr ⟨row_in, by simp [revoked]⟩) is_id
      rw [revoked] at kept
      exact kept
  · exact fun dead row row_in => dead row (List.mem_filter.mp row_in).1

/-! ## Minting -/

variable {fernet ttl} {ops before after : List (Op Nonce Token)} {op minting : Op Nonce Token}
  {token token' : Token} {claims claims' : Claims}

theorem Op.Mints.jti_eq (h : minting.Mints fernet ttl token claims) :
    minting.jti = some claims.jti := by
  obtain ⟨request, now, endUserId, rfl, -, rfl, -⟩ := h
  rfl

theorem Op.Mints.decrypt (h : minting.Mints fernet ttl token claims) :
    fernet.decrypt token = some claims := by
  obtain ⟨request, now, endUserId, -, -, -, rfl⟩ := h
  exact fernet.undo _ _

theorem Op.Mints.unique (h : minting.Mints fernet ttl token claims)
    (h' : minting.Mints fernet ttl token' claims') : token = token' ∧ claims = claims' := by
  obtain ⟨request, now, endUserId, rfl, found, rfl, rfl⟩ := h
  obtain ⟨_, _, _, ⟨⟩, found', rfl, rfl⟩ := h'
  rw [found, Option.some_inj] at found'
  subst found'
  exact ⟨rfl, rfl⟩

theorem filterMap_inj {α β : Type} {f : α → Option β} {l : List α} (nodup : (l.filterMap f).Nodup)
    {a a' : α} {b : β} (a_in : a ∈ l) (a'_in : a' ∈ l) (is_b : f a = some b) (is_b' : f a' = some b) :
    a = a' := by
  induction l with
  | nil => cases a_in
  | cons c l ih =>
    have rest : (l.filterMap f).Nodup := by
      refine List.Nodup.sublist ?_ nodup
      exact (List.sublist_cons_self c l).filterMap f
    rcases List.mem_cons.mp a_in with rfl | later
    · rcases List.mem_cons.mp a'_in with rfl | later'
      · rfl
      · rw [List.filterMap_cons_some is_b, List.nodup_cons] at nodup
        exact absurd (List.mem_filterMap.mpr ⟨a', later', is_b'⟩) nodup.1
    · rcases List.mem_cons.mp a'_in with rfl | later'
      · rw [List.filterMap_cons_some is_b', List.nodup_cons] at nodup
        exact absurd (List.mem_filterMap.mpr ⟨a, later, is_b⟩) nodup.1
      · exact ih rest later later'

/-- One `jti` is of one token. -/
theorem Schedule.same_mint (h : Schedule fernet ttl ops) {minting' : Op Nonce Token}
    (minting_in : minting ∈ ops) (mints : minting.Mints fernet ttl token claims)
    (minting'_in : minting' ∈ ops) (mints' : minting'.Mints fernet ttl token' claims')
    (same : claims.jti = claims'.jti) : token = token' ∧ claims = claims' := by
  have eq := filterMap_inj h.distinct minting_in minting'_in mints.jti_eq
    (by rw [mints'.jti_eq, same])
  rw [← eq] at mints'
  exact mints.unique mints'

/-! ## The rows of a run -/

/-- Every row is of a token that was minted, and no id is there twice. -/
structure Rows (fernet : Fernet Nonce Token) (ttl : ℤ) (before : List (Op Nonce Token))
    (registry : List Row) : Prop where
  ids : (registry.map Row.id).Nodup
  own : ∀ row ∈ registry, ∃ minting ∈ before, ∃ token claims,
    minting.Mints fernet ttl token claims ∧ row.key = claims.row.key

/-- Rows may be deleted, and change but for what never changes. -/
theorem Rows.sublist {registry' : List Row} (h : Rows fernet ttl before registry)
    (fewer : (registry'.map Row.key).Sublist (registry.map Row.key)) (op : Op Nonce Token) :
    Rows fernet ttl (before ++ [op]) registry' := by
  have ids (rows : List Row) : (rows.map Row.key).map Prod.fst = rows.map Row.id := by
    rw [List.map_map]
    rfl
  refine ⟨?_, ?_⟩
  · rw [← ids]
    exact List.Nodup.sublist (fewer.map Prod.fst) (by rw [ids]; exact h.ids)
  · intro row row_in
    obtain ⟨old, old_in, same⟩ :=
      List.mem_map.mp (fewer.subset (List.mem_map.mpr ⟨row, row_in, rfl⟩))
    obtain ⟨minting, minting_in, token, claims, mints, key⟩ := h.own old old_in
    exact ⟨minting, List.mem_append_left _ minting_in, token, claims, mints, same.symm.trans key⟩

theorem Rows.mint (h : Rows fernet ttl before registry) {request : Request Nonce} {now : ℤ}
    (fresh : ∀ minting ∈ before, minting.jti ≠ some request.jti) :
    Rows fernet ttl (before ++ [.mint request now])
      (mint fernet ttl request now registry).2 := by
  unfold Tokens.mint
  cases found : request.endUser with
  | none => exact h.sublist (List.Sublist.refl _) _
  | some endUserId =>
    refine ⟨?_, ?_⟩
    · rw [List.map_append, List.nodup_append]
      refine ⟨h.ids, List.nodup_singleton _, ?_⟩
      rintro id id_in _ new rfl
      obtain ⟨row, row_in, rfl⟩ := List.mem_map.mp id_in
      obtain ⟨minting, minting_in, token, claims, mints, key⟩ := h.own row row_in
      apply fresh minting minting_in
      have same : row.id = claims.jti := congrArg Prod.fst key
      rw [mints.jti_eq, ← same, List.mem_singleton.mp new]
      rfl
    · intro row row_in
      rcases List.mem_append.mp row_in with old | new
      · obtain ⟨minting, minting_in, rest⟩ := h.own row old
        exact ⟨minting, List.mem_append_left _ minting_in, rest⟩
      · rw [List.mem_singleton.mp new]
        exact ⟨_, List.mem_append_right _ (List.mem_singleton_self _), _, _,
          ⟨request, now, endUserId, rfl, found, rfl, rfl⟩, rfl⟩

theorem revoke_key (token : Token) (now : ℤ) (registry : List Row) :
    (revoke fernet token now registry).2.map Row.key = registry.map Row.key := by
  unfold revoke
  split
  · rfl
  · exact revokeRows_key ..

theorem Rows.step (h : Rows fernet ttl before registry)
    (fresh : ∀ jti ∈ op.jti, ∀ minting ∈ before, minting.jti ≠ some jti) :
    Rows fernet ttl (before ++ [op]) (step fernet ttl registry op) := by
  cases op with
  | mint request now => exact h.mint (fresh _ rfl)
  | resolve token now => exact h.sublist (List.Sublist.refl _) _
  | revoke token now =>
    apply h.sublist
    rw [Tokens.step, revoke_key]
  | revokeAllForEndUser tenantId endUserId now =>
    apply h.sublist
    rw [Tokens.step, revokeAllForEndUser, revokeRows_key]
  | pruneExpired tenantId before' now =>
    apply h.sublist
    exact List.filter_sublist.map Row.key

theorem run_snoc (before : List (Op Nonce Token)) (op : Op Nonce Token) :
    run fernet ttl (before ++ [op]) = step fernet ttl (run fernet ttl before) op := by
  unfold run
  rw [List.foldl_append]
  rfl

/-- No `jti` is given again. -/
theorem Schedule.fresh (h : Schedule fernet ttl (before ++ op :: after)) :
    ∀ jti ∈ op.jti, ∀ minting ∈ before, minting.jti ≠ some jti := by
  intro jti is_jti minting minting_in same
  have distinct := h.distinct
  rw [List.filterMap_append, List.nodup_append, List.filterMap_cons_some is_jti] at distinct
  exact distinct.2.2 jti (List.mem_filterMap.mpr ⟨minting, minting_in, same⟩) jti
    List.mem_cons_self rfl

theorem run_rows (h : Schedule fernet ttl (before ++ after)) :
    Rows fernet ttl before (run fernet ttl before) := by
  induction before using List.reverseRecOn generalizing after with
  | nil => exact ⟨List.nodup_nil, fun _ => nofun⟩
  | append_singleton before op ih =>
    rw [List.append_assoc, List.singleton_append] at h
    rw [run_snoc]
    exact (ih h).step h.fresh

/-! ## Revocation -/

/-- What the row of a token that was minted says. -/
theorem Rows.key_eq (rows : Rows fernet ttl before registry)
    (h : Schedule fernet ttl (before ++ after)) (minting_in : minting ∈ before)
    (mints : minting.Mints fernet ttl token claims) {row : Row} (row_in : row ∈ registry)
    (is_id : row.id = claims.jti) : row.key = claims.row.key := by
  obtain ⟨minting', minting'_in, token', claims', mints', key⟩ := rows.own row row_in
  have same : claims'.jti = claims.jti := (congrArg Prod.fst key).symm.trans is_id
  rw [key, (h.same_mint (List.mem_append_left _ minting'_in) mints'
    (List.mem_append_left _ minting_in) mints same).2]

/-- A token that was minted resolves exactly while it has not expired and its row is there and not
revoked. -/
theorem resolve_minted (rows : Rows fernet ttl before registry)
    (h : Schedule fernet ttl (before ++ after)) (minting_in : minting ∈ before)
    (mints : minting.Mints fernet ttl token claims) (now : ℤ) (principal : SessionPrincipal) :
    resolve fernet token now registry = .ok principal ↔
      now < claims.exp ∧ ¬Dead registry claims.jti ∧ principal = claims.principal := by
  unfold resolve
  rw [mints.decrypt]
  dsimp only
  by_cases expired : claims.exp ≤ now
  · rw [if_pos expired]
    exact iff_of_false nofun fun stands => absurd stands.1 (Int.not_lt.mpr expired)
  · rw [if_neg expired]
    cases found : get registry claims.jti with
    | none =>
      have dead : Dead registry claims.jti := fun row row_in is_id =>
        absurd is_id (get_eq_none.mp found row row_in)
      exact iff_of_false nofun fun stands => stands.2.1 dead
    | some row =>
      obtain ⟨row_in, is_id⟩ := (get_eq_some rows.ids).mp found
      have key := rows.key_eq h minting_in mints row_in is_id
      have tenant : row.tenantId = claims.tenantId := congrArg (fun key => key.2.1) key
      dsimp only
      cases revoked : row.revokedAt with
      | some at_ =>
        have dead : Dead registry claims.jti := by
          intro other other_in other_id
          rw [List.inj_on_of_nodup_map rows.ids other_in row_in (other_id.trans is_id.symm),
            revoked]
          rfl
        rw [if_pos (by rfl)]
        exact iff_of_false nofun fun stands => stands.2.1 dead
      | none =>
        have live : ¬Dead registry claims.jti := by
          intro dead
          have gone := dead row row_in is_id
          rw [revoked] at gone
          cases gone
        rw [if_neg (by exact Bool.false_ne_true), if_neg (not_not.mpr tenant), Except.ok.injEq]
        exact ⟨fun eq => ⟨Int.not_le.mp expired, live, eq.symm⟩, fun stands => stands.2.2.symm⟩

/-- The principal of a token that resolved was decrypted from it. -/
theorem resolve_ok {now : ℤ} {principal : SessionPrincipal}
    (resolved : resolve fernet token now registry = .ok principal) :
    ∃ claims, fernet.decrypt token = some claims ∧ principal = claims.principal := by
  unfold resolve at resolved
  cases decrypted : fernet.decrypt token with
  | none =>
    rw [decrypted] at resolved
    cases resolved
  | some claims =>
    rw [decrypted] at resolved
    refine ⟨claims, rfl, ?_⟩
    dsimp only at resolved
    split at resolved
    · cases resolved
    · split at resolved
      · cases resolved
      · split at resolved
        · cases resolved
        · split at resolved
          · cases resolved
          · exact (Except.ok.inj resolved).symm

theorem mint_dead {request : Request Nonce} (now : ℤ) (other : request.jti ≠ jti) :
    Dead (mint fernet ttl request now registry).2 jti ↔ Dead registry jti := by
  unfold mint
  cases request.endUser with
  | none => exact Iff.rfl
  | some endUserId =>
    constructor
    · exact fun dead row row_in => dead row (List.mem_append_left _ row_in)
    · intro dead row row_in is_id
      rcases List.mem_append.mp row_in with old | new
      · exact dead row old is_id
      · rw [List.mem_singleton.mp new] at is_id
        exact absurd is_id other

/-- `revoke` of the token, while it has not expired. -/
theorem revoke_own (h : Schedule fernet ttl (before ++ after))
    (rows : Rows fernet ttl before registry) (minting_in : minting ∈ before)
    (mints : minting.Mints fernet ttl token claims) {now : ℤ} (early : now < claims.exp) :
    Dead (revoke fernet token now registry).2 claims.jti := by
  unfold revoke
  cases resolved : resolve fernet token now registry with
  | error e =>
    by_contra live
    have ok := (resolve_minted rows h minting_in mints now claims.principal).mpr
      ⟨early, live, rfl⟩
    rw [resolved] at ok
    cases ok
  | ok principal =>
    obtain ⟨claims', decrypted, rfl⟩ := resolve_ok resolved
    rw [mints.decrypt, Option.some_inj] at decrypted
    subst decrypted
    exact revokeRows_dead now fun row _ is_id => decide_eq_true is_id

/-- `revoke` of another token. -/
theorem revoke_other {now : ℤ} (h : Schedule fernet ttl (before ++ .revoke token' now :: after))
    (minting_in : minting ∈ before) (mints : minting.Mints fernet ttl token claims)
    (ne : token' ≠ token) :
    Dead (revoke fernet token' now registry).2 claims.jti ↔ Dead registry claims.jti := by
  unfold revoke
  cases resolved : resolve fernet token' now registry with
  | error e => exact Iff.rfl
  | ok principal =>
    obtain ⟨claims', decrypted, rfl⟩ := resolve_ok resolved
    obtain ⟨minting', minting'_in, claims'', mints'⟩ := h.authentic before _ after rfl token' rfl
      (by rw [decrypted]; rfl)
    rw [mints'.decrypt, Option.some_inj] at decrypted
    subst decrypted
    apply revokeRows_other now
    intro row _ is_id
    apply decide_eq_false
    intro same
    exact ne (h.same_mint (List.mem_append_left _ minting'_in) mints'
      (List.mem_append_left _ minting_in) mints (same.symm.trans is_id)).1

/-- What an operation does to the row of a token that has not expired: it is revoked, or gone,
after one that revokes it, and otherwise as before. -/
theorem dead_step (h : Schedule fernet ttl (before ++ op :: after))
    (rows : Rows fernet ttl before registry) (minting_in : minting ∈ before)
    (mints : minting.Mints fernet ttl token claims) (early : op.now < claims.exp) :
    Dead (step fernet ttl registry op) claims.jti ↔
      Dead registry claims.jti ∨ op.Revokes token claims := by
  cases op with
  | mint request now =>
    rw [or_iff_left (by exact not_false)]
    apply mint_dead now
    intro same
    exact h.fresh request.jti rfl minting minting_in (by rw [mints.jti_eq, same])
  | resolve token' now => exact (or_iff_left (by exact not_false)).symm
  | revoke token' now =>
    by_cases own : token' = token
    · subst own
      exact iff_of_true (revoke_own h rows minting_in mints early) (Or.inr rfl)
    · rw [or_iff_left (by exact own)]
      exact revoke_other h minting_in mints own
  | revokeAllForEndUser tenantId endUserId now =>
    have keys : ∀ row ∈ registry, row.id = claims.jti →
        row.tenantId = claims.tenantId ∧ row.endUserId = claims.endUserId := by
      intro row row_in is_id
      have key := rows.key_eq h minting_in mints row_in is_id
      exact ⟨congrArg (fun key => key.2.1) key, congrArg (fun key => key.2.2) key⟩
    by_cases own : tenantId = claims.tenantId ∧ endUserId = claims.endUserId
    · refine iff_of_true (revokeRows_dead now fun row row_in is_id => ?_) (Or.inr own)
      obtain ⟨tenant, user⟩ := keys row row_in is_id
      exact decide_eq_true ⟨tenant.trans own.1.symm, user.trans own.2.symm⟩
    · rw [or_iff_left (by exact own)]
      apply revokeRows_other now
      intro row row_in is_id
      obtain ⟨tenant, user⟩ := keys row row_in is_id
      exact decide_eq_false fun both =>
        own ⟨both.1.symm.trans tenant, both.2.symm.trans user⟩
  | pruneExpired tenantId before' now =>
    rw [or_iff_left (by exact not_false)]
    exact pruneExpired_dead tenantId before'

/-- The row that `mint` adds is not revoked. -/
theorem dead_mint {first_ : List (Op Nonce Token)} (mints : minting.Mints fernet ttl token claims) :
    ¬Dead (run fernet ttl (first_ ++ [minting])) claims.jti := by
  intro dead
  obtain ⟨request, now, endUserId, rfl, found, rfl, -⟩ := mints
  rw [run_snoc] at dead
  have added : (request.claims ttl endUserId now).row ∈
      (mint fernet ttl request now (run fernet ttl first_)).2 := by
    unfold mint
    rw [found]
    exact List.mem_append_right _ (List.mem_singleton_self _)
  exact absurd (dead _ added rfl) Bool.false_ne_true

/-- The row of a token is revoked, or gone, exactly if an operation since revokes it. -/
theorem dead_run {first_ rest : List (Op Nonce Token)}
    (h : Schedule fernet ttl (first_ ++ minting :: rest ++ after))
    (mints : minting.Mints fernet ttl token claims) (early : ∀ op ∈ rest, op.now < claims.exp) :
    Dead (run fernet ttl (first_ ++ minting :: rest)) claims.jti ↔
      ∃ op ∈ rest, op.Revokes token claims := by
  induction rest using List.reverseRecOn generalizing after with
  | nil => exact iff_of_false (dead_mint mints) (by rintro ⟨op, ⟨⟩, -⟩)
  | append_singleton rest op ih =>
    have split_ : first_ ++ minting :: (rest ++ [op]) = (first_ ++ minting :: rest) ++ [op] := by
      rw [List.append_assoc]
      rfl
    rw [split_, List.append_assoc, List.singleton_append] at h
    rw [split_, run_snoc, dead_step h (run_rows h)
      (List.mem_append_right _ List.mem_cons_self) mints
      (early op (List.mem_append_right _ (List.mem_singleton_self op))),
      ih h fun op op_in => early op (List.mem_append_left _ op_in)]
    constructor
    · rintro (⟨other, other_in, revokes⟩ | revokes)
      · exact ⟨other, List.mem_append_left _ other_in, revokes⟩
      · exact ⟨op, List.mem_append_right _ (List.mem_singleton_self op), revokes⟩
    · rintro ⟨other, other_in, revokes⟩
      rcases List.mem_append.mp other_in with old | new
      · exact Or.inl ⟨other, old, revokes⟩
      · rw [List.mem_singleton.mp new] at revokes
        exact Or.inr revokes

/-! ## Resolution -/

/-- What came before an operation came no later. -/
theorem Schedule.earlier (h : Schedule fernet ttl (before ++ op :: after)) :
    ∀ earlier ∈ before, earlier.now ≤ op.now := by
  intro earlier earlier_in
  have ordered := h.ordered
  rw [List.map_append, List.pairwise_append] at ordered
  exact ordered.2.2 _ (List.mem_map.mpr ⟨earlier, earlier_in, rfl⟩) _
    (List.mem_map.mpr ⟨op, List.mem_cons_self, rfl⟩)

/-- A token that was minted resolves exactly while no operation since revoked it. -/
theorem resolve_since {first_ rest : List (Op Nonce Token)} {now : ℤ}
    (h : Schedule fernet ttl (first_ ++ minting :: rest ++ .resolve token now :: after))
    (mints : minting.Mints fernet ttl token claims) (principal : SessionPrincipal) :
    resolve fernet token now (run fernet ttl (first_ ++ minting :: rest)) = .ok principal ↔
      now < claims.exp ∧ (∀ op ∈ rest, ¬op.Revokes token claims) ∧
        principal = claims.principal := by
  rw [resolve_minted (run_rows h) h (List.mem_append_right _ List.mem_cons_self) mints]
  apply and_congr_right
  intro early
  rw [dead_run h mints]
  · rw [not_exists]
    simp only [not_and]
  · intro op op_in
    exact Int.lt_of_le_of_lt (h.earlier op (List.mem_append_right _ (List.mem_cons_of_mem _ op_in)))
      early

theorem resolves {now : ℤ} (h : Schedule fernet ttl (before ++ .resolve token now :: after))
    (principal : SessionPrincipal) :
    resolve fernet token now (run fernet ttl before) = .ok principal ↔
      ∃ claims, Stands fernet ttl before token now claims ∧ principal = claims.principal := by
  constructor
  · intro resolved
    obtain ⟨claims, decrypted, rfl⟩ := resolve_ok resolved
    obtain ⟨minting, minting_in, claims', mints⟩ := h.authentic before _ after rfl token rfl
      (by rw [decrypted]; rfl)
    rw [mints.decrypt, Option.some_inj] at decrypted
    subst decrypted
    obtain ⟨first_, rest, rfl⟩ := List.append_of_mem minting_in
    obtain ⟨early, unrevoked, -⟩ := (resolve_since h mints _).mp resolved
    exact ⟨claims', ⟨first_, minting, rest, rfl, mints, early, unrevoked⟩, rfl⟩
  · rintro ⟨claims, ⟨first_, minting, rest, rfl, mints, early, unrevoked⟩, rfl⟩
    exact (resolve_since h mints _).mpr ⟨early, unrevoked, rfl⟩

theorem isOk_iff {result : Except SessionTokenError SessionPrincipal} :
    result.isOk = true ↔ ∃ principal, result = .ok principal := by
  cases result with
  | error e => exact iff_of_false Bool.false_ne_true (by rintro ⟨_, ⟨⟩⟩)
  | ok principal => exact iff_of_true rfl ⟨principal, rfl⟩

/-- A token that was minted and does not resolve never does again. -/
theorem permanent {now now' : ℤ} {between : List (Op Nonce Token)}
    (h : Schedule fernet ttl
      (before ++ .resolve token now :: between ++ .resolve token now' :: after))
    (minted : ∃ minting ∈ before, ∃ claims, minting.Mints fernet ttl token claims)
    (failed : (resolve fernet token now (run fernet ttl before)).isOk = false) :
    (resolve fernet token now'
      (run fernet ttl (before ++ .resolve token now :: between))).isOk = false := by
  obtain ⟨minting, minting_in, claims, mints⟩ := minted
  obtain ⟨first_, rest, rfl⟩ := List.append_of_mem minting_in
  rw [← Bool.not_eq_true] at failed ⊢
  intro again
  obtain ⟨principal, resolved⟩ := isOk_iff.mp again
  -- what stands later stood before
  have later : Schedule fernet ttl (first_ ++ minting :: (rest ++ .resolve token now :: between) ++
      .resolve token now' :: after) := by
    simpa only [List.append_assoc, List.cons_append] using h
  rw [List.append_assoc, List.cons_append] at resolved
  obtain ⟨early, unrevoked, -⟩ := (resolve_since later mints principal).mp resolved
  have no_later : now ≤ now' := by
    refine later.earlier (.resolve token now) ?_
    exact List.mem_append_right _
      (List.mem_cons_of_mem _ (List.mem_append_right _ List.mem_cons_self))
  rw [List.append_assoc, List.cons_append] at h
  apply failed
  apply isOk_iff.mpr
  refine ⟨claims.principal, (resolve_since h mints _).mpr ⟨?_, ?_, rfl⟩⟩
  · exact Int.lt_of_le_of_lt no_later early
  · exact fun op op_in => unrevoked op (List.mem_append_left _ op_in)

/-- In every schedule a token resolves exactly while it was minted, has not expired and was not
revoked since, to what was fixed when it was minted; and it is never valid again. -/
theorem lawful (fernet : Fernet Nonce Token) (ttl : ℤ) (ops : List (Op Nonce Token))
    (h : Schedule fernet ttl ops) : Lawful fernet ttl ops where
  resolves := by
    rintro before token now after rfl principal
    exact resolves h principal
  permanent := by
    rintro before token now between now' after rfl minted failed
    exact permanent h minted failed

/-- A box that is opened as it was closed, and no other. -/
def box : Fernet Unit (Option Claims) where
  encrypt _ claims := some claims
  decrypt token := token
  undo _ _ := rfl

def guest : Request Unit where
  jti := "1"
  nonce := ()
  tenantId := "t"
  endUser := some "e"

def guestToken : Option Claims := some (guest.claims 3600 "e" 0)

/-- A token that is minted, resolved, revoked and resolved again. -/
theorem lawful_guest : Lawful box 3600 [.mint guest 0, .resolve guestToken 1,
    .revoke guestToken 2, .resolve guestToken 3] := by
  apply lawful box 3600
  refine ⟨by decide, by decide, ?_⟩
  have minted : (Op.mint guest 0 : Op Unit (Option Claims)).Mints box 3600 guestToken
      (guest.claims 3600 "e" 0) := ⟨guest, 0, "e", rfl, rfl, rfl, rfl⟩
  rintro before op after split_ token given _
  cases before with
  | nil =>
    rw [List.nil_append, List.cons.injEq] at split_
    rw [← split_.1] at given
    cases given
  | cons minting before =>
    rw [List.cons_append, List.cons.injEq] at split_
    refine ⟨minting, List.mem_cons_self, guest.claims 3600 "e" 0, ?_⟩
    have op_in : op ∈ before ++ op :: after := List.mem_append_right _ List.mem_cons_self
    rw [← split_.2] at op_in
    have same : token = guestToken := by
      simp only [List.mem_cons, List.not_mem_nil, or_false] at op_in
      rcases op_in with rfl | rfl | rfl <;> exact (Option.some.inj given).symm
    rw [← split_.1, same]
    exact minted

end AgentStudio.Session.Tokens
