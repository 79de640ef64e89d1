import AgentStudio.Access.Evidence

/-!
# Every route keeps to its licence

The parts of a route that only read come first, each with what it has been shown when it
returns; the routes are put together from these.
-/

namespace AgentStudio.Access

open Async Coro

variable {oidc : Oidc} {settings : Settings} {cred : Credentials} {t t' t'' : Answers}

/-! ## Answers stay -/

theorem Answered.later {op : Op} {a : op.Answer} (h : Answered t op a) (grown : t <+: t') :
    Answered t' op a := grown.subset h

theorem answered_last (t : Answers) (op : Op) (a : op.Answer) : Answered (t ++ [⟨op, .ok a⟩]) op a :=
  List.mem_append_right t (List.mem_singleton_self _)

theorem Authenticated.later {principal : Principal}
    (h : Authenticated oidc settings cred t principal) (grown : t <+: t') :
    Authenticated oidc settings cred t' principal := by
  cases h with
  | development off => exact .development off
  | apiKey raw row given read live fresh =>
    refine .apiKey raw row given (read.later grown) live fun expires is => ?_
    obtain ⟨now, clock, within⟩ := fresh expires is
    exact ⟨now, clock.later grown, within⟩
  | session token row bearer marked read live fresh =>
    obtain ⟨now, clock, within⟩ := fresh
    exact .session token row bearer marked (read.later grown) live ⟨now, clock.later grown, within⟩

theorem SigningKey.later {key : List ℕ} (h : SigningKey settings t key) (grown : t <+: t') :
    SigningKey settings t' key := h.imp_right fun read => Answered.later read grown

theorem Proven.later {keyId : String} (h : Proven oidc settings cred keyId t) (grown : t <+: t') :
    Proven oidc settings cred keyId t' := by
  obtain ⟨key, expires, now, signing, clock, rest⟩ := h
  exact ⟨key, expires, now, signing.later grown, clock.later grown, rest⟩

theorem Passed.later {keyId : String} (h : Passed oidc settings cred keyId t) (grown : t <+: t') :
    Passed oidc settings cred keyId t' := by
  obtain ⟨record, read, proven⟩ := h
  exact ⟨record, read.later grown, fun on => (proven on).later grown⟩

theorem Accepted.later {secret code : String} (h : Accepted oidc secret code t) (grown : t <+: t') :
    Accepted oidc secret code t' := by
  obtain ⟨drift, tried, now, clock, is⟩ := h
  exact ⟨drift, tried, now, clock.later grown, is⟩

theorem Signed.later {header : List (String × Json)} {content signature : String}
    (h : Signed oidc settings header content signature t) (grown : t <+: t') :
    Signed oidc settings header content signature t' := by
  cases h with
  | rs256 keys n e algorithm read chosen valid =>
    exact .rs256 keys n e algorithm (read.later grown) chosen valid
  | hs256 secret algorithm given valid => exact .hs256 secret algorithm given valid

theorem Claimed.later {payload : List (String × Json)} {nonce : String} {claims : IdTokenClaims}
    (h : Claimed oidc settings payload nonce claims t) (grown : t <+: t') :
    Claimed oidc settings payload nonce claims t' := by
  obtain ⟨now, clock, fresh⟩ := h.clock
  obtain ⟨document, read, issued⟩ := h.issuer
  exact { h with
    clock := ⟨now, clock.later grown, fresh⟩
    issuer := ⟨document, read.later grown, issued⟩ }

theorem Checked.later {idToken nonce : String} {claims : IdTokenClaims}
    (h : Checked oidc settings idToken nonce claims t) (grown : t <+: t') :
    Checked oidc settings idToken nonce claims t' := by
  obtain ⟨headerPart, payloadPart, signature, header, payload, parts, head, body, signed, claimed⟩ := h
  exact ⟨headerPart, payloadPart, signature, header, payload, parts, head, body, signed.later grown,
    claimed.later grown⟩

/-! ## Parts that only read -/

theorem Quietly.refl (t : Answers) : Quietly t t := ⟨List.prefix_rfl, rfl⟩

theorem Quietly.trans (first : Quietly t t') (next : Quietly t' t'') : Quietly t t'' :=
  ⟨first.grown.trans next.grown, next.done.trans first.done⟩

theorem quietly_ask {op : Op} (read : op.acts = false) (r : Except Raised op.Answer) :
    Quietly t (t ++ [⟨op, r⟩]) :=
  ⟨List.prefix_append t _, by simp [done, read]⟩

theorem quietly_asked (t : Answers) (op : Op) (read : op.acts = false) (a : op.Answer) :
    Quietly t (t ++ [⟨op, .ok a⟩]) := quietly_ask read _

/-- Where calls that do nothing are free. -/
def Free (P : Answers → Op → Prop) : Prop := ∀ t op, op.acts = false → P t op

theorem licensed_free (request : Request) : Free (Licensed oidc settings request) := by
  intro t op read
  cases op <;> first | exact trivial | cases read

/-- `c` only reads, and where it returns, `Q` holds. -/
def Reads {α : Type} (P : Answers → Op → Prop) (t : Answers) (c : Action α)
    (Q : Answers → α → Prop) : Prop :=
  Heeds P t c () fun t' a _ => Quietly t t' ∧ Q t' a

section
variable {α β : Type} {P : Answers → Op → Prop} {c : Action α} {Q : Answers → α → Prop}
  {R : Answers → β → Prop}

namespace Reads

protected theorem pure {a : α} (h : Q t a) : Reads P t (pure a) Q := Heeds.pure ⟨.refl t, h⟩

protected theorem throw (e : Raised) : Reads P t (throw e : Action α) Q := Heeds.throw e

protected theorem bind {k : α → Action β} (h : Reads P t c Q)
    (next : ∀ t' a, Quietly t t' → Q t' a → Reads P t' (k a) R) : Reads P t (c >>= k) R :=
  Heeds.bind h fun t' a _ step =>
    (next t' a step.1 step.2).mono fun _ _ _ rest => ⟨step.1.trans rest.1, rest.2⟩

theorem throw_bind (e : Raised) (k : α → Action β) : Reads P t ((throw e : Action α) >>= k) R :=
  Reads.bind (Q := fun _ _ => False) (.throw e) fun _ _ _ never => never.elim

/-- A check that raises where it fails. -/
theorem check {fails : Prop} [Decidable fails] {e : Raised} {k : PUnit → Action β}
    (next : ¬ fails → Reads P t (k ⟨⟩) R) :
    Reads P t (if fails then (throw e : Action PUnit) >>= k else k ⟨⟩) R := by
  by_cases bad : fails
  · rw [if_pos bad]
    exact throw_bind e k
  · rw [if_neg bad]
    exact next bad

theorem ask_bind (free : Free P) {op : Op} (read : op.acts = false) {k : op.Answer → Action β}
    (next : ∀ a, Reads P (t ++ [⟨op, .ok a⟩]) (k a) R) : Reads P t (ask op >>= k) R :=
  Heeds.call_bind (free t op read) fun a =>
    (next a).mono fun _ _ _ rest => ⟨(quietly_ask read _).trans rest.1, rest.2⟩

theorem post_bind (free : Free P) {op : Op} (read : op.acts = false) {k : Unit → Action β}
    (next : ∀ r, Reads P (t ++ [⟨op, r⟩]) (k ()) R) :
    Reads P t ((Coro.post (I := Calls) op : Action Unit) >>= k) R :=
  Heeds.post_bind (free t op read) fun r =>
    (next r).mono fun _ _ _ rest => ⟨(quietly_ask read _).trans rest.1, rest.2⟩

protected theorem ask (free : Free P) {op : Op} (read : op.acts = false)
    {Q : Answers → op.Answer → Prop} (h : ∀ a, Q (t ++ [⟨op, .ok a⟩]) a) : Reads P t (ask op) Q :=
  Heeds.call (free t op read) fun a => ⟨quietly_ask read _, h a⟩

/-- A handler that raises again. -/
theorem rethrow {handler : Raised → Action α} (h : Reads P t c Q)
    (raises : ∀ e, ∃ e', handler e = throw e') : Reads P t (tryCatch c handler) Q :=
  Heeds.tryCatch h fun t' e _ _ => by
    obtain ⟨e', is⟩ := raises e
    rw [is]
    exact .throw e'

theorem mono {Q' : Answers → α → Prop} (h : Reads P t c Q) (imp : ∀ t a, Q t a → Q' t a) :
    Reads P t c Q' := Heeds.mono h fun _ _ _ both => ⟨both.1, imp _ _ both.2⟩

/-- What was shown before stays shown. -/
theorem later (h : Reads P t c Q) : Reads P t c fun t' a => Quietly t t' ∧ Q t' a :=
  Heeds.mono h fun _ _ _ both => ⟨both.1, both⟩

theorem heeds (h : Reads P t c Q) : Heeds P t c () fun t' a _ => Quietly t t' ∧ Q t' a := h

end Reads

attribute [irreducible] Reads

variable (free : Free P)
include free

theorem acquire_reads (key : String) : Reads P t (acquire key) fun _ _ => True := by
  refine .rethrow (.ask free rfl fun _ => trivial) fun e => ?_
  cases e <;> exact ⟨_, rfl⟩

omit free in
theorem boundTenant_reads (tenantId : Option String) :
    Reads P t (boundTenant tenantId) fun _ u => u = tenantOf tenantId := by
  unfold boundTenant tenantOf
  split
  · rename_i none_
    exact .pure (by rw [none_]; rfl)
  · rename_i text given
    split
    · rename_i u parsed
      exact .pure (by rw [given, Option.bind_some, parsed])
    · exact .throw _

theorem resolveOperatorSession_reads :
    Reads P t (resolveOperatorSession oidc cred) fun t' found =>
      ∀ principal, found = some principal → Authenticated oidc settings cred t' principal := by
  unfold resolveOperatorSession
  split
  · exact .pure fun _ is => by cases is
  · rename_i token bearer
    split
    · exact .pure fun _ is => by cases is
    · rename_i marked
      refine .bind (acquire_reads free _) fun t₁ _ _ _ => ?_
      refine .ask_bind free rfl fun (record : Option OperatorSession) => ?_
      cases record with
      | none => exact .throw _
      | some record =>
        have read := answered_last t₁ (.sessionByHash (oidc.sha256 token)) (some record)
        dsimp only
        split
        · exact .throw_bind _ _
        · rename_i live
          refine .ask_bind free rfl fun (now : Time) => ?_
          split
          · exact .throw_bind _ _
          · rename_i fresh
            refine .bind (boundTenant_reads _) fun t₂ tenantId later bound => .pure ?_
            rintro principal ⟨⟩
            subst bound
            refine .session token record bearer ?_ ((read.later (List.prefix_append _ _)).later
              later.grown) (by simpa using live) ⟨now, (answered_last _ .now now).later later.grown,
                not_lt.mp fresh⟩
            simpa [Option.isSome_iff_ne_none] using marked

theorem authFailure_reads (keyId : Option String) (reason detail : String) :
    Reads P t (authFailure keyId reason detail) fun _ _ => False :=
  .ask_bind free rfl fun _ => .throw _

/-- What a request without a key comes to. -/
theorem session_reads :
    Reads P t (do
      match ← resolveOperatorSession oidc cred with
      | some session => pure session
      | none => throw (.http 401 "Missing X-API-Key header"))
      fun t' principal => Authenticated oidc settings cred t' principal := by
  refine .bind (@resolveOperatorSession_reads oidc settings cred t P free) fun t₁ found _ known => ?_
  cases found with
  | none => exact .throw _
  | some session => exact .pure (known session rfl)

/-- What is left once a row is found to be neither revoked nor past. -/
theorem principal_reads {raw : String} {record : ApiKey} (given : cred.apiKey = some raw)
    (read : Answered t (.keyByHash (oidc.sha256 raw)) (some record)) (live : record.revoked = false)
    (fresh : ∀ expires, record.expiresAt = some expires →
      ∃ now : Time, Answered t .now now ∧ now ≤ expires) :
    Reads P t (do
      Coro.post (I := Calls) (.touch record.id)
      let tenantId ← boundTenant record.tenantId
      pure (record.principal tenantId))
      fun t' principal => Authenticated oidc settings cred t' principal := by
  refine .post_bind free rfl fun r => ?_
  refine .bind (boundTenant_reads _) fun t₁ tenantId later bound => .pure ?_
  subst bound
  exact (Authenticated.apiKey raw record given read live fresh).later
    ((List.prefix_append t _).trans later.grown)

theorem getPrincipal_reads : Reads P t (getPrincipal oidc settings cred) fun t' principal =>
    Authenticated oidc settings cred t' principal := by
  unfold getPrincipal
  split
  · rename_i off
    exact .pure (.development (by simpa using off))
  · split
    · exact session_reads free
    · rename_i raw filled
      have given := (Option.filter_eq_some_iff.mp filled).1
      refine .bind (acquire_reads free _) fun t₁ _ _ _ => ?_
      refine .ask_bind free rfl fun (record : Option ApiKey) => ?_
      cases record with
      | none => exact .bind (authFailure_reads free _ _ _) fun _ _ _ never => never.elim
      | some record =>
        have read := answered_last t₁ (.keyByHash (oidc.sha256 raw)) (some record)
        dsimp only
        split
        · exact .bind (authFailure_reads free _ _ _) fun _ _ _ never => never.elim
        · rename_i live
          have live : record.revoked = false := by simpa using live
          split
          · rename_i expires limited
            refine .ask_bind free rfl fun (now : Time) => ?_
            split
            · exact .bind (authFailure_reads free _ _ _) fun _ _ _ never => never.elim
            · rename_i fresh
              refine principal_reads free given (read.later (List.prefix_append _ _)) live ?_
              intro e is
              obtain rfl := Option.some.inj (limited.symm.trans is)
              exact ⟨now, answered_last _ .now now, not_lt.mp fresh⟩
          · rename_i unlimited
            exact principal_reads free given read live fun e is => absurd is (unlimited e)

/-! ### The second factor -/

omit free in
theorem eq_of_compareDigest {a b : String} (same : Totp.compareDigest a b = some true) : a = b := by
  unfold Totp.compareDigest at same
  split at same
  · simpa using same
  · cases same

theorem mfaSigningKey_reads :
    Reads P t (mfaSigningKey settings) fun t' key => SigningKey settings t' key := by
  have fromFile : Reads P t mfaSigningKey.fromFile fun t' key => SigningKey settings t' key := by
    refine .ask_bind free rfl fun (key : List ℕ) => ?_
    split
    · exact .throw_bind _ _
    · exact .pure (.inr (answered_last t .signingKeyFile key))
  unfold mfaSigningKey
  split
  · rename_i text given
    split
    · exact .pure (.inl ⟨text, given, rfl⟩)
    · exact fromFile
  · exact fromFile

theorem signMfaProof_reads (keyId : String) (expires : ℤ) :
    Reads P t (signMfaProof oidc settings keyId expires) fun t' proof =>
      ∃ key, SigningKey settings t' key ∧ proof = mfaProofText oidc key keyId expires :=
  .bind (mfaSigningKey_reads free) fun _ key _ signing => .pure ⟨key, signing, rfl⟩

theorem verifyMfaProof_reads (proof keyId : String) :
    Reads P t (verifyMfaProof oidc settings proof keyId) fun t' valid => valid = true →
      ∀ cred : Credentials, cred.mfaProof = proof → Proven oidc settings cred keyId t' := by
  unfold verifyMfaProof
  split
  · rename_i claimed second signature parts
    split
    · exact .pure fun never => by cases never
    · rename_i own
      obtain rfl := not_not.mp own
      split
      · exact .pure fun never => by cases never
      · rename_i expires _
        split
        · exact .pure fun never => by cases never
        · refine .ask_bind free rfl fun (now : Time) => ?_
          dsimp only
          split
          · exact .pure fun never => by cases never
          · rename_i within
            obtain ⟨early, late⟩ := not_not.mp within
            have clock := answered_last t .now now
            refine .bind (signMfaProof_reads free claimed expires) fun t₁ expected later signed => ?_
            obtain ⟨key, signing, rfl⟩ := signed
            split
            · rename_i same compared
              refine .pure ?_
              rintro rfl cred given
              have is : mfaProofText oidc key claimed expires = proof := eq_of_compareDigest compared
              exact ⟨key, expires, now, signing, clock.later later.grown, given.trans is.symm,
                ⟨second, signature, given ▸ parts⟩, early, late⟩
            · exact .throw _
  · exact .pure fun never => by cases never

theorem requireMfaProof_reads (principal : Principal) :
    Reads P t (requireMfaProof oidc settings cred principal) fun t' _ =>
      Passed oidc settings cred principal.keyId t' := by
  refine .ask_bind free rfl fun (record : Option ApiKey) => ?_
  have read := answered_last t (.keyById principal.keyId) record
  split
  · split
    · exact .throw_bind _ _
    · refine .bind (verifyMfaProof_reads free _ _) fun t₁ valid later proven => ?_
      split
      · exact .throw _
      · rename_i accepted
        exact .pure ⟨record, read.later later.grown, fun _ =>
          proven (by simpa using accepted) cred rfl⟩
  · rename_i off
    exact .pure ⟨record, read, fun on => absurd on off⟩

theorem tryDrifts_reads (secret code : String) (rest : List ℤ) (sub : rest ⊆ drifts) :
    Reads P t (tryDrifts oidc secret code rest) fun t' found => found = true →
      ∃ drift ∈ drifts, ∃ now : Time, Answered t' .now now ∧
        Totp.totpCode oidc.toExternals secret drift now = some code := by
  induction rest generalizing t with
  | nil => exact .pure fun never => by cases never
  | cons drift rest ih =>
    refine .ask_bind free rfl fun (now : Time) => ?_
    split
    · exact .throw _
    · rename_i expected computed
      split
      · exact .throw _
      · rename_i compared
        refine .pure fun _ => ⟨drift, sub List.mem_cons_self, now, answered_last t .now now, ?_⟩
        exact computed.trans (congrArg some (eq_of_compareDigest compared))
      · exact ih fun d mem => sub (List.mem_cons_of_mem drift mem)

theorem verifyTotp_reads (secret code : String) :
    Reads P t (verifyTotp oidc secret code) fun t' valid =>
      valid = true → Accepted oidc secret code t' := by
  unfold verifyTotp
  dsimp only
  split
  · exact .pure fun never => by cases never
  · exact (tryDrifts_reads free secret (Py.strip code) drifts fun _ mem => mem).mono fun _ _ is => is

theorem decryptStored_reads (stored : String) :
    Reads P t (decryptStored stored) fun t' pending => Answered t' (.decrypt stored) pending := by
  refine .rethrow (.ask free rfl fun pending => answered_last t _ pending) fun e => ?_
  split
  · exact ⟨_, rfl⟩
  · exact ⟨_, rfl⟩

theorem operatorPrincipal_reads : Reads P t (operatorPrincipal oidc settings cred) fun t' principal =>
    Authenticated oidc settings cred t' principal := by
  refine .bind (getPrincipal_reads free) fun t₁ principal _ known => ?_
  unfold requireOperator
  split
  · exact .pure known
  · exact .throw_bind _ _

theorem keyManager_reads : Reads P t (keyManager oidc settings cred) fun t' principal =>
    Authenticated oidc settings cred t' principal ∧
      principal.hasPermission "api_keys:manage" = true := by
  refine .bind (getPrincipal_reads free) fun t₁ principal _ known => ?_
  unfold requirePermission
  split
  · rename_i permitted
    exact .pure ⟨known, permitted⟩
  · exact .throw_bind _ _

/-! ### Identity tokens -/

omit free in
theorem requireConfigured_reads : Reads P t (requireConfigured settings) fun _ _ => True := by
  unfold requireConfigured
  dsimp only
  split
  · exact .throw_bind _ _
  · split
    · exact .throw _
    · exact .pure trivial

theorem discovery_reads :
    Reads P t (discovery settings) fun t' document => Answered t' .discovery document :=
  .bind (requireConfigured_reads) fun t₁ _ _ _ =>
    .ask free rfl fun document => answered_last t₁ .discovery document

omit free in
theorem get_reads (j : Json) (key : String) : Reads P t (j.get key) fun _ value =>
    ∀ items, j = .obj items → value = Json.field items key := by
  unfold Json.get
  split
  · exact .pure fun _ is => by cases is; rfl
  · exact .throw _

omit free in
/-- Only an object has fields. -/
theorem getObj_reads (j : Json) (key : String) : Reads P t (j.get key) fun _ value =>
    ∃ items, j = .obj items ∧ value = Json.field items key := by
  unfold Json.get
  split
  · exact .pure ⟨_, rfl, rfl⟩
  · exact .throw _

omit free in
theorem inAudience_reads (clientId : String) (audience : Json) :
    Reads P t (inAudience clientId audience) fun _ found =>
      found = true → audience.names clientId = true := by
  unfold inAudience
  split
  all_goals first
    | (split
       · exact .throw _
       · exact .pure fun never => by cases never)
    | exact .pure id

theorem checkRs256_reads (signature content : String) (header : List (String × Json))
    (algorithm : (Json.field header "alg").isText "RS256" = true) :
    Reads P t (checkRs256 oidc settings signature content (Json.field header "kid")) fun t' _ =>
      Signed oidc settings header content signature t' := by
  refine .bind (requireConfigured_reads) fun t₁ _ _ _ => ?_
  refine .ask_bind free rfl fun (keys : List Jwk) => ?_
  split
  · exact .throw _
  · rename_i n e chosen
    split
    · exact .throw _
    · rename_i valid
      exact .pure (.rs256 keys n e algorithm (answered_last t₁ .jwks keys) chosen
        (by simpa using valid))

omit free in
theorem checkHs256_reads (signature content : String) (header : List (String × Json))
    (algorithm : (Json.field header "alg").isText "HS256" = true) :
    Reads P t (checkHs256 oidc settings signature content) fun t' _ =>
      Signed oidc settings header content signature t' := by
  unfold checkHs256
  dsimp only
  split
  · exact .throw_bind _ _
  · rename_i filled
    split
    · exact .throw _
    · rename_i valid
      cases given : settings.oidcClientSecret with
      | none => simp [given] at filled
      | some secret =>
        exact .pure (.hs256 secret algorithm given (by simpa [given] using valid))

theorem checkClaims_reads (body : Json) (nonce : String) :
    Reads P t (checkClaims oidc settings body (some nonce)) fun t' claims =>
      ∃ payload, body = .obj payload ∧ Claimed oidc settings payload nonce claims t' := by
  refine .ask_bind free rfl fun (now : Time) => ?_
  have clock := answered_last t .now now
  refine .bind (getObj_reads _ _) fun t₁ exp later₁ isExp => ?_
  obtain ⟨payload, rfl, rfl⟩ := isExp
  refine .bind (get_reads _ _) fun t₂ iat later₂ isIat => ?_
  obtain rfl := isIat payload rfl
  refine .check fun fresh => ?_
  refine .check fun issued => ?_
  refine .bind (discovery_reads free) fun t₃ document later₃ read => ?_
  refine .bind (get_reads _ _) fun t₄ iss later₄ isIss => ?_
  obtain rfl := isIss payload rfl
  refine .check fun issuer => ?_
  refine .bind (get_reads _ _) fun t₅ aud later₅ isAud => ?_
  obtain rfl := isAud payload rfl
  refine .bind (inAudience_reads _ _) fun t₆ found later₆ named => ?_
  refine .check fun audience => ?_
  refine .bind (get_reads _ _) fun t₇ given later₇ isNonce => ?_
  obtain rfl := isNonce payload rfl
  refine .check fun answers => ?_
  refine .bind (get_reads _ _) fun t₈ sub later₈ isSub => ?_
  obtain rfl := isSub payload rfl
  refine .check fun known => ?_
  refine .bind (get_reads _ _) fun t₉ email later₉ _ => ?_
  refine .bind (get_reads _ _) fun t₁₀ name later₁₀ _ => ?_
  refine .bind (get_reads _ _) fun t₁₁ roles later₁₁ isRoles => .pure ?_
  obtain rfl := isRoles payload rfl
  have sinceRead := (((((((later₄.trans later₅).trans later₆).trans later₇).trans later₈).trans
    later₉).trans later₁₀).trans later₁₁).grown
  have sinceClock := ((later₁.trans later₂).trans later₃).grown.trans sinceRead
  exact ⟨payload, rfl, {
    clock := ⟨now, clock.later sinceClock, not_not.mp fresh, not_not.mp issued⟩
    issuer := ⟨document, read.later sinceRead, not_not.mp issuer⟩
    audience := named (not_not.mp audience)
    nonce := by simpa using answers
    sub := ⟨not_not.mp known, rfl⟩
    roles := rfl }⟩

theorem verifyIdToken_reads (idToken nonce : String) :
    Reads P t (verifyIdToken oidc settings idToken (some nonce)) fun t' claims =>
      Checked oidc settings idToken nonce claims t' := by
  unfold verifyIdToken
  split
  · rename_i headerPart payloadPart signature parts
    split
    · rename_i header payload head body
      refine .bind (getObj_reads header "alg") fun t₁ algorithm later₁ isObj => ?_
      obtain ⟨header, rfl, rfl⟩ := isObj
      have claimed {t₂ : Answers} (signed : Signed oidc settings header
          (headerPart ++ "." ++ payloadPart) signature t₂) :
          Reads P t₂ (checkClaims oidc settings payload (some nonce)) fun t' claims =>
            Checked oidc settings idToken nonce claims t' := by
        refine (checkClaims_reads free payload nonce).later.mono fun t₃ claims shown => ?_
        obtain ⟨later, items, rfl, claimed⟩ := shown
        exact ⟨headerPart, payloadPart, signature, header, items, parts, head, body,
          signed.later later.grown, claimed⟩
      split
      · rename_i algorithm
        refine .bind (get_reads _ "kid") fun t₂ kid _ isKid => ?_
        obtain rfl := isKid header rfl
        exact .bind (checkRs256_reads free signature _ header algorithm) fun _ _ _ => claimed
      · split
        · rename_i algorithm
          exact .bind (checkHs256_reads signature _ header algorithm) fun _ _ _ => claimed
        · exact .throw_bind _ _
    · exact .throw _
  · exact .throw _

theorem authorizationUrl_reads (state nonce : String) :
    Reads P t (authorizationUrl oidc settings state nonce) fun _ _ => True :=
  .bind (discovery_reads free) fun _ _ _ _ => .pure trivial

theorem exchangeCode_reads (code : String) :
    Reads P t (exchangeCode settings code) fun _ _ => True := by
  refine .bind (discovery_reads free) fun _ _ _ _ => ?_
  refine .check fun _ => ?_
  refine .ask_bind free rfl fun _ => ?_
  refine .bind (get_reads _ _) fun _ _ _ _ => ?_
  exact .check fun _ => .pure trivial

end

theorem effectiveTenant_reads {P : Answers → Op → Prop} (principal : Principal)
    (request : ApiKeyCreateRequest) :
    Reads P t (effectiveTenant principal request) fun _ tenantId =>
      (principal.tenantId = none → tenantId = request.tenantId) ∧
        ∀ tenant, principal.tenantId = some tenant →
          tenantId = some (Py.Uuid.str tenant) ∧ request.role ≠ superAdmin := by
  unfold effectiveTenant
  split
  · rename_i unbound
    exact .pure ⟨fun _ => rfl, fun _ bound => by simp [unbound] at bound⟩
  · rename_i tenant bound
    refine .check fun _ => ?_
    refine .check fun lower => .pure ⟨fun unbound => by simp [unbound] at bound, fun other is => ?_⟩
    obtain rfl := Option.some.inj (bound.symm.trans is)
    exact ⟨rfl, lower⟩

/-! ## The routes -/

/-- The calls that `c` makes after `t` are licensed. -/
def Keeps {α : Type} (oidc : Oidc) (settings : Settings) (request : Request) (t : Answers)
    (c : Action α) : Prop :=
  Heeds (Licensed oidc settings request) t c () fun _ _ _ => True

section
variable {α β : Type} {request : Request} {c : Action α}

namespace Keeps

theorem heeds_bind {Q : Answers → α → Unit → Prop} {k : α → Action β}
    (h : ∀ {P : Answers → Op → Prop}, Free P → Heeds P t c () Q)
    (next : ∀ t' a s, Q t' a s → Keeps oidc settings request t' (k a)) :
    Keeps oidc settings request t (c >>= k) := Heeds.bind (h (licensed_free request)) next

theorem reads_bind {Q : Answers → α → Prop} {k : α → Action β}
    (h : ∀ {P : Answers → Op → Prop}, Free P → Reads P t c Q)
    (next : ∀ t' a, Quietly t t' → Q t' a → Keeps oidc settings request t' (k a)) :
    Keeps oidc settings request t (c >>= k) :=
  heeds_bind (fun free => (h free).heeds) fun t' a _ step => next t' a step.1 step.2

theorem reads {Q : Answers → α → Prop} (h : ∀ {P : Answers → Op → Prop}, Free P → Reads P t c Q) :
    Keeps oidc settings request t c :=
  Heeds.mono (h (licensed_free request)).heeds fun _ _ _ _ => trivial

theorem ask_bind {op : Op} {k : op.Answer → Action β} (judged : Licensed oidc settings request t op)
    (next : ∀ a, Keeps oidc settings request (t ++ [⟨op, .ok a⟩]) (k a)) :
    Keeps oidc settings request t (ask op >>= k) := Heeds.call_bind judged next

protected theorem pure (a : α) : Keeps oidc settings request t (pure a : Action α) :=
  Heeds.pure trivial

protected theorem throw (e : Raised) : Keeps oidc settings request t (throw e : Action α) :=
  Heeds.throw e

theorem check {fails : Prop} [Decidable fails] {e : Raised} {k : PUnit → Action β}
    (next : ¬ fails → Keeps oidc settings request t (k ⟨⟩)) :
    Keeps oidc settings request t (if fails then (throw e : Action PUnit) >>= k else k ⟨⟩) := by
  by_cases bad : fails
  · rw [if_pos bad]
    exact Heeds.bind (Q := fun _ _ _ => False) (Heeds.throw e) fun _ _ _ never => never.elim
  · rw [if_neg bad]
    exact next bad

/-- What is kept to along the way is kept to in every run. -/
theorem following {c : Action α} (h : Keeps oidc settings request [] c) {t : Answers}
    {w : Except Raised α × Unit} (run : (c ()).Runs t w) : Following (Licensed oidc settings request) t :=
  Heeds.following h run

end Keeps

attribute [irreducible] Keeps

end

theorem done_read {op : Op} {r : Except Raised op.Answer} (read : op.acts = false) :
    done (t ++ [⟨op, r⟩]) = done t := (quietly_ask read r).done

theorem done_act {op : Op} {r : Except Raised op.Answer} (acts : op.acts = true) :
    done (t ++ [⟨op, r⟩]) = done t ++ [op] := by
  simp [done, acts]

theorem oidcAuthorize_keeps :
    Keeps oidc settings .oidcAuthorize [] (oidcAuthorize oidc settings) := by
  refine .reads_bind (Q := fun t' found => Answered t' .token found.2.1) (fun free => ?_) ?_
  · refine .rethrow ?_ fun e => ?_
    · refine .ask_bind free rfl fun state => ?_
      refine .ask_bind free rfl fun nonce => ?_
      refine .bind (authorizationUrl_reads free _ _) fun t' url later _ => .pure ?_
      exact (answered_last _ .token nonce).later later.grown
    · cases e <;> exact ⟨_, rfl⟩
  · rintro t₁ ⟨state, nonce, url⟩ quiet read
    refine .ask_bind trivial fun _ => ?_
    refine .ask_bind trivial fun (now : Time) => ?_
    refine .ask_bind ⟨rfl, ?_, ?_, now, answered_last _ .now now, rfl⟩ fun _ => .pure _
    · exact (done_read rfl).trans ((done_read rfl).trans quiet.done)
    · exact read.later ((List.prefix_append _ _).trans (List.prefix_append _ _))

/-- What a callback makes of a code, at the state it popped. -/
theorem claims_heeds {P : Answers → Op → Prop} (free : Free P) (code nonce : String) :
    Heeds P t (onOidcError (do
        let idToken ← exchangeCode settings code
        match idToken with
        | .str idToken =>
          let claims ← verifyIdToken oidc settings idToken (some nonce)
          pure (some claims)
        | _ => throw (.exception "object has no attribute 'split'"))
      fun _ => pure none) () fun t' found _ => ∀ claims, found = some claims →
        Quietly t t' ∧ ∃ idToken, Checked oidc settings idToken nonce claims t' := by
  refine Heeds.tryCatch ?_ fun t' e _ _ => ?_
  · refine Heeds.mono (Q := fun t' found _ => Quietly t t' ∧ ∀ claims, found = some claims →
      ∃ idToken, Checked oidc settings idToken nonce claims t') ?_ fun _ _ _ both claims is =>
        ⟨both.1, both.2 claims is⟩
    refine Reads.heeds ?_
    refine .bind (exchangeCode_reads free code) fun t₁ token _ _ => ?_
    split
    · rename_i idToken
      refine .bind (verifyIdToken_reads free idToken nonce) fun _ claims _ checked => .pure ?_
      rintro _ ⟨⟩
      exact ⟨idToken, checked⟩
    · exact .throw _
  · cases e
    case oidcError detail => exact .pure fun _ is => by cases is
    all_goals exact .throw _

theorem oidcCallback_keeps (code state error : Option String) :
    Keeps oidc settings (.oidcCallback code state error) [] (oidcCallback oidc settings code state error)
    := by
  unfold oidcCallback
  split
  · exact .pure _
  refine .ask_bind ⟨rfl, code, state, error, rfl, rfl⟩ fun (entry : Option StateEntry) => ?_
  have popped := answered_last [] (.popState (state.getD "")) entry
  cases entry with
  | none => exact .pure _
  | some entry =>
    refine .ask_bind trivial fun (returned : Time) => ?_
    have clock := answered_last ([⟨.popState (state.getD ""), .ok (some entry)⟩] : Answers) .now
      returned
    split
    · exact .pure _
    rename_i early
    split
    · exact .pure _
    refine .heeds_bind (fun free => claims_heeds free (code.getD "") entry.nonce) ?_
    intro t₁ claims _ checked
    cases claims with
    | none => exact .pure _
    | some claims =>
      obtain ⟨quiet, idToken, checked⟩ := checked claims rfl
      dsimp only
      cases mapped : mapOidcRole settings claims.roles with
      | none => exact .pure _
      | some role =>
        refine .ask_bind trivial fun exchange => ?_
        refine .ask_bind trivial fun tidied => ?_
        refine .ask_bind trivial fun (now : Time) => ?_
        refine .ask_bind ⟨code, state, error, rfl, ?_, ?_⟩ fun _ => .pure _
        · calc done _ = done t₁ := ((done_read rfl).trans (done_read rfl)).trans (done_read rfl)
            _ = [.popState (state.getD "")] :=
              quiet.done.trans ((done_read rfl).trans (done_act rfl))
        · have since : t₁ <+: t₁ ++ [⟨.token, .ok exchange⟩] ++ [⟨.pruneStores, .ok tidied⟩] ++
              [⟨.now, .ok now⟩] := by
            rw [List.append_assoc, List.append_assoc]
            exact List.prefix_append t₁ _
          exact ⟨entry, ((popped.later (List.prefix_append _ _)).later quiet.grown).later since,
            returned, idToken, claims, now, (clock.later quiet.grown).later since, not_lt.mp early, checked.later since, rfl, mapped,
            rfl, answered_last _ .now now, rfl⟩

theorem oidcExchange_keeps (code : String) :
    Keeps oidc settings (.oidcExchange code) [] (oidcExchange code) := by
  refine .ask_bind ⟨rfl, rfl⟩ fun (entry : Option CodeEntry) => ?_
  have popped := answered_last [] (.popCode code) entry
  cases entry with
  | none => exact .throw _
  | some entry =>
    refine .ask_bind trivial fun (now : Time) => ?_
    refine .check fun fresh => ?_
    refine .ask_bind ⟨code, entry, now, rfl, (done_read rfl).trans (done_act rfl),
      popped.later (List.prefix_append _ _), answered_last _ .now now, not_lt.mp fresh, rfl⟩
      fun made => ?_
    exact .ask_bind trivial fun _ => .pure _

theorem mfaStatus_keeps : Keeps oidc settings (.mfaStatus cred) [] (mfaStatus oidc settings cred) := by
  refine .reads_bind (fun free => getPrincipal_reads free) fun t₁ principal _ _ => ?_
  refine .ask_bind trivial fun (record : Option ApiKey) => ?_
  cases record with
  | none => exact .pure _
  | some record => exact .pure _

theorem mfaSetup_keeps : Keeps oidc settings (.mfaSetup cred) [] (mfaSetup oidc settings cred) := by
  refine .reads_bind (fun free => operatorPrincipal_reads free) fun t₁ principal quiet known => ?_
  refine .ask_bind trivial fun (record : Option ApiKey) => ?_
  refine .check fun _ => ?_
  refine .ask_bind trivial fun (token : List ℕ) => ?_
  refine .reads_bind (Q := fun t' encrypted =>
    Answered t' (.encrypt (Totp.generateSecret token)) encrypted) (fun free => ?_)
    fun t₂ encrypted later stored => ?_
  · refine .rethrow (.ask free rfl fun encrypted => answered_last _ _ encrypted) fun e => ?_
    cases e <;> exact ⟨_, rfl⟩
  · have since : Quietly t₁ t₂ := (quietly_asked t₁ (.keyById principal.keyId) rfl record).trans
      ((quietly_asked _ .tokenBytes rfl token).trans later)
    have judged : Licensed oidc settings (.mfaSetup cred) t₂
        (.updateMfa principal.keyId (some encrypted) false) :=
      ⟨(quiet.trans since).done, cred, principal, rfl, known.later since.grown,
        .inl ⟨token, encrypted, rfl, rfl, rfl, (answered_last _ .tokenBytes token).later later.grown,
          stored⟩⟩
    exact .ask_bind judged fun _ => .pure _

theorem mfaConfirm_keeps (code : String) :
    Keeps oidc settings (.mfaConfirm cred code) [] (mfaConfirm oidc settings cred code) := by
  refine .reads_bind (fun free => operatorPrincipal_reads free) fun t₁ principal quiet known => ?_
  refine .ask_bind trivial fun (record : Option ApiKey) => ?_
  have found := answered_last t₁ (.keyById principal.keyId) record
  split
  · exact .throw _
  · rename_i stored is
    obtain ⟨record, rfl, secret⟩ := Option.bind_eq_some_iff.mp (Option.filter_eq_some_iff.mp is).1
    refine .reads_bind (fun free => decryptStored_reads free stored) fun t₂ pending later₂ read => ?_
    refine .reads_bind (fun free => verifyTotp_reads free pending code) fun t₃ valid later₃ accepted => ?_
    refine .check fun wrong => ?_
    have after := later₂.trans later₃
    have since := (quietly_asked t₁ (.keyById principal.keyId) rfl (some record)).trans after
    refine .ask_bind ⟨(quiet.trans since).done, cred, principal, rfl, known.later since.grown,
      .inr (.inl ⟨code, stored, pending, record, rfl, rfl, rfl, found.later after.grown, secret,
        read.later later₃.grown, accepted (not_not.mp wrong)⟩)⟩ fun _ => ?_
    exact .ask_bind trivial fun _ => .pure _

/-- A proof token is handed out for a code that was accepted, and lives for its time from then. -/
def Minted (oidc : Oidc) (settings : Settings) (cred : Credentials) (code proof : String)
    (t : Answers) : Prop :=
  ∃ (principal : Principal) (record : ApiKey) (stored secret : String) (key : List ℕ) (now : Time),
    Authenticated oidc settings cred t principal ∧
      Answered t (.keyById principal.keyId) (some record) ∧ record.mfaEnabled = true ∧
        record.mfaSecret = some stored ∧ Answered t (.decrypt stored) secret ∧
          Accepted oidc secret code t ∧ Answered t .now now ∧ SigningKey settings t key ∧
            proof = mfaProofText oidc key principal.keyId
              ((now + seconds settings.mfaProofTtlSeconds) / 1000000 : ℕ)

theorem mfaProof_reads {P : Answers → Op → Prop} (free : Free P) (code : String) :
    Reads P [] (mfaProof oidc settings cred code) fun t' response => ∀ proof expires,
      response = .proof proof expires → Minted oidc settings cred code proof t' := by
  refine .bind (operatorPrincipal_reads free) fun t₁ principal _ known => ?_
  refine .ask_bind free rfl fun (record : Option ApiKey) => ?_
  have read := answered_last t₁ (.keyById principal.keyId) record
  split
  · exact .throw _
  · rename_i stored found
    obtain ⟨found, -⟩ := Option.filter_eq_some_iff.mp found
    obtain ⟨record', kept, secret⟩ := Option.bind_eq_some_iff.mp found
    obtain ⟨rfl, enabled⟩ := Option.filter_eq_some_iff.mp kept
    refine .bind (decryptStored_reads free stored) fun t₂ pending later₂ decrypted => ?_
    refine .bind (verifyTotp_reads free pending code) fun t₃ valid later₃ accepted => ?_
    refine .check fun wrong => ?_
    refine .ask_bind free rfl fun (now : Time) => ?_
    refine .bind (signMfaProof_reads free _ _) fun t₄ proof later₄ signed => .pure ?_
    obtain ⟨key, signing, rfl⟩ := signed
    rintro _ _ ⟨⟩
    have last := (quietly_asked t₃ .now rfl now).trans later₄
    have since := later₃.trans last
    have after := later₂.trans since
    exact ⟨principal, _, stored, pending, key, now,
      known.later ((List.prefix_append _ _).trans after.grown), read.later after.grown, enabled, secret,
      decrypted.later since.grown, (accepted (not_not.mp wrong)).later last.grown,
      (answered_last t₃ .now now).later later₄.grown, signing, rfl⟩

theorem mfaDisable_keeps : Keeps oidc settings (.mfaDisable cred) [] (mfaDisable oidc settings cred)
    := by
  refine .reads_bind (fun free => operatorPrincipal_reads free) fun t₁ principal quiet known => ?_
  refine .ask_bind trivial fun (record : Option ApiKey) => ?_
  have read := answered_last t₁ (.keyById principal.keyId) record
  have asked := quiet.trans (quietly_asked t₁ (.keyById principal.keyId) rfl record)
  split
  · rename_i off
    exact .ask_bind ⟨asked.done, cred, principal, rfl, known.later (List.prefix_append _ _),
      .inr (.inr ⟨rfl, rfl, rfl, record, read, fun on => absurd on off⟩)⟩ fun _ => .pure _
  · refine .check fun _ => ?_
    refine .reads_bind (fun free => verifyMfaProof_reads free cred.mfaProof principal.keyId)
      fun t₂ valid later proven => ?_
    refine .check fun wrong => ?_
    refine .ask_bind ⟨(asked.trans later).done, cred, principal, rfl,
      known.later ((List.prefix_append _ _).trans later.grown),
      .inr (.inr ⟨rfl, rfl, rfl, record, read.later later.grown, fun _ =>
        proven (not_not.mp wrong) cred rfl⟩)⟩ fun _ => ?_
    exact .ask_bind trivial fun _ => .pure _

theorem createApiKey_keeps (request : ApiKeyCreateRequest) :
    Keeps oidc settings (.createApiKey cred request) [] (createApiKey oidc settings cred request) := by
  refine .reads_bind (fun free => keyManager_reads free) fun t₁ principal quiet known => ?_
  obtain ⟨known, permitted⟩ := known
  refine .reads_bind (fun free => requireMfaProof_reads free principal) fun t₂ _ later₂ passed => ?_
  refine .check fun listed => ?_
  refine .reads_bind (fun _ => effectiveTenant_reads principal request) fun t₃ tenantId later₃ is => ?_
  refine .ask_bind trivial fun (token : String) => ?_
  have since := (later₂.trans later₃).trans (quietly_asked t₃ .token rfl token)
  refine .ask_bind ⟨cred, request, principal, rfl, (quiet.trans since).done, known.later since.grown,
    passed.later (later₃.trans (quietly_asked t₃ .token rfl token)).grown, permitted, ⟨rfl, not_not.mp listed⟩, rfl,
    is.1, is.2⟩ fun _ => ?_
  exact .ask_bind trivial fun _ => .pure _

theorem listApiKeys_keeps :
    Keeps oidc settings (.listApiKeys cred) [] (listApiKeys oidc settings cred) := by
  refine .reads_bind (fun free => keyManager_reads free) fun t₁ principal _ _ => ?_
  refine .ask_bind trivial fun (rows : List ApiKey) => ?_
  split
  · exact .pure _
  · exact .pure _

theorem revokeApiKey_keeps (keyId : String) :
    Keeps oidc settings (.revokeApiKey cred keyId) [] (revokeApiKey oidc settings cred keyId) := by
  refine .reads_bind (fun free => keyManager_reads free) fun t₁ principal quiet known => ?_
  obtain ⟨known, permitted⟩ := known
  refine .reads_bind (fun free => requireMfaProof_reads free principal) fun t₂ _ later passed => ?_
  refine .ask_bind trivial fun (rows : List ApiKey) => ?_
  have read := answered_last t₂ .listKeys rows
  split
  · exact .throw _
  · rename_i target found
    refine .check fun own => ?_
    have since := later.trans (quietly_asked t₂ .listKeys rfl rows)
    refine .ask_bind ⟨cred, principal, rfl, (quiet.trans since).done, known.later since.grown,
      passed.later (List.prefix_append _ _), permitted, rows, target, read,
      List.mem_of_find?_eq_some found, by simpa using List.find?_some found, ?_⟩
      fun (revoked : Bool) => ?_
    · intro tenant bound
      simpa [bound] using own
    · refine .check fun _ => ?_
      exact .ask_bind trivial fun _ => .pure _

theorem handle_keeps (request : Request) :
    Keeps oidc settings request [] (handle oidc settings request) := by
  cases request with
  | oidcAuthorize => exact oidcAuthorize_keeps
  | oidcCallback code state error => exact oidcCallback_keeps code state error
  | oidcExchange code => exact oidcExchange_keeps code
  | mfaStatus cred => exact mfaStatus_keeps
  | mfaSetup cred => exact mfaSetup_keeps
  | mfaConfirm cred code => exact mfaConfirm_keeps code
  | mfaProof cred code =>
    exact .reads fun free => (mfaProof_reads free code).mono fun _ _ _ => trivial
  | mfaDisable cred => exact mfaDisable_keeps
  | createApiKey cred request => exact createApiKey_keeps request
  | listApiKeys cred => exact listApiKeys_keeps
  | revokeApiKey cred keyId => exact revokeApiKey_keeps keyId

/-- Whatever a request does was called for by what it had been answered. -/
theorem routes_licensed : Pool.Judges (serve oidc settings) (Licensed oidc settings) :=
  fun request _ _ run => (handle_keeps request).following run

end AgentStudio.Access
