import AgentStudio.Access.Keys

/-!
# How a second factor comes about

Over every interleaving: a key asks for a second factor only with a secret that a request of its
own generated, and only after a request of its own has shown a code of that very secret.

* `mfa_cases`: where a row has its second factor from, one call at a time.
* `enabled_confirmed`: what turned the second factor on, and that it stands last.
* `demands_kept`: every request that begins later finds the second factor on.
* `second_factor`: the code behind each key that is made or revoked, where nobody but the service
  makes proof tokens.
-/

namespace AgentStudio.Access

open Async

section
variable (oidc : Oidc) (settings : Settings) (init : Store)

/-- After the calls before it, this one stores a new secret for its own key. -/
def OfferedBy (pre : Calls.History) (e : Stamp Request Calls Raised) (id stored : String) : Prop :=
  ∃ cred principal token, e.call = .mfaSetup cred ∧ e.op = .updateMfa id (some stored) false ∧
    principal.keyId = id ∧ Authenticated oidc settings cred (History.own pre e.number) principal ∧
      Answered (History.own pre e.number) .tokenBytes token ∧
        Answered (History.own pre e.number) (.encrypt (Totp.generateSecret token)) stored

/-- The secret of this key was stored from the start, or a request of the key stored it. -/
def Offered (h : Calls.History) (id stored : String) : Prop :=
  (∃ old ∈ init.keys, old.id = id ∧ old.mfaSecret = some stored) ∨
    ∃ pre e post, h = pre ++ e :: post ∧ OfferedBy oidc settings pre e id stored

/-- After the calls before it, this one turns the second factor of its own key on: the secret
had been stored, and the request came with a code of it. -/
def ConfirmedBy (pre : Calls.History) (e : Stamp Request Calls Raised) (id stored : String) : Prop :=
  ∃ cred principal code pending, e.call = .mfaConfirm cred code ∧
    e.op = .updateMfa id (some stored) true ∧ principal.keyId = id ∧
      Authenticated oidc settings cred (History.own pre e.number) principal ∧
        Offered oidc settings init pre id stored ∧
          Answered (History.own pre e.number) (.decrypt stored) pending ∧
            Accepted oidc pending code (History.own pre e.number)

/-- No call that was answered has touched the second factor of this key. -/
def Untouched (h : Calls.History) (id : String) : Prop :=
  ∀ e ∈ h, ∀ secret enabled found, e.event ≠ ⟨.updateMfa id secret enabled, .ok found⟩

/-- What turned the second factor of the row on, with nothing after it. -/
inductive Enrolled (h : Calls.History) (row : ApiKey) : Prop
  | old (old : ApiKey) (there : old ∈ init.keys) (id : old.id = row.id)
      (secret : old.mfaSecret = row.mfaSecret) (enabled : old.mfaEnabled = true)
      (since : Untouched h row.id) : Enrolled h row
  | confirmed (pre post : Calls.History) (e : Stamp Request Calls Raised) (stored : String)
      (cut : h = pre ++ e :: post) (secret : row.mfaSecret = some stored)
      (by_ : ConfirmedBy oidc settings init pre e row.id stored) (since : Untouched post row.id) :
      Enrolled h row

/-- Secrets were offered, in the store and wherever a row was read, and what is on is enrolled. -/
structure Enrolling (h : Calls.History) (s : Store) : Prop where
  offered : ∀ row ∈ s.keys, ∀ stored, row.mfaSecret = some stored →
    Offered oidc settings init h row.id stored
  read : ∀ e ∈ h, ∀ id row, e.event = ⟨.keyById id, .ok (some row)⟩ → ∀ stored,
    row.mfaSecret = some stored → Offered oidc settings init h id stored
  enrolled : ∀ row ∈ s.keys, row.mfaEnabled = true → Enrolled oidc settings init h row

end

section
variable {oidc : Oidc} {settings : Settings} {init : Store} {h : Calls.History} {row : ApiKey}
  {s s' : Store} {e : Stamp Request Calls Raised}

theorem Offered.snoc {id stored : String} (offered : Offered oidc settings init h id stored)
    (e : Stamp Request Calls Raised) : Offered oidc settings init (h ++ [e]) id stored := by
  rcases offered with there | ⟨pre, e', post, rfl, by_⟩
  · exact .inl there
  · exact .inr ⟨pre, e', post ++ [e], by simp, by_⟩

theorem Untouched.snoc {id : String} (untouched : Untouched h id)
    (last : ∀ secret enabled found, e.event ≠ ⟨.updateMfa id secret enabled, .ok found⟩) :
    Untouched (h ++ [e]) id := by
  intro e' mem
  rcases List.mem_append.mp mem with mem | mem
  · exact untouched e' mem
  · rw [List.mem_singleton.mp mem]
    exact last

/-- Where a row of the store has its second factor from: it was so before, and no call that was
answered touched it; or it is new and has none; or the call gave it. -/
theorem mfa_cases (reply : Replies oidc settings e.number e.call e.op s e.reply s')
    (mem : row ∈ s'.keys) :
    (∃ old ∈ s.keys, old.id = row.id ∧ old.mfaSecret = row.mfaSecret ∧
      old.mfaEnabled = row.mfaEnabled ∧
        ∀ secret enabled found, e.event ≠ ⟨.updateMfa row.id secret enabled, .ok found⟩) ∨
    (∀ old ∈ s.keys, old.id ≠ row.id) ∧ row.mfaSecret = none ∧ row.mfaEnabled = false ∨
      e.op = .updateMfa row.id row.mfaSecret row.mfaEnabled := by
  obtain ⟨number, call, op, r⟩ := e
  have given {id : String} {secret : Option String} {enabled : Bool} (is : row.id = id)
      (there : row ∈ (s.updateMfa id secret enabled).keys) :
      row.mfaSecret = secret ∧ row.mfaEnabled = enabled := by
    obtain ⟨old, -, rfl⟩ := List.mem_map.mp there
    by_cases mine : old.id = id
    · rw [if_pos mine]
      exact ⟨rfl, rfl⟩
    · rw [if_neg mine] at is
      exact absurd is mine
  by_cases touched : ∃ secret enabled found,
      (⟨op, r⟩ : Event Calls Raised) = ⟨.updateMfa row.id secret enabled, .ok found⟩
  · obtain ⟨secret, enabled, found, is⟩ := touched
    cases is
    obtain ⟨_, stated⟩ := reply
    obtain ⟨-, rfl⟩ := Stated.answer stated
    obtain ⟨is, on⟩ := given rfl mem
    exact .inr (.inr (by rw [is, on]))
  · have untouched : ∀ secret enabled found,
        (⟨op, r⟩ : Event Calls Raised) ≠ ⟨.updateMfa row.id secret enabled, .ok found⟩ :=
      fun secret enabled found is => touched ⟨secret, enabled, found, is⟩
    have moved : Moved oidc s op s' := replies_moved reply
    cases moved with
    | updateMfa id secret enabled =>
      by_cases mine : row.id = id
      · obtain ⟨is, on⟩ := given mine mem
        exact .inr (.inr (by rw [mine, is, on]))
      · obtain ⟨old, there, is⟩ := List.mem_map.mp mem
        by_cases other : old.id = id
        · rw [if_pos other] at is
          exact absurd (is ▸ other) mine
        · rw [if_neg other] at is
          exact .inl ⟨old, there, is ▸ rfl, is ▸ rfl, is ▸ rfl, untouched⟩
    | revokeKey id =>
      obtain ⟨old, there, is⟩ := List.mem_map.mp mem
      refine .inl ⟨old, there, ?_, ?_, ?_, untouched⟩ <;> (rw [← is]; split <;> rfl)
    | createKey key id fresh =>
      rcases List.mem_append.mp mem with mem | mem
      · exact .inl ⟨row, mem, rfl, rfl, rfl, untouched⟩
      · rw [List.mem_singleton.mp mem]
        exact .inr (.inl ⟨fresh, rfl, rfl⟩)
    | _ => exact .inl ⟨row, mem, rfl, rfl, rfl, untouched⟩

/-- A call that changes a second factor stores what was offered, and turns on what was
confirmed. -/
theorem updates_enrolling {id : String} {secret : Option String} {enabled : Bool}
    (enrolling : Enrolling oidc settings init h s) (op : e.op = .updateMfa id secret enabled)
    (licensed : Licensed oidc settings e.call (History.own h e.number) e.op) :
    (∀ stored, secret = some stored → Offered oidc settings init (h ++ [e]) id stored) ∧
      (enabled = true → ∃ stored, secret = some stored ∧
        ConfirmedBy oidc settings init h e id stored) := by
  have is := op
  rw [op] at licensed
  obtain ⟨-, cred, principal, rfl, auth, how⟩ := licensed
  rcases how with ⟨token, encrypted, call, rfl, rfl, drawn, stored⟩ |
    ⟨code, stored, pending, record, call, rfl, rfl, found, has, read, accepted⟩ | ⟨-, rfl, rfl, -⟩
  · refine ⟨?_, nofun⟩
    rintro _ ⟨⟩
    exact .inr ⟨h, e, [], rfl, cred, principal, token, call, is, rfl, auth, drawn, stored⟩
  · obtain ⟨e', mem, -, event⟩ := mem_own.mp found
    have offered := enrolling.read e' mem _ record event stored has
    refine ⟨?_, fun _ => ⟨stored, rfl, ?_⟩⟩
    · rintro _ ⟨⟩
      exact offered.snoc e
    · exact ⟨cred, principal, code, pending, call, is, rfl, auth, offered, read, accepted⟩
  · exact ⟨nofun, nofun⟩

theorem enrolling_step (enrolling : Enrolling oidc settings init h s)
    (licensed : Licensed oidc settings e.call (History.own h e.number) e.op)
    (reply : Replies oidc settings e.number e.call e.op s e.reply s') :
    Enrolling oidc settings init (h ++ [e]) s' := by
  refine ⟨?_, ?_, ?_⟩
  · intro row mem stored has
    rcases mfa_cases reply mem with ⟨old, there, id, secret, -, -⟩ | ⟨-, is, -⟩ | op
    · exact id ▸ (enrolling.offered old there stored (secret.trans has)).snoc e
    · rw [is] at has
      cases has
    · exact (updates_enrolling enrolling op licensed).1 stored has
  · intro e' mem id row event stored has
    rcases List.mem_append.mp mem with mem | mem
    · exact (enrolling.read e' mem id row event stored has).snoc e
    · rw [List.mem_singleton.mp mem] at event
      obtain ⟨number, call, op, r⟩ := e
      cases event
      have found := (Stated.answer reply).1.symm
      have named : row.id = id := by simpa using List.find?_some found
      exact named ▸ (enrolling.offered row (List.mem_of_find?_eq_some found) stored has).snoc _
  · intro row mem on
    rcases mfa_cases reply mem with ⟨old, there, id, secret, enabled, untouched⟩ | ⟨-, -, is⟩ | op
    · cases enrolling.enrolled old there (enabled.trans on) with
      | old first before same has on' since =>
        exact .old first before (same.trans id) (has.trans secret) on' ((id ▸ since).snoc untouched)
      | confirmed pre post e' stored cut has by_ since =>
        refine .confirmed pre (post ++ [e]) e' stored (by simp [cut]) (secret.symm.trans has)
          (id ▸ by_) ((id ▸ since).snoc untouched)
    · rw [on] at is
      cases is
    · obtain ⟨stored, has, by_⟩ := (updates_enrolling enrolling op licensed).2 on
      exact .confirmed h [] e stored rfl has by_ fun _ none_ => absurd none_ List.not_mem_nil

theorem enrolling_others (moved : Others s s') (enrolling : Enrolling oidc settings init h s) :
    Enrolling oidc settings init h s' := by
  obtain ⟨tenantId, rfl⟩ := moved
  have before {row : ApiKey} (mem : row ∈ (s.revokeAllForTenant tenantId).keys) :
      ∃ old ∈ s.keys, old.id = row.id ∧ old.mfaSecret = row.mfaSecret ∧
        old.mfaEnabled = row.mfaEnabled := by
    obtain ⟨old, there, is⟩ := List.mem_map.mp mem
    refine ⟨old, there, ?_, ?_, ?_⟩ <;> (rw [← is]; split <;> rfl)
  refine ⟨?_, enrolling.read, ?_⟩
  · intro row mem stored has
    obtain ⟨old, there, id, secret, -⟩ := before mem
    exact id ▸ enrolling.offered old there stored (secret.trans has)
  · intro row mem on
    obtain ⟨old, there, id, secret, enabled⟩ := before mem
    cases enrolling.enrolled old there (enabled.trans on) with
    | old first before same has on' since =>
      exact .old first before (same.trans id) (has.trans secret) on' (id ▸ since)
    | confirmed pre post e' stored cut has by_ since =>
      exact .confirmed pre post e' stored cut (secret.symm.trans has) (id ▸ by_) (id ▸ since)

theorem runs_enrolling {begun q : World} (begins : Begins begun)
    (run : Runs oidc settings begun h q) : Enrolling oidc settings begun.store h q.store := by
  refine run.keeps routes_licensed begins.tasks ?_ ?_ ?_
  · refine ⟨fun row mem stored has => .inl ⟨row, mem, rfl, has⟩, ?_, fun row mem on => ?_⟩
    · exact fun e none_ => absurd none_ List.not_mem_nil
    · exact .old row mem rfl rfl on fun _ none_ => absurd none_ List.not_mem_nil
  · exact fun h s s' moved enrolling => enrolling_others moved enrolling
  · exact fun h e s s' licensed reply enrolling => enrolling_step enrolling licensed reply

/-- Where a key asks for a second factor it did so from the start; or a request of its own
turned it on, with a code of a secret that another request of its own had generated, or that was
stored from the start; and no call that was answered has touched the second factor since. -/
theorem enabled_confirmed {begun q : World} (begins : Begins begun)
    (run : Runs oidc settings begun h q) (mem : row ∈ q.store.keys) (on : row.mfaEnabled = true) :
    Enrolled oidc settings begun.store h row :=
  (runs_enrolling begins run).enrolled row mem on

theorem enabled_confirmed_admin : ∃ row ∈ dayEnded.store.keys, row.id = "k" ∧
    Enrolled plainOidc plainSettings dayBegun.store dayNotes row := by
  obtain ⟨row, mem, is, on⟩ : ∃ row ∈ dayEnded.store.keys, row.id = "k" ∧ row.mfaEnabled = true := by
    decide +kernel
  exact ⟨row, mem, is, enabled_confirmed day_begins day_runs mem on⟩

end

/-! ## What a second factor is worth -/

section
variable (oidc : Oidc) (settings : Settings)

/-- The proof token was given out, to a request that asked for one. -/
def Handed (q : World) (proof : String) : Prop :=
  ∃ task ∈ q.tasks, ∃ cred code expiresAt, task.call = .mfaProof cred code ∧
    task.rest = .done (.ok (.proof proof expiresAt), ())

/-- What requests carry that holds as a proof token was given out: nobody signs without the key. -/
def Unforged (h : Calls.History) (q : World) : Prop :=
  ∀ e ∈ h, ∀ cred key keyId expires, e.call.credentials = some cred →
    SigningKey settings (History.own h e.number) key →
      cred.mfaProof = mfaProofText oidc key keyId expires → Handed q cred.mfaProof

/-- A request by this key showed a code of the key's secret, where the second factor was on, at
the time at which it was given a proof token. -/
def CodeShown (task : Task Request Calls Raised Outcome) (id : String) (at_ : Time) : Prop :=
  ∃ cred code principal record stored secret, task.call = .mfaProof cred code ∧
    principal.keyId = id ∧ Authenticated oidc settings cred task.trace principal ∧
      Answered task.trace (.keyById id) (some record) ∧ record.mfaEnabled = true ∧
        record.mfaSecret = some stored ∧ Answered task.trace (.decrypt stored) secret ∧
          Accepted oidc secret code task.trace ∧ Answered task.trace .now at_

end

variable {oidc : Oidc} {settings : Settings} {h : Calls.History} {s s' : Store} {id : String}

/-! ## The second factor stays on -/

/-- There is a key with this id, and it asks for a second factor. -/
def Demands (id : String) (s : Store) : Prop :=
  (∃ row ∈ s.keys, row.id = id) ∧ ∀ row ∈ s.keys, row.id = id → row.mfaEnabled = true

theorem demands_step {e : Stamp Request Calls Raised}
    (reply : Replies oidc settings e.number e.call e.op s e.reply s')
    (lasting : ¬ ∃ secret, e.op = .updateMfa id secret false) (demands : Demands id s) :
    Demands id s' := by
  obtain ⟨⟨first, mem, named⟩, on⟩ := demands
  obtain ⟨here, there, same⟩ := (replies_moved reply).core_stays ⟨first, mem, rfl⟩
  refine ⟨⟨here, there, (id_of_core same).trans named⟩, fun row mem' is => ?_⟩
  rcases mfa_cases reply mem' with ⟨old, there, same, -, enabled, -⟩ | ⟨fresh, -⟩ | op
  · exact enabled ▸ on old there (same.trans is)
  · exact absurd (named.trans is.symm) (fresh first mem)
  · cases enabled : row.mfaEnabled with
    | true => rfl
    | false =>
      rw [enabled, is] at op
      exact absurd ⟨row.mfaSecret, op⟩ lasting

theorem demands_others (moved : Others s s') (demands : Demands id s) : Demands id s' := by
  obtain ⟨tenantId, rfl⟩ := moved
  obtain ⟨⟨first, mem, named⟩, on⟩ := demands
  obtain ⟨here, there, same⟩ := (inPlace_others ⟨tenantId, rfl⟩).stays mem
  refine ⟨⟨here, there, (id_of_core same).trans named⟩, fun row mem is => ?_⟩
  obtain ⟨old, there, rfl⟩ := List.mem_map.mp mem
  split at is
  · rw [if_pos ‹_›]
    exact on old there is
  · rw [if_neg ‹_›]
    exact on old there is

/-- Whoever reads the key finds the second factor on. -/
def FindsOn (id : String) (e : Stamp Request Calls Raised) : Prop :=
  ∀ record : Option ApiKey, e.event = ⟨.keyById id, .ok record⟩ →
    ∃ row, record = some row ∧ row.mfaEnabled = true

theorem demands_finds {e : Stamp Request Calls Raised}
    (reply : Replies oidc settings e.number e.call e.op s e.reply s') (demands : Demands id s) :
    FindsOn id e := by
  intro record is
  obtain ⟨number, call, op, r⟩ := e
  cases is
  obtain ⟨rfl, -⟩ := Stated.answer reply
  obtain ⟨⟨first, mem, named⟩, on⟩ := demands
  cases found : s.keys.find? (·.id = id) with
  | none => exact absurd (decide_eq_true named) (List.find?_eq_none.mp found first mem)
  | some row =>
    exact ⟨row, rfl, on row (List.mem_of_find?_eq_some found) (by simpa using List.find?_some found)⟩

/-- A row that was read by its id has this id. -/
theorem read_named {begun q : World} (run : Runs oidc settings begun h q)
    {e : Stamp Request Calls Raised} (mem : e ∈ h) {row : ApiKey}
    (is : e.event = ⟨.keyById id, .ok (some row)⟩) : row.id = id := by
  obtain ⟨pre, post, cut⟩ := List.append_of_mem mem
  obtain ⟨p, s', -, reply⟩ := run.before cut
  obtain ⟨number, call, op, r⟩ := e
  cases is
  have found := (Stated.answer reply).1.symm
  simpa using List.find?_some found

theorem demands_updated {row : ApiKey} (mem : row ∈ s.keys) (is : row.id = id)
    (secret : Option String) : Demands id (s.updateMfa id secret true) := by
  refine ⟨⟨{ row with mfaSecret := secret, mfaEnabled := true }, ?_, is⟩, fun new there named => ?_⟩
  · exact List.mem_map.mpr ⟨row, mem, if_pos is⟩
  · obtain ⟨old, -, rfl⟩ := List.mem_map.mp there
    by_cases mine : old.id = id
    · rw [if_pos mine]
    · rw [if_neg mine] at named
      exact absurd named mine

/-- Once it was turned on, and while it is not turned off. -/
theorem demands_kept {begun q : World} (begins : Begins begun)
    (run : Runs oidc settings begun h q) {pre post : Calls.History}
    {c : Stamp Request Calls Raised} {stored : String} {found : Bool} (cut : h = pre ++ c :: post)
    (confirmed : c.event = ⟨.updateMfa id (some stored) true, .ok found⟩)
    (lasting : ∀ x ∈ post, ¬ ∃ secret, x.op = .updateMfa id secret false) :
    Demands id q.store ∧ ∀ x ∈ post, FindsOn id x := by
  let confirms : Stamp Request Calls Raised → Prop := fun c =>
    c.event = ⟨.updateMfa id (some stored) true, .ok found⟩
  refine run.since (K := Demands id) ?_ ?_ ?_ cut (show confirms c from confirmed) lasting
  · exact fun s s' moved demands => demands_others moved demands
  · intro h e p p' run later reply is
    have licensed := later.judged routes_licensed begins.tasks
      (show h ++ [e] = h ++ e :: [] from rfl)
    obtain ⟨number, call, op, r⟩ := e
    cases is
    obtain ⟨_, stated⟩ := reply
    obtain ⟨-, store⟩ := Stated.answer stated
    obtain ⟨-, cred, principal, rfl, -, how⟩ := licensed
    rcases how with ⟨_, _, -, -, never, -⟩ | ⟨_, _, _, record, -, -, -, read, -⟩ | ⟨-, never, -⟩
    · cases never
    · -- the row that was confirmed stands in the store, as every row that was read does
      obtain ⟨e', mem, -, is⟩ := mem_own.mp read
      obtain ⟨here, there, same⟩ := runs_stays begins run ⟨e', mem, .inr (.inl ⟨_, is⟩)⟩
      rw [store]
      exact demands_updated there ((id_of_core same).trans (read_named run mem is)) _
    · cases never
  · exact fun e s s' reply stays demands =>
      ⟨demands_step reply stays demands, demands_finds reply demands⟩

/-! ## The code behind a proof -/

/-- A proof token that was given out shows what it was given out for. -/
theorem handed_minted {begun q : World} (begins : Begins begun)
    (run : Runs oidc settings begun h q) {proof : String} (handed : Handed q proof) :
    ∃ task ∈ q.tasks, ∃ cred code, task.call = .mfaProof cred code ∧
      Minted oidc settings cred code proof task.trace := by
  obtain ⟨task, mem, cred, code, expiresAt, call, ended⟩ := handed
  obtain ⟨i, here⟩ := List.getElem?_of_mem mem
  have after := ((run.tasks begins.tasks).2 i task here).after
  rw [call, ended] at after
  have whole := after.runs (.done _)
  rw [List.append_nil] at whole
  have free : Free (Licensed oidc settings (.mfaProof cred code)) := licensed_free _
  have minted := (mfaProof_reads free code).heeds.returned whole
  exact ⟨task, mem, cred, code, call, minted.2 proof expiresAt rfl⟩

theorem mfaProofText_seams (oidc : Oidc) (key : List ℕ) (keyId : String) (expires : ℤ) :
    mfaProofText oidc key keyId expires = keyId ++ String.singleton '.' ++ toString expires ++
      String.singleton '.' ++ oidc.hmacSha256 key (keyId ++ "|" ++ toString expires) := rfl

/-- A text that splits in three is a proof token of one key and one second at most. -/
theorem mfaProofText_inj {key key' : List ℕ} {keyId keyId' second signature : String}
    {expires expires' : ℤ} {proof : String}
    (parts : Py.split '.' proof = [keyId, second, signature])
    (is : proof = mfaProofText oidc key keyId expires)
    (is' : proof = mfaProofText oidc key' keyId' expires') : keyId' = keyId ∧ expires' = expires := by
  rw [is, mfaProofText_seams] at parts
  obtain ⟨-, named, -⟩ := Py.split_three parts
  rw [← mfaProofText_seams, ← is, is', mfaProofText_seams] at parts
  obtain ⟨same, named', -⟩ := Py.split_three parts
  have seconds : Int.repr expires' = Int.repr expires := named'.trans named.symm
  exact ⟨same, Int.repr_inj.mp seconds⟩

/-- Where a key's second factor was turned on, and not off again, a request that begins later
makes or revokes a key by it only after a request of this key has shown a code of its secret, and
was given a proof token for it, no longer ago than a proof lives. -/
theorem second_factor {begun q : World} (begins : Begins begun) (run : Runs oidc settings begun h q)
    {pre mid post : Calls.History} {c e : Stamp Request Calls Raised} {stored : String} {found : Bool}
    (cut : h = pre ++ c :: (mid ++ e :: post))
    (confirmed : c.event = ⟨.updateMfa id (some stored) true, .ok found⟩)
    (lasting : ∀ x ∈ mid, ¬ ∃ secret, x.op = .updateMfa id secret false)
    (later : ∀ x ∈ pre ++ [c], x.number ≠ e.number)
    (acts : (∃ key, e.op = .createKey key) ∨ ∃ target, e.op = .revokeKey target)
    (unforged : Unforged oidc settings h q) :
    ∃ cred principal, e.call.credentials = some cred ∧
      Authenticated oidc settings cred (History.own (pre ++ c :: mid) e.number) principal ∧
        (principal.keyId = id → ∃ task ∈ q.tasks, ∃ shown now : Time,
          CodeShown oidc settings task id shown ∧
            Answered (History.own (pre ++ c :: mid) e.number) .now now ∧
              now ≤ shown + seconds settings.mfaProofTtlSeconds) := by
  have cut' : h = (pre ++ c :: mid) ++ e :: post := by simp [cut]
  have licensed := run.judged routes_licensed begins.tasks cut'
  obtain ⟨cred, principal, given, auth, passed⟩ : ∃ cred principal, e.call.credentials = some cred ∧
      Authenticated oidc settings cred (History.own (pre ++ c :: mid) e.number) principal ∧
        Passed oidc settings cred principal.keyId (History.own (pre ++ c :: mid) e.number) := by
    rcases acts with ⟨key, op⟩ | ⟨target, op⟩
    · rw [op] at licensed
      obtain ⟨cred, asked, principal, call, -, auth, passed, -⟩ := licensed
      exact ⟨cred, principal, by rw [call]; rfl, auth, passed⟩
    · rw [op] at licensed
      obtain ⟨cred, principal, call, -, auth, passed, -⟩ := licensed
      exact ⟨cred, principal, by rw [call]; rfl, auth, passed⟩
  refine ⟨cred, principal, given, auth, ?_⟩
  rintro rfl
  obtain ⟨record, read, proven⟩ := passed
  -- the request began later, so it read the key after the second factor was turned on
  obtain ⟨e', mem, number, is⟩ := mem_own.mp read
  have mem' : e' ∈ mid := by
    rcases List.mem_append.mp mem with mem | mem
    · exact absurd number (later e' (List.mem_append_left _ mem))
    · rcases List.mem_cons.mp mem with rfl | mem
      · exact absurd number (later e' (by simp))
      · exact mem
  obtain ⟨p, s', before, -⟩ := run.before cut'
  obtain ⟨row, rfl, on⟩ := (demands_kept begins before rfl confirmed lasting).2 e' mem' record is
  obtain ⟨key, expires, now, signing, clock, proof, ⟨second, signature, parts⟩, early, late⟩ :=
    proven on
  have there : e ∈ h := by simp [cut]
  have whole : SigningKey settings (History.own h e.number) key := by
    refine signing.later ?_
    rw [cut']
    simp only [History.own, List.filter_append, List.map_append]
    exact List.prefix_append _ _
  obtain ⟨task, mem, cred', code, call, principal', record', stored', secret, key', shown, auth',
    read', enabled, has, decrypted, accepted, at_, -, proof'⟩ :=
    handed_minted begins run (unforged e there cred key principal.keyId expires given whole proof)
  obtain ⟨same, second'⟩ := mfaProofText_inj parts proof proof'
  refine ⟨task, mem, shown, now, ⟨cred', code, principal', record', stored', secret, call, same, auth',
    same ▸ read', enabled, has, decrypted, accepted, at_⟩, clock, ?_⟩
  -- the second that the token names is not past, and is a life of a proof from its making
  rw [← second'] at early
  have past : now ≤ (shown + seconds settings.mfaProofTtlSeconds) / 1000000 * 1000000 := by
    exact_mod_cast early
  exact past.trans (Nat.div_mul_le_self _ _)

/-- The call that turned the second factor on. -/
def confirming : Stamp Request Calls Raised :=
  ⟨1, .mfaConfirm { apiKey := some "raw" } "000000", .updateMfa "k" (some "AAAAAAAA") true, .ok true⟩

def creating : Stamp Request Calls Raised :=
  ⟨3, .createApiKey { apiKey := some "raw", mfaProof := "k.160.m" } { name := "new" },
    .createKey ⟨"new", "nrv_live_t", operator, some (Py.Uuid.str 1), none⟩,
    .ok (NewKey.row ⟨"new", "nrv_live_t", operator, some (Py.Uuid.str 1), none⟩ "row-1")⟩

theorem confirming_at : dayNotes[13]? = some confirming := by rfl
theorem creating_at : dayNotes[28]? = some creating := by rfl

theorem day_cut : dayNotes = dayNotes.take 13 ++ confirming ::
    ((dayNotes.drop 14).take 14 ++ creating :: dayNotes.drop 29) := by
  have split_ : dayNotes.drop 14 = (dayNotes.drop 14).take 14 ++ creating :: dayNotes.drop 29 := by
    have later : (dayNotes.drop 14)[14]? = some creating := by
      rw [List.getElem?_drop]
      exact creating_at
    have cut := cut_at later
    rwa [List.drop_drop] at cut
  rw [← split_]
  exact cut_at confirming_at

def turnsOff : Op → Bool
  | .updateMfa _ _ false => true
  | _ => false

/-- The response of a request that got one. -/
def response? (task : Task Request Calls Raised Outcome) : Option Response :=
  match task.rest with
  | .done (.ok response, _) => some response
  | _ => none

theorem day_unforged : Unforged plainOidc plainSettings dayNotes dayEnded := by
  intro e mem cred key keyId expires given _ is
  have each : ∀ e ∈ dayNotes, ∀ cred ∈ e.call.credentials, cred.mfaProof = "" ∨ cred.mfaProof = "k.160.m" := by
    decide +kernel
  rcases each e mem cred given with none_ | proof
  · have seams := congrArg String.length (none_.symm.trans is)
    have dot : ".".length = 1 := rfl
    simp only [mfaProofText, String.length_append, dot, String.length_empty] at seams
    omega
  · rw [proof]
    obtain ⟨task, mem, call, answered⟩ : ∃ task ∈ dayEnded.tasks,
        task.call = .mfaProof { apiKey := some "raw" } "000000" ∧
          response? task = some (.proof "k.160.m" (seconds 160)) := by decide +kernel
    refine ⟨task, mem, _, _, seconds 160, call, ?_⟩
    unfold response? at answered
    split at answered
    · rename_i is
      rw [is, Option.some.inj answered]
    · cases answered

theorem second_factor_new : ∃ cred principal, creating.call.credentials = some cred ∧
    Authenticated plainOidc plainSettings cred
      (History.own (dayNotes.take 13 ++ confirming :: (dayNotes.drop 14).take 14) 3) principal ∧
        (principal.keyId = "k" → ∃ task ∈ dayEnded.tasks, ∃ shown now : Time,
          CodeShown plainOidc plainSettings task "k" shown ∧
            Answered (History.own (dayNotes.take 13 ++ confirming :: (dayNotes.drop 14).take 14) 3) .now now ∧
              now ≤ shown + seconds 60) := by
  have never : ∀ x ∈ (dayNotes.drop 14).take 14, turnsOff x.op = false := by decide +kernel
  refine second_factor day_begins day_runs day_cut rfl (fun x mem off => ?_) (by decide +kernel)
    (.inl ⟨_, rfl⟩) day_unforged
  obtain ⟨secret, is⟩ := off
  have not_ := never x mem
  rw [is] at not_
  cases not_

end AgentStudio.Access
