import AgentStudio.Async.Observe
import AgentStudio.Gateway.Parts
import AgentStudio.Gateway.StreamSettlement

/-!
# What a run charges

An observer of the calls keeps the answer that was served and what was charged for
it: the dollars reconciled and the record in the ledger.
-/

namespace AgentStudio.Gateway
open Async Quota

/-- An answer: by which deployment, under which model name, with which usage. -/
structure Served where
  d : Deployment
  model : String
  usage : Usage

/-- The last usage that the events report, if any does. -/
def reportedUsage (events : List LLMStreamEvent) (usage : Usage) : Usage :=
  events.foldl (fun usage ev =>
    if (ev.type = .usage ∨ ev.type = .done) ∧ ev.usage ≠ [] then ev.usage else usage) usage

/-- The answer that a call of `generate` brings. -/
def chatted : Ev → Option Served
  | ⟨.chat d _ _, .ok response⟩ => some ⟨d, response.model, response.usage⟩
  | _ => none

/-- The answer that a stream brings. It names no model. -/
def streamed : Ev → Option Served
  | ⟨.openStream d _ _, .ok script⟩ => some ⟨d, "", reportedUsage script.events []⟩
  | _ => none

inductive Charge where
  | reconciled (reservation : Option Reservation) (usd : ℚ)
  | recorded (record : UsageRecord)

def Charge.usd : Charge → ℚ
  | .reconciled _ usd => usd
  | .recorded record => record.usd

/-- The observer: the last answer, whether a success was recorded, what was charged
for which answer, and whether the stream was closed with `done`. -/
structure Account where
  served : Option Served := none
  succeeded : Bool := false
  charges : List (Option Served × Charge) := []
  closed : Bool := false

def Account.note (g : Account) (ev : Ev) : Account :=
  match ev with
  | ⟨.chat .., .ok _⟩ => { g with served := chatted ev }
  | ⟨.openStream .., .ok _⟩ => { g with served := streamed ev }
  | ⟨.recordSuccess _, .ok _⟩ => { g with succeeded := true }
  | ⟨.reconcile reservation usd, _⟩ =>
    { g with charges := g.charges ++ [(g.served, .reconciled reservation usd)] }
  | ⟨.ledger record, _⟩ => { g with charges := g.charges ++ [(g.served, .recorded record)] }
  | ⟨.emit event, _⟩ => { g with closed := g.closed || event.type == .done }
  | _ => g

def account (t : Run) : Account := t.foldl Account.note {}

/-- What the run charged, and for which answer. -/
def charges (t : Run) : List (Option Served × Charge) := (account t).charges

/-- `catalog.estimate_cost(...) or 0.0` of a reported usage. -/
def price (gw : Service) (d : Deployment) (usage : Usage) : ℚ :=
  (gw.router.catalog.estimateCost d (usage.count "input_tokens") (usage.count "output_tokens")).getD 0

/-- The deployment under the name that came back. -/
def Served.named (s : Served) : Deployment := (s.d.1, if s.model = "" then s.d.2 else s.model)

/-- A call that the observer does not look at. -/
def Blank : Op → Prop
  | .chat .. | .openStream .. | .recordSuccess _ | .reconcile .. | .ledger _ => False
  | .emit event => event.type ≠ .done
  | _ => True

theorem note_blank (op : Op) (h : Blank op) (g : Account) (r : Except Raised (Calls.Ans op)) :
    g.note ⟨op, r⟩ = g := by
  cases op with
  | chat => exact h.elim
  | openStream => exact h.elim
  | recordSuccess => exact h.elim
  | reconcile => exact h.elim
  | ledger => exact h.elim
  | emit event =>
    have other : (event.type == .done) = false := beq_eq_false_iff_ne.mpr h
    unfold Account.note
    simp only [other, Bool.or_false]
  | _ => rfl

/-- Every run of `c` whose calls are answered fairly, as the account has it. -/
abbrev Billing {σ α : Type} (fair : Ev → Prop) (c : Coro Calls Raised σ α) (g : Account) (v : σ)
    (Q : Account → Except Raised α → σ → Prop) : Prop :=
  c.Ends fair Account.note g v Q

/-! ## What may be charged -/

/-- What a charge goes by: how the dollars were reserved, which answers are charged and what
they cost, and where an answer is kept for the next request. -/
structure Terms where
  args : ReserveArgs
  answer : Ev → Option Served
  cost : Served → ℚ
  slot : Option (String × String × RequestKey)

section
variable (fair : Ev → Prop) (terms : Terms)

/-- Nothing is charged yet. -/
structure Account.Idle (g : Account) : Prop where
  charges : g.charges = []
  succeeded : g.succeeded = false
  closed : g.closed = false

/-- An answer and a reservation as they were given. -/
structure Settles (s : Served) (reservation : Option Reservation) : Prop where
  reserved : fair ⟨.reserve terms.args, .ok reservation⟩
  answered : ∃ ev, fair ev ∧ terms.answer ev = some s
  succeeded : fair ⟨.recordSuccess s.d, .ok ()⟩

/-- One answer was charged in full. It was kept, unless the record was broken off. -/
structure Account.Paid (g : Account) (s : Served) (reservation : Option Reservation)
    (record : UsageRecord) : Prop where
  settles : Settles fair terms s reservation
  usd : record.usd = terms.cost s
  charges : g.charges = [(some s, .reconciled reservation (terms.cost s)), (some s, .recorded record)]
  kept : ∀ slot, terms.slot = some slot →
    (∃ entry r, fair ⟨.setExact slot.1 slot.2.1 slot.2.2 entry, r⟩) ∨
      ∃ record e, fair ⟨.ledger record, .error e⟩

/-- What a run has charged, wherever it stops. -/
inductive Billed (g : Account) : Prop
  | idle (h : g.Idle)
  | reconciled {s : Served} {reservation : Option Reservation}
      (settles : Settles fair terms s reservation)
      (charges : g.charges = [(some s, .reconciled reservation (terms.cost s))])
      (closed : g.closed = false) (failed : ∃ usd e, fair ⟨.reconcile reservation usd, .error e⟩)
  | paid {s : Served} {reservation : Option Reservation} {record : UsageRecord}
      (h : g.Paid fair terms s reservation record)

end

section
variable {fair : Ev → Prop} {terms : Terms} {σ : Type} {g : Account} {v : σ}
  {s : Served} {reservation : Option Reservation}

theorem billed_blank {α : Type} {c : Coro Calls Raised σ α} (calls : Coro.Emits Blank c) :
    Billing fair c g v fun g' _ _ => g' = g := .unseen note_blank calls

/-- A record that fails is still one that was made. -/
theorem record_billed (record : UsageRecord) :
    Billing fair (suppress (Coro.call (I := Calls) (.ledger record))) g v fun g' o _ =>
      ∃ r, g' = g.note ⟨.ledger record, r⟩ ∧
        ∀ e, o = .error e → ∃ e, fair ⟨.ledger record, .error e⟩ := by
  apply Coro.Ends.tryCatch (Q := fun g' o _ => ∃ r, g' = g.note ⟨.ledger record, r⟩ ∧
    ∀ e, o = .error e → fair ⟨.ledger record, .error e⟩)
  · apply Coro.Ends.call
    rintro r answered
    refine ⟨r, rfl, ?_⟩
    rintro e rfl
    exact answered
  · rintro _ _ _ ⟨r, is, -⟩
    exact ⟨r, is, nofun⟩
  · rintro g' e v' ⟨r, is, failed⟩
    split
    · exact .pure ⟨r, is, nofun⟩
    · exact .throw ⟨r, is, fun _ _ => ⟨e, failed e rfl⟩⟩

/-- Where `_after_success` keeps an answer. -/
def slot (request : Request) (cfg : Cfg) : Option (String × String × RequestKey) :=
  if cacheable request cfg then some (request.tenantId, cfg.promptVersion, requestKey request)
  else none

/-- The answer is kept, if it is kept anywhere. -/
theorem store_billed (request : Request) (cfg : Cfg) (result : Result) :
    Billing fair (if cacheable request cfg then
        suppress (Coro.call (I := Calls)
          (.setExact request.tenantId cfg.promptVersion (requestKey request) (toCached result)))
        else pure ()) g v fun g' _ _ => g' = g ∧ ∀ kept, slot request cfg = some kept →
      ∃ entry r, fair ⟨.setExact kept.1 kept.2.1 kept.2.2 entry, r⟩ := by
  unfold slot
  split
  · apply Coro.Ends.tryCatch (Q := fun g' _ _ => g' = g ∧
      ∃ r, fair ⟨.setExact request.tenantId cfg.promptVersion (requestKey request)
        (toCached result), r⟩)
    · exact .call fun r answered => ⟨rfl, r, answered⟩
    · rintro g' _ v' ⟨rfl, r, made⟩
      refine ⟨rfl, ?_⟩
      rintro kept ⟨⟩
      exact ⟨_, r, made⟩
    · rintro g' e v' ⟨rfl, r, made⟩
      have done : ∀ kept, some (request.tenantId, cfg.promptVersion, requestKey request) = some kept →
          ∃ entry r, fair ⟨.setExact kept.1 kept.2.1 kept.2.2 entry, r⟩ := by
        rintro kept ⟨⟩
        exact ⟨_, r, made⟩
      split
      · exact .pure ⟨rfl, done⟩
      · exact .throw ⟨rfl, done⟩
  · exact .pure ⟨rfl, nofun⟩

/-- After the reconciliation, the record completes what is charged. -/
theorem afterSuccess_billed (gw : Service) (request : Request) (cfg : Cfg) (result : Result)
    (settles : Settles fair terms s reservation) (served : g.served = some s)
    (charged : g.charges = [(some s, .reconciled reservation (terms.cost s))])
    (usd : resultUsd gw result = terms.cost s) (keeps : terms.slot = slot request cfg) :
    Billing fair (afterSuccess gw request cfg result) g v
      fun g' _ _ => ∃ record, g'.Paid fair terms s reservation record := by
  have charges (r : Except Raised Unit) :
      (g.note ⟨.ledger (usageRecord gw request result), r⟩).charges =
        [(some s, .reconciled reservation (terms.cost s)),
          (some s, .recorded (usageRecord gw request result))] := by
    simp [Account.note, served, charged]
  apply (record_billed (usageRecord gw request result)).bind
  · rintro g' _ v' ⟨r, rfl, -⟩
    apply (store_billed request cfg result).mono
    rintro g' o v' ⟨rfl, kept⟩
    exact ⟨_, settles, usd, charges r, fun place is => .inl (kept place (keeps ▸ is))⟩
  · rintro g' e v' ⟨r, rfl, failed⟩
    exact ⟨_, settles, usd, charges r, fun _ _ => .inr ⟨_, failed e rfl⟩⟩

end

/-! ## `generate` -/

/-- What `generate` charges for an answer: the price of the name that came back. -/
def namedPrice (gw : Service) (s : Served) : ℚ := price gw s.named s.usage

/-- What `_stream_impl` charges for an answer. -/
def routedPrice (gw : Service) (s : Served) : ℚ := price gw s.d s.usage

def generateTerms (gw : Service) (request : Request) (tenant : TenantConfig) (cfg : Cfg) : Terms where
  args := reserveArgs gw request tenant cfg
  answer := chatted
  cost := namedPrice gw
  slot := slot request cfg

def streamTerms (gw : Service) (request : Request) (tenant : TenantConfig) (cfg : Cfg) : Terms where
  args := reserveArgs gw request tenant cfg
  answer := streamed
  cost := routedPrice gw
  slot := slot request cfg

section
variable {fair : Ev → Prop} (gw : Service) (request : Request) (tenant : TenantConfig) (cfg : Cfg)
  {g : Account} {reservation : Option Reservation}

/-- The result is the answer that is served. -/
def Answers (fair : Ev → Prop) (d : Deployment) (g : Account) (result : Result) : Prop :=
  ∃ s, g.served = some s ∧ s.d = d ∧ resultUsd gw result = namedPrice gw s ∧ result.cached = false ∧
    ∃ ev, fair ev ∧ chatted ev = some s

theorem attempt_billed {σ : Type} {v : σ} (apiKey : String) (d : Deployment) (idle : g.Idle)
    (unserved : g.served = none) :
    Billing fair (attempt request tenant apiKey d) g v fun g' o _ => g'.Idle ∧
      match o with
      | .ok (.ok result) => Answers gw fair d g' result
      | _ => g'.served = none := by
  unfold attempt
  apply Coro.Ends.tryCatch (Q := fun g' (o : Except Raised (Except ProviderCallError Result)) _ =>
    g'.Idle ∧
    match o with
    | .ok (.ok result) => Answers gw fair d g' result
    | _ => g'.served = none)
  · apply Coro.Ends.call_bind
    · intro _ _
      apply Coro.Ends.call_bind
      · intro response answered
        apply Coro.Ends.pure
        exact ⟨⟨idle.charges, idle.succeeded, idle.closed⟩, _, rfl, rfl, rfl, rfl, _, answered, rfl⟩
      · exact fun e _ => ⟨idle, unserved⟩
    · exact fun e _ => ⟨idle, unserved⟩
  · rintro g' a v' ⟨idle, step⟩
    cases a with
    | ok result => exact ⟨idle, step⟩
    | error failure => exact ⟨idle, step⟩
  · rintro g' e v' ⟨idle, none_⟩
    by_cases quota : e.isQuotaExceeded = true
    · rw [if_pos quota]
      exact .throw ⟨idle, none_⟩
    · rw [if_neg quota]
      by_cases exception : e.isException = true
      · rw [if_pos exception]
        exact .pure ⟨idle, none_⟩
      · rw [if_neg exception]
        exact .throw ⟨idle, none_⟩

/-- An answer leads to a charge, unless its success could not be recorded. -/
def Unrefused (fair : Ev → Prop) (g : Account) : Prop :=
  g.served.isSome → g.charges ≠ [] ∨ ∃ d e, fair ⟨.recordSuccess d, .error e⟩

theorem chainRound_billed (chain : FallbackChain) (apiKey : String)
    (reserved : fair ⟨.reserve (reserveArgs gw request tenant cfg), .ok reservation⟩) {v : ChainVars}
    (idle : g.Idle) (unserved : g.served = none) :
    Billing fair (chainRound gw request tenant cfg chain apiKey reservation) g v fun g' o _ =>
      match o with
      | .ok (some (some result)) => result.cached = false ∧ ∃ s record,
          g'.Paid fair (generateTerms gw request tenant cfg) s reservation record
      | .ok _ => g'.Idle ∧ g'.served = none
      | .error _ => Billed fair (generateTerms gw request tenant cfg) g' ∧
          Unrefused fair g' := by
  unfold chainRound
  apply Coro.Ends.get_bind
  cases listed : v.targets with
  | nil => exact .pure ⟨idle, unserved⟩
  | cons d rest =>
    apply Coro.Ends.modify_bind
    apply Coro.Ends.get_bind
    by_cases again : d ∈ v.seen
    · rw [if_pos again]
      exact .pure ⟨idle, unserved⟩
    · rw [if_neg again]
      apply Coro.Ends.modify_bind
      apply (attempt_billed gw request tenant apiKey d idle unserved).bind
      · rintro g' outcome v' ⟨idle, step⟩
        cases outcome with
        | ok result =>
          obtain ⟨s, served, rfl, usd, fresh, answered⟩ := step
          apply Coro.Ends.call_bind
          · intro _ recorded
            have settles : Settles fair (generateTerms gw request tenant cfg) s reservation :=
              ⟨reserved, answered, recorded⟩
            have charged (r : Except Raised Unit) :
                ((g'.note ⟨.recordSuccess s.d, .ok ()⟩).note
                  ⟨.reconcile reservation (resultUsd gw result), r⟩).charges =
                    [(some s, .reconciled reservation (namedPrice gw s))] := by
              simp [Account.note, served, idle.charges, usd]
            have still (r : Except Raised Unit) :
                ((g'.note ⟨.recordSuccess s.d, .ok ()⟩).note
                  ⟨.reconcile reservation (resultUsd gw result), r⟩).served = some s := served
            apply Coro.Ends.call_bind
            · intro _ _
              apply Coro.Ends.bind (afterSuccess_billed gw request cfg result settles (still _)
                (charged _) usd rfl)
              · rintro g'' _ v'' ⟨record, paid⟩
                exact .pure ⟨fresh, s, record, paid⟩
              · rintro g'' e v'' ⟨record, paid⟩
                exact ⟨.paid paid, fun _ => .inl (by simp [paid.charges])⟩
            · intro e failed
              exact ⟨.reconciled settles (charged _) idle.closed ⟨_, e, failed⟩,
                fun _ => .inl (by simp [charged])⟩
          · intro e failed
            exact ⟨.idle ⟨idle.charges, idle.succeeded, idle.closed⟩, fun _ => .inr ⟨s.d, e, failed⟩⟩
        | error failure =>
          apply Coro.Ends.modify_bind
          apply Coro.Ends.call_bind
          · exact fun _ _ => Coro.Ends.modify_bind (.pure ⟨idle, step⟩)
          · exact fun e _ => ⟨.idle idle, by simp [Unrefused, Account.note, step]⟩
      · rintro g' e v' ⟨idle, none_⟩
        exact ⟨.idle idle, by simp [Unrefused, none_]⟩

/-- What `generate` leaves in the account. -/
def Generated (fair : Ev → Prop) (g : Account) (o : Except Raised Result) : Prop :=
  Billed fair (generateTerms gw request tenant cfg) g ∧ Unrefused fair g ∧
    ∀ result, o = .ok result → result.cached = false → ∃ s reservation record,
      g.Paid fair (generateTerms gw request tenant cfg) s reservation record

variable {gw request tenant cfg} in
theorem Generated.idle {o : Except Raised Result} (idle : g.Idle) (unserved : g.served = none)
    (fresh : ∀ result, o = .ok result → result.cached = true) :
    Generated gw request tenant cfg fair g o := by
  refine ⟨.idle idle, by simp [Unrefused, unserved], fun result is not_cached => ?_⟩
  rw [fresh result is] at not_cached
  cases not_cached

theorem runChain_billed (chain : FallbackChain) (apiKey : String) (first : Deployment)
    (reserved : fair ⟨.reserve (reserveArgs gw request tenant cfg), .ok reservation⟩)
    (idle : g.Idle) (unserved : g.served = none) :
    Billing fair (runChain gw request tenant cfg chain apiKey reservation) g { targets := [first] }
      fun g' o _ => Generated gw request tenant cfg fair g' o := by
  have loop : Billing fair (Coro.iterate (chainRound gw request tenant cfg chain apiKey reservation)
      (chainFuel chain)) g { targets := [first] } fun g' o _ =>
      match o with
      | .ok (some (some result)) => result.cached = false ∧ ∃ s record,
          g'.Paid fair (generateTerms gw request tenant cfg) s reservation record
      | .ok _ => g'.Idle ∧ g'.served = none
      | .error _ => Billed fair (generateTerms gw request tenant cfg) g' ∧
          Unrefused fair g' := by
    apply Coro.Ends.iterate (fun g _ => g.Idle ∧ g.served = none)
    · rintro g v ⟨idle, unserved⟩
      apply (chainRound_billed gw request tenant cfg chain apiKey reserved idle unserved).mono
      rintro g' o v' step
      match o with
      | .ok none => exact step
      | .ok (some none) => exact step
      | .ok (some (some result)) => exact step
      | .error e => exact step
    · exact fun g v h => h
    · exact ⟨idle, unserved⟩
  unfold runChain
  apply Coro.Ends.bind (Q := fun g' (o : Except Raised (Option Result)) _ =>
    match o with
    | .ok (some result) => result.cached = false ∧ ∃ s record,
        g'.Paid fair (generateTerms gw request tenant cfg) s reservation record
    | .ok none => g'.Idle ∧ g'.served = none
    | .error _ => Billed fair (generateTerms gw request tenant cfg) g' ∧
        Unrefused fair g')
  · apply Coro.Ends.tryCatch (Q := fun g' (o : Except Raised (Option Result)) _ =>
      match o with
      | .ok (some result) => result.cached = false ∧ ∃ s record,
          g'.Paid fair (generateTerms gw request tenant cfg) s reservation record
      | .ok none => g'.Idle ∧ g'.served = none
      | .error _ => Billed fair (generateTerms gw request tenant cfg) g' ∧
          Unrefused fair g')
    · apply loop.bind
      · intro g' found v' step
        match found with
        | none => exact .throw ⟨.idle step.1, by simp [Unrefused, step.2]⟩
        | some none => exact .pure step
        | some (some result) => exact .pure step
      · exact fun _ _ _ step => step
    · intro g' found v' step
      cases found with
      | some result => exact step
      | none => exact step
    · intro g' e v' step
      split
      · have calls : Coro.Emits Blank (do
            Coro.call (I := Calls) (.release reservation)
            throw e : Coro Calls Raised ChainVars (Option Result)) :=
          (Coro.emits_call trivial).bind fun _ => Coro.emits_throw e
        have thrown : (do
            Coro.call (I := Calls) (.release reservation)
            throw e : Coro Calls Raised ChainVars (Option Result)).All v' fun _ o _ =>
              ∀ found, o ≠ .ok found :=
          (Coro.all_call_bind _ _).mpr ⟨fun _ => nofun, fun _ => nofun⟩
        apply ((billed_blank calls).and (.of_all thrown)).mono
        rintro g'' o v'' ⟨rfl, never⟩
        cases o with
        | ok found => exact absurd rfl (never found)
        | error e => exact step
      · exact .throw step
  · intro g' found v' step
    cases found with
    | some result =>
      obtain ⟨-, s, record, paid⟩ := step
      apply Coro.Ends.pure
      exact ⟨.paid paid, fun _ => .inl (by simp [paid.charges]), fun _ _ _ => ⟨s, _, record, paid⟩⟩
    | none =>
      apply Coro.Ends.call_bind
      · exact fun _ _ => .get_bind (.throw (.idle step.1 step.2 nofun))
      · exact fun e _ => .idle step.1 step.2 nofun
  · exact fun g' e v' step => ⟨step.1, step.2, nofun⟩

variable (fair) in
/-- What every run of `generate` charges. -/
theorem generate_billed :
    Billing fair (generate gw request tenant cfg) {} () fun g o _ =>
      Generated gw request tenant cfg fair g o := by
  have nothing : ({} : Account).Idle := ⟨rfl, rfl, rfl⟩
  have before : Coro.Emits Blank (lookupExact request tenant cfg) := by
    unfold lookupExact
    split
    · exact Coro.emits_call trivial
    · exact Coro.emits_pure none
  apply Coro.Ends.call_bind
  · intro reservation reserved
    apply (billed_blank before).bind
    · rintro _ found _ rfl
      cases found with
      | some entry =>
        apply Coro.Ends.call_bind
        · intro _ _
          apply Coro.Ends.pure
          apply Generated.idle nothing rfl
          rintro result is
          cases is
          rfl
        · exact fun e _ => .idle nothing rfl nofun
      | none =>
        apply Coro.Ends.call_bind
        · intro apiKey _
          apply (billed_blank (decide_emits (fun _ => trivial) gw request cfg)).bind
          · rintro _ decision _ rfl
            exact .scope (runChain_billed gw request tenant cfg _ apiKey decision reserved nothing rfl)
          · rintro _ e _ rfl
            exact .idle nothing rfl nofun
        · exact fun e _ => .idle nothing rfl nofun
    · rintro _ e _ rfl
      exact .idle nothing rfl nofun
  · exact fun e _ => .idle nothing rfl nofun

end

/-! ## `_stream_impl` -/

section
variable {fair : Ev → Prop} (gw : Service) (request : Request) (tenant : TenantConfig) (cfg : Cfg)
  {g : Account} {v : StreamVars}

-- from here on no text is classified
attribute [local irreducible] classifyFailure

theorem setEntry_usage (index : Nat) (entry : ToolEntry) :
    (v.setEntry index entry).usage = v.usage ∧
      (v.setEntry index entry).reservation = v.reservation := by
  unfold StreamVars.setEntry
  split <;> exact ⟨rfl, rfl⟩

/-- `_handle` takes the usage of a `usage` or `done` event, and passes on no `done`. -/
theorem handle_usage (d : Deployment) (ev : LLMStreamEvent) :
    (handle gw d ev).All v fun t o v' => t = [] ∧ v'.reservation = v.reservation ∧
      (∀ out, o = .ok out → v'.usage = reportedUsage [ev] v.usage) ∧
        ∀ out, o = .ok (some out) → out.type ≠ .done := by
  have taken (usage : Usage) : reportedUsage [ev] usage =
      if (ev.type = .usage ∨ ev.type = .done) ∧ ev.usage ≠ [] then ev.usage else usage := rfl
  unfold handle
  cases type : ev.type with
  | delta =>
    have same : reportedUsage [ev] v.usage = v.usage := by rw [taken, type]; simp
    dsimp only
    rw [same]
    split
    · exact ⟨rfl, rfl, fun _ _ => rfl, by rintro out ⟨⟩⟩
    · refine ⟨rfl, rfl, fun _ _ => rfl, ?_⟩
      rintro out ⟨⟩
      simp
  | toolUseStart =>
    have same : reportedUsage [ev] v.usage = v.usage := by rw [taken, type]; simp
    rw [same]
    refine ⟨rfl, (setEntry_usage ..).2, fun _ _ => (setEntry_usage ..).1, ?_⟩
    rintro out ⟨⟩
    simp
  | toolUseDelta =>
    have same : reportedUsage [ev] v.usage = v.usage := by rw [taken, type]; simp
    rw [same]
    refine ⟨rfl, (setEntry_usage ..).2, fun _ _ => (setEntry_usage ..).1, ?_⟩
    rintro out ⟨⟩
    simp
  | toolUseEnd =>
    have same : reportedUsage [ev] v.usage = v.usage := by rw [taken, type]; simp
    rw [same]
    simp only [Coro.all_get_bind]
    split
    · refine ⟨rfl, (setEntry_usage ..).2, fun _ _ => (setEntry_usage ..).1, ?_⟩
      rintro out ⟨⟩
      simp
    · refine ⟨rfl, rfl, fun _ _ => rfl, ?_⟩
      rintro out ⟨⟩
      simp
  | usage =>
    rw [taken, type]
    dsimp only
    by_cases none_ : ev.usage = []
    · rw [if_neg (by simp [none_]), if_neg (by simp [none_])]
      exact ⟨rfl, rfl, fun _ _ => rfl, by rintro out ⟨⟩⟩
    · rw [if_pos none_, if_pos (by simp [none_])]
      exact ⟨rfl, rfl, fun _ _ => rfl, by rintro out ⟨⟩⟩
  | done =>
    rw [taken, type]
    refine ⟨rfl, rfl, fun _ _ => ?_, by rintro out ⟨⟩⟩
    by_cases none_ : ev.usage = []
    · simp [none_]
    · simp [none_]
  | error => exact ⟨rfl, rfl, by rintro out ⟨⟩, by rintro out ⟨⟩⟩
  | other =>
    have same : reportedUsage [ev] v.usage = v.usage := by rw [taken, type]; simp
    rw [same]
    exact ⟨rfl, rfl, fun _ _ => rfl, by rintro out ⟨⟩⟩

theorem forwardEvents_billed (d : Deployment) (events : List LLMStreamEvent) :
    Billing fair (forwardEvents gw d events) g v fun g' o v' => g' = g ∧
      v'.reservation = v.reservation ∧ (o = .ok () → v'.usage = reportedUsage events v.usage) := by
  induction events generalizing v with
  | nil => exact .pure ⟨rfl, rfl, fun _ => rfl⟩
  | cons ev rest ih =>
    apply Coro.Ends.bind (Q := fun g' o v' => g' = g ∧ v'.reservation = v.reservation ∧
      (∀ out, o = .ok out → v'.usage = reportedUsage [ev] v.usage) ∧
        ∀ out, o = .ok (some out) → out.type ≠ .done)
    · apply Coro.All.mono (handle_usage gw d ev)
      rintro t o v' ⟨rfl, step⟩ -
      exact ⟨rfl, step⟩
    · rintro g out v' ⟨rfl, kept, usage, plain⟩
      have later : Billing fair (forwardEvents gw d rest) g v' fun g' o v'' => g' = g ∧
          v''.reservation = v.reservation ∧
            (o = .ok () → v''.usage = reportedUsage (ev :: rest) v.usage) := by
        apply ih.mono
        rintro g' o v'' ⟨same, kept', more⟩
        refine ⟨same, kept'.trans kept, fun done => ?_⟩
        rw [more done, usage out rfl]
        rfl
      cases out with
      | none => exact later
      | some out =>
        have same (r : Except Raised Unit) : g.note ⟨.emit out, r⟩ = g :=
          note_blank (.emit out) (plain out rfl) g r
        apply Coro.Ends.call_bind
        · intro _ _
          rw [same]
          exact later
        · exact fun e _ => ⟨same _, kept, nofun⟩
    · rintro _ e v' ⟨rfl, kept, -, -⟩
      exact ⟨rfl, kept, nofun⟩

/-- An answer of `d`, and the usage that it reports. -/
def Streams (fair : Ev → Prop) (d : Deployment) (g : Account) (usage : Usage) : Prop :=
  ∃ s, g.served = some s ∧ s.d = d ∧ usage = s.usage ∧ ∃ ev, fair ev ∧ streamed ev = some s

/-- A stream that comes to its end is the answer that is served. -/
theorem consume_billed (d : Deployment) (idle : g.Idle) (fresh : v.usage = []) :
    Billing fair (consume gw request tenant d) g v fun g' o v' => g'.Idle ∧
      v'.reservation = v.reservation ∧ (o = .ok () → Streams fair d g' v'.usage) := by
  unfold consume
  apply Coro.Ends.call_bind
  · intro script answered
    apply Coro.Ends.modify_bind
    apply (forwardEvents_billed gw d script.events).bind
    · rintro _ _ v' ⟨rfl, kept, usage⟩
      have idle' : (g.note ⟨.openStream d request.messages (callTimeout request tenant),
          .ok script⟩).Idle := ⟨idle.charges, idle.succeeded, idle.closed⟩
      cases script.ending with
      | some e => exact .throw ⟨idle', kept, nofun⟩
      | none =>
        dsimp only
        split
        · exact .throw ⟨idle', kept, nofun⟩
        · refine .pure ⟨idle', kept, fun _ => ⟨_, rfl, rfl, ?_, _, answered, rfl⟩⟩
          rw [usage rfl]
          exact congrArg (reportedUsage script.events) fresh
    · rintro _ e v' ⟨rfl, kept, -⟩
      exact ⟨⟨idle.charges, idle.succeeded, idle.closed⟩, kept, nofun⟩
  · exact fun e _ => ⟨idle, rfl, nofun⟩

theorem failAttempt_blank (chain : FallbackChain) (d : Deployment) (e : Raised) :
    Coro.Emits Blank (failAttempt chain d e) := by
  apply Coro.Emits.bind (Coro.emits_modify _)
  intro _
  apply Coro.Emits.bind (Coro.emits_call trivial)
  intro _
  apply Coro.Emits.bind Coro.emits_get
  intro v
  split
  · apply Coro.Emits.bind (Coro.emits_call (by simp [Blank]))
    exact fun _ => (releaseOnce_emits fun _ => trivial).bind fun _ => Coro.emits_pure _
  · exact (Coro.emits_modify _).bind fun _ => Coro.emits_pure _

/-- A handler keeps the reservation. -/
theorem onAttemptRaise_billed (chain : FallbackChain) (d : Deployment) (e : Raised) :
    Billing fair (onAttemptRaise chain d e) g v fun g' o v' => g' = g ∧
      o ≠ .ok .completed ∧ (o = .ok .again → v'.reservation = v.reservation) := by
  have aborted (e : Raised) : Billing fair (abandon e : Coro Calls Raised StreamVars Flow) g v
      fun g' o v' => g' = g ∧ o ≠ .ok .completed ∧ (o = .ok .again → v'.reservation = v.reservation) := by
    apply ((billed_blank (abandon_emits trivial (fun _ => trivial) e)).and (.of_all ?_)).mono
    · exact fun _ _ _ step => step
    · have any {β : Type} (c : Coro Calls Raised StreamVars β) (v : StreamVars) :
          c.All v fun _ _ _ => True := Coro.all_iff.mpr fun _ _ _ _ => trivial
      apply (any closeUpstream v).bind
      · intro _ _ v' _
        apply (any releaseOnce v').bind
        · exact fun _ _ _ _ => ⟨nofun, nofun⟩
        · exact fun _ _ _ _ => ⟨nofun, nofun⟩
      · exact fun _ _ _ _ => ⟨nofun, nofun⟩
  have failed : Billing fair (failAttempt chain d e) g v
      fun g' o v' => g' = g ∧ o ≠ .ok .completed ∧ (o = .ok .again → v'.reservation = v.reservation) := by
    apply (billed_blank (failAttempt_blank chain d e)).and
    apply Coro.Ends.of_all
    unfold failAttempt
    rw [Coro.all_modify_bind]
    apply (Coro.all_call_bind _ _).mpr
    refine ⟨fun _ => ?_, fun _ => ⟨nofun, nofun⟩⟩
    rw [Coro.all_get_bind]
    split
    · apply (Coro.all_call_bind _ _).mpr
      refine ⟨fun _ => ?_, fun _ => ⟨nofun, nofun⟩⟩
      have any : releaseOnce.All { v with lastError := some (asProviderCallError e d) }
          fun _ _ _ => True := Coro.all_iff.mpr fun _ _ _ _ => trivial
      apply any.bind
      · exact fun _ _ _ _ => ⟨nofun, nofun⟩
      · exact fun _ _ _ _ => ⟨nofun, nofun⟩
    · exact ⟨nofun, fun _ => rfl⟩
  cases e with
  | cancelled => exact aborted _
  | generatorExit => exact aborted _
  | outOfFuel => exact .throw ⟨rfl, nofun, nofun⟩
  | _ => exact failed

theorem attemptStream_billed (chain : FallbackChain) (d : Deployment) (idle : g.Idle)
    (fresh : v.usage = []) :
    Billing fair (attemptStream gw request tenant chain d) g v fun g' o v' => g'.Idle ∧
      (o = .ok .again → v'.reservation = v.reservation) ∧
      (o = .ok .completed → v'.reservation = v.reservation ∧ Streams fair d g' v'.usage) := by
  apply Coro.Ends.tryCatch (Q := fun g' (o : Except Raised Flow) v' => g'.Idle ∧
    v'.reservation = v.reservation ∧
      ∀ flow, o = .ok flow → flow = .completed ∧ Streams fair d g' v'.usage)
  · apply (consume_billed gw request tenant d idle fresh).bind
    · rintro g' _ v' ⟨idle, kept, streams⟩
      refine .pure ⟨idle, kept, fun flow is => ?_⟩
      cases is
      exact ⟨rfl, streams rfl⟩
    · exact fun g' e v' step => ⟨step.1, step.2.1, nofun⟩
  · rintro g' flow v' ⟨idle, kept, only⟩
    obtain ⟨rfl, streams⟩ := only flow rfl
    exact ⟨idle, nofun, fun _ => ⟨kept, streams⟩⟩
  · rintro g' e v' ⟨idle, kept, -⟩
    apply (onAttemptRaise_billed chain d e).mono
    rintro _ o v'' ⟨rfl, never, again⟩
    exact ⟨idle, fun is => (again is).trans kept, fun is => absurd is never⟩

theorem complete_billed (d : Deployment) (idle : g.Idle)
    (reserved : fair ⟨.reserve (reserveArgs gw request tenant cfg), .ok v.reservation⟩)
    (streams : Streams fair d g v.usage) :
    Billing fair (complete gw request cfg d) g v fun g' _ _ =>
      Billed fair (streamTerms gw request tenant cfg) g' := by
  obtain ⟨s, served, rfl, usage, answered⟩ := streams
  have usd : resultUsd gw (streamResult gw s.d v) = routedPrice gw s := by
    rw [routedPrice, ← usage]
    rfl
  unfold complete
  apply Coro.Ends.call_bind
  · intro _ recorded
    have settles : Settles fair (streamTerms gw request tenant cfg) s v.reservation :=
      ⟨reserved, answered, recorded⟩
    have charged (r : Except Raised Unit) :
        ((g.note ⟨.recordSuccess s.d, .ok ()⟩).note
          ⟨.reconcile v.reservation (resultUsd gw (streamResult gw s.d v)), r⟩).charges =
            [(some s, .reconciled v.reservation (routedPrice gw s))] := by
      simp [Account.note, served, idle.charges, usd]
    have still (r : Except Raised Unit) :
        ((g.note ⟨.recordSuccess s.d, .ok ()⟩).note
          ⟨.reconcile v.reservation (resultUsd gw (streamResult gw s.d v)), r⟩).served =
            some s := served
    apply Coro.Ends.get_bind
    apply Coro.Ends.call_bind
    · intro _ _
      apply Coro.Ends.modify_bind
      apply Coro.Ends.bind (afterSuccess_billed gw request cfg (streamResult gw s.d v) settles (still _)
        (charged _) usd rfl)
      · rintro g' _ v' ⟨record, paid⟩
        have sent (event : StreamEvent) (r : Except Raised Unit) {g : Account}
            (paid : g.Paid fair (streamTerms gw request tenant cfg) s v.reservation
              record) :
            (g.note ⟨.emit event, r⟩).Paid fair (streamTerms gw request tenant cfg) s
              v.reservation record := ⟨paid.settles, paid.usd, paid.charges, paid.kept⟩
        apply Coro.Ends.call_bind
        · intro _ _
          exact .call fun r _ => .paid (sent _ _ (sent _ _ paid))
        · exact fun e _ => .paid (sent _ _ paid)
      · rintro g' e v' ⟨record, paid⟩
        exact .paid paid
    · exact fun e failed => .reconciled settles (charged _) idle.closed ⟨_, e, failed⟩
  · exact fun e _ => .idle ⟨idle.charges, idle.succeeded, idle.closed⟩

theorem streamRound_billed (chain : FallbackChain) (apiKey : String) (idle : g.Idle)
    (reserved : fair ⟨.reserve (reserveArgs gw request tenant cfg), .ok v.reservation⟩) :
    Billing fair (streamRound gw request tenant cfg chain apiKey) g v fun g' o v' =>
      match o with
      | .ok none => g'.Idle ∧ v'.reservation = v.reservation
      | _ => Billed fair (streamTerms gw request tenant cfg) g' := by
  unfold streamRound
  apply Coro.Ends.get_bind
  cases listed : v.targets with
  | nil => exact .pure (.idle idle)
  | cons d rest =>
    apply Coro.Ends.modify_bind
    apply Coro.Ends.get_bind
    by_cases again : d ∈ v.seen
    · rw [if_pos again]
      exact .pure ⟨idle, rfl⟩
    · rw [if_neg again]
      apply Coro.Ends.modify_bind
      apply Coro.Ends.call_bind
      · intro _ _
        apply Coro.Ends.modify_bind
        apply (attemptStream_billed gw request tenant chain d idle rfl).bind
        · rintro g' flow v' ⟨idle', kept, streams⟩
          cases flow with
          | completed =>
            obtain ⟨kept, streams⟩ := streams rfl
            apply (complete_billed gw request tenant cfg d idle' (kept ▸ reserved) streams).bind
            · exact fun g'' _ v'' billed => .pure billed
            · exact fun g'' e v'' billed => billed
          | again => exact .pure ⟨idle', kept rfl⟩
          | left => exact .pure (.idle idle')
        · exact fun g' e v' step => .idle step.1
      · exact fun e _ => .idle idle

variable (fair) in
/-- What every run of `_stream_impl` charges. -/
theorem streamImpl_billed :
    Billing fair (streamImpl gw request tenant cfg) {} {} fun g _ _ =>
      Billed fair (streamTerms gw request tenant cfg) g := by
  have nothing : ({} : Account).Idle := ⟨rfl, rfl, rfl⟩
  apply Coro.Ends.tryCatch (Q := fun g _ _ =>
    Billed fair (streamTerms gw request tenant cfg) g)
  · apply Coro.Ends.call_bind
    · intro reservation reserved
      apply Coro.Ends.modify_bind
      apply Coro.Ends.call_bind
      · intro apiKey _
        have still : (decide gw request cfg).All { ({} : StreamVars) with reservation }
            fun _ _ v' => v' = { ({} : StreamVars) with reservation } :=
          (decide_silent gw request cfg rfl).mono fun _ _ _ h => h.1
        apply Coro.Ends.bind ((billed_blank (decide_emits (fun _ => trivial) gw request cfg)).and
          (.of_all still))
        · rintro _ decision _ ⟨rfl, rfl⟩
          apply Coro.Ends.modify_bind
          apply Coro.Ends.bind (Q := fun g' o _ =>
            match o with
            | .ok none => g'.Idle
            | _ => Billed fair (streamTerms gw request tenant cfg) g')
          · apply Coro.Ends.iterate (fun g v => g.Idle ∧ v.reservation = reservation)
            · rintro g v ⟨idle, rfl⟩
              apply (streamRound_billed gw request tenant cfg _ apiKey idle reserved).mono
              rintro g' o v' step
              match o with
              | .ok none => exact step
              | .ok (some _) => exact step
              | .error _ => exact step
            · exact fun g v h => h.1
            · exact ⟨nothing, rfl⟩
          · intro g found v billed
            match found with
            | none => exact .throw (.idle billed)
            | some true => exact .pure billed
            | some false =>
              have end_ : Coro.Emits Blank (do
                  releaseOnce
                  throw (streamExhausted (← get)) : Coro Calls Raised StreamVars Unit) :=
                (releaseOnce_emits fun _ => trivial).bind fun _ =>
                  Coro.emits_get.bind fun _ => Coro.emits_throw _
              apply (billed_blank end_).mono
              rintro _ o v' rfl
              exact billed
          · exact fun _ _ _ billed => billed
        · rintro _ e _ ⟨rfl, -⟩
          exact .idle nothing
      · exact fun e _ => .idle nothing
    · exact fun e _ => .idle nothing
  · exact fun _ _ _ billed => billed
  · intro g e v billed
    have handler := onStreamRaise_emits (P := Blank) trivial (fun _ => trivial)
      (fun event error => by simp [Blank, error]) e
    apply (billed_blank handler).mono
    rintro _ o v' rfl
    exact billed

end

/-! ## The price of an answer -/

/-- The stream was closed with `done`. -/
def Completed (t : Run) : Prop := ∃ event r, event.type = .done ∧ (⟨.emit event, r⟩ : Ev) ∈ t

theorem note_closed (g : Account) (ev : Ev) (closed : g.closed = true) : (g.note ev).closed = true := by
  obtain ⟨op, r⟩ := ev
  cases op with
  | chat => cases r <;> exact closed
  | openStream => cases r <;> exact closed
  | recordSuccess => cases r <;> exact closed
  | emit event =>
    unfold Account.note
    simp [closed]
  | _ => exact closed

theorem fold_closed (g : Account) (t : Run) (closed : g.closed = true) :
    (t.foldl Account.note g).closed = true := by
  induction t generalizing g with
  | nil => exact closed
  | cons ev t ih => exact ih _ (note_closed g ev closed)

theorem Completed.closed {t : Run} (completed : Completed t) : (account t).closed = true := by
  obtain ⟨event, r, done, mem⟩ := completed
  obtain ⟨before, after, rfl⟩ := List.append_of_mem mem
  rw [account, List.foldl_append, List.foldl_cons]
  apply fold_closed
  unfold Account.note
  simp [done]

/-- An answer that a call of the run brought, with its success recorded. -/
def Served.In (s : Served) (answer : Ev → Option Served) (t : Run) : Prop :=
  (∃ ev ∈ t, answer ev = some s) ∧ ⟨.recordSuccess s.d, .ok ()⟩ ∈ t

/-- For every gateway, request and config: a `generate` that returns a result of its own
reconciles and records the price of the name that came back, which is what the deployment
costs exactly when the two have one price for the reported usage; a stream that is closed
with `done` reconciles and records what its deployment costs. -/
theorem charged_exactly_iff (gw : Service) (request : Request) (tenant : TenantConfig) (cfg : Cfg) :
    (∀ t result, (generate gw request tenant cfg).Runs () t (.ok result) () →
      result.cached = false → ∃ s reservation record, s.In chatted t ∧
        charges t = [(some s, .reconciled reservation (namedPrice gw s)), (some s, .recorded record)] ∧
        record.usd = namedPrice gw s ∧
        ((∀ c ∈ charges t, c.2.usd = routedPrice gw s) ↔ namedPrice gw s = routedPrice gw s)) ∧
    ∀ t o v, (streamImpl gw request tenant cfg).Runs {} t o v → Completed t →
      ∃ s reservation record, s.In streamed t ∧
        charges t = [(some s, .reconciled reservation (routedPrice gw s)), (some s, .recorded record)] ∧
        record.usd = routedPrice gw s := by
  constructor
  · intro t result run own
    obtain ⟨-, -, paid⟩ := Coro.all_iff.mp (generate_billed (· ∈ t) gw request tenant cfg)
      t _ () run fun _ mem => mem
    obtain ⟨s, reservation, record, settles, usd, charged, -⟩ := paid result rfl own
    refine ⟨s, reservation, record, ⟨settles.answered, settles.succeeded⟩, charged, usd, ?_⟩
    have all : charges t =
      [(some s, .reconciled reservation (namedPrice gw s)), (some s, .recorded record)] := charged
    have recorded : record.usd = namedPrice gw s := usd
    rw [all]
    simp [Charge.usd, recorded]
  · intro t o v run completed
    have billed := Coro.all_iff.mp (streamImpl_billed (· ∈ t) gw request tenant cfg)
      t o v run fun _ mem => mem
    have closed := completed.closed
    cases billed with
    | idle idle => exact absurd (idle.closed.symm.trans closed) (by simp)
    | reconciled settles charged open_ => exact absurd (open_.symm.trans closed) (by simp)
    | @paid s reservation record paid =>
      exact ⟨s, reservation, record, ⟨paid.settles.answered, paid.settles.succeeded⟩, paid.charges,
        paid.usd⟩

/-- The provider names the dated release of the model that it was sent to. -/
def dated : (op : Op) → Except Raised (Calls.Ans op)
  | .chat .. => .ok {
      content := "hello", model := "gpt-4o-mini-2024-07-18"
      usage := [("input_tokens", 1000), ("output_tokens", 1000)] }
  | op => answering op

/-- The name is unknown to the catalog, and the answer is charged with nothing. -/
theorem dated_uncharged :
    (charges (runOf dated)).map (fun c => (c.1.map fun s => (s.d, s.usage), c.2.usd)) =
      [(some (("openai", "gpt-4o-mini"), [("input_tokens", 1000), ("output_tokens", 1000)]), 0),
        (some (("openai", "gpt-4o-mini"), [("input_tokens", 1000), ("output_tokens", 1000)]), 0)] ∧
    ¬ ∀ (gw : Service) (request : Request) (tenant : TenantConfig) (cfg : Cfg) (t : Run)
      (result : Result), (generate gw request tenant cfg).Runs () t (.ok result) () →
        result.cached = false → ∀ s c, (some s, c) ∈ charges t → c.usd = routedPrice gw s := by
  have free : (charges (runOf dated)).map (fun c => (c.1.map fun s => (s.d, s.usage), c.2.usd)) =
      [(some (("openai", "gpt-4o-mini"), [("input_tokens", 1000), ("output_tokens", 1000)]), 0),
        (some (("openai", "gpt-4o-mini"), [("input_tokens", 1000), ("output_tokens", 1000)]), 0)] := by
    decide +kernel
  refine ⟨free, fun claim => ?_⟩
  have run := (generate oneModel estimated { id := "acme" } {}).runs_with dated ()
  have ends : ((generate oneModel estimated { id := "acme" } {}).outcomeWith dated ()).1 = .ok {
      content := "hello", model := "gpt-4o-mini-2024-07-18", provider := "openai"
      usage := [("input_tokens", 1000), ("output_tokens", 1000)]
      routedVia := "openai:gpt-4o-mini" } := by decide +kernel
  rw [ends] at run
  obtain ⟨⟨served, charge⟩, mem, is⟩ := List.mem_map.mp (free ▸ List.mem_cons_self)
  obtain ⟨answer, usd⟩ := Prod.mk.inj is
  obtain ⟨s, rfl, same⟩ := Option.map_eq_some_iff.mp answer
  obtain ⟨d, usage⟩ := Prod.mk.inj same
  have cost := claim oneModel estimated _ {} _ _ run rfl s charge mem
  rw [routedPrice, d, usage, usd] at cost
  exact absurd cost (by decide +kernel)

end AgentStudio.Gateway
