import AgentStudio.Gateway.Charges
import AgentStudio.Gateway.QuotaLedger
import AgentStudio.Gateway.Staged

/-!
# Reserved and reconciled dollars

The estimate is the dearest of the router's candidates at 1024 output tokens. What is
reconciled is the price of the deployment that answers, which the chain may have named
for its family or its window, at the output that the request allows.
-/

namespace AgentStudio.Quota
open Async

/-- A reservation holds what was asked for, and something was. -/
theorem reserve_estimate (svc : Service) (args : ReserveArgs) (a : Acquired) :
    (reserve svc args).All a fun _ o _ =>
      ∀ r, o = .ok (some r) → 0 < args.estimatedUsd ∧ r.estimatedUsd = args.estimatedUsd := by
  have any {α : Type} (c : Coro Redis Raised Acquired α) (a : Acquired) :
      c.All a fun _ _ _ => True := Coro.all_iff.mpr fun _ _ _ _ => trivial
  unfold reserve
  by_cases free : args.estimatedUsd ≤ 0
  · rw [if_pos free]
    exact nofun
  · rw [if_neg free]
    split
    · exact nofun
    · apply Coro.All.tryCatch (Ψ := fun _ o _ => ∀ r, o = .ok (some r) →
        0 < args.estimatedUsd ∧ r.estimatedUsd = args.estimatedUsd)
      · apply (any _ a).bind
        · intro t _ a' _
          rw [Coro.all_get_bind]
          rintro r is
          cases is
          exact ⟨not_le.mp free, rfl⟩
        · exact fun _ _ _ _ => nofun
      · exact fun _ _ _ h => h
      · intro t e a' _
        split
        · exact nofun
        · split
          · rw [Coro.all_get_bind]
            apply (any _ a').bind
            · rintro t _ a'' - r is
              cases is
            · exact fun _ _ _ _ => nofun
          · exact nofun

/-- Redis grants everything. -/
def granting : (op : Script) → Except Raised (Redis.Ans op)
  | .reserve .. => .ok (true, 0)
  | .reconcile .. => .ok ()

theorem reserveLevels_granted (svc : Service) (args : ReserveArgs) (levels : List Level)
    (a : Acquired) : (reserveLevels svc args levels).Ends (fun ev => ev.reply = granting ev.op)
      (fun g _ => g) () a fun _ o _ => o = .ok () := by
  induction levels generalizing a with
  | nil => exact .pure rfl
  | cons level rest ih =>
    unfold reserveLevels
    dsimp only
    split
    · exact ih a
    · apply Coro.Ends.call_bind
      · intro answer granted
        obtain rfl : answer = (true, 0) := Except.ok.inj granted
        exact .modify_bind (ih _)
      · intro e raised
        cases raised

/-- Where every actual stays within its estimate, no limit is passed. -/
theorem spent_le_limit {svc : Service} (up : svc.available = true) {limit : String → ℚ} {w : World}
    (reach : Reachable svc limit w) (once : SettledOnce w) (actuals : ActualsWithin w) {key : String}
    (limited : 0 < limit key) : (w.store key).spent ≤ limit key := by
  classical
  have sound := sound_of_reachable up reach
  have within := withinLimits_of_reachable up reach once actuals key limited
  have open_ : 0 ≤ (w.store key).reserved := by
    rw [(balanced_of_reachable up reach once).reserved, held]
    apply Finset.sum_nonneg
    intro i _
    split
    · exact sound.estimate_nonneg i
    · exact le_rfl
  linarith

/-- A service whose Redis grants everything makes the reservation. -/
theorem reserve_granted (args : ReserveArgs) (amount : 0 < args.estimatedUsd) :
    ∃ t a r, (reserve {} args).Runs {} t (.ok (some r)) a := by
  have ends : (reserve {} args).Ends (fun ev => ev.reply = granting ev.op) (fun g _ => g) () {}
      fun _ o _ => ∃ r, o = .ok (some r) := by
    unfold reserve
    rw [if_neg (not_le.mpr amount)]
    apply Coro.Ends.tryCatch (Q := fun _ o _ => ∃ r, o = .ok (some r))
    · apply (reserveLevels_granted {} args Level.all {}).bind
      · exact fun _ _ a _ => .get_bind (.pure ⟨_, rfl⟩)
      · exact fun _ _ _ => nofun
    · exact fun _ _ _ made => made
    · rintro _ e a ⟨r, is⟩
      cases is
  have run := (reserve {} args).runs_with granting {}
  obtain ⟨r, is⟩ := Coro.all_iff.mp ends _ _ _ run fun _ mem => Coro.mem_traceWith mem
  exact ⟨_, _, r, is ▸ run⟩

end AgentStudio.Quota

namespace AgentStudio.Gateway
open Async Quota

/-- `_estimate_max_spend` of the request. -/
def estimateOf (gw : Service) (request : Request) (cfg : Cfg) : ℚ :=
  estimateMaxSpend gw request (candidatesAt gw request cfg 0)

/-- The reservation of the run is one that the quota service makes. -/
def Reserves (gw : Service) (request : Request) (tenant : TenantConfig) (cfg : Cfg) (t : Run) : Prop :=
  ∀ r, (⟨.reserve (reserveArgs gw request tenant cfg), .ok r⟩ : Ev) ∈ t →
    ∃ svc t' a, (Quota.reserve svc (reserveArgs gw request tenant cfg)).Runs {} t' (.ok r) a

/-- At most the estimated input and the output that the request allows. -/
def Allowed (request : Request) (usage : Usage) : Prop :=
  (∀ tokens, request.estimatedInputTokens = some tokens → usage.count "input_tokens" ≤ tokens) ∧
    ∀ most, request.maxTokens = some most → usage.count "output_tokens" ≤ most

/-- Every answer of the run reports what is allowed. -/
def Reports (request : Request) (t : Run) : Prop :=
  ∀ ev ∈ t, ∀ s, chatted ev = some s ∨ streamed ev = some s → Allowed request s.usage

/-- What is reconciled is at most what is reserved. -/
def Covered (t : Run) : Prop :=
  ∀ s r usd, (s, .reconciled (some r) usd) ∈ charges t → usd ≤ r.estimatedUsd

section
variable {fair : Ev → Prop} {terms : Terms} {g : Account}

/-- What is reconciled is the cost of an answer, against the reservation that was made. -/
theorem Billed.settles (h : Billed fair terms g) {s : Option Served}
    {reservation : Option Reservation} {usd : ℚ}
    (mem : (s, .reconciled reservation usd) ∈ g.charges) :
    ∃ s, Settles fair terms s reservation ∧ usd = terms.cost s := by
  cases h with
  | idle idle => simp [idle.charges] at mem
  | @reconciled s' r settles charges =>
    rw [charges, List.mem_singleton] at mem
    cases mem
    exact ⟨s', settles, rfl⟩
  | @paid s' r record paid =>
    simp only [paid.charges, List.mem_cons, Prod.mk.injEq, reduceCtorEq, and_false,
      List.not_mem_nil, or_false] at mem
    obtain ⟨-, is⟩ := mem
    cases is
    exact ⟨s', paid.settles, rfl⟩

/-- Once a success is recorded, something is charged. -/
theorem Billed.charged (h : Billed fair terms g)
    (some_ : g.succeeded = true ∨ g.charges ≠ []) : ∃ s reservation,
      Settles fair terms s reservation ∧
        (some s, .reconciled reservation (terms.cost s)) ∈ g.charges := by
  cases h with
  | idle idle => simp [idle.succeeded, idle.charges] at some_
  | @reconciled s r settles charges => exact ⟨s, r, settles, by simp [charges]⟩
  | @paid s r record paid => exact ⟨s, r, paid.settles, by simp [paid.charges]⟩

theorem note_succeeded (g : Account) (ev : Ev) (done : g.succeeded = true) :
    (g.note ev).succeeded = true := by
  obtain ⟨op, r⟩ := ev
  cases op with
  | chat => cases r <;> exact done
  | openStream => cases r <;> exact done
  | recordSuccess => cases r <;> first | exact done | rfl
  | _ => exact done

theorem succeeded_mem {t : Run} {d : Deployment} (mem : (⟨.recordSuccess d, .ok ()⟩ : Ev) ∈ t) :
    (account t).succeeded = true := by
  obtain ⟨before, after, rfl⟩ := List.append_of_mem mem
  rw [account, List.foldl_append, List.foldl_cons]
  have kept (g : Account) (t : Run) (done : g.succeeded = true) :
      (t.foldl Account.note g).succeeded = true := by
    induction t generalizing g with
    | nil => exact done
    | cons ev t ih => exact ih _ (note_succeeded g ev done)
  exact kept _ _ rfl

end

section
variable {gw : Service} {request : Request} {tenant : TenantConfig} {cfg : Cfg} {t : Run}
  {terms : Terms}

/-- A run is covered when the cost of every answer that may be charged is. -/
theorem covered_of_billed
    (billed : Billed (· ∈ t) terms (account t)) (args : terms.args = reserveArgs gw request tenant cfg)
    (reserves : Reserves gw request tenant cfg t)
    (within : 0 < estimateOf gw request cfg → ∀ s, (∃ ev ∈ t, terms.answer ev = some s) →
      .served s.d ∈ marks t → terms.cost s ≤ estimateOf gw request cfg) :
    Covered t := by
  intro s r usd mem
  obtain ⟨s, settles, rfl⟩ := billed.settles mem
  obtain ⟨svc, t', a, run⟩ := reserves (some r) (args ▸ settles.reserved)
  obtain ⟨amount, same⟩ := Coro.all_iff.mp
    (Quota.reserve_estimate svc (reserveArgs gw request tenant cfg) {}) t' _ a run r rfl
  rw [same]
  exact within amount s settles.answered (served_mem settles.succeeded)

/-- The deployment that is served is one that the chain names. -/
theorem served_names {n : Nat} {fails : Deployment → FailureClass → Prop} {up : Deployment → Bool}
    {d : Deployment}
    (h : RunMarks (fallbackChain gw request cfg (candidatesAt gw request cfg n))
      (Router.decide (candidatesAt gw request cfg 2) up) fails (marks t))
    (served : .served d ∈ marks t) :
    (fallbackChain gw request cfg (candidatesAt gw request cfg n)).Names d := by
  obtain ⟨earlier, rest, seen, h, -⟩ := h.of_served served
  apply h.names ?_ d List.mem_cons_self
  exact (mem_candidatesAt 2 n).mp (Router.decide_mem (candidatesAt_ne_nil 2) up)

end

/-! ## Staged runs -/

section
variable {gw : Service} {request : Request} {tenant : TenantConfig} {cfg : Cfg} {t : Run}
  {a : Assignment} {d x : Deployment} {usage : Usage} {reservation : Option Reservation} {s : Served}

theorem note_served (g : Logbook) (ev : Ev) (mem : .served d ∈ (g.note ev).marks) :
    .served d ∈ g.marks ∨ ∃ r, ev = ⟨.recordSuccess d, r⟩ := by
  obtain ⟨op, r⟩ := ev
  cases op with
  | recordSuccess d' =>
    rcases List.mem_append.mp mem with mem | mem
    · exact .inl mem
    · cases List.mem_singleton.mp mem
      exact .inr ⟨r, rfl⟩
  | chat => exact .inl (by simpa [Logbook.note] using mem)
  | openStream => exact .inl (by simpa [Logbook.note] using mem)
  | recordFailure => exact .inl (by simpa [Logbook.note] using mem)
  | getAdapter => cases r <;> exact .inl mem
  | emit => cases r <;> exact .inl mem
  | _ => exact .inl mem

theorem recorded_of_served (mem : .served d ∈ marks t) : ∃ r, (⟨.recordSuccess d, r⟩ : Ev) ∈ t := by
  have from_ (g : Logbook) (mem : .served d ∈ (t.foldl Logbook.note g).marks) :
      .served d ∈ g.marks ∨ ∃ r, (⟨.recordSuccess d, r⟩ : Ev) ∈ t := by
    clear * - mem
    induction t generalizing g with
    | nil => exact .inl mem
    | cons ev t ih =>
      rcases ih _ mem with mem | ⟨r, mem⟩
      · rcases note_served g ev mem with mem | ⟨r, rfl⟩
        · exact .inl mem
        · exact .inr ⟨r, List.mem_cons_self⟩
      · exact .inr ⟨r, List.mem_cons_of_mem _ mem⟩
  exact (from_ {} mem).resolve_left (by simp)

theorem allowed_nil : Allowed request [] := by
  have none_ (key : String) : Usage.count [] key = 0 := rfl
  constructor
  · intro tokens _
    rw [none_]
    omega
  · intro most _
    rw [none_]
    omega

/-- Only `x` answers a call. -/
theorem Assignment.Alone.chatted (alone : a.Alone x usage) {ev : Ev}
    (answered : ev.reply = a.answers ev.op) (is : chatted ev = some s) : s = ⟨x, "", usage⟩ := by
  obtain ⟨op, r⟩ := ev
  cases op with
  | chat d messages timeout =>
    cases r with
    | error e => cases is
    | ok response =>
      by_cases same : d = x
      · subst same
        simp only [Assignment.answers, alone.outcome, Except.ok.injEq] at answered
        cases is
        subst answered
        rfl
      · obtain ⟨message, outcome⟩ := alone.others d same
        simp [Assignment.answers, outcome] at answered
  | _ => cases is

/-- Only `x` streams any usage. -/
theorem Assignment.Alone.streamed (alone : a.Alone x usage) {ev : Ev}
    (answered : ev.reply = a.answers ev.op) (is : streamed ev = some s) :
    s.usage = if s.d = x then usage else [] := by
  obtain ⟨op, r⟩ := ev
  cases op with
  | openStream d messages timeout =>
    cases r with
    | error e => cases is
    | ok script =>
      obtain rfl : script = (a.outcome d).script := Except.ok.inj answered
      cases is
      dsimp only
      by_cases same : d = x
      · rw [if_pos same, same, alone.outcome]
        by_cases none_ : usage = []
        · simp [Outcome.script, reportedUsage, none_]
        · simp [Outcome.script, reportedUsage, none_]
      · obtain ⟨message, outcome⟩ := alone.others d same
        rw [if_neg same, outcome]
        rfl
  | _ => cases is

theorem Assignment.Alone.allowed (alone : a.Alone x usage) {ev : Ev}
    (answered : ev.reply = a.answers ev.op) (within : Allowed request usage)
    (is : AgentStudio.Gateway.streamed ev = some s) : Allowed request s.usage := by
  rw [alone.streamed answered is]
  split
  · exact within
  · exact allowed_nil

/-- A run is served once. -/
theorem RunMarks.served_once {chain : FallbackChain} {first : Deployment}
    {fails : Deployment → FailureClass → Prop} {all : List Mark} (h : RunMarks chain first fails all)
    (one : .served d ∈ all) (other : .served x ∈ all) : d = x := by
  obtain ⟨earlier, rest, seen, before, rfl⟩ := h.of_served one
  simpa [before.not_served, eq_comm] using other

variable (gw request tenant cfg) in
/-- A stream that is charged with what any answer of a named deployment costs. -/
theorem streamImpl_charged {r : Reservation} (s : Served)
    (made : ∃ svc t' a, (Quota.reserve svc (reserveArgs gw request tenant cfg)).Runs {} t' (.ok (some r)) a)
    (names : (fallbackChain gw request cfg (candidatesAt gw request cfg 0)).Names s.d)
    (allowed : Allowed request s.usage) : ∃ t o v, (streamImpl gw request tenant cfg).Runs {} t o v ∧
      Reserves gw request tenant cfg t ∧ Reports request t ∧
      ∃ s', (s', .reconciled (some r) (routedPrice gw s)) ∈ charges t := by
  obtain ⟨t, v, a, run, serves⟩ := streamImpl_serves gw request cfg tenant names s.usage (some r)
  have held (r' : Option Reservation)
      (mem : (⟨.reserve (reserveArgs gw request tenant cfg), .ok r'⟩ : Ev) ∈ t) : r' = some r := by
    have is : (.ok r' : Except Raised (Option Reservation)) = .ok a.reservation := serves.answered _ mem
    rw [Except.ok.inj is, serves.reservation]
  refine ⟨t, _, v, run, fun r' mem => held r' mem ▸ made, ?_, ?_⟩
  · rintro ev mem s' (is | is)
    · rw [serves.alone.chatted (serves.answered ev mem) is]
      exact allowed
    · exact serves.alone.allowed (serves.answered ev mem) allowed is
  · obtain ⟨r', recorded⟩ := recorded_of_served serves.served
    have ok : r' = .ok () := serves.answered _ recorded
    have billed := Coro.all_iff.mp (streamImpl_billed (· ∈ t) gw request tenant cfg) t _ v run
      fun _ mem => mem
    obtain ⟨s', reservation, settles, mem⟩ := billed.charged (.inl (succeeded_mem (ok ▸ recorded)))
    obtain ⟨ev, at_, is⟩ := settles.answered
    have all : ∀ ev : Ev, True → ∀ d failureClass, Tells ev d failureClass → True :=
      fun _ _ _ _ _ => trivial
    obtain ⟨up, -, marked⟩ := (streamImpl_marks all run fun _ _ => trivial).resolve_left
      (List.ne_nil_of_mem serves.served)
    have same := marked.served_once (served_mem settles.succeeded) serves.served
    have usage := serves.alone.streamed (serves.answered ev at_) is
    rw [if_pos same] at usage
    have cost : (streamTerms gw request tenant cfg).cost s' = routedPrice gw s := by
      change price gw s'.d s'.usage = price gw s.d s.usage
      rw [same, usage]
    rw [held reservation settles.reserved, cost] at mem
    exact ⟨_, mem⟩

theorem first_chatted {ev : Ev} (mem : ev ∈ t) (is : (chatted ev).isSome) :
    ∃ pre ev rest, t = pre ++ ev :: rest ∧ (chatted ev).isSome ∧ ∀ ev ∈ pre, chatted ev = none := by
  induction t with
  | nil => cases mem
  | cons ev' t ih =>
    by_cases here : (chatted ev').isSome
    · exact ⟨[], ev', t, rfl, here, by simp⟩
    · have later : ev ∈ t := by
        rcases List.mem_cons.mp mem with rfl | later
        · exact absurd is here
        · exact later
      obtain ⟨pre, ev, rest, rfl, found, none_⟩ := ih later
      refine ⟨ev' :: pre, ev, rest, rfl, found, ?_⟩
      exact List.forall_mem_cons.mpr ⟨by simpa using here, none_⟩

theorem served_of_chatted {ev : Ev} (mem : ev ∈ t) (is : (chatted ev).isSome) :
    (account t).served.isSome := by
  have step (g : Account) (ev : Ev) (some_ : g.served.isSome) : (g.note ev).served.isSome := by
    obtain ⟨op, r⟩ := ev
    cases op with
    | chat =>
      cases r with
      | ok response => rfl
      | error e => exact some_
    | openStream =>
      cases r with
      | ok script => rfl
      | error e => exact some_
    | recordSuccess => cases r <;> exact some_
    | _ => exact some_
  have kept (g : Account) (t : Run) (some_ : g.served.isSome) :
      (t.foldl Account.note g).served.isSome := by
    induction t generalizing g with
    | nil => exact some_
    | cons ev t ih => exact ih _ (step g ev some_)
  obtain ⟨before, after, rfl⟩ := List.append_of_mem mem
  rw [account, List.foldl_append, List.foldl_cons]
  apply kept
  obtain ⟨op, r⟩ := ev
  cases op with
  | chat =>
    cases r with
    | ok response => rfl
    | error e => cases is
  | _ => cases is

/-- The same answers, but for the one of `x`. -/
def Assignment.naming (a : Assignment) (x : Deployment) (response : LLMResponse) :
    (op : Op) → Except Raised (Calls.Ans op)
  | .chat d messages timeout => if d = x then .ok response else a.answers (.chat d messages timeout)
  | op => a.answers op

/-- No other call is answered otherwise. -/
theorem naming_other {response : LLMResponse} {op : Op}
    (other : ∀ d messages timeout, op ≠ .chat d messages timeout) :
    a.naming x response op = a.answers op := by
  cases op with
  | chat d messages timeout => exact absurd rfl (other d messages timeout)
  | _ => rfl

theorem Assignment.Alone.naming (alone : a.Alone x usage) {response : LLMResponse} {ev : Ev}
    (answered : ev.reply = a.naming x response ev.op)
    (is : AgentStudio.Gateway.chatted ev = some s) : s = ⟨x, response.model, response.usage⟩ := by
  obtain ⟨op, r⟩ := ev
  cases op with
  | chat d messages timeout =>
    change r = if d = x then .ok response else a.answers (.chat d messages timeout) at answered
    by_cases same : d = x
    · rw [if_pos same] at answered
      subst answered
      cases is
      rw [same]
    · rw [if_neg same] at answered
      exact absurd (congrArg Served.d (alone.chatted answered is)) (by
        cases r with
        | error e => cases is
        | ok response =>
          cases is
          exact same)
  | _ => cases is

variable (gw request tenant cfg) in
/-- And a `generate` that is, whatever name came back with the answer. -/
theorem generate_charged {r : Reservation} (s : Served)
    (made : ∃ svc t' a, (Quota.reserve svc (reserveArgs gw request tenant cfg)).Runs {} t' (.ok (some r)) a)
    (names : (fallbackChain gw request cfg (candidatesAt gw request cfg 3)).Names s.d)
    (allowed : Allowed request s.usage) : ∃ t o, (generate gw request tenant cfg).Runs () t o () ∧
      Reserves gw request tenant cfg t ∧ Reports request t ∧
      ∃ s', (s', .reconciled (some r) (namedPrice gw s)) ∈ charges t := by
  obtain ⟨t, a, run, serves⟩ := generate_serves gw request cfg tenant names s.usage (some r)
  -- the run with no name, up to its answer
  obtain ⟨-, -, paid⟩ := Coro.all_iff.mp (generate_billed (· ∈ t) gw request tenant cfg) t _ () run
    fun _ mem => mem
  obtain ⟨s₀, _, _, paid⟩ := paid _ rfl rfl
  obtain ⟨ev, mem, is⟩ := paid.settles.answered
  obtain ⟨pre, ⟨op, r₀⟩, rest, split, found, none_⟩ :=
    first_chatted mem (Option.isSome_iff_exists.mpr ⟨_, is⟩)
  have answered (ev : Ev) (mem : ev ∈ pre) : ev.reply = a.answers ev.op :=
    serves.answered ev (split ▸ List.mem_append_left _ mem)
  have here : (⟨op, r₀⟩ : Ev).reply = a.answers op := serves.answered ⟨op, r₀⟩ (by simp [split])
  obtain ⟨s₁, is₁⟩ := Option.isSome_iff_exists.mp found
  have by_x := serves.alone.chatted here is₁
  cases op with
  | chat d messages timeout =>
    cases r₀ with
    | error e => cases is₁
    | ok response =>
      obtain rfl : d = s.d := by
        cases is₁
        exact congrArg Served.d by_x
      -- the same with the name, and what follows from there
      let named : LLMResponse := { content := "", model := s.model, usage := s.usage }
      obtain ⟨rest', o, ⟨⟩, run', after⟩ := (split ▸ run).otherwise (.ok named) (a.naming s.d named)
      let ev' : Ev := ⟨.chat s.d messages timeout, .ok named⟩
      let t' : Run := pre ++ ev' :: rest'
      have each (ev : Ev) (mem : ev ∈ t') :
          ev.reply = a.answers ev.op ∧ chatted ev = none ∨ ev.reply = a.naming s.d named ev.op := by
        rcases List.mem_append.mp mem with mem | mem
        · exact .inl ⟨answered ev mem, none_ ev mem⟩
        · rcases List.mem_cons.mp mem with rfl | mem
          · exact .inr (if_pos rfl).symm
          · exact .inr (after ev mem)
      have chats (ev : Ev) (mem : ev ∈ t') (s' : Served) (is : chatted ev = some s') : s' = s := by
        rcases each ev mem with ⟨-, quiet⟩ | answered
        · rw [quiet] at is
          cases is
        · exact serves.alone.naming answered is
      have plain (op : Op) (r : Except Raised (Calls.Ans op)) (mem : (⟨op, r⟩ : Ev) ∈ t')
          (other : ∀ d messages timeout, op ≠ .chat d messages timeout) : r = a.answers op := by
        rcases each _ mem with ⟨answered, -⟩ | answered
        · exact answered
        · exact answered.trans (naming_other other)
      have held (r' : Option Reservation)
          (mem : (⟨.reserve (reserveArgs gw request tenant cfg), .ok r'⟩ : Ev) ∈ t') : r' = some r := by
        have is : (.ok r' : Except Raised (Option Reservation)) = .ok a.reservation :=
          plain _ _ mem (by simp)
        rw [Except.ok.inj is, serves.reservation]
      refine ⟨t', o, run', fun r' mem => held r' mem ▸ made, ?_, ?_⟩
      · rintro ⟨op, r'⟩ mem s' (is | is)
        · rw [chats _ mem s' is]
          exact allowed
        · have staged : r' = a.answers op := by
            apply plain op r' mem
            rintro d messages timeout rfl
            cases is
          exact serves.alone.allowed staged allowed is
      · obtain ⟨billed, unrefused, -⟩ := Coro.all_iff.mp
          (generate_billed (· ∈ t') gw request tenant cfg) t' o () run' fun _ mem => mem
        have at_ : ev' ∈ t' := List.mem_append_right _ List.mem_cons_self
        have some_ : (account t').charges ≠ [] := by
          apply (unrefused (served_of_chatted at_ rfl)).resolve_right
          rintro ⟨d, e, mem⟩
          have ok : (.error e : Except Raised Unit) = .ok () := plain _ _ mem (by simp)
          cases ok
        obtain ⟨s', reservation, settles, mem⟩ := billed.charged (.inr some_)
        obtain ⟨ev, in_, is⟩ := settles.answered
        rw [held reservation settles.reserved, chats ev in_ s' is] at mem
        exact ⟨_, mem⟩
  | _ => cases found

end

/-- What is reserved covers every answer that a deployment of the chain may give. -/
def Estimated (gw : Service) (request : Request) (cfg : Cfg) (n : Nat) (cost : Served → ℚ) : Prop :=
  0 < estimateOf gw request cfg → ∀ s : Served,
    (fallbackChain gw request cfg (candidatesAt gw request cfg n)).Names s.d →
      Allowed request s.usage → cost s ≤ estimateOf gw request cfg

/-- For every gateway, request and config: all runs of `generate` reconcile at most what was
reserved exactly when the estimate, if there is one, covers the price of every allowed
answer, under any name, of every deployment that the chain names; and so for
`_stream_impl`, which prices the deployment itself. Where all actuals stay within their
estimates, what is spent stays within every limit. -/
theorem spend_covered_iff (gw : Service) (request : Request) (tenant : TenantConfig) (cfg : Cfg) :
    ((∀ t o, (generate gw request tenant cfg).Runs () t o () → Reserves gw request tenant cfg t →
        Reports request t → Covered t) ↔ Estimated gw request cfg 3 (namedPrice gw)) ∧
    ((∀ t o v, (streamImpl gw request tenant cfg).Runs {} t o v → Reserves gw request tenant cfg t →
        Reports request t → Covered t) ↔ Estimated gw request cfg 0 (routedPrice gw)) ∧
    ∀ (svc : Quota.Service) (limit : String → ℚ) (w : World), svc.available = true →
      Quota.Reachable svc limit w → SettledOnce w → ActualsWithin w →
        ∀ key, 0 < limit key → (w.store key).spent ≤ limit key := by
  have all : ∀ ev : Ev, True → ∀ d failureClass, Tells ev d failureClass → True :=
    fun _ _ _ _ _ => trivial
  have made (amount : 0 < estimateOf gw request cfg) : ∃ r : Reservation,
      r.estimatedUsd = estimateOf gw request cfg ∧ ∃ svc t a,
        (Quota.reserve svc (reserveArgs gw request tenant cfg)).Runs {} t (.ok (some r)) a := by
    obtain ⟨t, a, r, run⟩ := Quota.reserve_granted (reserveArgs gw request tenant cfg) amount
    have same := Coro.all_iff.mp (Quota.reserve_estimate {} _ {}) t _ a run r rfl
    exact ⟨r, same.2, {}, t, a, run⟩
  refine ⟨⟨?_, ?_⟩, ⟨?_, ?_⟩, fun _ _ _ up reach once actuals _ limited =>
    spent_le_limit up reach once actuals limited⟩
  · intro claim amount s names allowed
    obtain ⟨r, estimate, made⟩ := made amount
    obtain ⟨t, o, run, reserves, reports, s', charged⟩ :=
      generate_charged gw request tenant cfg s made names allowed
    exact estimate ▸ claim t o run reserves reports s' r _ charged
  · intro within t o run reserves reports
    have billed := (Coro.all_iff.mp (generate_billed (· ∈ t) gw request tenant cfg) t o () run
      fun _ mem => mem).1
    apply covered_of_billed billed rfl reserves
    rintro amount s ⟨ev, mem, is⟩ served
    obtain ⟨up, -, marked⟩ := (generate_marks all run fun _ _ => trivial).resolve_left
      (List.ne_nil_of_mem served)
    exact within amount s (served_names marked served) (reports ev mem s (.inl is))
  · intro claim amount s names allowed
    obtain ⟨r, estimate, made⟩ := made amount
    obtain ⟨t, o, v, run, reserves, reports, s', charged⟩ :=
      streamImpl_charged gw request tenant cfg s made names allowed
    exact estimate ▸ claim t o v run reserves reports s' r _ charged
  · intro within t o v run reserves reports
    have billed := Coro.all_iff.mp (streamImpl_billed (· ∈ t) gw request tenant cfg) t o v run
      fun _ mem => mem
    apply covered_of_billed billed rfl reserves
    rintro amount s ⟨ev, mem, is⟩ served
    obtain ⟨up, -, marked⟩ := (streamImpl_marks all run fun _ _ => trivial).resolve_left
      (List.ne_nil_of_mem served)
    exact within amount s (served_names marked served) (reports ev mem s (.inr is))

/-! ## More output than the estimate has -/

/-- A request that allows four times the output of the estimate. -/
def longer : Request := { estimated with maxTokens := some 4096 }

/-- It is answered with as much. -/
def atLength : (op : Op) → Except Raised (Calls.Ans op)
  | .chat .. =>
    .ok { content := "hello", usage := [("input_tokens", 1000), ("output_tokens", 4096)] }
  | op => answering op

/-- The reserved and the reconciled dollars of a charge. -/
def Charge.sides : Charge → Option (ℚ × ℚ)
  | .reconciled (some r) usd => some (r.estimatedUsd, usd)
  | _ => none

def longRun : Run := (generate oneModel longer { id := "acme" } {}).traceWith atLength ()

theorem atLength_reports : Reports longer longRun := by
  rintro ⟨op, r⟩ mem s is
  have answered : r = atLength op := Coro.mem_traceWith mem
  subst answered
  cases op with
  | chat =>
    rcases is with is | is
    · have within : Allowed longer [("input_tokens", 1000), ("output_tokens", 4096)] := by
        constructor
        · rintro tokens ⟨⟩
          decide
        · rintro most ⟨⟩
          decide
      cases is
      exact within
    · cases is
  | openStream =>
    rcases is with is | is
    · cases is
    · cases is
      exact allowed_nil
  | _ => rcases is with is | is <;> cases is

/-- 76 cents are reserved for what costs 2.61 dollars. -/
theorem reconciled_more :
    (charges longRun).filterMap (fun c => c.2.sides) = [(7644 / 10000, 26076 / 10000)] ∧
    ¬ ∀ (gw : Service) (request : Request) (tenant : TenantConfig) (cfg : Cfg) (t : Run)
      (o : Except Raised Result), (generate gw request tenant cfg).Runs () t o () →
        Reserves gw request tenant cfg t → Reports request t → Covered t := by
  have sides : (charges longRun).filterMap (fun c => c.2.sides) = [(7644 / 10000, 26076 / 10000)] := by
    decide +kernel
  refine ⟨sides, fun claim => ?_⟩
  obtain ⟨o, _, run⟩ := Coro.runs_traceWith (generate oneModel longer { id := "acme" } {}) atLength ()
  have reserves : Reserves oneModel longer { id := "acme" } {} longRun := by
    intro r mem
    have answered : (.ok r : Except Raised (Option Reservation)) =
        atLength (.reserve (reserveArgs oneModel longer { id := "acme" } {})) :=
      Coro.mem_traceWith mem
    obtain rfl := Except.ok.inj answered
    have made := (Quota.reserve {} (reserveArgs oneModel longer { id := "acme" } {})).runs_with
      granting {}
    have ends : ((Quota.reserve {} (reserveArgs oneModel longer { id := "acme" } {})).outcomeWith
        granting {}).1 = atLength (.reserve (reserveArgs oneModel longer { id := "acme" } {})) := by
      decide +kernel
    rw [ends] at made
    exact ⟨{}, _, _, made⟩
  obtain ⟨⟨s, charge⟩, mem, is⟩ := List.mem_filterMap.mp (sides ▸ List.mem_cons_self)
  have covered := claim oneModel longer _ {} longRun o run reserves atLength_reports
  match charge with
  | .reconciled (some r) usd =>
    obtain ⟨reserved, spent⟩ := Prod.mk.inj (Option.some.inj is)
    have most := covered s r usd mem
    rw [reserved, spent] at most
    exact absurd most (by decide +kernel)
  | .reconciled none usd => cases is
  | .recorded record => cases is

end AgentStudio.Gateway
