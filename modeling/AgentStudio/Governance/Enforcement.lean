import AgentStudio.Gateway.QuotaLedger
import AgentStudio.Gateway.Service
import AgentStudio.Orchestration.Release

/-!
# Budget enforcement, from the turn to the budget store

The limits come from `governance/budgets.py`, the request from the orchestration,
the estimate from the gateway, the refusal from `quota.py`. The gateway refuses a
request at a spent budget exactly when it comes with an estimate, and no request of
a turn does.
-/

namespace AgentStudio.Quota
open Async

/-! ## One `reserve` on the store -/

/-- A call of the service, alone on the store: each script runs and answers. -/
def onStore {ω : Type} : Tree Redis Raised ω → Store → ω
  | .done w, _ => w
  | .await op k, store => onStore (k (.ok (exec op store).1)) (exec op store).2

/-- `spent + reserved`. -/
def Hash.used (hash : Hash) : ℚ := hash.spent + hash.reserved

/-- Some limited level on the request's path has reached its limit. -/
def AtLimit (svc : Service) (store : Store) (args : ReserveArgs) : Prop :=
  ∃ level, 0 < args.limits.levelLimit level ∧
    args.limits.levelLimit level ≤ (store (args.key svc level)).used

section
variable (svc : Service) (args : ReserveArgs)

theorem onStore_refuseFrom (level : Level) (limit projected : ℚ) (keys : List String)
    (a : Acquired) (store : Store) :
    onStore (refuseFrom svc args level limit projected keys a) store =
      .error (.quotaExceeded level limit projected) := by
  induction keys generalizing store with
  | nil => rfl
  | cons key keys ih =>
    obtain ⟨k, eq, next⟩ := refuseFrom_cons svc args level limit projected key keys a
    rw [eq, onStore]
    exact (congrArg (onStore · _) next).trans (ih _)

/-- A granted charge leaves no key less used. -/
theorem used_le_reserveLua {key : String} {limit est : ℚ} (amount : 0 ≤ est) (store : Store)
    (k : String) : (store k).used ≤ ((reserveLua key limit est store).2 k).used := by
  unfold reserveLua
  dsimp only
  split
  · exact le_refl _
  · by_cases same : k = key
    · subst same
      simp only [Store.set, if_true, Hash.used]
      linarith
    · simp [Store.set, same]

variable {svc args}

theorem onStore_reserveFrom (up : svc.available = true) (amount : 0 < args.estimatedUsd)
    (levels : List Level) (limited : ∀ level ∈ levels, 0 < args.limits.levelLimit level)
    (a : Acquired) (store : Store)
    (reached : ∃ level ∈ levels,
      args.limits.levelLimit level ≤ (store (args.key svc level)).used) :
    ∃ level limit projected, onStore (reserveFrom svc args levels a) store =
      .error (.quotaExceeded level limit projected) := by
  induction levels generalizing a store with
  | nil => simp at reached
  | cons level levels ih =>
    obtain ⟨k, eq, granted, refused⟩ :=
      reserveFrom_limited svc args up (limited level List.mem_cons_self) levels a
    rw [eq, onStore]
    change ∃ l limit projected, onStore (k (.ok (reserveLua (args.key svc level)
      (args.limits.levelLimit level) args.estimatedUsd store).1)) (reserveLua (args.key svc level)
      (args.limits.levelLimit level) args.estimatedUsd store).2 = _
    by_cases exceeds : args.limits.levelLimit level > 0 ∧ (store (args.key svc level)).spent +
        (store (args.key svc level)).reserved + args.estimatedUsd > args.limits.levelLimit level
    · have answer : (reserveLua (args.key svc level) (args.limits.levelLimit level)
          args.estimatedUsd store).1 = (false, ⌊(store (args.key svc level)).used⌋) := by
        simp only [reserveLua, if_pos exceeds, Hash.used]
      rw [answer, refused]
      exact ⟨_, _, _, onStore_refuseFrom svc args _ _ _ _ _ _⟩
    · have answer : (reserveLua (args.key svc level) (args.limits.levelLimit level)
          args.estimatedUsd store).1 =
            (true, ⌊(store (args.key svc level)).used + args.estimatedUsd⌋) := by
        simp only [reserveLua, if_neg exceeds, Hash.used]
      rw [answer, granted]
      refine ih (fun l mem => limited l (List.mem_cons_of_mem _ mem)) _ _ ?_
      -- a level that was granted a positive charge had not reached its limit
      obtain ⟨l, mem, full⟩ := reached
      rcases List.mem_cons.mp mem with rfl | mem
      · refine absurd ⟨limited l List.mem_cons_self, ?_⟩ exceeds
        simp only [Hash.used] at full
        linarith
      · exact ⟨l, mem, full.trans (used_le_reserveLua amount.le store _)⟩

/-- At a spent budget a call with an estimate is refused. -/
theorem reserve_refused (up : svc.available = true) (amount : 0 < args.estimatedUsd)
    {store : Store} (reached : AtLimit svc store args) :
    ∃ level limit projected, onStore ((reserve svc args).tree {}) store =
      .error (.quotaExceeded level limit projected) := by
  obtain ⟨level, limited, full⟩ := reached
  have member : level ∈ limitedLevels args :=
    List.mem_filter.mpr ⟨by cases level <;> decide, by simpa using limited⟩
  rw [reserve_tree_limited svc args amount up]
  exact onStore_reserveFrom up amount _ (fun l mem => by simpa using (List.mem_filter.mp mem).2) _ _
    ⟨level, member, full⟩

end

end AgentStudio.Quota

namespace AgentStudio.Gateway
open Async Quota

/-! ## The gateway on the store -/

def Op.callsProvider : Op → Bool
  | .chat .. | .openStream .. => true
  | _ => false

/-- The quota service answers: `reserve` as it runs on the store, `release` without
a reservation at once. -/
def AnsweredFrom (q : Quota.Service) (store : Store) (t : Trace Calls Raised) : Prop :=
  (∀ args r, (⟨.reserve args, r⟩ : Event Calls Raised) ∈ t →
    r = onStore ((reserve q args).tree {}) store) ∧
  ∀ r, (⟨.release none, r⟩ : Event Calls Raised) ∈ t → r = .ok ()

section
variable (gw : Service) (request : Request) (tenant : TenantConfig) (cfg : Cfg)
  (q : Quota.Service) (store : Store)

/-- `generate` refuses the request as over budget, before any provider is called. -/
def GenerateRefuses : Prop :=
  ∀ t o s', (generate gw request tenant cfg).Runs () t o s' → AnsweredFrom q store t →
    (∀ ev ∈ t, ev.op.callsProvider = false) ∧
      ∃ level limit projected, o = .error (.quotaExceeded level limit projected)

/-- `_stream_impl` refuses the request as over budget, before any provider is called. -/
def StreamRefuses : Prop :=
  ∀ t o s', (streamImpl gw request tenant cfg).Runs {} t o s' → AnsweredFrom q store t →
    (∀ ev ∈ t, ev.op.callsProvider = false) ∧
      ∃ ev ∈ t, ∃ event, ev.op = .emit event ∧ event.type = .error ∧
        event.failureClass = "quota_exceeded"

/-- An environment in which nothing fails. -/
def healthy : (op : Op) → Except Raised (Calls.Ans op)
  | .reserve args => onStore ((reserve q args).tree {}) store
  | .reconcile .. => .ok ()
  | .release _ => .ok ()
  | .getExact .. => .ok none
  | .setExact .. => .ok ()
  | .resolveKey _ => .ok "key"
  | .isAvailable _ => .ok true
  | .recordSuccess _ => .ok ()
  | .recordFailure _ => .ok ()
  | .getAdapter .. => .ok ()
  | .chat .. => .ok { content := "" }
  | .openStream .. => .ok { events := [] }
  | .aclose => .ok ()
  | .ledger _ => .ok ()
  | .emit _ => .ok ()

theorem answeredFrom_healthy {t : Trace Calls Raised}
    (answered : Coro.AnsweredBy (healthy q store) t) : AnsweredFrom q store t :=
  ⟨fun args _ mem => answered ⟨.reserve args, _⟩ mem, fun _ mem => answered ⟨.release none, _⟩ mem⟩

theorem snapshot_passes {σ : Type} (ds : List Deployment) (s : σ) :
    Coro.Passes (healthy q store) (fun _ => True) (snapshot ds) s := by
  induction ds with
  | nil => exact fun _ => ⟨rfl, _, rfl, trivial⟩
  | cons d ds ih =>
    exact (Coro.passes_call rfl).bind fun _ _ => ih.bind fun _ _ _ => ⟨rfl, _, rfl, trivial⟩

theorem decide_passes {σ : Type} (s : σ) :
    Coro.Passes (healthy q store) (fun _ => True) (decide gw request cfg) s :=
  (snapshot_passes q store _ s).bind fun _ _ _ => ⟨rfl, _, rfl, trivial⟩

theorem lookupExact_passes :
    Coro.Passes (healthy q store) (· = none) (lookupExact request tenant cfg) () := by
  unfold lookupExact
  split
  · exact Coro.passes_call rfl
  · exact Coro.passes_pure none

variable {q store}

theorem attempt_reaches (apiKey : String) (d : Deployment) (v : ChainVars) :
    Coro.Reaches (I := Calls) (healthy q store) (Op.callsProvider ·)
      (attempt request tenant apiKey d) v := by
  refine Coro.Reaches.tryCatch ?_ _
  refine (Coro.passes_call rfl).reaches fun _ _ => ?_
  exact Coro.Reaches.bind (Coro.reaches_call (by rfl)) _

/-- A granted `reserve` lets `generate` through to a provider. -/
theorem generate_reaches {r : Option Reservation}
    (granted : healthy q store (.reserve (reserveArgs gw request tenant cfg)) = .ok r) :
    Coro.Reaches (I := Calls) (healthy q store) (Op.callsProvider ·)
      (generate gw request tenant cfg) () := by
  refine (Coro.passes_call granted).reaches fun reservation _ => ?_
  have chain (apiKey : String) : Coro.Reaches (I := Calls) (healthy q store) (Op.callsProvider ·)
      (executeChain gw request tenant cfg apiKey reservation) () := by
    refine (decide_passes gw request cfg q store ()).reaches fun decision _ => ?_
    refine Coro.Reaches.scope (Coro.Reaches.bind (Coro.Reaches.tryCatch (Coro.Reaches.bind ?_ _) _) _)
    refine Coro.Reaches.bind ?_ _
    refine (Coro.reaches_get_bind _).mpr ?_
    refine (Coro.reaches_modify_bind _ _).mpr ((Coro.reaches_get_bind _).mpr ?_)
    rw [if_neg (by simp)]
    refine (Coro.reaches_modify_bind _ _).mpr ?_
    exact (attempt_reaches request tenant apiKey decision _).bind _
  refine (lookupExact_passes request tenant cfg q store).reaches fun entry missed => ?_
  rw [missed]
  exact (Coro.passes_call rfl).reaches fun apiKey _ => chain apiKey

/-- A granted `reserve` lets `_stream_impl` through to a provider. -/
theorem streamImpl_reaches {r : Option Reservation}
    (granted : healthy q store (.reserve (reserveArgs gw request tenant cfg)) = .ok r) :
    Coro.Reaches (I := Calls) (healthy q store) (Op.callsProvider ·)
      (streamImpl gw request tenant cfg) {} := by
  refine Coro.Reaches.tryCatch ?_ _
  refine (Coro.passes_call granted).reaches fun reservation _ => ?_
  refine (Coro.reaches_modify_bind _ _).mpr ?_
  refine (Coro.passes_call rfl).reaches fun apiKey _ => ?_
  refine (decide_passes gw request cfg q store _).reaches fun decision _ => ?_
  refine (Coro.reaches_modify_bind _ _).mpr (Coro.Reaches.bind (Coro.Reaches.bind ?_ _) _)
  refine (Coro.reaches_get_bind _).mpr ?_
  refine (Coro.reaches_modify_bind _ _).mpr ((Coro.reaches_get_bind _).mpr ?_)
  rw [if_neg (by simp)]
  refine (Coro.reaches_modify_bind _ _).mpr ?_
  refine (Coro.passes_call rfl).reaches fun _ _ => ?_
  refine (Coro.reaches_modify_bind _ _).mpr ?_
  refine Coro.Reaches.bind (Coro.Reaches.tryCatch (Coro.Reaches.bind ?_ _) _) _
  exact Coro.Reaches.bind (Coro.reaches_call (by rfl)) _

theorem free_of_not_positive (free : ¬ 0 < (reserveArgs gw request tenant cfg).estimatedUsd) :
    healthy q store (.reserve (reserveArgs gw request tenant cfg)) = .ok none := by
  rw [healthy, reserve_tree_free q _ (.inl (not_lt.mp free))]
  rfl

/-- At a spent budget `generate` refuses exactly the requests with an estimate. -/
theorem generateRefuses_iff (up : q.available = true)
    (reached : AtLimit q store (reserveArgs gw request tenant cfg)) :
    GenerateRefuses gw request tenant cfg q store ↔
      0 < (reserveArgs gw request tenant cfg).estimatedUsd := by
  constructor
  · intro refuses
    by_contra free
    obtain ⟨t, o, s', run, answered, ev, mem, asks⟩ :=
      (generate_reaches gw request tenant cfg (free_of_not_positive gw request tenant cfg free)).run
    exact Bool.false_ne_true
      (((refuses t o s' run (answeredFrom_healthy q store answered)).1 ev mem).symm.trans asks)
  · intro amount
    obtain ⟨level, limit, projected, refused⟩ := reserve_refused up amount reached
    refine Coro.all_iff.mp ?_
    refine (Coro.all_call_bind _ _).mpr ⟨fun r => ?_, fun e answered => ?_⟩
    · rw [Coro.all_iff]
      intro t o s' run answered
      cases (answered.1 _ _ List.mem_cons_self).trans refused
    · cases (answered.1 _ _ List.mem_cons_self).trans refused
      exact ⟨fun ev mem => by rw [List.mem_singleton.mp mem]; rfl, level, limit, projected, rfl⟩

/-- Without a reservation the report goes out, and nothing else. -/
theorem releaseAndReport_reports {v : StreamVars} (unreserved : v.reservation = none)
    (e : Raised) (failureClass : String) :
    (releaseAndReport e failureClass).All v fun t _ _ =>
      (∀ r, (⟨.release none, r⟩ : Event Calls Raised) ∈ t → r = .ok ()) →
        (∀ ev ∈ t, ev.op.callsProvider = false) ∧
          ∃ ev ∈ t, ∃ event, ev.op = .emit event ∧ event.type = .error ∧
            event.failureClass = failureClass := by
  have report (v : StreamVars) : (Coro.call (I := Calls) (.emit
      { type := .error, error := e.text, failureClass := failureClass }) :
        Coro Calls Raised StreamVars Unit).All v fun t _ _ =>
      (∀ ev ∈ t, ev.op.callsProvider = false) ∧
        ∃ ev ∈ t, ∃ event, ev.op = .emit event ∧ event.type = .error ∧
          event.failureClass = failureClass :=
    fun r => ⟨fun ev mem => by rw [List.mem_singleton.mp mem]; rfl,
      _, List.mem_singleton_self _, _, rfl, rfl, rfl⟩
  refine Coro.All.bind (Ψ := fun t o _ =>
    (∀ r, (⟨.release none, r⟩ : Event Calls Raised) ∈ t → r = .ok ()) →
      (∀ ev ∈ t, ev.op.callsProvider = false) ∧ o = .ok ()) ?_ (fun t _ v' step => ?_) ?_
  · refine (Coro.all_get_bind _).mpr ?_
    split
    · rw [Coro.all_modify_bind, Coro.all_get_bind, Coro.all_call]
      cases v
      cases unreserved
      exact fun r answered => ⟨fun ev mem => by rw [List.mem_singleton.mp mem]; rfl,
        answered r (List.mem_singleton_self _)⟩
    · exact fun _ => ⟨fun ev mem => by simp at mem, rfl⟩
  · refine (report v').mono fun t' _ _ made answered => ?_
    obtain ⟨quiet, -⟩ := step fun r mem => answered r (List.mem_append_left _ mem)
    obtain ⟨quiet', ev, mem, reported⟩ := made
    refine ⟨fun ev mem => ?_, ev, List.mem_append_right _ mem, reported⟩
    rcases List.mem_append.mp mem with mem | mem
    · exact quiet ev mem
    · exact quiet' ev mem
  · intro t e v' step answered
    cases (step answered).2

/-- So does `_stream_impl`. -/
theorem streamRefuses_iff (up : q.available = true)
    (reached : AtLimit q store (reserveArgs gw request tenant cfg)) :
    StreamRefuses gw request tenant cfg q store ↔
      0 < (reserveArgs gw request tenant cfg).estimatedUsd := by
  constructor
  · intro refuses
    by_contra free
    obtain ⟨t, o, s', run, answered, ev, mem, asks⟩ :=
      (streamImpl_reaches gw request tenant cfg
        (free_of_not_positive gw request tenant cfg free)).run
    exact Bool.false_ne_true
      (((refuses t o s' run (answeredFrom_healthy q store answered)).1 ev mem).symm.trans asks)
  · intro amount
    obtain ⟨level, limit, projected, refused⟩ := reserve_refused up amount reached
    refine Coro.all_iff.mp ?_
    refine Coro.All.tryCatch (Ψ := fun t o v => AnsweredFrom q store t →
        v.reservation = none ∧ (∀ ev ∈ t, ev.op.callsProvider = false) ∧
          o = .error (.quotaExceeded level limit projected)) ?_ ?_ ?_
    · refine (Coro.all_call_bind _ _).mpr ⟨fun r => ?_, fun e answered => ?_⟩
      · rw [Coro.all_iff]
        intro t o s' run answered
        cases (answered.1 _ _ List.mem_cons_self).trans refused
      · cases (answered.1 _ _ List.mem_cons_self).trans refused
        exact ⟨rfl, fun ev mem => by rw [List.mem_singleton.mp mem]; rfl, rfl⟩
    · intro t a v step answered
      cases (step answered).2.2
    · intro t e v step
      rw [Coro.all_iff]
      intro t' o v' run answered
      obtain ⟨unreserved, quiet, raised⟩ :=
        step ⟨fun args r mem => answered.1 args r (List.mem_append_left _ mem),
          fun r mem => answered.2 r (List.mem_append_left _ mem)⟩
      cases raised
      obtain ⟨quiet', ev, mem, reported⟩ :=
        Coro.all_iff.mp (releaseAndReport_reports unreserved _ _) t' o v' run
          fun r mem => answered.2 r (List.mem_append_right _ mem)
      refine ⟨fun ev mem => ?_, ev, List.mem_append_right _ mem, reported⟩
      rcases List.mem_append.mp mem with mem | mem
      · exact quiet ev mem
      · exact quiet' ev mem

end

end AgentStudio.Gateway

namespace AgentStudio.Governance
open Async Quota Gateway

/-! ## The turn -/

/-- The quota keys of a compiled surface config's budgets. -/
structure CompiledBudgets where
  quotaPlatformUsd : Option ℚ := none
  quotaTenantUsd : Option ℚ := none
  quotaSurfaceUsd : Option ℚ := none
  quotaEndUserUsd : Option ℚ := none

/-- `build_gateway_budget_cfg`, over the gateway's defaults. -/
def buildGatewayBudgetCfg (compiledBudgets : CompiledBudgets) : Cfg where
  quotaPlatformUsd := some (compiledBudgets.quotaPlatformUsd.getD 0)
  quotaTenantUsd := some (compiledBudgets.quotaTenantUsd.getD 0)
  quotaSurfaceUsd := some (compiledBudgets.quotaSurfaceUsd.getD 0)
  quotaEndUserUsd := some (compiledBudgets.quotaEndUserUsd.getD 0)

theorem estimate_of_built {svc : Orchestration.Service} {op : Orchestration.Op}
    (built : op.Built svc) {request : Request} (handed : request ∈ op.request) (gw : Gateway.Service)
    (tenant : TenantConfig) (cfg : Cfg) : (reserveArgs gw request tenant cfg).estimatedUsd = 0 := by
  obtain ⟨s, assembled, requestId, rfl⟩ := built request handed
  rfl

/-- For every request of every turn, a spent budget on its path is enforced exactly
when there is none: no request of a turn carries an estimate. -/
theorem spent_budget_refused_iff (svc : Orchestration.Service) (input : Orchestration.TurnInput)
    {t : Orchestration.Run} {o : Except Raised Orchestration.AgentState} {s' : Unit}
    (turn : (Orchestration.processMessage svc input).Runs () t o s')
    {ev : Orchestration.Ev} (mem : ev ∈ t) {request : Request} (handed : request ∈ ev.op.request)
    (gw : Gateway.Service) (tenant : TenantConfig) (cfg : Cfg) {q : Quota.Service}
    (up : q.available = true) (store : Store) :
    ((AtLimit q store (reserveArgs gw request tenant cfg) →
        GenerateRefuses gw request tenant cfg q store) ↔
      ¬ AtLimit q store (reserveArgs gw request tenant cfg)) ∧
    ((AtLimit q store (reserveArgs gw request tenant cfg) →
        StreamRefuses gw request tenant cfg q store) ↔
      ¬ AtLimit q store (reserveArgs gw request tenant cfg)) := by
  have built := Coro.all_iff.mp (Orchestration.processMessage_built svc input ()) t o s' turn ev mem
  have free := estimate_of_built built handed gw tenant cfg
  refine ⟨⟨fun enforced reached => ?_, fun below reached => absurd reached below⟩,
    ⟨fun enforced reached => ?_, fun below reached => absurd reached below⟩⟩
  · have amount := (generateRefuses_iff gw request tenant cfg up reached).mp (enforced reached)
    exact absurd amount (by rw [free]; exact lt_irrefl 0)
  · have amount := (streamRefuses_iff gw request tenant cfg up reached).mp (enforced reached)
    exact absurd amount (by rw [free]; exact lt_irrefl 0)

/-- Every candidate deployment of the request has a price card. -/
def Priced (gw : Gateway.Service) (request : Request) (cfg : Cfg) : Prop :=
  ∀ d ∈ candidatesAt gw request cfg 0, (gw.router.catalog.get d.1 d.2).isSome = true

instance (gw : Gateway.Service) (request : Request) (cfg : Cfg) :
    Decidable (Priced gw request cfg) :=
  inferInstanceAs (Decidable (∀ d ∈ candidatesAt gw request cfg 0,
    (gw.router.catalog.get d.1 d.2).isSome = true))

/-- Ten dollars a month for the tenant. -/
def tenDollars : Cfg := buildGatewayBudgetCfg { quotaTenantUsd := some 10 }

/-- Ten dollars spent under every key. -/
def tenSpent : Store := fun _ => ⟨0, 10⟩

theorem tenSpent_atLimit (q : Quota.Service) (gw : Gateway.Service) (request : Request)
    (tenant : TenantConfig) : AtLimit q tenSpent (reserveArgs gw request tenant tenDollars) :=
  ⟨.tenant, show (0 : ℚ) < 10 by norm_num, show (10 : ℚ) ≤ 10 + 0 by norm_num⟩

/-- The turn hands a request with priced candidates to the gateway. -/
def asksPriced (t : Orchestration.Run) : Bool :=
  t.any fun ev => ev.op.request.any fun request => Decidable.decide (Priced {} request tenDollars)

theorem asking_turn : ∃ t o ev request,
    (Orchestration.processMessage Orchestration.unconfigured {}).Runs () t o () ∧ ev ∈ t ∧
    request ∈ ev.op.request ∧ Priced {} request tenDollars := by
  have run := (Orchestration.processMessage Orchestration.unconfigured {}).runs_with
    (Orchestration.scripted "Yes." [] Orchestration.unfaithful) ()
  have asks : asksPriced ((Orchestration.processMessage Orchestration.unconfigured {}).traceWith
      (Orchestration.scripted "Yes." [] Orchestration.unfaithful) ()) = true := by
    decide +kernel
  obtain ⟨ev, mem, asks⟩ := List.any_eq_true.mp asks
  obtain ⟨request, handed, priced⟩ := (Option.any_eq_true _ _).mp asks
  exact ⟨_, _, ev, request, run, mem, handed, of_decide_eq_true priced⟩

/-- A turn whose tenant has spent its budget is not refused. -/
theorem spent_budget_not_refused : ¬ ∀ (svc : Orchestration.Service)
    (input : Orchestration.TurnInput) (t : Orchestration.Run)
    (o : Except Raised Orchestration.AgentState) (ev : Orchestration.Ev) (request : Request)
    (gw : Gateway.Service) (tenant : TenantConfig) (cfg : Cfg) (q : Quota.Service) (store : Store),
    (Orchestration.processMessage svc input).Runs () t o () → ev ∈ t → request ∈ ev.op.request →
    q.available = true → Priced gw request cfg →
    AtLimit q store (reserveArgs gw request tenant cfg) →
    GenerateRefuses gw request tenant cfg q store ∧ StreamRefuses gw request tenant cfg q store := by
  intro claim
  obtain ⟨t, o, ev, request, run, mem, handed, priced⟩ := asking_turn
  have reached := tenSpent_atLimit {} {} request ⟨"acme", none⟩
  have built := Coro.all_iff.mp
    (Orchestration.processMessage_built Orchestration.unconfigured {} ()) t o () run ev mem
  have refuses := (claim _ _ t o ev request {} ⟨"acme", none⟩ tenDollars {} tenSpent run mem handed
    rfl priced reached).1
  have amount := (generateRefuses_iff {} request ⟨"acme", none⟩ tenDollars rfl reached).mp refuses
  rw [estimate_of_built built handed] at amount
  exact lt_irrefl 0 amount

theorem spent_budget_refused_iff_acme : ∃ t o ev request,
    (Orchestration.processMessage Orchestration.unconfigured {}).Runs () t o () ∧ ev ∈ t ∧
    request ∈ ev.op.request ∧ AtLimit {} tenSpent (reserveArgs {} request ⟨"acme", none⟩ tenDollars) ∧
    ((AtLimit {} tenSpent (reserveArgs {} request ⟨"acme", none⟩ tenDollars) →
        GenerateRefuses {} request ⟨"acme", none⟩ tenDollars {} tenSpent) ↔
      ¬ AtLimit {} tenSpent (reserveArgs {} request ⟨"acme", none⟩ tenDollars)) := by
  obtain ⟨t, o, ev, request, run, mem, handed, -⟩ := asking_turn
  exact ⟨t, o, ev, request, run, mem, handed, tenSpent_atLimit {} {} request _,
    (spent_budget_refused_iff _ _ run mem handed {} _ tenDollars rfl tenSpent).1⟩

end AgentStudio.Governance
