import AgentStudio.Gateway.Settlement

/-!
# What an exhausted chain has tried

The list of targets is computed anew after each failure, for the class of that
failure. It is what the chain names for that class and has not been attempted;
so when it is empty, the chain's targets of the last class have all been tried.
-/

namespace AgentStudio.Gateway
open Async Quota

/-- The deployment whose attempt a call begins. -/
def attemptOf (ev : Ev) : Option Deployment :=
  match ev.op with
  | .getAdapter d .. => some d
  | _ => none

/-- The deployments attempted, in order. -/
def attempted (t : Run) : List Deployment := t.filterMap attemptOf

/-- What a provider raised at a call. -/
def failureOf (ev : Ev) : Option Raised :=
  match ev.op with
  | .getAdapter .. | .chat .. => raisedBy ev
  | _ => none

def lastFailure (t : Run) : Option Raised := (t.filterMap failureOf).getLast?

/-- A call to something else than a provider. -/
def aside : Op → Prop
  | .getAdapter .. | .chat .. => False
  | _ => True

/-- The call that `e` came from: no call to a provider, where it would have been
taken for a failed attempt. -/
def Blamed (e : Raised) (ev : Ev) : Prop :=
  raisedBy ev = some e ∧ (aside ev.op ∨ e.isException = false ∨ e.isQuotaExceeded = true)

section
variable {t t' : Run} {ev : Ev}

theorem attempted_append : attempted (t ++ t') = attempted t ++ attempted t' :=
  List.filterMap_append

theorem attemptOf_aside (h : aside ev.op) : attemptOf ev = none := by
  obtain ⟨op, reply⟩ := ev
  cases op <;> first | rfl | exact h.elim

theorem failureOf_aside (h : aside ev.op) : failureOf ev = none := by
  obtain ⟨op, reply⟩ := ev
  cases op <;> first | rfl | exact h.elim

theorem attempted_aside (h : ∀ ev ∈ t, aside ev.op) : attempted t = [] :=
  List.filterMap_eq_nil_iff.mpr fun ev mem => attemptOf_aside (h ev mem)

theorem failures_aside (h : ∀ ev ∈ t, aside ev.op) : t.filterMap failureOf = [] :=
  List.filterMap_eq_nil_iff.mpr fun ev mem => failureOf_aside (h ev mem)

theorem lastFailure_aside (h : ∀ ev ∈ t', aside ev.op) : lastFailure (t ++ t') = lastFailure t := by
  rw [lastFailure, List.filterMap_append, failures_aside h, List.append_nil, lastFailure]

end

/-! ## One attempt -/

section
variable {σ : Type} {v : σ}

/-- What one attempt leaves in the trace. -/
def Attempted (d : Deployment) (t : Run) : Except Raised (Except ProviderCallError Result) → Prop
  | .ok (.ok _) => True
  | .ok (.error failure) => ∃ e, t.filterMap failureOf = [e] ∧ failure = .of e d
  | .error e => ∃ ev ∈ t, Blamed e ev

theorem attempt_trace (request : Request) (tenant : TenantConfig) (apiKey : String)
    (d : Deployment) :
    (attempt request tenant apiKey d : Coro Calls Raised σ _).All v fun t o v' =>
      v' = v ∧ attempted t = [d] ∧ Attempted d t o := by
  have handled (t : Run) (e : Raised) (once : attempted t = [d])
      (raised : t.filterMap failureOf = [e]) (here : ∃ ev ∈ t, raisedBy ev = some e) :
      (if e.isQuotaExceeded then throw e
        else if e.isException then pure (.error (.of e d)) else throw e :
          Coro Calls Raised σ (Except ProviderCallError Result)).All v fun t' o v' =>
            v' = v ∧ attempted (t ++ t') = [d] ∧ Attempted d (t ++ t') o := by
    obtain ⟨ev, mem, is⟩ := here
    have all : t ++ [] = t := List.append_nil t
    by_cases quota : e.isQuotaExceeded = true
    · rw [if_pos quota, Coro.all_throw, all]
      exact ⟨rfl, once, ev, mem, is, .inr (.inr quota)⟩
    · rw [if_neg quota]
      by_cases exception : e.isException = true
      · rw [if_pos exception, Coro.all_pure, all]
        exact ⟨rfl, once, e, raised, rfl⟩
      · rw [if_neg exception, Coro.all_throw, all]
        exact ⟨rfl, once, ev, mem, is, .inr (.inl (Bool.not_eq_true _ ▸ exception))⟩
  unfold attempt
  rw [Coro.all_tryCatch, Coro.all_call_bind]
  refine ⟨fun _ => ?_, fun e => ?_⟩
  · rw [Coro.all_call_bind]
    refine ⟨fun response => ?_, fun e => ?_⟩
    · exact ⟨rfl, rfl, trivial⟩
    · exact handled [⟨.getAdapter d request apiKey, .ok ()⟩, ⟨.chat d _ _, .error e⟩] e rfl rfl
        ⟨_, List.mem_cons_of_mem _ (List.mem_singleton_self _), rfl⟩
  · exact handled [⟨.getAdapter d request apiKey, .error e⟩] e rfl rfl
      ⟨_, List.mem_singleton_self _, rfl⟩

/-- Calls that are no attempts: nothing is tried, and what is raised came from one. -/
def Around (c : Coro Calls Raised σ α) : Prop :=
  ∀ s, c.All s fun t o _ => (∀ ev ∈ t, aside ev.op) ∧ ∀ e, o = .error e → ∃ ev ∈ t, Blamed e ev

theorem around_pure {α : Type} (a : α) : Around (pure a : Coro Calls Raised σ α) :=
  fun _ => ⟨by simp, fun _ h => by cases h⟩

theorem around_call {op : Op} (h : aside op) :
    Around (Coro.call (I := Calls) op : Coro Calls Raised σ _) := by
  intro s r
  refine ⟨by simpa using h, ?_⟩
  rintro e rfl
  exact ⟨_, List.mem_singleton_self _, rfl, .inl h⟩

theorem Around.bind {α β : Type} {c : Coro Calls Raised σ α} {k : α → Coro Calls Raised σ β}
    (first : Around c) (rest : ∀ a, Around (k a)) : Around (c >>= k) := by
  intro s
  refine (first s).bind (fun t a s' step => ?_) fun t e s' step => ?_
  · refine (rest a s').mono fun t' o _ step' => ⟨fun ev mem => ?_, fun e is => ?_⟩
    · exact (List.mem_append.mp mem).elim (step.1 ev) (step'.1 ev)
    · obtain ⟨ev, mem, own⟩ := step'.2 e is
      exact ⟨ev, List.mem_append_right t mem, own⟩
  · refine ⟨step.1, fun e' is => step.2 e' ?_⟩
    cases is
    rfl

theorem around_suppress {c : Coro Calls Raised σ Unit} (h : Around c) : Around (suppress c) := by
  intro s
  refine (h s).tryCatch (fun t _ _ step => ⟨step.1, fun _ is => by cases is⟩) fun t e s' step => ?_
  by_cases exception : e.isException = true
  · rw [if_pos exception, Coro.all_pure, List.append_nil]
    exact ⟨step.1, fun _ is => by cases is⟩
  · rw [if_neg exception, Coro.all_throw, List.append_nil]
    exact ⟨step.1, fun _ is => by cases is; exact step.2 e rfl⟩

theorem around_afterSuccess (gw : Service) (request : Request) (cfg : Cfg) (result : Result) :
    Around (afterSuccess gw request cfg result : Coro Calls Raised σ _) := by
  refine (around_suppress (around_call (by trivial))).bind fun _ => ?_
  cases cacheable request cfg with
  | true => exact around_suppress (around_call (by trivial))
  | false => exact around_pure ()

theorem around_snapshot (ds : List Deployment) :
    Around (snapshot ds : Coro Calls Raised σ _) := by
  induction ds with
  | nil => exact around_pure []
  | cons d ds ih => exact (around_call (by trivial)).bind fun _ => ih.bind fun _ => around_pure _

end

theorem around_decide {σ : Type} (gw : Service) (request : Request) (cfg : Cfg) :
    Around (decide gw request cfg : Coro Calls Raised σ _) :=
  (around_snapshot _).bind fun _ => around_pure _

/-! ## The loop -/

/-- What holds when a round begins: what has been tried, and that the targets of
the last failure's class have been tried or are still listed. -/
structure Trying (chain : FallbackChain) (t : Run) (v : ChainVars) : Prop where
  seen : v.seen = attempted t
  once : v.seen.Nodup
  count : v.attempts = v.seen.length
  last : v.lastError.map ProviderCallError.failureClass =
    (lastFailure t).map fun e => classifyFailure e.text
  covered : ∀ failure, v.lastError = some failure →
    ∀ d ∈ chain.targets failure.failureClass, d ∈ v.seen ∨ d ∈ v.targets
  fresh : ∀ d ∈ v.targets, d ∉ v.seen

/-- How a round, or the loop, may end. -/
def Tried (chain : FallbackChain) (t : Run) (o : Except Raised (Option (Option Result)))
    (v : ChainVars) : Prop :=
  (attempted t).Nodup ∧
    match o with
    | .ok none => Trying chain t v
    | .ok (some none) => Trying chain t v ∧ v.targets = []
    | .ok (some (some _)) => True
    | .error e => ∃ ev ∈ t, Blamed e ev

section
variable (gw : Service) (request : Request) (tenant : TenantConfig) (cfg : Cfg)

/-- After a successful attempt the round returns its result, or raises what a call raised. -/
theorem succeed_tried {σ : Type} (d : Deployment) (reservation : Option Reservation)
    (result : Result) (v : σ) :
    (do
      Coro.call (I := Calls) (.recordSuccess d)
      Coro.call (I := Calls) (.reconcile reservation (resultUsd gw result))
      afterSuccess gw request cfg result
      pure (some (some result)) : Coro Calls Raised σ (Option (Option Result))).All v
        fun t o _ => (∀ ev ∈ t, aside ev.op) ∧
          match o with
          | .ok found => found = some (some result)
          | .error e => ∃ ev ∈ t, Blamed e ev := by
  have around : Around (do
      Coro.call (I := Calls) (.recordSuccess d)
      Coro.call (I := Calls) (.reconcile reservation (resultUsd gw result))
      afterSuccess gw request cfg result : Coro Calls Raised σ Unit) :=
    (around_call (by trivial)).bind fun _ => (around_call (by trivial)).bind fun _ =>
      around_afterSuccess gw request cfg result
  have returned := (around v).bind (k := fun _ => pure (some (some result)))
    (Φ := fun t o _ => (∀ ev ∈ t, aside ev.op) ∧
      match o with
      | .ok found => found = some (some result)
      | .error e => ∃ ev ∈ t, Blamed e ev)
    (fun t _ _ step => by rw [Coro.all_pure, List.append_nil]; exact ⟨step.1, rfl⟩)
    fun t e _ step => ⟨step.1, step.2 e rfl⟩
  simp only [Coro.bind_assoc] at returned
  exact returned

theorem chainRound_trying (chain : FallbackChain) (apiKey : String)
    (reservation : Option Reservation) {t : Run} {v : ChainVars} (trying : Trying chain t v) :
    (chainRound gw request tenant cfg chain apiKey reservation).All v fun t' o v' =>
      Tried chain (t ++ t') o v' := by
  have once : (attempted t).Nodup := trying.seen ▸ trying.once
  unfold chainRound
  rw [Coro.all_get_bind]
  split
  next empty =>
    rw [Coro.all_pure, List.append_nil]
    exact ⟨once, trying, empty⟩
  next d rest targets =>
    have new : d ∉ v.seen := trying.fresh d (by simp [targets])
    rw [Coro.all_modify_bind, Coro.all_get_bind, if_neg new, Coro.all_modify_bind]
    have more : (attempted t ++ [d]).Nodup := by
      rw [← trying.seen]
      exact List.Nodup.append trying.once (List.nodup_singleton d)
        (List.disjoint_singleton.mpr new)
    refine (attempt_trace request tenant apiKey d).bind (fun t' outcome v' step => ?_)
      fun t' e v' step => ?_
    · obtain ⟨rfl, tried, left⟩ := step
      have tried' : attempted (t ++ t') = attempted t ++ [d] := by
        rw [attempted_append, tried]
      cases outcome with
      | ok result =>
        refine (succeed_tried gw request cfg d reservation result _).mono fun t'' o v'' h => ?_
        rw [← List.append_assoc]
        refine ⟨?_, ?_⟩
        · rw [attempted_append, attempted_aside h.1, List.append_nil, tried']
          exact more
        · cases o with
          | ok found =>
            rw [h.2]
            trivial
          | error e =>
            obtain ⟨ev, mem, blamed⟩ := h.2
            exact ⟨ev, List.mem_append_right _ mem, blamed⟩
      | error failure =>
        obtain ⟨e, failures, rfl⟩ := left
        have last : lastFailure (t ++ t') = some e := by
          simp [lastFailure, List.filterMap_append, failures]
        rw [Coro.all_modify_bind, Coro.all_call_bind]
        refine ⟨fun _ => ?_, fun e' => ?_⟩
        · have noted : ∀ ev ∈ ([⟨.recordFailure d, .ok ()⟩] : Run), aside ev.op := by
            simp [aside]
          have all : attempted (t ++ (t' ++ [⟨.recordFailure d, .ok ()⟩])) =
              attempted t ++ [d] := by
            rw [← List.append_assoc, attempted_append, attempted_aside noted, List.append_nil,
              tried']
          refine ⟨all ▸ more, ?_⟩
          exact {
            seen := by rw [all, ← trying.seen]
            once := trying.seen ▸ more
            count := by simp [trying.count]
            last := by
              change _ = (lastFailure (t ++ (t' ++ [⟨.recordFailure d, .ok ()⟩]))).map _
              rw [← List.append_assoc, lastFailure_aside noted, last]
              rfl
            covered := fun failure is target mem => by
              obtain rfl := Option.some.inj is
              by_cases known : target ∈ v.seen ++ [d]
              · exact .inl known
              · exact .inr (List.mem_filter.mpr ⟨mem, by simpa using known⟩)
            fresh := fun target mem => by simpa using (List.mem_filter.mp mem).2 }
        · have noted : ∀ ev ∈ ([⟨.recordFailure d, .error e'⟩] : Run), aside ev.op := by
            simp [aside]
          refine ⟨?_, ?_⟩
          · rw [← List.append_assoc, attempted_append, attempted_aside noted, List.append_nil,
              tried']
            exact more
          · exact ⟨⟨.recordFailure d, .error e'⟩, by simp, rfl, .inl (by trivial)⟩
    · obtain ⟨-, tried, left⟩ := step
      refine ⟨?_, ?_⟩
      · rw [attempted_append, tried]
        exact more
      · obtain ⟨ev, mem, blamed⟩ := left
        exact ⟨ev, List.mem_append_right t mem, blamed⟩

theorem iterate_tried (chain : FallbackChain) (decision : Deployment) (apiKey : String)
    (reservation : Option Reservation) :
    (Coro.iterate (chainRound gw request tenant cfg chain apiKey reservation)
      (chainFuel chain)).All { targets := [decision] } fun t o v =>
        Tried chain t o v ∧ o ≠ .ok none := by
  have start : Trying chain [] { targets := [decision] } := by
    refine ⟨rfl, List.nodup_nil, rfl, rfl, ?_, by simp⟩
    intro failure is
    cases is
  refine Coro.All.and ?_ ?_
  · refine Coro.all_iterate _ (fun t v => Trying chain t v) (Φ := fun t o v => Tried chain t o v)
      (fun t v trying => ?_) (fun t v trying => ⟨trying.seen ▸ trying.once, trying⟩) _ (t := [])
      start
    refine (chainRound_trying gw request tenant cfg chain apiKey reservation trying).mono
      fun t' o v' tried => ?_
    match o with
    | .ok none => exact tried.2
    | .ok (some found) => exact tried
    | .error e => exact tried
  · exact (iterate_spec gw request tenant cfg chain decision apiKey reservation).mono
      fun _ _ _ h => h.2

/-- The deployments named for the class that the chain reports have been attempted,
and it reports their number. -/
def Exhausted (chain : FallbackChain) (t : Run) (e : Raised) : Prop :=
  ∀ provider model reason failureClass attempts,
    e = .chainExhausted provider model reason failureClass attempts →
      (∃ failure, lastFailure t = some failure ∧ failureClass = classifyFailure failure.text) ∧
        chain.targets failureClass ⊆ attempted t ∧ attempts = (attempted t).length

theorem Trying.exhausted {chain : FallbackChain} {t : Run} {v : ChainVars}
    (trying : Trying chain t v) (empty : v.targets = []) : Exhausted chain t (Gateway.exhausted v) := by
  intro provider model reason failureClass attempts is
  unfold Gateway.exhausted at is
  have last := trying.last
  cases found : v.lastError with
  | none =>
    rw [found] at is
    cases is
  | some failure =>
    simp only [found, Raised.chainExhausted.injEq] at is
    obtain ⟨rfl, rfl, rfl, rfl, rfl⟩ := is
    rw [found, Option.map_some] at last
    obtain ⟨e, raised, classified⟩ := Option.map_eq_some_iff.mp last.symm
    refine ⟨⟨e, raised, classified.symm⟩, fun d mem => ?_, ?_⟩
    · rw [← trying.seen]
      rcases trying.covered failure found d mem with known | listed
      · exact known
      · simp [empty] at listed
    · rw [trying.count, trying.seen]

/-- How the chain ends: its own exception says what was tried, any other came from
a call. -/
def Ends (chain : FallbackChain) (t : Run) (o : Except Raised Result) : Prop :=
  (attempted t).Nodup ∧ ∀ e, o = .error e →
    (∃ ev ∈ t, Blamed e ev) ∨ (∃ v, e = exhausted v) ∧ Exhausted chain t e

theorem runChain_ends (chain : FallbackChain) (decision : Deployment) (apiKey : String)
    (reservation : Option Reservation) :
    (runChain gw request tenant cfg chain apiKey reservation).All { targets := [decision] }
      fun t o _ => Ends chain t o := by
  have aside_append {t t' : Run} (h : ∀ ev ∈ t', aside ev.op) :
      attempted (t ++ t') = attempted t := by
    rw [attempted_append, attempted_aside h, List.append_nil]
  have released (reservation : Option Reservation) :
      Around (Coro.call (I := Calls) (.release reservation) : Coro Calls Raised ChainVars Unit) :=
    around_call (by trivial)
  unfold runChain
  refine Coro.All.bind (Ψ := fun t o v => Tried chain t (o.map some) v)
    (Coro.All.tryCatch (Ψ := fun t o v => Tried chain t (o.map some) v) ?_ ?_ ?_)
    (fun t found v tried => ?_) fun t e v tried => ?_
  · refine (iterate_tried gw request tenant cfg chain decision apiKey reservation).bind
      (fun t found v h => ?_) fun t e v h => h.1
    cases found with
    | none => exact absurd rfl h.2
    | some found =>
      rw [Coro.all_pure, List.append_nil]
      exact h.1
  · exact fun _ _ _ tried => tried
  · intro t e v tried
    by_cases exception : e.isException = true
    · rw [if_pos exception]
      refine (released reservation v).bind (fun t' _ v' h => ?_) fun t' e' v' h => ?_
      · rw [Coro.all_throw, List.append_nil]
        obtain ⟨ev, mem, blamed⟩ := tried.2
        exact ⟨(aside_append h.1).symm ▸ tried.1, ev, List.mem_append_left _ mem, blamed⟩
      · obtain ⟨ev, mem, blamed⟩ := h.2 e' rfl
        exact ⟨(aside_append h.1).symm ▸ tried.1, ev, List.mem_append_right _ mem, blamed⟩
    · rw [if_neg exception, Coro.all_throw, List.append_nil]
      exact tried
  · cases found with
    | some result =>
      rw [Coro.all_pure, List.append_nil]
      exact ⟨tried.1, fun _ is => by cases is⟩
    | none =>
      obtain ⟨once, trying, empty⟩ := tried
      have noted (reply : Except Raised Unit) :
          ∀ ev ∈ ([⟨.release reservation, reply⟩] : Run), aside ev.op := by simp [aside]
      rw [Coro.all_call_bind]
      refine ⟨fun _ => ?_, fun e' => ?_⟩
      · rw [Coro.all_get_bind, Coro.all_throw]
        refine ⟨(aside_append (noted (.ok ()))).symm ▸ once, fun e is => .inr ?_⟩
        cases is
        refine ⟨⟨v, rfl⟩, ?_⟩
        have said := trying.exhausted empty
        unfold Exhausted at said ⊢
        rw [aside_append (noted (.ok ())), lastFailure_aside (noted (.ok ()))]
        exact said
      · refine ⟨(aside_append (noted (.error e'))).symm ▸ once, fun e is => .inl ?_⟩
        cases is
        exact ⟨⟨.release reservation, .error e'⟩, by simp, rfl, .inl (by trivial)⟩
  · refine ⟨tried.1, fun e' is => .inl ?_⟩
    cases is
    exact tried.2

/-- Every run of `_execute_chain`, whatever the config, the catalog and the answers:
it comes to an end, attempts no deployment twice, and where it raises
`GatewayChainExhausted` of its own, every target of the last failure's class has
been attempted and the number it reports is the number of attempts. -/
theorem executeChain_exhausts (apiKey : String) (reservation : Option Reservation) :
    (executeChain gw request tenant cfg apiKey reservation).All () fun t o _ =>
      (o = .error .outOfFuel → ∃ ev ∈ t, raisedBy ev = some .outOfFuel) ∧
        (attempted t).Nodup ∧
          ∀ provider model reason failureClass attempts,
            o = .error (.chainExhausted provider model reason failureClass attempts) →
              (∃ ev ∈ t, aside ev.op ∧ raisedBy ev =
                some (.chainExhausted provider model reason failureClass attempts)) ∨
              (∃ failure, lastFailure t = some failure ∧
                failureClass = classifyFailure failure.text) ∧
              (fallbackChain gw request cfg (candidatesAt gw request cfg 3)).targets failureClass ⊆
                attempted t ∧
              attempts = (attempted t).length := by
  let chain := fallbackChain gw request cfg (candidatesAt gw request cfg 3)
  have ends : (executeChain gw request tenant cfg apiKey reservation).All () fun t o _ =>
      Ends chain t o := by
    unfold executeChain
    refine (around_decide gw request cfg ()).bind (fun t decision _ h => ?_) fun t e _ h => ?_
    · rw [Coro.all_scope]
      refine (runChain_ends gw request tenant cfg chain decision apiKey reservation).mono
        fun t' o _ ended => ?_
      have tried : attempted (t ++ t') = attempted t' := by
        rw [attempted_append, attempted_aside h.1, List.nil_append]
      have last : lastFailure (t ++ t') = lastFailure t' := by
        rw [lastFailure, List.filterMap_append, failures_aside h.1, List.nil_append, lastFailure]
      refine ⟨tried.symm ▸ ended.1, fun e is => (ended.2 e is).imp ?_ ?_⟩
      · rintro ⟨ev, mem, blamed⟩
        exact ⟨ev, List.mem_append_right t mem, blamed⟩
      · rintro ⟨own, said⟩
        refine ⟨own, ?_⟩
        unfold Exhausted at said ⊢
        rw [tried, last]
        exact said
    · refine ⟨by rw [attempted_aside h.1]; exact List.nodup_nil, fun e' is => .inl ?_⟩
      cases is
      exact h.2 e rfl
  refine ends.mono fun t o _ ⟨once, ended⟩ => ⟨fun is => ?_, once, ?_⟩
  · rcases ended _ is with ⟨ev, mem, blamed⟩ | ⟨⟨v, own⟩, -⟩
    · exact ⟨ev, mem, blamed.1⟩
    · unfold exhausted at own
      split at own <;> cases own
  · intro provider model reason failureClass attempts is
    rcases ended _ is with ⟨ev, mem, raised, apart⟩ | ⟨-, said⟩
    · refine .inl ⟨ev, mem, ?_, raised⟩
      rcases apart with aside | base | quota
      · exact aside
      · cases base
      · cases quota
    · exact .inr (said _ _ _ _ _ rfl)

end

end AgentStudio.Gateway
