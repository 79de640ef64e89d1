import AgentStudio.Orchestration.Walk

/-!
# What a turn releases

A completed turn ends with a last verification, then a policy check that does not
regenerate, or the handoff of an exhausted one. What the non-streaming route
releases is read off that ending.
-/

namespace AgentStudio.Orchestration
open Async Gateway

/-! ## How a turn ends -/

section
variable (svc : Service)

/-- What `prepare_handoff` leaves. -/
def AgentState.handedOff (s : AgentState) (handoff : Option HandoffResult) : AgentState :=
  { s with handoffRequired := true, context := { s.context with handoff := handoff } }

/-- Where the policy check of a state leads. -/
def AgentState.policyExit (s : AgentState) : PolicyExit := routeAfterPolicy svc (s.policyChecked svc)

/-- From the state after the last verification to the end: the visits and the
final state. -/
inductive Closing (s : AgentState) : List (Node × AgentState) → AgentState → Prop
  | exhausted (route : routeAfterValidate s = .prepareHandoff) (handoff : Option HandoffResult) :
      Closing s [(.prepareHandoff, s)] (s.handedOff handoff)
  | ended (route : routeAfterValidate s = .checkPolicy) (exit_ : s.policyExit svc = .allow) :
      Closing s [(.checkPolicy, s)] (s.policyChecked svc)
  | handed (route : routeAfterValidate s = .checkPolicy) (stops : s.policyExit svc ≠ .redact)
      (leaves : s.policyExit svc ≠ .allow) (handoff : Option HandoffResult) :
      Closing s [(.checkPolicy, s), (.prepareHandoff, s.policyChecked svc)]
        ((s.policyChecked svc).handedOff handoff)

/-- A completed turn: its last verification, and how it closed. Every policy check
before that sent the turn back to the model. -/
structure Completed (vs : List Visit) (final : AgentState) : Prop where
  split : ∃ before v s after, vs = before ++ v :: after ∧ v.node = .validateOutput ∧
    Verifies svc v.state v.calls s ∧
    Closing svc s (after.map fun u => (u.node, u.state)) final ∧
    ∀ u ∈ before, u.node = .checkPolicy → u.state.policyExit svc = .redact

variable {svc}

theorem Completed.cons {vs : List Visit} {final : AgentState} (h : Completed svc vs final)
    (u : Visit) (redact : u.node = .checkPolicy → u.state.policyExit svc = .redact) :
    Completed svc (u :: vs) final := by
  obtain ⟨before, v, s, after, rfl, node, verifies, closing, sent⟩ := h.split
  refine ⟨u :: before, v, s, after, rfl, node, verifies, closing, fun w mem => ?_⟩
  rcases List.mem_cons.mp mem with rfl | mem
  · exact redact
  · exact sent w mem

/-- A run that reached the end made a visit. -/
theorem Walked.visited {node : Node} {s s' : AgentState} {t : Run}
    (h : Walked svc node s t (.ok true) s') : ∃ r rest, t = ⟨.dispatch node s, r⟩ :: rest := by
  rcases h.head with rfl | visited
  · cases h
  · exact visited

/-- The first visit of a chain that goes on, with calls `q` after its end. -/
theorem visits_next {node node' : Node} {s s' s'' : AgentState} {t t' : Run}
    {o : Except Raised Unit} {r : Except Raised Unit}
    (visit : (runNode svc node).Runs s t o s') (rest : Walked svc node' s' t' (.ok true) s'')
    (q : Run) :
    visits (⟨.dispatch node s, r⟩ :: (t ++ t') ++ q) = ⟨node, s, t⟩ :: visits (t' ++ q) := by
  obtain ⟨r', more, rfl⟩ := rest.visited
  have own : (t ++ ((⟨.dispatch node' s', r'⟩ : Ev) :: more ++ q)).takeWhile
      (fun ev => !ev.op.isDispatch) = t := by
    rw [List.takeWhile_append_of_pos fun ev mem => by simp [visit_quiet visit mem]]
    simp [Op.isDispatch]
  rw [List.cons_append, List.append_assoc, visits, own,
    visits_append_quiet fun ev mem => visit_quiet visit mem]

theorem visits_end {node : Node} {s s' : AgentState} {t q : Run} {o : Except Raised Unit}
    {r : Except Raised Unit} (visit : (runNode svc node).Runs s t o s')
    (quiet : ∀ ev ∈ q, ev.op.isDispatch = false) :
    visits (⟨.dispatch node s, r⟩ :: t ++ q) = [⟨node, s, t ++ q⟩] := by
  have silent : ∀ ev ∈ t ++ q, ev.op.isDispatch = false := by
    intro ev mem
    rcases List.mem_append.mp mem with mem | mem
    · exact visit_quiet visit mem
    · exact quiet ev mem
  have own : (t ++ q).takeWhile (fun ev => !ev.op.isDispatch) = t ++ q :=
    List.takeWhile_eq_self_iff.mpr fun ev mem => by simp [silent ev mem]
  rw [List.cons_append, visits, own]
  have none_ := visits_append_quiet silent []
  rw [List.append_nil] at none_
  rw [none_, visits]

theorem handoff_walk {s final : AgentState} {t q : Run}
    (h : Walked svc .prepareHandoff s t (.ok true) final)
    (quiet : ∀ ev ∈ q, ev.op.isDispatch = false) :
    ∃ calls handoff, visits (t ++ q) = [⟨.prepareHandoff, s, calls⟩] ∧
      final = s.handedOff handoff := by
  cases h with
  | last visit atEnd =>
    obtain ⟨handoff, rfl⟩ :=
      (Coro.all_iff.mp (prepareHandoff_spec svc s) _ _ _ visit).2 rfl
    exact ⟨_, handoff, visits_end visit quiet, rfl⟩
  | next visit edge rest => cases edge

theorem checkPolicy_visit {s s' : AgentState} {t : Run} {o : Except Raised Unit}
    (visit : (checkPolicy svc).Runs s t o s') : t = [] ∧ s' = s.policyChecked svc :=
  Coro.all_iff.mp (show (checkPolicy svc).All s fun t _ s' => t = [] ∧ s' = s.policyChecked svc from
    ⟨rfl, rfl⟩) t o s' visit

/-- A policy check that does not regenerate closes the turn. -/
theorem check_walk {s final : AgentState} {t q : Run}
    (h : Walked svc .checkPolicy s t (.ok true) final)
    (quiet : ∀ ev ∈ q, ev.op.isDispatch = false) (stops : s.policyExit svc ≠ .redact)
    (route : routeAfterValidate s = .checkPolicy) :
    Closing svc s ((visits (t ++ q)).map fun u => (u.node, u.state)) final := by
  cases h with
  | last visit atEnd =>
    obtain ⟨rfl, rfl⟩ := checkPolicy_visit visit
    rw [visits_end visit quiet]
    refine .ended route ?_
    simp only [nextNode] at atEnd
    cases exit_ : routeAfterPolicy svc (s.policyChecked svc) <;> simp_all [AgentState.policyExit]
  | next visit edge rest =>
    obtain ⟨rfl, rfl⟩ := checkPolicy_visit visit
    rw [visits_next visit rest]
    rename_i node' _
    obtain ⟨leaves, rfl⟩ : s.policyExit svc ≠ .allow ∧ node' = .prepareHandoff := by
      simp only [nextNode] at edge
      cases exit_ : routeAfterPolicy svc (s.policyChecked svc) <;> simp_all [AgentState.policyExit]
    obtain ⟨calls, handoff, visits_, rfl⟩ := handoff_walk rest quiet
    rw [visits_]
    exact .handed route stops leaves handoff

/-- Along a completed run: it has already closed, or its ending lies ahead. -/
theorem walked_completed {node : Node} {s final : AgentState} {t : Run} {o : Except Raised Bool}
    (h : Walked svc node s t o final) (atEnd : o = .ok true) {q : Run}
    (quiet : ∀ ev ∈ q, ev.op.isDispatch = false) :
    node = .prepareHandoff ∨ (node = .checkPolicy ∧ s.policyExit svc ≠ .redact) ∨
      Completed svc (visits (t ++ q)) final := by
  induction h with
  | limit => cases atEnd
  | refused => cases atEnd
  | raised => cases atEnd
  | @last node s s' t visit end_ =>
    cases node with
    | prepareHandoff => exact .inl rfl
    | checkPolicy =>
      obtain ⟨rfl, rfl⟩ := checkPolicy_visit visit
      refine .inr (.inl ⟨rfl, fun redact => ?_⟩)
      rw [AgentState.policyExit] at redact
      simp [nextNode, redact] at end_
    | _ => cases end_
  | @next node node' s s' s'' t t' o visit edge rest ih =>
    subst atEnd
    have tail := ih rfl
    rw [visits_next visit rest]
    have ahead (open_ : node' ≠ .prepareHandoff ∧ node' ≠ .checkPolicy)
        (redact : node = .checkPolicy → s.policyExit svc = .redact) :
        Completed svc (⟨node, s, t⟩ :: visits (t' ++ q)) s'' :=
      ((tail.resolve_left open_.1).resolve_left fun h => open_.2 h.1).cons _ redact
    cases node with
    | processInput =>
      obtain rfl := Option.some.inj edge
      exact .inr (.inr (ahead ⟨nofun, nofun⟩ nofun))
    | retrieveContext =>
      obtain rfl := Option.some.inj edge
      exact .inr (.inr (ahead ⟨nofun, nofun⟩ nofun))
    | generateResponse =>
      obtain rfl := Option.some.inj edge
      refine .inr (.inr (ahead ?_ nofun))
      unfold routeAfterGenerate
      split <;> exact ⟨nofun, nofun⟩
    | executeTools =>
      obtain rfl := Option.some.inj edge
      exact .inr (.inr (ahead ⟨nofun, nofun⟩ nofun))
    | validateOutput =>
      have route := Option.some.inj edge
      have verifies := Coro.all_iff.mp (validateOutput_spec svc s) _ _ _ visit rfl
      cases node' with
      | prepareHandoff =>
        obtain ⟨calls, handoff, visits_, rfl⟩ := handoff_walk rest quiet
        rw [visits_]
        exact .inr (.inr ⟨[], _, s', _, rfl, rfl, verifies, .exhausted route handoff, by simp⟩)
      | checkPolicy =>
        obtain closed | ⟨-, stops⟩ | open_ := tail
        · cases closed
        · exact .inr (.inr ⟨[], _, s', _, rfl, rfl, verifies, check_walk rest quiet stops route,
            by simp⟩)
        · exact .inr (.inr (open_.cons _ nofun))
      | _ => exact .inr (.inr (ahead ⟨nofun, nofun⟩ nofun))
    | checkPolicy =>
      obtain ⟨rfl, rfl⟩ := checkPolicy_visit visit
      by_cases redact : s.policyExit svc = .redact
      · refine .inr (.inr (ahead ?_ fun _ => redact))
        rw [AgentState.policyExit] at redact
        simp only [nextNode, redact] at edge
        obtain rfl := Option.some.inj edge
        exact ⟨nofun, nofun⟩
      · exact .inr (.inl ⟨rfl, redact⟩)
    | prepareHandoff => cases edge

/-- Every turn that comes to its end is a completed one. -/
theorem processMessage_completed (svc : Service) (input : TurnInput) :
    (processMessage svc input).All () fun t o _ =>
      ∀ final, o = .ok final → Completed svc (visits t) final := by
  refine (processMessage_walked svc input).mono fun t o _ step final ended => ?_
  obtain ⟨walked, reported, rfl, run, evidence⟩ := step final ended
  have quiet : ∀ ev ∈ reported, ev.op.isDispatch = false := fun ev mem => by
    obtain ⟨record, same⟩ := evidence ev mem
    rw [same]
    rfl
  exact ((walked_completed run rfl quiet).resolve_left nofun).resolve_left fun h => nomatch h.1

end

/-! ## The released text -/

/-- `state["model_response"] or ""`. -/
def AgentState.text (s : AgentState) : String := s.modelResponse.getD ""

/-- The last visit of a node. -/
def lastVisit (node : Node) (vs : List Visit) : Option Visit :=
  (vs.filter fun v => v.node = node).getLast?

/-- A verification found the reply unfaithful; the validator was not asked. -/
def failsGrounding (t : Run) : Bool :=
  t.any fun ev =>
    match ev with
    | ⟨.faithfulness .., .ok check⟩ => check.fails
    | _ => false

/-- In a verification the validator refused the reply. -/
def refusesReply (t : Run) : Bool :=
  t.any fun ev =>
    match ev with
    | ⟨.validate _, .ok check⟩ => !check.allowed
    | _ => false

theorem lastVisit_split {node : Node} (before : List Visit) {after : List Visit} {v : Visit}
    (here : v.node = node)
    (others : ∀ u ∈ after, u.node ≠ node) : lastVisit node (before ++ v :: after) = some v := by
  have none_ : after.filter (fun v => v.node = node) = [] :=
    List.filter_eq_nil_iff.mpr fun u mem => by simpa using others u mem
  simp [lastVisit, List.filter_append, here, none_]

theorem lastVisit_before {node : Node} {before after : List Visit} {v : Visit}
    (others : ∀ u ∈ after, u.node ≠ node) (last : lastVisit node (before ++ after) = some v) :
    v ∈ before ∧ v.node = node := by
  have none_ : after.filter (fun v => v.node = node) = [] :=
    List.filter_eq_nil_iff.mpr fun u mem => by simpa using others u mem
  rw [lastVisit, List.filter_append, none_, List.append_nil] at last
  have mem := List.mem_of_getLast? last
  simpa using mem

section
variable {svc : Service} {s s' final : AgentState} {t : Run}

/-- What the route returns, given that it returns a text. -/
theorem release_text {released : Released} (h : release final = some released) :
    truthy final.error = false ∧ released.responseText =
      if final.outputBlocked && final.handoffRequired then withheldNotice else final.text := by
  unfold release at h
  split at h
  · cases h
  · rename_i fine
    refine ⟨by simpa using fine, ?_⟩
    split at h
    · rename_i blocked
      obtain rfl := Option.some.inj h
      rw [if_pos blocked]
    · rename_i clear
      obtain rfl := Option.some.inj h
      rw [if_neg clear]
      rfl

theorem outputBlocked_verified (s : AgentState) (text : String) (verdict : Verdict) :
    (s.verified svc text verdict).outputBlocked = s.outputBlocked :=
  verified_field s text verdict AgentState.outputBlocked fun _ => rfl

theorem text_verified (s : AgentState) (text : String) (verdict : Verdict) :
    (s.verified svc text verdict).text = s.text :=
  verified_field s text verdict AgentState.text fun _ => rfl

theorem route_valid (s : AgentState) (text : String) :
    routeAfterValidate (s.verified svc text .valid) = .checkPolicy := rfl

theorem route_invalid (s : AgentState) (text reason : String) :
    routeAfterValidate (s.verified svc text (.invalid reason)) ≠ .checkPolicy := by
  unfold routeAfterValidate AgentState.verified
  dsimp only
  split
  · simp
  · simp
    split <;> nofun

theorem outputBlocked_withOutputCheck (s : AgentState) (check : OutputCheck) :
    (s.withOutputCheck check).outputBlocked = !check.allowed := by
  unfold AgentState.withOutputCheck AgentState.outputBlocked
  dsimp only

theorem text_withOutputCheck (s : AgentState) (check : OutputCheck) :
    (s.withOutputCheck check).text = Py.orElse check.redactedText s.text := by
  unfold AgentState.withOutputCheck AgentState.text nonEmpty Py.orElse
  dsimp only
  grind

theorem refusesReply_answered (text : String) (t : Run) {check : OutputCheck}
    (refused : check.allowed = false) : refusesReply (t ++ [⟨.validate text, .ok check⟩]) = true := by
  simp [refusesReply, refused]

/-- A verification that fails: which text stands, and under which verdict. -/
theorem Verifies.failed (h : Verifies svc s t s') (route : routeAfterValidate s' ≠ .checkPolicy) :
    s'.error = s.error ∧ s'.outputBlocked = (refusesReply t || s.outputBlocked) ∧
      (refusesReply t = false → s'.text = s.text) := by
  have error_ (base : AgentState) (text : String) (verdict : Verdict) :
      (base.verified svc text verdict).error = base.error :=
    verified_field base text verdict AgentState.error fun _ => rfl
  cases h with
  | empty text =>
    refine ⟨error_ _ _ _, ?_, fun _ => text_verified s _ _⟩
    rw [outputBlocked_verified]
    rfl
  | ungrounded text_ some_ check fails =>
    refine ⟨error_ _ _ _, ?_, fun _ => text_verified _ _ _⟩
    rw [outputBlocked_verified]
    rfl
  | ungated => exact absurd (route_valid _ _) route
  | raised => exact absurd (route_valid _ _) route
  | answered text_ some_ grounded there check =>
    cases allowed : check.allowed with
    | true =>
      rw [allowed, if_pos rfl] at route
      exact absurd (route_valid _ _) route
    | false =>
      have refused := refusesReply_answered ‹String› ‹Run› allowed
      refine ⟨?_, ?_, fun accepted => Bool.noConfusion (refused.symm.trans accepted)⟩
      · rw [error_]
        exact withOutputCheck_field _ check AgentState.error fun _ => rfl
      · rw [outputBlocked_verified, outputBlocked_withOutputCheck, allowed]
        exact (congrArg (· || s.outputBlocked) refused).symm

/-- The closing visits do not verify. -/
theorem Closing.verifies_not {after : List Visit}
    (h : Closing svc s (after.map fun u => (u.node, u.state)) final) :
    ∀ u ∈ after, u.node ≠ .validateOutput := by
  intro u mem node
  have mem := List.mem_map_of_mem (f := fun u : Visit => (u.node, u.state)) mem
  generalize after.map (fun u => (u.node, u.state)) = visited at h mem
  cases h <;> simp [node] at mem

section
variable (s : AgentState) (handoff : Option HandoffResult)

theorem handedOff_text : (s.handedOff handoff).text = s.text := rfl

theorem handedOff_outputBlocked : (s.handedOff handoff).outputBlocked = s.outputBlocked := rfl

theorem handedOff_error : (s.handedOff handoff).error = s.error := rfl

theorem handedOff_required : (s.handedOff handoff).handoffRequired = true := rfl

end

variable (svc) in
/-- A policy check leaves the response, its verdict and the error alone. -/
theorem policyChecked_same (s : AgentState) : (s.policyChecked svc).text = s.text ∧
    (s.policyChecked svc).outputBlocked = s.outputBlocked ∧
    (s.policyChecked svc).error = s.error := by
  unfold AgentState.policyChecked
  dsimp only
  split
  · split <;> split <;> exact ⟨rfl, rfl, rfl⟩
  · split <;> exact ⟨rfl, rfl, rfl⟩

/-- So does the end of a turn. -/
theorem Closing.same {visited : List (Node × AgentState)} (h : Closing svc s visited final) :
    final.text = s.text ∧ final.outputBlocked = s.outputBlocked ∧ final.error = s.error := by
  cases h with
  | exhausted => exact ⟨rfl, rfl, rfl⟩
  | ended => exact policyChecked_same svc s
  | handed => exact policyChecked_same svc s

/-! ## What the validator cleared -/

/-- The validator answered a call by allowing the text, or by allowing another in the
place of which it returned this one. -/
def Clears (text : String) (ev : Ev) : Prop :=
  ∃ original check, ev = ⟨.validate original, .ok check⟩ ∧ check.allowed = true ∧
    Py.orElse check.redactedText original = text

/-- The text may be released: nothing, the notice, or what the validator cleared. -/
def Cleared (t : Run) (text : String) : Prop :=
  text = "" ∨ text = withheldNotice ∨ ∃ ev ∈ t, Clears text ev

/-- The last verification failed on the grounding check, so that the validator never
saw the reply, with no rejection of an earlier one outstanding. -/
def Unseen (t : Run) : Prop :=
  ∃ v, lastVisit .validateOutput (visits t) = some v ∧ failsGrounding v.calls = true ∧
    v.state.outputBlocked = false ∧ ¬ Cleared t v.state.text

theorem mem_visits {t : Run} {v : Visit} (mem : v ∈ visits t) {ev : Ev} (call : ev ∈ v.calls) :
    ev ∈ t := by
  induction t with
  | nil => simp [visits] at mem
  | cons first rest ih =>
    obtain ⟨op, r⟩ := first
    cases op with
    | dispatch node s =>
      rcases List.mem_cons.mp mem with rfl | mem
      · exact List.mem_cons_of_mem _ ((List.takeWhile_sublist _).mem call)
      · exact List.mem_cons_of_mem _ (ih mem)
    | _ => exact List.mem_cons_of_mem _ (ih mem)

theorem Grounded.passes {text : String} {f : Faithfulness} (h : Grounded s text t f) :
    failsGrounding t = false := by
  cases h with
  | unchecked => rfl
  | checked check passes => simp [failsGrounding, passes]

/-- What a verification by a validator that answers comes to: the grounding check
failed, the reply is empty, the validator refused it, or it cleared what now stands. -/
theorem Verifies.outcome (h : Verifies svc s t s') (validator : svc.hasValidator = true)
    (answers : ∀ text e, (⟨.validate text, .error e⟩ : Ev) ∉ t) :
    (failsGrounding t = true ∧ refusesReply t = false ∧ routeAfterValidate s' ≠ .checkPolicy) ∨
    (failsGrounding t = false ∧ (s'.text = "" ∨
      (refusesReply t = true ∧ routeAfterValidate s' ≠ .checkPolicy) ∨
      ∃ ev ∈ t, Clears s'.text ev)) := by
  cases h with
  | empty none_ => exact .inr ⟨rfl, .inl ((text_verified s _ _).trans none_)⟩
  | ungrounded reply some_ check fails =>
    exact .inl ⟨by simp [failsGrounding, fails], rfl, route_invalid _ _ _⟩
  | ungated _ _ _ none_ => simp [none_] at validator
  | @raised text reply some_ t₀ f grounded there e => exact absurd (by simp) (answers text e)
  | @answered text reply some_ t₀ f grounded there check =>
    have quiet : failsGrounding (t₀ ++ [⟨.validate text, .ok check⟩]) = false := by
      have := grounded.passes
      simp_all [failsGrounding]
    refine .inr ⟨quiet, .inr ?_⟩
    cases allowed : check.allowed with
    | true =>
      refine .inr ⟨⟨.validate text, .ok check⟩, by simp, text, check, rfl, allowed, ?_⟩
      rw [text_verified, text_withOutputCheck]
      exact congrArg (Py.orElse check.redactedText) reply.symm
    | false => exact .inl ⟨refusesReply_answered text t₀ allowed, route_invalid _ _ _⟩

/-- A verification that fails as the last one ends in the handoff. -/
theorem Closing.handed_of_failed {visited : List (Node × AgentState)}
    (h : Closing svc s visited final) (failed : routeAfterValidate s ≠ .checkPolicy) :
    final.handoffRequired = true := by
  cases h with
  | exhausted => rfl
  | ended route => exact absurd route failed
  | handed route => exact absurd route failed

/-- The policy's verdict on a state. -/
def AgentState.action (svc : Service) (s : AgentState) : PolicyAction :=
  svc.policySet.evaluate s.policyContext

/-- The rejected reply is kept back. A check that stops at the guard or at a block
keeps it back only when the turn is in error, or when it goes to the handoff with an
earlier rejection of the validator outstanding. After a check that regenerates, the
reply of the last verification takes its place, or the notice does. -/
def Withholds (svc : Service) (vs : List Visit) (s : AgentState) : Prop :=
  if s.policyExit svc = .redact then
    ∀ v, lastVisit .validateOutput vs = some v → truthy v.state.error = true ∨
      if refusesReply v.calls || v.state.outputBlocked then s.text ≠ withheldNotice
      else v.state.text ≠ s.text
  else truthy s.error = true ∨ (s.outputBlocked = true ∧
    (s.policyExit svc ≠ .allow ∨ s.handoffRequired = true ∨
      s.confidence < svc.escalationThreshold) ∧ s.text ≠ withheldNotice)

theorem handoffRequired_policyChecked (svc : Service) (s : AgentState) :
    (s.policyChecked svc).handoffRequired = true ↔
      s.handoffRequired = true ∨ s.confidence < svc.escalationThreshold := by
  unfold AgentState.policyChecked
  grind

/-- What the route returns, for a final state in words. -/
theorem released_ne_iff (text : String) :
    (∀ released, release final = some released → released.responseText ≠ text) ↔
      truthy final.error = true ∨
        if final.outputBlocked && final.handoffRequired then withheldNotice ≠ text
        else final.text ≠ text := by
  unfold release
  split
  · simp_all
  · split
    · simp_all
    · simp_all [AgentState.text]

/-- The last policy check closed the turn, or sent it back to the model for a reply
that exhausted the verification. -/
theorem Completed.lastCheck {vs : List Visit} (h : Completed svc vs final) {check : Visit}
    (last : lastVisit .checkPolicy vs = some check) :
    (check.state.policyExit svc ≠ .redact ∧
      ((check.state.policyExit svc = .allow ∧ final = check.state.policyChecked svc) ∨
        (check.state.policyExit svc ≠ .allow ∧
          ∃ handoff, final = (check.state.policyChecked svc).handedOff handoff))) ∨
    (check.state.policyExit svc = .redact ∧ ∃ v s handoff,
      lastVisit .validateOutput vs = some v ∧ Verifies svc v.state v.calls s ∧
      routeAfterValidate s = .prepareHandoff ∧ final = s.handedOff handoff) := by
  obtain ⟨before, v, s, after, rfl, node, verifies, closing, sent⟩ := h.split
  have verified := lastVisit_split before node closing.verifies_not
  have closed {u : Visit} {rest : List Visit} (shape : after = u :: rest)
      (here : u.node = .checkPolicy) (others : ∀ w ∈ rest, w.node ≠ .checkPolicy) : check = u := by
    have found := lastVisit_split (before ++ [v]) here others
    rw [List.append_assoc, List.singleton_append, ← shape] at found
    exact Option.some.inj (last.symm.trans found)
  generalize shape : after.map (fun u => (u.node, u.state)) = visited at closing
  cases closing with
  | exhausted route handoff =>
    obtain ⟨u, rfl, same⟩ := List.map_eq_singleton_iff.mp shape
    have others : ∀ w ∈ v :: [u], w.node ≠ .checkPolicy := by
      have := (Prod.mk.inj same).1
      simp [node, this]
    obtain ⟨mem, here⟩ := lastVisit_before others last
    exact .inr ⟨sent check mem here, v, s, handoff, verified, verifies, route, rfl⟩
  | ended route exit_ =>
    obtain ⟨u, rfl, same⟩ := List.map_eq_singleton_iff.mp shape
    obtain ⟨here, rfl⟩ := Prod.mk.inj same
    obtain rfl := closed rfl here (by simp)
    exact .inl ⟨by simp [exit_], .inl ⟨exit_, rfl⟩⟩
  | handed route stops leaves handoff =>
    obtain ⟨u, rest, rfl, same, shape⟩ := List.map_eq_cons_iff.mp shape
    obtain ⟨w, rfl, same'⟩ := List.map_eq_singleton_iff.mp shape
    obtain ⟨here, rfl⟩ := Prod.mk.inj same
    obtain rfl := closed rfl here (by simp [(Prod.mk.inj same').1])
    exact .inl ⟨stops, .inr ⟨leaves, handoff, rfl⟩⟩

/-- The text the policy rejected last is kept from the client exactly when `Withholds`
says so. -/
theorem rejected_withheld_iff (svc : Service) (input : TurnInput) {t : Run} {final : AgentState}
    (run : (processMessage svc input).Runs () t (.ok final) ()) {check : Visit}
    (last : lastVisit .checkPolicy (visits t) = some check) :
    ((check.state.action svc = .block ∨ check.state.action svc = .redact) →
        ∀ released, release final = some released → released.responseText ≠ check.state.text) ↔
      ((check.state.action svc = .block ∨ check.state.action svc = .redact) →
        Withholds svc (visits t) check.state) := by
  refine imp_congr_right fun _ => ?_
  rw [released_ne_iff, Withholds]
  have completed := Coro.all_iff.mp (processMessage_completed svc input) t _ _ run final rfl
  obtain ⟨stops, closed⟩ | ⟨redact, v, s, handoff, verified, verifies, route, rfl⟩ :=
    completed.lastCheck last
  · rw [if_neg stops]
    obtain ⟨text_, blocked, error_⟩ := policyChecked_same svc check.state
    obtain ⟨allow, rfl⟩ | ⟨leaves, handoff, rfl⟩ := closed
    · rw [text_, blocked, error_, allow]
      have required := handoffRequired_policyChecked svc check.state
      grind
    · rw [handedOff_text, handedOff_outputBlocked, handedOff_error, handedOff_required, text_,
        blocked, error_]
      grind
  · rw [if_pos redact]
    obtain ⟨error_, blocked, same⟩ := verifies.failed (by rw [route]; nofun)
    rw [handedOff_text, handedOff_outputBlocked, handedOff_error, handedOff_required, error_,
      blocked, Bool.and_true]
    have unique : (∀ v', lastVisit .validateOutput (visits t) = some v' →
        truthy v'.state.error = true ∨
          if refusesReply v'.calls || v'.state.outputBlocked then check.state.text ≠ withheldNotice
          else v'.state.text ≠ check.state.text) ↔
        truthy v.state.error = true ∨
          if refusesReply v.calls || v.state.outputBlocked then check.state.text ≠ withheldNotice
          else v.state.text ≠ check.state.text := by
      rw [verified]
      simp
    rw [unique]
    cases refused : refusesReply v.calls with
    | true => rw [Bool.true_or, if_pos rfl, if_pos rfl, ne_comm]
    | false =>
      rw [same refused]
      grind

end

/-! ## Turns on which the text gets out -/

/-- An environment that answers every call the same way: the model with `reply`, the
grounding check with `check`, and a validator that allows. -/
def scripted (reply : String) (docs : List Doc) (check : Check) :
    (op : Op) → Except Raised (Calls.Ans op)
  | .dispatch .. | .delta _ | .usage _ | .toolPart _ | .evidence _ => .ok ()
  | .retrieve _ => .ok { docs := docs }
  | .resolvePrompt => .ok none
  | .memoryFacts _ => .ok []
  | .assemble _ => .ok { messages := [] }
  | .compact _ => .ok none
  | .uuid4 => .ok "1"
  | .generate _ => .ok { content := reply, model := "gpt-4", provider := "openai" }
  | .stream _ => .ok (.events [{ type := .delta, content := reply }] none)
  | .schedule _ => .ok (0 : Nat)
  | .authorize _ => .ok true
  | .executeTool .. => .ok { content := "" }
  | .faithfulness .. => .ok check
  | .validate _ => .ok {}
  | .createHandoff _ => .ok { success := true }

/-- A reply that no document bears out. -/
def unfaithful : Check := ⟨0, "0.0", false, 1, true⟩

/-- A tenant without policy rules: every reply is blocked. -/
def unconfigured : Service := { tenantId := "acme", hasValidator := true }

/-- A tenant with documents and a validator. -/
def grounded : Service := { tenantId := "acme", hasRetrieval := true, hasValidator := true }

/-- The last policy check blocked the reply, and the reply is what is released. -/
def releasesBlocked (svc : Service) (t : Run) (o : Except Raised AgentState) : Bool :=
  match o with
  | .ok final => (lastVisit .checkPolicy (visits t)).any fun check =>
      check.state.action svc == .block &&
        (release final).any fun released => released.responseText == check.state.text
  | .error _ => false

theorem blocked_run : ∃ (t : Run) (final : AgentState) (check : Visit) (released : Released),
    (processMessage unconfigured {}).Runs () t (.ok final) () ∧
    lastVisit .checkPolicy (visits t) = some check ∧
    check.state.action unconfigured = .block ∧ release final = some released ∧
    released.responseText = check.state.text := by
  have run := (processMessage unconfigured {}).runs_with (scripted "Yes." [] unfaithful) ()
  have blocked : releasesBlocked unconfigured
      ((processMessage unconfigured {}).traceWith (scripted "Yes." [] unfaithful) ())
      ((processMessage unconfigured {}).outcomeWith (scripted "Yes." [] unfaithful) ()).1 = true := by
    decide +kernel
  generalize (processMessage unconfigured {}).traceWith _ _ = t at run blocked
  generalize (processMessage unconfigured {}).outcomeWith _ _ = outcome at run blocked
  obtain ⟨o, ⟨⟩⟩ := outcome
  cases o with
  | error e => cases blocked
  | ok final =>
    obtain ⟨check, last, blocked⟩ := (Option.any_eq_true _ _).mp blocked
    rw [Bool.and_eq_true, beq_iff_eq] at blocked
    obtain ⟨released, returned, same⟩ := (Option.any_eq_true _ _).mp blocked.2
    exact ⟨t, final, check, released, run, last, blocked.1, returned, by simpa using same⟩

/-- A reply that the policy blocked is what the client gets. -/
theorem blocked_reply_released : ¬ ∀ (svc : Service) (input : TurnInput) (t : Run)
    (final : AgentState) (check : Visit), (processMessage svc input).Runs () t (.ok final) () →
    lastVisit .checkPolicy (visits t) = some check →
    (check.state.action svc = .block ∨ check.state.action svc = .redact) →
    ∀ released, release final = some released → released.responseText ≠ check.state.text := by
  intro claim
  obtain ⟨t, final, check, released, run, last, blocked, returned, same⟩ := blocked_run
  exact claim unconfigured {} t final check run last (.inl blocked) released returned same

theorem rejected_withheld_iff_blocked : ∃ (t : Run) (final : AgentState) (check : Visit),
    (processMessage unconfigured {}).Runs () t (.ok final) () ∧
    lastVisit .checkPolicy (visits t) = some check ∧ check.state.action unconfigured = .block ∧
    (((check.state.action unconfigured = .block ∨ check.state.action unconfigured = .redact) →
        ∀ released, release final = some released → released.responseText ≠ check.state.text) ↔
      ((check.state.action unconfigured = .block ∨ check.state.action unconfigured = .redact) →
        Withholds unconfigured (visits t) check.state)) := by
  obtain ⟨t, final, check, _, run, last, blocked, -⟩ := blocked_run
  exact ⟨t, final, check, run, last, blocked, rejected_withheld_iff unconfigured {} run last⟩

/-- A reply went out that the validator never saw. -/
def releasesUnseen (t : Run) (o : Except Raised AgentState) : Bool :=
  match o with
  | .ok final => (release final).any (fun released => released.responseText == "Yes.") &&
      t.all fun ev =>
        match ev.op with
        | .validate _ => false
        | _ => true
  | .error _ => false

theorem unseen_run : ∃ (t : Run) (final : AgentState) (released : Released),
    (processMessage grounded {}).Runs () t (.ok final) () ∧
    (∀ text e, (⟨.validate text, .error e⟩ : Ev) ∉ t) ∧ release final = some released ∧
    ¬ Cleared t released.responseText := by
  have run := (processMessage grounded {}).runs_with (scripted "Yes." [{ content := "No." }] unfaithful) ()
  have unseen : releasesUnseen
      ((processMessage grounded {}).traceWith (scripted "Yes." [{ content := "No." }] unfaithful) ())
      ((processMessage grounded {}).outcomeWith
        (scripted "Yes." [{ content := "No." }] unfaithful) ()).1 = true := by
    decide +kernel
  generalize (processMessage grounded {}).traceWith _ _ = t at run unseen
  generalize (processMessage grounded {}).outcomeWith _ _ = outcome at run unseen
  obtain ⟨o, ⟨⟩⟩ := outcome
  cases o with
  | error e => cases unseen
  | ok final =>
    simp only [releasesUnseen, Bool.and_eq_true, List.all_eq_true] at unseen
    obtain ⟨released, returned, same⟩ := (Option.any_eq_true _ _).mp unseen.1
    have text : released.responseText = "Yes." := by simpa using same
    refine ⟨t, final, released, run, fun text e mem => ?_, returned, ?_⟩
    · exact Bool.false_ne_true (unseen.2 _ mem)
    · rw [text]
      rintro (empty | notice | ⟨ev, mem, original, check, rfl, -⟩)
      · exact absurd empty (by decide)
      · exact absurd notice (by decide)
      · exact Bool.false_ne_true (unseen.2 _ mem)

end AgentStudio.Orchestration
