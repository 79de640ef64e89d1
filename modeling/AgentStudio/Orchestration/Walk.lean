import AgentStudio.Orchestration.Effects

/-!
# Runs of the graph, visit by visit

A run of `walk` is a chain of visits: each is a run of its node, and the edges
say which node comes next. What holds of a turn is proved along this chain.
-/

namespace AgentStudio.Orchestration
open Async Gateway

def Op.isDispatch : Op → Bool
  | .dispatch .. => true
  | _ => false

/-! ## The chain -/

section
variable (svc : Service)

inductive Walked : Node → AgentState → Run → Except Raised Bool → AgentState → Prop
  | limit (node : Node) (s : AgentState) : Walked node s [] (.ok false) s
  | refused (node : Node) (s : AgentState) (e : Raised) :
      Walked node s [⟨.dispatch node s, .error e⟩] (.error e) s
  | raised {node : Node} {s s' : AgentState} {t : Run} {e : Raised}
      (visit : (runNode svc node).Runs s t (.error e) s') :
      Walked node s (⟨.dispatch node s, .ok ()⟩ :: t) (.error e) s'
  | last {node : Node} {s s' : AgentState} {t : Run}
      (visit : (runNode svc node).Runs s t (.ok ()) s') (atEnd : nextNode svc s' node = none) :
      Walked node s (⟨.dispatch node s, .ok ()⟩ :: t) (.ok true) s'
  | next {node node' : Node} {s s' s'' : AgentState} {t t' : Run} {o : Except Raised Bool}
      (visit : (runNode svc node).Runs s t (.ok ()) s') (edge : nextNode svc s' node = some node')
      (rest : Walked node' s' t' o s'') :
      Walked node s (⟨.dispatch node s, .ok ()⟩ :: (t ++ t')) o s''

theorem walk_walked (n : Nat) (node : Node) (s : AgentState) :
    (walk svc n node).All s (Walked svc node s) := by
  induction n generalizing node s with
  | zero => exact .limit node s
  | succ n ih =>
    refine (Coro.all_get_bind _).mpr ?_
    refine (Coro.all_call_bind _ _).mpr ⟨fun _ => ?_, fun e => .refused node s e⟩
    have visits : (runNode svc node).All s ((runNode svc node).Runs s) :=
      Coro.all_iff.mpr fun _ _ _ visit => visit
    refine visits.bind (fun t _ s' visit => ?_) fun t e s' visit => .raised visit
    refine (Coro.all_get_bind _).mpr ?_
    cases edge : nextNode svc s' node with
    | none =>
      rw [Coro.all_pure, List.append_nil]
      exact .last visit edge
    | some node' => exact (ih node' s').mono fun t' o s'' rest => .next visit edge rest

variable {svc}

/-- A run is empty or starts with the visit of its node. -/
theorem Walked.head {node : Node} {s s' : AgentState} {t : Run} {o : Except Raised Bool}
    (h : Walked svc node s t o s') : t = [] ∨ ∃ r rest, t = ⟨.dispatch node s, r⟩ :: rest := by
  cases h with
  | limit => exact .inl rfl
  | refused e => exact .inr ⟨_, _, rfl⟩
  | raised visit => exact .inr ⟨_, _, rfl⟩
  | last visit atEnd => exact .inr ⟨_, _, rfl⟩
  | next visit edge rest => exact .inr ⟨_, _, rfl⟩

end

/-! ## Visits -/

/-- One visit: the node, the state it was started on, and the calls it made. -/
structure Visit where
  node : Node
  state : AgentState
  calls : Run

/-- The visits of a run of the graph. -/
def visits : Run → List Visit
  | [] => []
  | ⟨.dispatch node s, _⟩ :: rest =>
    ⟨node, s, rest.takeWhile fun ev => !ev.op.isDispatch⟩ :: visits rest
  | _ :: rest => visits rest

theorem visits_append_quiet {t : Run} (quiet : ∀ ev ∈ t, ev.op.isDispatch = false) (t' : Run) :
    visits (t ++ t') = visits t' := by
  induction t with
  | nil => rfl
  | cons ev t ih =>
    have here := quiet ev List.mem_cons_self
    have rest := ih fun ev mem => quiet ev (List.mem_cons_of_mem _ mem)
    obtain ⟨op, r⟩ := ev
    cases op <;> first | exact rest | cases here

/-! ## Which node makes which call -/

/-- The calls a node can make. -/
def Node.makes : Node → Op → Bool
  | .retrieveContext, .retrieve _ => true
  | .generateResponse, op => op.generates
  | .executeTools, op => op.runsTools
  | .validateOutput, .faithfulness .. | .validateOutput, .validate _ => true
  | .prepareHandoff, .createHandoff _ => true
  | _, _ => false

/-- Only a generation asks the model. -/
theorem makes_asksModel {node : Node} {op : Op} (made : node.makes op = true)
    (asks : op.asksModel = true) : node = .generateResponse := by
  cases op <;> cases node <;>
    first | rfl | exact absurd asks Bool.false_ne_true | exact absurd made Bool.false_ne_true

theorem makes_executeTool {node : Node} {name arguments : String}
    (made : node.makes (.executeTool name arguments) = true) : node = .executeTools := by
  cases node <;> first | rfl | exact absurd made Bool.false_ne_true

theorem executeTools_runsTools (svc : Service) :
    Coro.Emits (I := Calls) (Op.runsTools ·) (executeTools svc) := by
  refine Coro.emits_get.bind fun s => ?_
  split
  · exact Coro.emits_modify _
  · refine (Coro.Emits.zoom ?_).bind fun _ => Coro.emits_modify _
    refine ((resumeTool_runsTools svc).iterate _).bind fun ended => ?_
    cases ended with
    | none => exact Coro.emits_throw _
    | some => exact Coro.emits_pure _

theorem validateOutput_makes (svc : Service) :
    Coro.Emits (I := Calls) (Node.makes .validateOutput ·) (validateOutput svc) := by
  have ground_ (text : String) :
      Coro.Emits (I := Calls) (Node.makes .validateOutput ·) (ground text) := by
    refine Coro.emits_get.bind fun s => ?_
    dsimp only
    split
    · exact (Coro.emits_modify _).bind fun _ => Coro.emits_pure _
    · refine (Coro.emits_call (I := Calls) (by rfl)).bind fun check =>
        (Coro.emits_modify _).bind fun _ => ?_
      split <;> exact Coro.emits_pure _
  have gate (text : String) :
      Coro.Emits (I := Calls) (Node.makes .validateOutput ·) (gateOutput svc text) := by
    unfold gateOutput
    split
    · refine (emits_orDefault ((Coro.emits_call (I := Calls) (by rfl)).map some)).bind
        fun answer => ?_
      cases answer with
      | none => exact Coro.emits_pure _
      | some check => exact (Coro.emits_modify _).bind fun _ => Coro.emits_pure _
    · exact Coro.emits_pure _
  refine Coro.emits_get.bind fun s => Coro.Emits.bind ?_ fun _ => Coro.emits_modify _
  unfold verify
  split
  · exact Coro.emits_pure _
  · refine (ground_ _).bind fun verdict => ?_
    cases verdict with
    | valid => exact gate _
    | invalid reason => exact Coro.emits_pure _

theorem runNode_makes (svc : Service) (node : Node) :
    Coro.Emits (I := Calls) (node.makes ·) (runNode svc node) := by
  cases node with
  | processInput => exact Coro.emits_modify _
  | retrieveContext =>
    refine fun s => (retrieveContext_spec svc s).mono fun t _ _ step ev mem => ?_
    obtain ⟨query, same⟩ := step.1 ev mem
    rw [same]
    rfl
  | generateResponse => exact (generateResponse_calls svc).mono fun _ made => made.1
  | executeTools => exact executeTools_runsTools svc
  | validateOutput => exact validateOutput_makes svc
  | checkPolicy => exact Coro.emits_modify _
  | prepareHandoff =>
    refine fun s => (prepareHandoff_spec svc s).mono fun t _ _ step ev mem => ?_
    obtain ⟨args, same⟩ := step.1 ev mem
    rw [same]
    rfl

section
variable {svc : Service} {node : Node} {s s' : AgentState} {t : Run} {o : Except Raised Unit}

theorem made_by (visit : (runNode svc node).Runs s t o s') {ev : Ev} (mem : ev ∈ t) :
    node.makes ev.op = true := Coro.all_iff.mp (runNode_makes svc node s) t o s' visit ev mem

/-- No node starts another. -/
theorem visit_quiet (visit : (runNode svc node).Runs s t o s') {ev : Ev} (mem : ev ∈ t) :
    ev.op.isDispatch = false := by
  have made := made_by visit mem
  cases op : ev.op with
  | dispatch node' s =>
    rw [op] at made
    cases node <;> cases made
  | _ => rfl

end

/-! ## What a turn leaves behind -/

section
variable (svc : Service) {M : Run → Prop} (additive : Coro.Additive M)
  (dispatched : ∀ node s r, M [⟨.dispatch node s, r⟩])
  (nodes : ∀ node, Coro.Leaves M (runNode svc node))

include additive dispatched nodes

theorem walk_leaves (n : Nat) (node : Node) : Coro.Leaves M (walk svc n node) := by
  induction n generalizing node with
  | zero => exact fun _ => additive.nil
  | succ n ih =>
    refine additive.bind (fun _ => additive.nil) fun s => additive.bind
      (fun _ r => dispatched node s r) fun _ => additive.bind (nodes node) fun _ =>
        additive.bind (fun _ => additive.nil) fun s' => ?_
    cases nextNode svc s' node with
    | none => exact fun _ => additive.nil
    | some node' => exact ih node'

theorem processMessage_leaves (evidence : ∀ record r, M [⟨.evidence record, r⟩])
    (input : TurnInput) : Coro.Leaves M (processMessage svc input) := by
  have graph : Coro.Leaves M (ainvoke svc) := by
    refine additive.bind (walk_leaves svc additive dispatched nodes _ _) fun ended => ?_
    split
    · exact fun _ => additive.nil
    · exact fun _ => additive.nil
  have report (s : AgentState) : Coro.Leaves M (emitDecisionEvidence svc s) := by
    unfold emitDecisionEvidence
    split
    · refine additive.tryCatch (fun _ r => evidence _ r) fun e => ?_
      split
      · exact fun _ => additive.nil
      · exact fun _ => additive.nil
    · exact fun _ => additive.nil
  refine Coro.Leaves.scope (additive.bind graph fun _ => ?_) _
  refine additive.bind (fun _ => additive.nil) fun s => ?_
  exact additive.bind (report s) fun _ _ => additive.nil

end

/-- A turn that comes to its end is a run of the graph, then the evidence. -/
theorem processMessage_walked (svc : Service) (input : TurnInput) :
    (processMessage svc input).All () fun t o _ => ∀ final, o = .ok final →
      ∃ walked reported : Run, t = walked ++ reported ∧
        Walked svc .processInput input.state walked (.ok true) final ∧
        ∀ ev ∈ reported, ∃ record, ev.op = .evidence record := by
  refine (Coro.all_scope _ _).mpr ?_
  refine Coro.All.bind (Ψ := fun t o final => o = .ok () →
    Walked svc .processInput input.state t (.ok true) final) ?_ (fun t _ final step => ?_)
    fun _ _ _ _ _ raised => nomatch raised
  · refine (walk_walked svc _ _ _).bind (fun t ended final step => ?_) fun _ _ _ _ => nofun
    cases ended with
    | true =>
      rw [if_pos rfl, Coro.all_pure, List.append_nil]
      exact fun _ => step
    | false => exact nofun
  · refine (Coro.all_get_bind _).mpr ?_
    have evidence : Coro.Emits (I := Calls) (fun op => ∃ record, op = .evidence record)
        (emitDecisionEvidence svc final) := by
      unfold emitDecisionEvidence
      split
      · exact emits_orDefault (Coro.emits_call (I := Calls) ⟨_, rfl⟩)
      · exact Coro.emits_pure ()
    refine (evidence final).bind (fun q _ _ reported => ?_) fun _ _ _ _ _ raised => nomatch raised
    rintro _ ⟨⟩
    exact ⟨t, q, by rw [List.append_nil], step rfl, reported⟩

/-! ## The requests of a turn -/

/-- Any request the call hands to the gateway is one that `buildRequest` makes. -/
def Op.Built (svc : Service) (op : Op) : Prop :=
  ∀ request ∈ op.request, ∃ s assembled requestId, request = buildRequest svc s assembled requestId

theorem Op.built_of_quiet {svc : Service} {op : Op} (quiet : op.request = none) : op.Built svc :=
  fun request handed => by rw [quiet] at handed; cases handed

theorem runNode_built (svc : Service) (node : Node) :
    Coro.Emits (I := Calls) (Op.Built svc) (runNode svc node) := by
  by_cases generation : node = .generateResponse
  · subst generation
    exact (generateResponse_calls svc).mono fun _ made => made.2
  · refine (runNode_makes svc node).mono fun op made => Op.built_of_quiet ?_
    cases op with
    | generate | stream => exact absurd (makes_asksModel made rfl) generation
    | _ => rfl

/-- Every request of a turn is built by `_generate_response_impl`. -/
theorem processMessage_built (svc : Service) (input : TurnInput) :
    Coro.Emits (I := Calls) (Op.Built svc) (processMessage svc input) := by
  have quiet {op : Op} (none_ : op.request = none) (r : Except Raised (Calls.Ans op)) :
      ∀ ev ∈ ([⟨op, r⟩] : Run), ev.op.Built svc := fun ev mem => by
    rw [List.mem_singleton.mp mem]
    exact Op.built_of_quiet none_
  exact processMessage_leaves svc (Coro.additive_calls _) (fun _ _ r => quiet rfl r)
    (runNode_built svc) (fun _ r => quiet rfl r) input

/-! ## The visits of a chain -/

/-- The visits of a chain: the first, then those of the rest. -/
theorem visits_cons {svc : Service} {node node' : Node} {s s' s'' : AgentState} {t t' : Run}
    {o : Except Raised Unit} {o' : Except Raised Bool} {r : Except Raised Unit}
    (visit : (runNode svc node).Runs s t o s') (rest : Walked svc node' s' t' o' s'') :
    visits (⟨.dispatch node s, r⟩ :: (t ++ t')) = ⟨node, s, t⟩ :: visits t' := by
  have own : (t ++ t').takeWhile (fun ev => !ev.op.isDispatch) = t := by
    rw [List.takeWhile_append_of_pos fun ev mem => by simp [visit_quiet visit mem]]
    rcases rest.head with rfl | ⟨r', rest, rfl⟩
    · simp
    · simp [Op.isDispatch]
  rw [visits, own, visits_append_quiet fun ev mem => visit_quiet visit mem]

theorem visits_single {svc : Service} {node : Node} {s s' : AgentState} {t : Run}
    {o : Except Raised Unit} {r : Except Raised Unit}
    (visit : (runNode svc node).Runs s t o s') :
    visits (⟨.dispatch node s, r⟩ :: t) = [⟨node, s, t⟩] := by
  have ended : Walked svc node s' [] (.ok false) s' := .limit node s'
  have := visits_cons (r := r) visit ended
  simpa [visits] using this

end AgentStudio.Orchestration
