import AgentStudio.Async.Pool
import AgentStudio.Orchestration.Graph

/-!
# What each node does

For each node, what it may change in the state and which calls it makes, in
every run. Everything that follows about turns rests on these.
-/

namespace AgentStudio.Orchestration
open Async Gateway

abbrev Ev := Event Calls Raised

abbrev Run := Trace Calls Raised

/-! ## Calls -/

/-- A call of the model through the gateway. -/
def Op.asksModel : Op → Bool
  | .generate _ | .stream _ => true
  | _ => false

/-- The calls of `generate_response`. -/
def Op.generates : Op → Bool
  | .resolvePrompt | .memoryFacts _ | .assemble _ | .compact _ | .uuid4 => true
  | .generate _ | .stream _ | .delta _ | .usage _ => true
  | _ => false

/-- The calls of `generate_response` around the model call and its deltas. -/
def Op.prepares : Op → Bool
  | .resolvePrompt | .memoryFacts _ | .assemble _ | .compact _ | .uuid4 | .usage _ => true
  | _ => false

/-- How often a run called the model. -/
def modelCalls (t : Run) : Nat := t.countP fun ev => ev.op.asksModel

@[simp] theorem modelCalls_append (t t' : Run) :
    modelCalls (t ++ t') = modelCalls t + modelCalls t' := List.countP_append

theorem modelCalls_cons (ev : Ev) (t : Run) :
    modelCalls (ev :: t) = modelCalls t + if ev.op.asksModel then 1 else 0 := List.countP_cons

theorem modelCalls_eq_zero {t : Run} (none_ : ∀ ev ∈ t, ev.op.asksModel = false) :
    modelCalls t = 0 :=
  List.countP_eq_zero.mpr fun ev mem asks => Bool.false_ne_true ((none_ ev mem).symm.trans asks)

theorem Op.prepares.not_asksModel {op : Op} (h : op.prepares = true) : op.asksModel = false := by
  cases op <;> first | rfl | cases h

theorem modelCalls_of_prepares {t : Run} (none_ : ∀ ev ∈ t, ev.op.prepares = true) :
    modelCalls t = 0 := modelCalls_eq_zero fun ev mem => Op.prepares.not_asksModel (none_ ev mem)

section
variable {σ α : Type} {P : Op → Prop}

/-- Only what is not an `Exception` gets past the default. -/
theorem orDefault_raises (c : Action σ α) (a : α) (s : σ) :
    (orDefault c a).All s fun _ o _ => ∀ e, o = .error e → e.isException = false := by
  refine Coro.All.tryCatch (Ψ := fun _ _ _ => True) (Coro.all_iff.mpr fun _ _ _ _ => trivial)
    (fun _ _ _ _ => nofun) fun t e s' _ => ?_
  split
  · exact nofun
  · rename_i base
    rintro _ ⟨⟩
    simpa using base

theorem emits_orDefault {c : Action σ α} {a : α} (h : Coro.Emits P c) :
    Coro.Emits P (orDefault c a) := by
  refine h.tryCatch fun e => ?_
  split
  · exact Coro.emits_pure a
  · exact Coro.emits_throw e

end

/-! ## The context of a generation -/

section
variable (svc : Service)

theorem retrieveFacts_prepares : Coro.Emits (I := Calls) (Op.prepares ·) (retrieveFacts svc) := by
  unfold retrieveFacts
  split
  · exact Coro.emits_get.bind fun _ => emits_orDefault (Coro.emits_call (I := Calls) (by rfl))
  · exact Coro.emits_pure []

theorem assembleContext_prepares (prompt : String) :
    Coro.Emits (I := Calls) (Op.prepares ·) (assembleContext svc prompt) :=
  (retrieveFacts_prepares svc).bind fun _ =>
    Coro.emits_get.bind fun _ => Coro.emits_call (I := Calls) (by rfl)

theorem compactWith_prepares (assembled : Option Assembled) (overflow : Bool) :
    Coro.Emits (I := Calls) (Op.prepares ·) (compactWith assembled overflow) := by
  refine Coro.emits_get.bind fun v => (Coro.emits_call (I := Calls) (by rfl)).bind fun checkpoint => ?_
  cases checkpoint with
  | none => exact Coro.emits_pure false
  | some summary => exact (Coro.emits_modify _).bind fun _ => Coro.emits_pure true

theorem assembleOrRecover_prepares (prompt : String) :
    Coro.Emits (I := Calls) (Op.prepares ·) (assembleOrRecover svc prompt) := by
  refine ((assembleContext_prepares svc prompt).map some).tryCatch fun e => ?_
  split
  · refine Coro.emits_get.bind fun _ => ?_
    split
    · exact Coro.emits_throw _
    · refine (Coro.emits_modify _).bind fun _ =>
        (compactWith_prepares none true).bind fun made => ?_
      split
      · exact Coro.emits_pure none
      · exact Coro.emits_throw _
  · exact Coro.emits_throw _

theorem preempt_prepares (assembled : Assembled) :
    Coro.Emits (I := Calls) (Op.prepares ·) (preempt svc assembled) := by
  refine Coro.emits_get.bind fun v => ?_
  split
  · refine (compactWith_prepares (some assembled) false).bind fun made => ?_
    split
    · exact (Coro.emits_modify _).bind fun _ => Coro.emits_pure true
    · exact Coro.emits_pure false
  · exact Coro.emits_pure false

/-! ## The model calls of a generation -/

/-- The state without what the context of a generation may change. -/
def AgentState.bare (s : AgentState) : AgentState := { s with summary := {}, verifyNote := none }

/-- How the parts of a generation before `settleToolCalls` move its variables: the
two one-shot flags are only ever set. -/
structure GenVars.Le (v v' : GenVars) : Prop where
  state : v'.state.bare = v.state.bare
  compacted : v.compacted = true → v'.compacted = true
  fallbackUsed : v.fallbackUsed = true → v'.fallbackUsed = true

instance : IsPreorder GenVars GenVars.Le where
  refl _ := ⟨rfl, id, id⟩
  trans _ _ _ h h' := ⟨h'.state.trans h.state, h'.compacted ∘ h.compacted,
    h'.fallbackUsed ∘ h.fallbackUsed⟩

/-- Leaves the variables alone but for the stream flag. -/
structure GenVars.Same (v v' : GenVars) : Prop where
  state : v'.state = v.state
  compacted : v'.compacted = v.compacted
  fallbackUsed : v'.fallbackUsed = v.fallbackUsed

instance : IsPreorder GenVars GenVars.Same where
  refl _ := ⟨rfl, rfl, rfl⟩
  trans _ _ _ h h' := ⟨h'.state.trans h.state, h'.compacted.trans h.compacted,
    h'.fallbackUsed.trans h.fallbackUsed⟩

theorem GenVars.Same.le {v v' : GenVars} (h : v.Same v') : v.Le v' :=
  ⟨by rw [h.state], by rw [h.compacted]; exact id, by rw [h.fallbackUsed]; exact id⟩

theorem moves_orDefault {σ α : Type} {R : σ → σ → Prop} [IsPreorder σ R] {c : Action σ α} {a : α}
    (h : Coro.Moves R c) : Coro.Moves R (orDefault c a) := by
  refine h.tryCatch fun e => ?_
  split
  · exact Coro.moves_pure a
  · exact Coro.moves_throw e

theorem assembleContext_same (prompt : String) :
    Coro.Moves GenVars.Same (assembleContext svc prompt) := by
  refine Coro.Moves.bind ?_ fun _ => Coro.moves_get.bind fun _ => Coro.moves_call _
  unfold retrieveFacts
  split
  · exact Coro.moves_get.bind fun _ => moves_orDefault (Coro.moves_call _)
  · exact Coro.moves_pure []

theorem compactWith_le (assembled : Option Assembled) (overflow : Bool) :
    Coro.Moves GenVars.Le (compactWith assembled overflow) := by
  refine Coro.moves_get.bind fun v => (Coro.moves_call _).bind fun checkpoint => ?_
  cases checkpoint with
  | none => exact Coro.moves_pure false
  | some summary =>
    exact (Coro.moves_modify fun v => ⟨rfl, id, id⟩).bind fun _ => Coro.moves_pure true

/-- Going round again after a failed assembly uses up the compaction. -/
theorem assembleOrRecover_spec (prompt : String) (v : GenVars) :
    (assembleOrRecover svc prompt).All v fun t o v' => modelCalls t = 0 ∧ v.Le v' ∧
      (o = .ok none → v.compacted = false ∧ v'.compacted = true) := by
  refine ((assembleOrRecover_prepares svc prompt v).mono fun _ _ _ made =>
    modelCalls_of_prepares made).and ?_
  refine Coro.All.tryCatch (Ψ := fun _ o v' => v.Same v' ∧ o ≠ .ok none)
    ((assembleContext_same svc prompt v).map (fun _ _ _ same => ⟨same, nofun⟩)
      fun _ _ _ same => ⟨same, nofun⟩)
    (fun _ _ _ step => ⟨step.1.le, fun again => absurd again step.2⟩) fun _ e v' step => ?_
  split
  · rw [Coro.all_get_bind]
    split
    · exact ⟨step.1.le, nofun⟩
    · rename_i fresh
      rw [Bool.or_eq_true, not_or, step.1.compacted, Bool.not_eq_true] at fresh
      rw [Coro.all_modify_bind]
      have le : v.Le { v' with compacted := true } := ⟨step.1.le.state, fun _ => rfl,
        step.1.le.fallbackUsed⟩
      refine (compactWith_le none true _).bind (fun _ made v'' moved => ?_) fun _ _ _ moved =>
        ⟨trans_of GenVars.Le le moved, nofun⟩
      cases made with
      | true => exact ⟨trans_of GenVars.Le le moved, fun _ => ⟨fresh.1, moved.compacted rfl⟩⟩
      | false => exact ⟨trans_of GenVars.Le le moved, nofun⟩
  · exact ⟨step.1.le, nofun⟩

/-- So does going round again ahead of an overflow. -/
theorem preempt_spec (assembled : Assembled) (v : GenVars) :
    (preempt svc assembled).All v fun t o v' => modelCalls t = 0 ∧ v.Le v' ∧
      (o = .ok true → v.compacted = false ∧ v'.compacted = true) := by
  refine ((preempt_prepares svc assembled v).mono fun _ _ _ made =>
    modelCalls_of_prepares made).and ?_
  change (get >>= _ : Action GenVars Bool).All v _
  rw [Coro.all_get_bind]
  split
  · rename_i fresh
    simp only [Bool.and_eq_true, Bool.not_eq_true'] at fresh
    refine (compactWith_le (some assembled) false v).bind (fun _ made v' moved => ?_)
      fun _ _ _ moved => ⟨moved, nofun⟩
    cases made with
    | true => exact ⟨⟨moved.state, fun _ => rfl, moved.fallbackUsed⟩, fun _ => ⟨fresh.1.2, rfl⟩⟩
    | false => exact ⟨moved, nofun⟩
  · exact ⟨refl_of GenVars.Le v, nofun⟩

/-- The stream callback. -/
def Op.isDelta : Op → Bool
  | .delta _ => true
  | _ => false

theorem Op.isDelta.not_asksModel {op : Op} (h : op.isDelta = true) : op.asksModel = false := by
  cases op <;> first | rfl | cases h

theorem forward_isDelta (events : List StreamEvent) (acc : StreamAcc) :
    Coro.Emits (I := Calls) (Op.isDelta ·) (forward events acc) := by
  induction events generalizing acc with
  | nil => exact Coro.emits_pure acc
  | cons ev rest ih =>
    rw [forward]
    split
    · split
      · exact ih acc
      · exact (Coro.emits_modify _).bind fun _ =>
          (Coro.emits_post (I := Calls) (by rfl)).bind fun _ => ih _
    · exact ih _
    · exact ih _
    · exact ih _
    · exact ih _
    · exact Coro.emits_throw _
    · exact ih _

theorem forward_same (events : List StreamEvent) (acc : StreamAcc) :
    Coro.Moves GenVars.Same (forward events acc) := by
  induction events generalizing acc with
  | nil => exact Coro.moves_pure acc
  | cons ev rest ih =>
    rw [forward]
    split
    · split
      · exact ih acc
      · exact (Coro.moves_modify fun v => ⟨rfl, rfl, rfl⟩).bind fun _ =>
          (Coro.moves_post _).bind fun _ => ih _
    · exact ih _
    · exact ih _
    · exact ih _
    · exact ih _
    · exact Coro.moves_throw _
    · exact ih _

theorem generateStreaming_spec (request : Request) (v : GenVars) :
    (generateStreaming svc request).All v fun t _ v' => modelCalls t = 1 ∧ v.Same v' := by
  change (Coro.call (I := Calls) (.stream request) >>= _ : Action GenVars Result).All v _
  rw [Coro.all_call_bind]
  refine ⟨fun reply => ?_, fun e => ⟨rfl, refl_of GenVars.Same v⟩⟩
  cases reply with
  | coroutine => exact ⟨rfl, refl_of GenVars.Same v⟩
  | events events ending =>
    have silent := (forward_isDelta events {} v).mono fun t _ _ told =>
      modelCalls_eq_zero fun ev mem => Op.isDelta.not_asksModel (told ev mem)
    refine (silent.and (forward_same events {} v)).bind (fun t acc v' step => ?_)
      fun t e v' step => ?_
    · have calls : modelCalls (⟨.stream request, .ok (.events events ending)⟩ :: (t ++ [])) = 1 := by
        rw [List.append_nil, modelCalls_cons, step.1]
        rfl
      cases ending with
      | some e => exact ⟨calls, step.2⟩
      | none =>
        simp only
        split
        · exact ⟨calls, step.2⟩
        · split
          · exact ⟨calls, step.2⟩
          · exact ⟨calls, step.2⟩
    · rw [modelCalls_cons, step.1]
      exact ⟨rfl, step.2⟩

/-- The fallback of a malformed stream that is still there. -/
def GenVars.fallbacks (v : GenVars) : Nat := if v.fallbackUsed then 0 else 1

/-- How a model call moves the variables: only the fallback can be used up. -/
structure GenVars.Called (v v' : GenVars) : Prop where
  state : v'.state = v.state
  compacted : v'.compacted = v.compacted
  fallbackUsed : v.fallbackUsed = true → v'.fallbackUsed = true

theorem GenVars.Same.called {v v' : GenVars} (h : v.Same v') : v.Called v' :=
  ⟨h.state, h.compacted, h.le.fallbackUsed⟩

theorem GenVars.Called.le {v v' : GenVars} (h : v.Called v') : v.Le v' :=
  ⟨by rw [h.state], by rw [h.compacted]; exact id, h.fallbackUsed⟩

/-- One model call, and one more at the price of the fallback. -/
theorem callGateway_spec (request : Request) (v : GenVars) :
    (callGateway svc request).All v fun t _ v' =>
      modelCalls t + v'.fallbacks ≤ 1 + v.fallbacks ∧ v.Called v' := by
  have once {t : Run} {v' : GenVars} (step : modelCalls t = 1 ∧ v.Same v') :
      modelCalls t + v'.fallbacks ≤ 1 + v.fallbacks ∧ v.Called v' :=
    ⟨by rw [step.1, GenVars.fallbacks, GenVars.fallbacks, step.2.fallbackUsed], step.2.called⟩
  unfold callGateway
  split
  · refine Coro.All.tryCatch (generateStreaming_spec svc request v) (fun _ _ _ step => once step)
      fun t e v' step => ?_
    split
    · rw [Coro.all_get_bind]
      split
      · rw [Coro.all_throw, List.append_nil]
        exact once step
      · rename_i unused
        rw [Coro.all_modify_bind, Coro.all_call]
        intro r
        have calls : modelCalls (t ++ [⟨.generate request, r⟩]) = 2 := by
          rw [modelCalls_append, step.1]
          rfl
        have fresh : v.fallbackUsed = false := by simpa [step.2.fallbackUsed] using unused
        exact ⟨by simp [calls, GenVars.fallbacks, fresh],
          ⟨step.2.state, step.2.compacted, fun _ => rfl⟩⟩
    · rw [Coro.all_throw, List.append_nil]
      exact once step
  · rw [Coro.all_call]
    exact fun r => once ⟨rfl, refl_of GenVars.Same v⟩

/-- Going round again after a provider overflow uses up the compaction too. -/
theorem callOrRecover_spec (request : Request) (assembled : Assembled) (v : GenVars) :
    (callOrRecover svc request assembled).All v fun t o v' =>
      modelCalls t + v'.fallbacks ≤ 1 + v.fallbacks ∧ v.Le v' ∧
      (o = .ok none → v.compacted = false ∧ v'.compacted = true) := by
  refine Coro.All.tryCatch (Ψ := fun t o v' =>
      (modelCalls t + v'.fallbacks ≤ 1 + v.fallbacks ∧ v.Called v') ∧ o ≠ .ok none)
    ((callGateway_spec svc request v).map (fun _ _ _ step => ⟨step, nofun⟩)
      fun _ _ _ step => ⟨step, nofun⟩)
    (fun _ _ _ step => ⟨step.1.1, step.1.2.le, fun again => absurd again step.2⟩)
    fun t e v' step => ?_
  obtain ⟨⟨calls, called⟩, -⟩ := step
  rw [Coro.all_get_bind]
  split
  · rename_i fresh
    simp only [Bool.and_eq_true, Bool.not_eq_true'] at fresh
    rw [Coro.all_modify_bind]
    have le : v.Le { v' with compacted := true } :=
      ⟨called.le.state, fun _ => rfl, called.le.fallbackUsed⟩
    have spent {t' : Run} {v'' : GenVars} (made : ∀ ev ∈ t', ev.op.prepares = true)
        (moved : GenVars.Le { v' with compacted := true } v'') :
        modelCalls (t ++ t') + v''.fallbacks ≤ 1 + v.fallbacks := by
      have used : v''.fallbacks ≤ v'.fallbacks := by
        have := moved.fallbackUsed
        grind [GenVars.fallbacks]
      rw [modelCalls_append, modelCalls_of_prepares made]
      omega
    refine ((compactWith_prepares (some assembled) true _).and
      (compactWith_le (some assembled) true _)).bind (fun t' made v'' moved => ?_)
      fun t' _ v'' moved => ⟨spent moved.1 moved.2, trans_of GenVars.Le le moved.2, nofun⟩
    have done_ := spent moved.1 moved.2
    have le' := trans_of GenVars.Le le moved.2
    rw [← List.append_nil t'] at done_
    cases made with
    | true => exact ⟨done_, le', fun _ => ⟨called.compacted ▸ fresh.1.1.1.2, moved.2.compacted rfl⟩⟩
    | false => exact ⟨done_, le', nofun⟩
  · rw [Coro.all_throw, List.append_nil]
    exact ⟨calls, called.le, nofun⟩

/-! ## The loop of a generation -/

/-- The state without what a generation may change. -/
def AgentState.frame (s : AgentState) : AgentState :=
  { s.bare with
    toolCalls := [], toolBudgetExhausted := false, modelResponse := none, confidence := 0
    error := none }

/-- How a generation moves the state. A spent tool budget and an error stay. -/
structure AgentState.Kept (s s' : AgentState) : Prop where
  frame : s'.frame = s.frame
  exhausted : s.toolBudgetExhausted = true → s'.toolBudgetExhausted = true
  fine : s'.error = none → s.error = none

instance : IsPreorder AgentState AgentState.Kept where
  refl _ := ⟨rfl, id, id⟩
  trans _ _ _ h h' := ⟨h'.frame.trans h.frame, h'.exhausted ∘ h.exhausted, h.fine ∘ h'.fine⟩

/-- A field outside a generation's reach has its old value. -/
theorem AgentState.Kept.same {s s' : AgentState} (h : s.Kept s') {α : Type}
    (field : AgentState → α) (untouched : ∀ s : AgentState, field s.frame = field s) :
    field s' = field s := by
  rw [← untouched s', h.frame, untouched s]

theorem GenVars.Le.exhausted {v v' : GenVars} (h : v.Le v') :
    v'.state.toolBudgetExhausted = v.state.toolBudgetExhausted := by
  have same := congrArg AgentState.toolBudgetExhausted h.state
  exact same

theorem GenVars.Le.noCalls {v v' : GenVars} (h : v.Le v') (none_ : v.state.toolCalls = []) :
    v'.state.toolCalls = [] := by
  have same := congrArg AgentState.toolCalls h.state
  exact same.trans none_

theorem GenVars.Le.kept {v v' : GenVars} (h : v.Le v') : v.state.Kept v'.state := by
  have same := congrArg AgentState.frame h.state
  have error := congrArg AgentState.error h.state
  exact ⟨same, by rw [h.exhausted]; exact id, error.symm.trans⟩

/-- A tool call that is acted on: the budget is not spent. -/
def AgentState.CallsTools (svc : Service) (s : AgentState) : Prop :=
  s.toolCalls ≠ [] → s.toolBudgetExhausted = false ∧ (s.toolSteps : ℤ) < svc.budgets.maxToolSteps

/-- The rounds that are left: one for the compaction, one for the tool budget. -/
def GenVars.again (v : GenVars) : Nat :=
  (if v.compacted then 0 else 1) + if v.state.toolBudgetExhausted then 0 else 1

theorem GenVars.Le.again_le {v v' : GenVars} (h : v.Le v') : v'.again ≤ v.again := by
  have := h.compacted
  grind [GenVars.again, GenVars.Le.exhausted]

theorem GenVars.Le.fallbacks_le {v v' : GenVars} (h : v.Le v') : v'.fallbacks ≤ v.fallbacks := by
  have := h.fallbackUsed
  grind [GenVars.fallbacks]

theorem GenVars.Le.again_lt {v v' : GenVars} (h : v.Le v')
    (used : v.compacted = false ∧ v'.compacted = true) : v'.again < v.again := by
  simp [GenVars.again, h.exhausted, used]

theorem not_exhausted_of_live {s : AgentState} {response : Result}
    (live : liveToolCalls s response ≠ []) : s.toolBudgetExhausted = false := by
  by_contra exhausted
  simp [liveToolCalls, exhausted] at live

/-- A call past the budget is dropped, and one that spends it sends the loop round. -/
theorem settleToolCalls_spec (response : Result) (v : GenVars) :
    (settleToolCalls svc response).All v fun t o v' => t = [] ∧ v.state.Kept v'.state ∧
      v'.fallbacks = v.fallbacks ∧ v'.response = some response ∧
      ((o = .ok none ∧ v'.again < v.again ∧ v'.state.toolCalls = []) ∨
        (o = .ok (some ()) ∧ v'.again = v.again ∧ v'.state.CallsTools svc)) := by
  change (get >>= _ : Action GenVars (Option Unit)).All v _
  rw [Coro.all_get_bind]
  dsimp only
  split
  · rename_i spent
    refine ⟨rfl, ⟨rfl, fun _ => rfl, id⟩, rfl, rfl, .inl ⟨rfl, ?_, rfl⟩⟩
    simp [GenVars.again, not_exhausted_of_live spent.1]
  · rename_i unspent
    exact ⟨rfl, ⟨rfl, id, id⟩, rfl, rfl, .inr ⟨rfl, rfl, fun calls =>
      ⟨not_exhausted_of_live calls, not_le.mp fun late => unspent ⟨calls, late⟩⟩⟩⟩

/-- What one pass of the loop does: a further one costs a round, and model calls are
paid for by the rounds and the fallback that are left. -/
def Passed (v : GenVars) (t : Run) (o : Except Raised (Option Unit)) (v' : GenVars) : Prop :=
  v.state.Kept v'.state ∧
    match o with
    | .ok none => modelCalls t + v'.fallbacks + v'.again ≤ v.fallbacks + v.again ∧
        v'.again < v.again ∧ (v.state.toolCalls = [] → v'.state.toolCalls = [])
    | .ok (some ()) => modelCalls t ≤ 1 + v.fallbacks ∧ v'.response.isSome ∧
        v'.state.CallsTools svc
    | .error _ => modelCalls t ≤ 1 + v.fallbacks ∧
        (v.state.toolCalls = [] → v'.state.toolCalls = [])

/-- A pass from the request on. -/
theorem callModel_spec (assembled : Assembled) (v : GenVars) :
    (callModel svc assembled).All v (Passed svc v) := by
  rw [callModel, Coro.all_get_bind, Coro.all_call_bind]
  refine ⟨fun id => ?_, fun e =>
    ⟨refl_of AgentState.Kept v.state, by simp [modelCalls, Op.asksModel], id⟩⟩
  rw [Coro.all_modify_bind]
  have start : v.Le v.takeNote := ⟨rfl, fun h => h, fun h => h⟩
  have paid := start.fallbacks_le
  refine (callOrRecover_spec svc _ assembled v.takeNote).bind (fun t response v' step => ?_)
    fun t e v' step => ?_
  · obtain ⟨calls, moved, again⟩ := step
    have le := trans_of GenVars.Le start moved
    cases response with
    | none =>
      have lt := le.again_lt (again rfl)
      rw [Coro.all_pure, List.append_nil]
      exact ⟨le.kept, by simp [modelCalls_cons, Op.asksModel]; omega, lt, le.noCalls⟩
    | some response =>
      refine (settleToolCalls_spec svc response v').mono fun t' o v'' settled => ?_
      obtain ⟨rfl, kept, fallbacks, response_, again⟩ := settled
      have again_le := le.again_le
      rw [List.append_nil]
      refine ⟨trans_of AgentState.Kept le.kept kept, ?_⟩
      rcases again with ⟨rfl, lt, none_⟩ | ⟨rfl, -, live⟩
      · exact ⟨by simp [modelCalls_cons, Op.asksModel]; omega, by omega, fun _ => none_⟩
      · exact ⟨by simp [modelCalls_cons, Op.asksModel]; omega, by simp [response_], live⟩
  · have le := trans_of GenVars.Le start step.2.1
    exact ⟨le.kept, by simp [modelCalls_cons, Op.asksModel]; omega, le.noCalls⟩

theorem generationRound_spec (prompt : String) (v : GenVars) :
    (generationRound svc prompt).All v (Passed svc v) := by
  refine (assembleOrRecover_spec svc prompt v).bind (fun t₁ assembled v₁ step₁ => ?_)
    fun t₁ e v₁ step₁ => ⟨step₁.2.1.kept, by omega, step₁.2.1.noCalls⟩
  obtain ⟨calls₁, le₁, again₁⟩ := step₁
  have fallbacks₁ := le₁.fallbacks_le
  cases assembled with
  | none =>
    have lt := le₁.again_lt (again₁ rfl)
    rw [Coro.all_pure, List.append_nil]
    exact ⟨le₁.kept, by omega, lt, le₁.noCalls⟩
  | some assembled =>
    refine (preempt_spec svc assembled v₁).bind (fun t₂ early v₂ step₂ => ?_)
      fun t₂ e v₂ step₂ => ⟨trans_of AgentState.Kept le₁.kept step₂.2.1.kept, by simp; omega,
        (trans_of GenVars.Le le₁ step₂.2.1).noCalls⟩
    obtain ⟨calls₂, le₂, again₂⟩ := step₂
    have fallbacks₂ := le₂.fallbacks_le
    have le₁₂ := trans_of GenVars.Le le₁ le₂
    have again₁' := le₁.again_le
    cases early with
    | true =>
      have lt := le₂.again_lt (again₂ rfl)
      rw [if_pos rfl, Coro.all_pure, List.append_nil]
      exact ⟨le₁₂.kept, by simp; omega, by omega, le₁₂.noCalls⟩
    | false =>
      rw [if_neg Bool.false_ne_true]
      refine (callModel_spec svc assembled v₂).mono fun t₃ o v₃ step₃ => ?_
      have kept := trans_of AgentState.Kept le₁₂.kept step₃.1
      have again₁₂ := le₁₂.again_le
      match o, step₃.2 with
      | .ok none, paid => exact ⟨kept, by simp; omega, by omega, paid.2.2 ∘ le₁₂.noCalls⟩
      | .ok (some ()), paid => exact ⟨kept, by simp; omega, paid.2⟩
      | .error _, paid => exact ⟨kept, by simp; omega, paid.2 ∘ le₁₂.noCalls⟩

/-- The fuel is one more than the rounds there can be, so the loop ends, with a
response. -/
theorem generation_loop_total (prompt : String) (v : GenVars) :
    (Coro.iterate (generationRound svc prompt) generationFuel).All v fun _ o v' =>
      o ≠ .ok none ∧ (o = .ok (some ()) → v'.response.isSome) := by
  have ends := Coro.iterate_total (generationRound svc prompt) (fun _ => True)
    GenVars.again (fun v _ => (generationRound_spec svc prompt v).mono fun t o v' step again => by
      subst again
      exact ⟨trivial, step.2.2.1⟩) generationFuel (s := v) trivial
    (by unfold GenVars.again generationFuel; split <;> split <;> omega)
  have answered := Coro.all_iterate (generationRound svc prompt) (fun _ _ => True)
    (Φ := fun _ o v' => o = .ok (some ()) → v'.response.isSome)
    (fun t v₁ _ => (generationRound_spec svc prompt v₁).mono fun t' o v₂ step => by
      match o, step.2 with
      | .ok none, _ => trivial
      | .ok (some ()), step => exact fun _ => step.2.1
      | .error _, _ => exact nofun)
    (fun _ _ _ => nofun) generationFuel (t := []) (s := v) trivial
  exact ends.and answered

/-- The whole loop. -/
theorem generation_loop_spec (prompt : String) {v : GenVars} (start : v.state.toolCalls = []) :
    (Coro.iterate (generationRound svc prompt) generationFuel).All v fun t _ v' =>
      v.state.Kept v'.state ∧ modelCalls t ≤ 1 + v.fallbacks + v.again ∧
      v'.state.CallsTools svc := by
  refine Coro.all_iterate (generationRound svc prompt)
    (fun t v' => v.state.Kept v'.state ∧ v'.state.toolCalls = [] ∧
      modelCalls t + v'.fallbacks + v'.again ≤ v.fallbacks + v.again)
    (Φ := fun t _ v' => v.state.Kept v'.state ∧ modelCalls t ≤ 1 + v.fallbacks + v.again ∧
      v'.state.CallsTools svc)
    (fun t v₁ inv => (generationRound_spec svc prompt v₁).mono fun t' o v₂ step => ?_)
    (fun t v₁ inv => ⟨inv.1, by omega, fun calls => absurd inv.2.1 calls⟩)
    generationFuel (t := []) (s := v) ⟨refl_of AgentState.Kept v.state, start, by simp [modelCalls]⟩
  obtain ⟨kept₁, none_, paid⟩ := inv
  obtain ⟨kept₂, step⟩ := step
  have kept := trans_of AgentState.Kept kept₁ kept₂
  match o, step with
  | .ok none, step => exact ⟨kept, step.2.2 none_, by simp; omega⟩
  | .ok (some ()), step => exact ⟨kept, by simp; omega, step.2.2⟩
  | .error _, step => exact ⟨kept, by simp; omega, fun calls => absurd (step.2 none_) calls⟩

theorem buildSystemPrompt_spec (v : GenVars) :
    (buildSystemPrompt svc).All v fun t o v' => modelCalls t = 0 ∧ v.Same v' ∧
      ∀ e, o = .error e → e.isException = false := by
  unfold buildSystemPrompt
  split
  · have asked : Coro.Emits (I := Calls) (Op.prepares ·)
        (orDefault (Coro.call (I := Calls) .resolvePrompt) none : Action GenVars _) :=
      emits_orDefault (Coro.emits_call (I := Calls) (by rfl))
    have same : Coro.Moves GenVars.Same
        (orDefault (Coro.call (I := Calls) .resolvePrompt) none : Action GenVars _) :=
      moves_orDefault (Coro.moves_call _)
    refine Coro.All.bind ((asked v).and ((same v).and (orDefault_raises _ none v)))
      (fun t a v' step => ?_) fun t e v' step => ⟨modelCalls_of_prepares step.1, step.2.1,
        fun e' same => step.2.2 e' (by cases same; rfl)⟩
    rw [Coro.all_pure, List.append_nil]
    exact ⟨modelCalls_of_prepares step.1, step.2.1, nofun⟩
  · exact ⟨rfl, refl_of GenVars.Same v, nofun⟩

theorem recordUsage_spec (response : Result) (v : GenVars) :
    (recordUsage svc response).All v fun t _ v' => modelCalls t = 0 ∧ v.Same v' := by
  unfold recordUsage
  split
  · rw [Coro.all_get_bind]
    refine ((emits_orDefault (Coro.emits_call (I := Calls) (P := (Op.prepares ·)) (by rfl)) v).and
      (moves_orDefault (Coro.moves_call _) v)).mono fun _ _ _ step =>
        ⟨modelCalls_of_prepares step.1, step.2⟩
  · exact ⟨rfl, refl_of GenVars.Same v⟩

/-- The `try` block as a whole: three rounds and one fallback make four model calls. -/
theorem generationBody_spec (v : GenVars) :
    (generationBody svc).All v fun t o v' => v.state.Kept v'.state ∧ modelCalls t ≤ 4 ∧
      (v'.state.CallsTools svc ∨ ∃ e, o = .error e ∧ e.isException = false) := by
  have most (v : GenVars) : 1 + v.fallbacks + v.again ≤ 4 := by
    grind [GenVars.fallbacks, GenVars.again]
  refine (buildSystemPrompt_spec svc v).bind (fun t₁ prompt v₁ step₁ => ?_) fun t₁ e v₁ step₁ =>
    ⟨step₁.2.1.le.kept, by omega, .inr ⟨e, rfl, step₁.2.2 e rfl⟩⟩
  obtain ⟨calls₁, same₁, -⟩ := step₁
  rw [Coro.all_modify_bind]
  have cleared : v.state.Kept { v₁.state with toolCalls := [] } :=
    ⟨same₁.le.kept.frame, same₁.le.kept.exhausted, same₁.le.kept.fine⟩
  refine ((generation_loop_spec svc prompt (v := { v₁ with
    state := { v₁.state with toolCalls := [] } }) rfl).and
    (generation_loop_total svc prompt _)).bind (fun t₂ ended v₂ step₂ => ?_)
    fun t₂ e v₂ step₂ => ⟨trans_of AgentState.Kept cleared step₂.1.1, ?_, .inl step₂.1.2.2⟩
  · obtain ⟨⟨kept₂, calls₂, live⟩, some_, response_⟩ := step₂
    have calls₂ := calls₂.trans (most _)
    have kept := trans_of AgentState.Kept cleared kept₂
    cases ended with
    | none => exact absurd rfl some_
    | some =>
      rw [Coro.all_get_bind]
      obtain ⟨response, found⟩ := Option.isSome_iff_exists.mp (response_ rfl)
      rw [found]
      rw [Coro.all_modify_bind]
      refine (recordUsage_spec svc response _).mono fun t₃ o v₃ step₃ => ?_
      have state₃ := step₃.2.state
      refine ⟨⟨by rw [state₃]; exact kept.frame, by rw [state₃]; exact kept.exhausted,
        by rw [state₃]; exact kept.fine⟩, ?_, .inl ?_⟩
      · simp only [modelCalls_append]
        omega
      · rw [state₃]
        exact live
  · have := step₂.1.2.1.trans (most _)
    rw [modelCalls_append]
    omega

/-- `generate_response`: at most four model calls; a tool call is handed on only
within the budget. -/
theorem generateResponse_spec (s : AgentState) :
    (generateResponse svc).All s fun t o s' => s.Kept s' ∧ modelCalls t ≤ 4 ∧
      (o = .ok () → s'.CallsTools svc) := by
  refine (Coro.all_zoom _ _ _).mpr ?_
  refine Coro.All.tryCatch (generationBody_spec svc { state := s })
    (fun t o v' step => ⟨step.1, step.2.1, fun _ => ?_⟩) fun t e v' step => ?_
  · exact step.2.2.resolve_right fun ⟨e, raised, _⟩ => nomatch raised
  · obtain ⟨kept, calls, live⟩ := step
    split
    · rw [Coro.all_throw, List.append_nil]
      exact ⟨kept, calls, nofun⟩
    · split
      · rename_i exception
        rw [Coro.all_modify, List.append_nil]
        refine ⟨⟨kept.frame, kept.exhausted, nofun⟩, calls, fun _ => ?_⟩
        refine live.resolve_right fun ⟨e', raised, base⟩ => ?_
        cases raised
        simp [base] at exception
      · rw [Coro.all_throw, List.append_nil]
        exact ⟨kept, calls, nofun⟩

/-! ## What a generation leaves behind -/

section
variable {M : Run → Prop} (additive : Coro.Additive M)
  (prepared : ∀ t : Run, (∀ ev ∈ t, ev.op.prepares = true) → M t)

include additive in
theorem callGateway_leaves {request : Request}
    (streams : Coro.Leaves M (generateStreaming svc request))
    (asks : Coro.Leaves M (Coro.call (I := Calls) (.generate request) : Action GenVars Result)) :
    Coro.Leaves M (callGateway svc request) := by
  unfold callGateway
  split
  · refine additive.tryCatch streams fun e => ?_
    split
    · refine additive.bind (fun _ => additive.nil) fun _ => ?_
      split
      · exact fun _ => additive.nil
      · exact additive.bind (fun _ => additive.nil) fun _ => asks
    · exact fun _ => additive.nil
  · exact asks

include prepared in
theorem leaves_of_prepares {α : Type} {c : Action GenVars α}
    (h : Coro.Emits (I := Calls) (Op.prepares ·) c) : Coro.Leaves M c :=
  fun v => (h v).mono fun t _ _ made => prepared t made

include additive prepared

theorem callModel_leaves (assembled : Assembled)
    (gateway : ∀ s requestId,
      Coro.Leaves M (callGateway svc (buildRequest svc s assembled requestId))) :
    Coro.Leaves M (callModel svc assembled) := by
  refine additive.bind (fun _ => additive.nil) fun v => additive.bind
    (leaves_of_prepares prepared (Coro.emits_call (I := Calls) (by rfl))) fun requestId =>
      additive.bind (fun _ => additive.nil) fun _ => additive.bind ?_ fun response => ?_
  · refine additive.tryCatch (additive.map (gateway v.state requestId) some) fun e =>
      additive.bind (fun _ => additive.nil) fun _ => ?_
    split
    · refine additive.bind (fun _ => additive.nil) fun _ => additive.bind
        (leaves_of_prepares prepared (compactWith_prepares (some assembled) true)) fun made => ?_
      split
      · exact fun _ => additive.nil
      · exact fun _ => additive.nil
    · exact fun _ => additive.nil
  · cases response with
    | none => exact fun _ => additive.nil
    | some response =>
      refine additive.bind (fun _ => additive.nil) fun v => ?_
      dsimp only
      split
      · exact fun _ => additive.nil
      · exact fun _ => additive.nil

theorem generationRound_leaves (prompt : String)
    (gateway : ∀ s assembled requestId,
      Coro.Leaves M (callGateway svc (buildRequest svc s assembled requestId))) :
    Coro.Leaves M (generationRound svc prompt) := by
  refine additive.bind (leaves_of_prepares prepared (assembleOrRecover_prepares svc prompt))
    fun assembled => ?_
  cases assembled with
  | none => exact fun _ => additive.nil
  | some assembled =>
    refine additive.bind (leaves_of_prepares prepared (preempt_prepares svc assembled))
      fun early => ?_
    split
    · exact fun _ => additive.nil
    · exact callModel_leaves svc additive prepared assembled fun s => gateway s assembled

theorem generateResponse_leaves
    (gateway : ∀ s assembled requestId,
      Coro.Leaves M (callGateway svc (buildRequest svc s assembled requestId))) :
    Coro.Leaves M (generateResponse svc) := by
  refine Coro.Leaves.zoom (additive.tryCatch (additive.bind ?prompt fun prompt =>
    additive.bind (fun _ => additive.nil) fun _ => additive.bind
      (additive.iterate (generationRound_leaves svc additive prepared prompt gateway) _)
      fun ended => ?after) fun e => ?handler)
  case prompt =>
    refine leaves_of_prepares prepared ?_
    unfold buildSystemPrompt
    split
    · exact (emits_orDefault (Coro.emits_call (I := Calls) (by rfl))).bind
        fun _ => Coro.emits_pure _
    · exact Coro.emits_pure _
  case after =>
    cases ended with
    | none => exact fun _ => additive.nil
    | some =>
      refine additive.bind (fun _ => additive.nil) fun v => ?_
      split
      · exact fun _ => additive.nil
      · refine additive.bind (fun _ => additive.nil) fun _ => leaves_of_prepares prepared ?_
        unfold recordUsage
        split
        · exact Coro.emits_get.bind fun _ => emits_orDefault (Coro.emits_call (I := Calls) (by rfl))
        · exact Coro.emits_pure _
  case handler =>
    split
    · exact fun _ => additive.nil
    · split
      · exact fun _ => additive.nil
      · exact fun _ => additive.nil

end

/-! ## The calls of a generation -/

/-- The request a call hands to the gateway. -/
def Op.request : Op → Option Request
  | .generate request | .stream request => some request
  | _ => none

/-- A call of `generate_response`; its requests are those that `buildRequest` makes. -/
def Op.Generation (op : Op) : Prop :=
  op.generates = true ∧ ∀ request ∈ op.request,
    ∃ s assembled requestId, request = buildRequest svc s assembled requestId

theorem Op.prepares.generation {op : Op} (h : op.prepares = true) : op.Generation svc := by
  cases op with
  | resolvePrompt | memoryFacts | assemble | compact | uuid4 | usage =>
    exact ⟨rfl, fun _ handed => nomatch handed⟩
  | _ => cases h

theorem Op.isDelta.generation {op : Op} (h : op.isDelta = true) : op.Generation svc := by
  cases op with
  | delta => exact ⟨rfl, fun _ handed => nomatch handed⟩
  | _ => cases h

theorem generateStreaming_calls {request : Request} (built : (Op.stream request).Generation svc) :
    Coro.Emits (I := Calls) (Op.Generation svc) (generateStreaming svc request) := by
  refine (Coro.emits_call (I := Calls) built).bind fun reply => ?_
  cases reply with
  | coroutine => exact Coro.emits_throw _
  | events events ending =>
    refine ((forward_isDelta events {}).mono fun _ => Op.isDelta.generation svc).bind fun acc => ?_
    cases ending with
    | some e => exact Coro.emits_throw e
    | none =>
      dsimp only
      split
      · exact Coro.emits_pure _
      · split
        · exact Coro.emits_throw _
        · exact Coro.emits_pure _

theorem generateResponse_calls :
    Coro.Emits (I := Calls) (Op.Generation svc) (generateResponse svc) := by
  refine generateResponse_leaves svc (Coro.additive_calls _)
    (fun t made ev mem => Op.prepares.generation svc (made ev mem)) fun s assembled requestId => ?_
  have built (op : Request → Op) (hands : ∀ request, (op request).request = some request)
      (generates : ∀ request, (op request).generates = true) :
      (op (buildRequest svc s assembled requestId)).Generation svc :=
    ⟨generates _, fun request handed => ⟨s, assembled, requestId, by
      rw [hands] at handed
      exact (Option.mem_some.mp handed).symm⟩⟩
  exact callGateway_leaves svc (Coro.additive_calls _)
    (generateStreaming_calls svc (built .stream (fun _ => rfl) fun _ => rfl))
    (Coro.emits_call (I := Calls) (built .generate (fun _ => rfl) fun _ => rfl))

/-! ## Tools -/

/-- The calls of `execute_tools`. -/
def Op.runsTools : Op → Bool
  | .schedule _ | .toolPart _ | .authorize _ | .executeTool .. => true
  | _ => false

theorem emitToolPart_runsTools (part : ToolPart) :
    Coro.Emits (I := Calls) (Op.runsTools ·) (emitToolPart svc part) := by
  unfold emitToolPart
  split
  · exact emits_orDefault (Coro.emits_call (I := Calls) (by rfl))
  · exact Coro.emits_pure ()

theorem runOneTool_runsTools (i : Nat) (call : ToolCall) (phase : ToolPhase) :
    Coro.Emits (I := Calls) (Op.runsTools ·) (runOneTool svc i call phase) := by
  cases phase with
  | use => exact (emitToolPart_runsTools svc _).bind fun _ => Coro.emits_modify _
  | authorize =>
    refine Coro.Emits.bind ?_ fun _ => Coro.emits_modify _
    unfold authorizeTool
    split
    · exact emits_orDefault (Coro.emits_call (I := Calls) (by rfl))
    · exact Coro.emits_pure _
  | execute =>
    refine Coro.Emits.bind ?_ fun _ => Coro.emits_modify _
    unfold executeTool
    split <;> exact Coro.emits_call (I := Calls) (by rfl)
  | persist result => exact (emitToolPart_runsTools svc _).bind fun _ => Coro.emits_modify _
  | finished => exact Coro.emits_pure ()

theorem resumeTool_runsTools : Coro.Emits (I := Calls) (Op.runsTools ·) (resumeTool svc) := by
  refine Coro.emits_get.bind fun v => ?_
  dsimp only
  split
  · exact Coro.emits_pure _
  · refine (Coro.emits_call (I := Calls) (by rfl)).bind fun chosen => Coro.emits_get.bind fun v => ?_
    split
    · exact (runOneTool_runsTools svc _ _ _).bind fun _ => Coro.emits_pure _
    · exact Coro.emits_pure _

/-- The steps a gathered call still has to take. -/
def ToolPhase.left : ToolPhase → ℤ
  | .use => 4
  | .authorize => 3
  | .execute => 2
  | .persist _ => 1
  | .finished => 0

/-- What a gathered call has added to `tool_steps`. -/
def ToolPhase.counted : ToolPhase → ℤ
  | .finished => 1
  | _ => 0

/-- The state without what the tools write. -/
def AgentState.sansTools (s : AgentState) : AgentState :=
  { s with toolParts := [], toolResults := [], toolSteps := 0 }

/-- What one step of a gathered call does. -/
structure Advanced (i : Nat) (call : ToolCall) (phase : ToolPhase) (v v' : ToolVars) : Prop where
  frame : v'.state.sansTools = v.state.sansTools
  phase : ∃ phase' : ToolPhase, v'.calls = v.calls.set i (call, phase') ∧
    phase'.left < phase.left ∧
    (v'.state.toolSteps : ℤ) = v.state.toolSteps + (phase'.counted - phase.counted)

theorem emitToolPart_eq (part : ToolPart) (v : ToolVars) :
    (emitToolPart svc part).All v fun _ _ v' => v' = v := by
  unfold emitToolPart
  split
  · exact Coro.All.tryCatch (Ψ := fun _ _ v' => v' = v) (fun _ => rfl) (fun _ _ _ same => same)
      fun _ e v' same => by split <;> exact same
  · rfl

theorem authorizeTool_eq (call : ToolCall) (v : ToolVars) :
    (authorizeTool svc call).All v fun _ _ v' => v' = v := by
  unfold authorizeTool
  split
  · exact Coro.All.tryCatch (Ψ := fun _ _ v' => v' = v) (fun _ => rfl) (fun _ _ _ same => same)
      fun _ e v' same => by split <;> exact same
  · rfl

theorem phaseAfterGate_left (call : ToolCall) (allowed : Bool) :
    (phaseAfterGate call allowed).left < 3 ∧ (phaseAfterGate call allowed).counted = 0 := by
  unfold phaseAfterGate
  split
  · exact ⟨by simp [ToolPhase.left], rfl⟩
  · split
    · exact ⟨by simp [ToolPhase.left], rfl⟩
    · exact ⟨by simp [ToolPhase.left], rfl⟩

theorem runOneTool_spec (i : Nat) (call : ToolCall) {phase : ToolPhase}
    (running : phase ≠ .finished) (v : ToolVars) :
    (runOneTool svc i call phase).All v fun _ o v' => o = .ok () → Advanced i call phase v v' := by
  cases phase with
  | use =>
    refine (emitToolPart_eq svc _ v).bind (fun _ _ v' same => ?_) fun _ _ _ _ => nofun
    subst same
    exact fun _ => ⟨rfl, .authorize, rfl, by decide, by simp [ToolPhase.counted]⟩
  | authorize =>
    refine (authorizeTool_eq svc call v).bind (fun _ allowed v' same => ?_) fun _ _ _ _ => nofun
    subst same
    obtain ⟨less, counted⟩ := phaseAfterGate_left call allowed
    exact fun _ => ⟨rfl, phaseAfterGate call allowed, rfl, less, by
      rw [counted]
      simp [ToolPhase.counted, ToolVars.setPhase]⟩
  | execute =>
    refine Coro.All.bind (Ψ := fun _ _ v' => v' = v) ?_ (fun _ result v' same => ?_)
      fun _ _ _ _ => nofun
    · unfold executeTool
      split <;> exact fun _ => rfl
    · subst same
      exact fun _ => ⟨rfl, .persist (.of call result), rfl, by simp [ToolPhase.left], by
        simp [ToolPhase.counted, ToolVars.setPhase]⟩
  | persist result =>
    refine (emitToolPart_eq svc _ v).bind (fun _ _ v' same => ?_) fun _ _ _ _ => nofun
    subst same
    exact fun _ => ⟨rfl, .finished, rfl, by simp [ToolPhase.left], by simp [ToolPhase.counted]⟩
  | finished => exact absurd rfl running

theorem mem_running {v : ToolVars} {i : Nat} (h : i ∈ v.running) :
    ∃ call phase, v.calls[i]? = some (call, phase) ∧ phase ≠ .finished := by
  obtain ⟨bound, running⟩ := List.mem_findIdxs_iff_exists_getElem_pos.mp h
  exact ⟨v.calls[i].1, v.calls[i].2, List.getElem?_eq_getElem bound, by simpa using running⟩

/-- The call that the event loop resumes is one that has not finished. -/
theorem resumed_mem {running : List Nat} (some_ : running ≠ []) (chosen : Nat) :
    (if chosen ∈ running then chosen else running.headD 0) ∈ running := by
  split
  · assumption
  · cases running with
    | nil => exact absurd rfl some_
    | cons i rest => exact List.mem_cons_self

/-- The gathered calls along the way: `tool_steps` counts those that have finished. -/
structure Gathering (s : AgentState) (v : ToolVars) : Prop where
  frame : v.state.sansTools = s.sansTools
  length : v.calls.length = s.toolCalls.length
  steps : (v.state.toolSteps : ℤ) = s.toolSteps + (v.calls.map (·.2.counted)).sum

/-- What the gathered calls have left, all together. -/
def ToolVars.left (v : ToolVars) : ℤ := (v.calls.map (·.2.left)).sum

theorem Gathering.advance {s : AgentState} {v v' : ToolVars} (h : Gathering s v) {i : Nat}
    {call : ToolCall} {phase : ToolPhase} (here : v.calls[i]? = some (call, phase))
    (step : Advanced i call phase v v') : Gathering s v' ∧ v'.left < v.left := by
  obtain ⟨phase', calls, less, steps⟩ := step.phase
  refine ⟨⟨step.frame.trans h.frame, by rw [calls, List.length_set, h.length], ?_⟩, ?_⟩
  · rw [calls, sum_map_set _ here, steps, h.steps]
    ring
  · rw [ToolVars.left, ToolVars.left, calls, sum_map_set _ here]
    simp only
    omega

theorem resumeTool_spec {s : AgentState} {v : ToolVars} (h : Gathering s v) :
    (resumeTool svc).All v fun _ o v' =>
      (o = .ok none → Gathering s v' ∧ v'.left < v.left) ∧
      (o = .ok (some ()) → Gathering s v' ∧ v'.running = []) := by
  refine (Coro.all_get_bind _).mpr ?_
  dsimp only
  split
  · rename_i atEnd
    exact ⟨nofun, fun _ => ⟨h, atEnd⟩⟩
  · rename_i some_
    refine (Coro.all_call_bind _ _).mpr ⟨fun chosen => ?_, fun e => ⟨nofun, nofun⟩⟩
    obtain ⟨call, phase, here, running⟩ := mem_running (resumed_mem some_ chosen)
    refine (Coro.all_get_bind _).mpr ?_
    rw [here]
    refine (runOneTool_spec svc _ call running v).bind (fun _ _ v' step => ?_)
      fun _ _ _ _ => ⟨nofun, nofun⟩
    exact ⟨fun _ => h.advance here (step rfl), nofun⟩

theorem counted_of_running_nil {v : ToolVars} (atEnd : v.running = []) :
    (v.calls.map (·.2.counted)).sum = v.calls.length := by
  have finished := List.findIdxs_eq_nil_iff.mp atEnd
  have ones : v.calls.map (·.2.counted) = v.calls.map fun _ => (1 : ℤ) := by
    refine List.map_congr_left fun c mem => ?_
    have : c.2 = .finished := by simpa using finished c mem
    simp [this, ToolPhase.counted]
  simp [ones]

theorem gathering_start (s : AgentState) : Gathering s (gatherStart s) := by
  refine ⟨rfl, by simp [gatherStart], ?_⟩
  have zeros : (gatherStart s).calls.map (·.2.counted) = s.toolCalls.map fun _ => (0 : ℤ) := by
    rw [gatherStart, List.map_map]
    rfl
  rw [zeros]
  simp [gatherStart]

theorem left_nonneg (v : ToolVars) : 0 ≤ v.left := by
  refine List.sum_nonneg fun n mem => ?_
  obtain ⟨c, -, rfl⟩ := List.mem_map.mp mem
  cases c.2 <;> simp [ToolPhase.left]

theorem gatherStart_left (s : AgentState) : (gatherStart s).left = 4 * s.toolCalls.length := by
  have fours : (gatherStart s).calls.map (·.2.left) = s.toolCalls.map fun _ => (4 : ℤ) := by
    rw [gatherStart, List.map_map]
    rfl
  rw [ToolVars.left, fours]
  simp [mul_comm]

/-- All the calls run to their end, and each counts as one step. -/
theorem gatherTools_spec (s : AgentState) :
    (gatherTools svc s.toolCalls).All (gatherStart s) fun _ o v' => o = .ok () →
      v'.state.sansTools = s.sansTools ∧
        v'.state.toolSteps = s.toolSteps + s.toolCalls.length := by
  have loop := Coro.all_iterate (resumeTool svc) (fun _ v => Gathering s v)
    (Φ := fun _ o v' => o = .ok (some ()) → Gathering s v' ∧ v'.running = [])
    (fun t v inv => (resumeTool_spec svc inv).mono fun t' o v' step => by
      match o, step with
      | .ok none, step => exact (step.1 rfl).1
      | .ok (some ()), step => exact step.2
      | .error _, _ => exact nofun)
    (fun _ _ _ => nofun) (gatherFuel s.toolCalls) (t := []) (gathering_start s)
  refine Coro.All.bind loop (fun t ended v' step => ?_) fun _ _ _ _ => nofun
  cases ended with
  | none => exact nofun
  | some =>
    obtain ⟨gathered, atEnd⟩ := step rfl
    refine fun _ => ⟨gathered.frame, ?_⟩
    have steps := gathered.steps
    rw [counted_of_running_nil atEnd, gathered.length] at steps
    exact_mod_cast steps

/-- `execute_tools`: without a budget, a registry or a call it spends the tool
budget; otherwise each call counts as a step. -/
theorem executeTools_spec (s : AgentState) :
    (executeTools svc).All s fun t o s' => o = .ok () →
      (t = [] ∧ s' = { s with toolBudgetExhausted := true, toolCalls := [] }) ∨
      (s.toolCalls ≠ [] ∧ (s.toolSteps : ℤ) < svc.budgets.maxToolSteps ∧
        ∃ parts results, s' = { s with
          toolCalls := [], toolParts := parts, toolResults := results
          toolSteps := s.toolSteps + s.toolCalls.length }) := by
  refine (Coro.all_get_bind _).mpr ?_
  split
  · exact fun _ => .inl ⟨rfl, rfl⟩
  · rename_i guard
    simp only [not_or, ge_iff_le, not_le] at guard
    refine Coro.All.bind (Ψ := fun _ o s' => o = .ok () → s'.sansTools = s.sansTools ∧
      s'.toolSteps = s.toolSteps + s.toolCalls.length)
      ((Coro.all_zoom _ _ _).mpr (gatherTools_spec svc s)) (fun t _ s' step => ?_)
      fun _ _ _ _ => nofun
    obtain ⟨frame, steps⟩ := step rfl
    have whole : s' = { s with
        toolParts := s'.toolParts, toolResults := s'.toolResults
        toolSteps := s.toolSteps + s.toolCalls.length } := by
      have := congrArg (fun base : AgentState => { base with
        toolParts := s'.toolParts, toolResults := s'.toolResults, toolSteps := s'.toolSteps }) frame
      rw [← steps]
      exact this
    rw [whole]
    exact fun _ => .inr ⟨guard.1, guard.2.1, _, _, rfl⟩

/-! ## Verification -/

/-- The grounding check failed the response. -/
def Check.fails (check : Check) : Bool := check.checked && !check.grounded

/-- The response passed the grounding check, or there was nothing to check it against. -/
inductive Grounded (s : AgentState) (text : String) : Run → Faithfulness → Prop
  | unchecked (none_ : s.retrievedDocs = []) :
      Grounded s text [] { score := 1, grounded := true, checked := false }
  | checked (check : Check) (passes : check.fails = false) :
      Grounded s text [⟨.faithfulness text s.retrievedDocs, .ok check⟩] check.faithfulness

/-- What `validate_output` can do, by what was asked and answered. -/
inductive Verifies (s : AgentState) : Run → AgentState → Prop
  | empty (text : s.modelResponse.getD "" = "") :
      Verifies s [] (s.verified svc "" (.invalid "empty_response"))
  | ungrounded {text : String} (text_ : s.modelResponse.getD "" = text) (some_ : text ≠ "")
      (check : Check) (fails : check.fails = true) :
      Verifies s [⟨.faithfulness text s.retrievedDocs, .ok check⟩]
        ((s.withFaithfulness check.faithfulness).verified svc text
          (.invalid ("low_faithfulness=" ++ check.scoreText)))
  | ungated {text : String} (text_ : s.modelResponse.getD "" = text) (some_ : text ≠ "")
      {t : Run} {f : Faithfulness} (grounded : Grounded s text t f)
      (none_ : svc.hasValidator = false) :
      Verifies s t ((s.withFaithfulness f).verified svc text .valid)
  | raised {text : String} (text_ : s.modelResponse.getD "" = text) (some_ : text ≠ "")
      {t : Run} {f : Faithfulness} (grounded : Grounded s text t f)
      (there : svc.hasValidator = true) (e : Raised) :
      Verifies s (t ++ [⟨.validate text, .error e⟩])
        ((s.withFaithfulness f).verified svc text .valid)
  | answered {text : String} (text_ : s.modelResponse.getD "" = text) (some_ : text ≠ "")
      {t : Run} {f : Faithfulness} (grounded : Grounded s text t f)
      (there : svc.hasValidator = true) (check : OutputCheck) :
      Verifies s (t ++ [⟨.validate text, .ok check⟩])
        (((s.withFaithfulness f).withOutputCheck check).verified svc text
          (if check.allowed then .valid else .invalid "output_moderation_blocked"))

/-- The state without what `AgentState.verified` writes. -/
def AgentState.sansVerdict (s : AgentState) : AgentState :=
  { s with
    validationResult := none, verifyRetries := 0, verifyNote := none, verifyExhausted := false
    handoffRequired := false }

theorem verified_field {svc : Service} (s : AgentState) (text : String) (verdict : Verdict)
    {α : Type} (field : AgentState → α)
    (untouched : ∀ s : AgentState, field s.sansVerdict = field s) :
    field (s.verified svc text verdict) = field s := by
  have frame : (s.verified svc text verdict).sansVerdict = s.sansVerdict := by
    cases verdict with
    | valid => rfl
    | invalid reason =>
      unfold AgentState.verified
      dsimp only
      split <;> rfl
  rw [← untouched, frame, untouched]

/-- The state without the response and the context. -/
def AgentState.sansOutput (s : AgentState) : AgentState :=
  { s with modelResponse := none, context := {} }

theorem withOutputCheck_field (s : AgentState) (check : OutputCheck) {α : Type}
    (field : AgentState → α) (untouched : ∀ s : AgentState, field s.sansOutput = field s) :
    field (s.withOutputCheck check) = field s := by
  have frame : (s.withOutputCheck check).sansOutput = s.sansOutput := by
    unfold AgentState.withOutputCheck
    dsimp only
    split <;> rfl
  rw [← untouched, frame, untouched]

/-- Every outcome is `verified` on a state that differs in response and context only. -/
theorem Verifies.base {svc : Service} {s s' : AgentState} {t : Run} (h : Verifies svc s t s') :
    ∃ (base : AgentState) (text : String) (verdict : Verdict),
      s' = base.verified svc text verdict ∧ base.sansOutput = s.sansOutput := by
  cases h with
  | empty => exact ⟨_, _, _, rfl, rfl⟩
  | ungrounded => exact ⟨_, _, _, rfl, rfl⟩
  | ungated => exact ⟨_, _, _, rfl, rfl⟩
  | raised => exact ⟨_, _, _, rfl, rfl⟩
  | answered _ _ _ _ check =>
    refine ⟨_, _, _, rfl, ?_⟩
    exact withOutputCheck_field _ check AgentState.sansOutput fun _ => rfl

/-- What the grounding check comes to. -/
theorem ground_spec (text : String) (s : AgentState) :
    (ground text).All s fun t o s' =>
      (o = .ok .valid → ∃ f, Grounded s text t f ∧ s' = s.withFaithfulness f) ∧
      ∀ reason, o = .ok (.invalid reason) → ∃ check : Check, check.fails = true ∧
        t = [⟨.faithfulness text s.retrievedDocs, .ok check⟩] ∧
        s' = s.withFaithfulness check.faithfulness ∧
        reason = "low_faithfulness=" ++ check.scoreText := by
  refine (Coro.all_get_bind _).mpr ?_
  dsimp only
  split
  · rename_i none_
    exact ⟨fun _ => ⟨_, .unchecked none_, rfl⟩, fun _ => nofun⟩
  · refine (Coro.all_call_bind _ _).mpr ⟨fun check => ?_, fun e => ⟨nofun, fun _ => nofun⟩⟩
    refine (Coro.all_modify_bind _ _).mpr ?_
    split
    · rename_i fails
      exact ⟨nofun, fun reason same => ⟨check, fails, rfl, rfl, by cases same; rfl⟩⟩
    · rename_i passes
      exact ⟨fun _ => ⟨_, .checked check (by simpa [Check.fails] using passes), rfl⟩, fun _ => nofun⟩

/-- What the full-output gate comes to. -/
theorem gateOutput_spec (text : String) (s : AgentState) :
    (gateOutput svc text).All s fun t o s' => ∀ verdict, o = .ok verdict →
      (svc.hasValidator = false ∧ t = [] ∧ verdict = .valid ∧ s' = s) ∨
      (svc.hasValidator = true ∧ (∃ e, t = [⟨.validate text, .error e⟩]) ∧ verdict = .valid ∧
        s' = s) ∨
      (svc.hasValidator = true ∧ ∃ check : OutputCheck, t = [⟨.validate text, .ok check⟩] ∧
        verdict = (if check.allowed then .valid else .invalid "output_moderation_blocked") ∧
        s' = s.withOutputCheck check) := by
  unfold gateOutput
  split
  · rename_i there
    have asked : (orDefault (some <$> Coro.call (I := Calls) (.validate text)) none :
        Action AgentState (Option OutputCheck)).All s fun t o s' => s' = s ∧
          (o = .ok none → ∃ e, t = [⟨.validate text, .error e⟩]) ∧
          ∀ check, o = .ok (some check) → t = [⟨.validate text, .ok check⟩] := by
      refine Coro.All.tryCatch (Ψ := fun (t : Run) o s' => s' = s ∧
          (∀ e, o = .error e → t = [⟨.validate text, .error e⟩]) ∧
          ∀ a, o = .ok a → ∃ check, a = some check ∧ t = [⟨.validate text, .ok check⟩]) ?_ ?_ ?_
      · refine (Coro.all_call_bind _ _).mpr ⟨fun check => ?_, fun e => ?_⟩
        · exact ⟨rfl, nofun, fun a same => ⟨check, by cases same; exact ⟨rfl, rfl⟩⟩⟩
        · exact ⟨rfl, fun e' same => by cases same; rfl, nofun⟩
      · rintro t a s' ⟨same, -, ok⟩
        obtain ⟨check, rfl, rfl⟩ := ok a rfl
        exact ⟨same, nofun, fun check' same => by cases same; rfl⟩
      · rintro t e s' ⟨same, error, -⟩
        obtain rfl := error e rfl
        split
        · exact ⟨same, fun _ => ⟨e, rfl⟩, nofun⟩
        · exact ⟨same, nofun, nofun⟩
    refine asked.bind (fun t answer s' step => ?_) fun _ _ _ _ => nofun
    obtain ⟨rfl, error, ok⟩ := step
    cases answer with
    | none =>
      obtain ⟨e, rfl⟩ := error rfl
      exact fun verdict same => .inr (.inl ⟨there, ⟨e, rfl⟩, by cases same; rfl, rfl⟩)
    | some check =>
      obtain rfl := ok check rfl
      exact fun verdict same => .inr (.inr ⟨there, check, rfl, by cases same; rfl, rfl⟩)
  · rename_i none_
    exact fun verdict same => .inl ⟨by simpa using none_, rfl, by cases same; rfl, rfl⟩

theorem verify_nonempty {text : String} (nonempty : text ≠ "") :
    verify svc text = ground text >>= fun verdict =>
      match verdict with
      | .valid => gateOutput svc text
      | .invalid reason => pure (.invalid reason) := if_neg nonempty

theorem validateOutput_spec (s : AgentState) :
    (validateOutput svc).All s fun t o s' => o = .ok () → Verifies svc s t s' := by
  refine (Coro.all_get_bind _).mpr ?_
  generalize text_ : s.modelResponse.getD "" = text
  by_cases empty : text = ""
  · subst empty
    exact fun _ => .empty text_
  · dsimp only
    rw [verify_nonempty svc empty, Coro.bind_assoc]
    refine (ground_spec text s).bind (fun t verdict s₁ step => ?_) fun _ _ _ _ raised => by cases raised
    cases verdict with
    | invalid reason =>
      obtain ⟨check, fails, rfl, rfl, rfl⟩ := step.2 reason rfl
      exact fun _ => .ungrounded text_ empty check fails
    | valid =>
      obtain ⟨f, grounded, rfl⟩ := step.1 rfl
      refine (gateOutput_spec svc text _).bind (fun t' verdict s₂ step' => ?_) fun _ _ _ _ raised => by cases raised
      intro _
      rw [List.append_nil]
      obtain ⟨none_, rfl, rfl, rfl⟩ | ⟨there, ⟨e, rfl⟩, rfl, rfl⟩ | ⟨there, check, rfl, rfl, rfl⟩ :=
        step' verdict rfl
      · rw [List.append_nil]
        exact .ungated text_ empty grounded none_
      · exact .raised text_ empty grounded there e
      · exact .answered text_ empty grounded there check

/-! ## The other nodes -/

theorem prepareHandoff_spec (s : AgentState) :
    (prepareHandoff svc).All s fun t o s' => (∀ ev ∈ t, ∃ args, ev.op = .createHandoff args) ∧
      (o = .ok () → ∃ handoff, s' = { s with
        handoffRequired := true, context := { s.context with handoff := handoff } }) := by
  refine (Coro.all_modify_bind _ _).mpr ?_
  split
  · refine (Coro.all_get_bind _).mpr ?_
    have asked (args : HandoffArgs) (s : AgentState) : (tryCatch
        (Coro.call (I := Calls) (.createHandoff args)) (fun e =>
          if e.isException then pure { success := false, message := e.text } else throw e) :
        Action AgentState HandoffResult).All s fun t _ s' =>
          (∀ ev ∈ t, ∃ args, ev.op = .createHandoff args) ∧ s' = s := by
      refine Coro.All.tryCatch (Ψ := fun (t : Run) _ s' => (∃ r, t = [⟨.createHandoff args, r⟩]) ∧
        s' = s) (fun r => ⟨⟨r, rfl⟩, rfl⟩) ?_ ?_
      · rintro t a s' ⟨⟨r, rfl⟩, same⟩
        exact ⟨by simp, same⟩
      · rintro t e s' ⟨⟨r, rfl⟩, same⟩
        split
        · exact ⟨by simp, same⟩
        · exact ⟨by simp, same⟩
    refine (asked _ _).bind (fun t handoff s' step => ?_) fun _ _ _ step => ⟨step.1, nofun⟩
    obtain ⟨made, rfl⟩ := step
    refine ⟨by simpa using made, fun _ => ⟨some handoff, rfl⟩⟩
  · exact ⟨by simp, fun _ => ⟨s.context.handoff, rfl⟩⟩

theorem retrieveContext_spec (s : AgentState) :
    (retrieveContext svc).All s fun t o s' => (∀ ev ∈ t, ∃ query, ev.op = .retrieve query) ∧
      (o = .ok () → ∃ docs citations context, s' = { s with
        retrievedDocs := docs, citations := citations
        context := { s.context with retrievalContext := context } }) := by
  unfold retrieveContext
  split
  · exact ⟨by simp, fun _ => ⟨[], s.citations, s.context.retrievalContext, rfl⟩⟩
  · refine (Coro.all_get_bind _).mpr ?_
    have asked : Coro.Emits (I := Calls) (fun op => ∃ query, op = .retrieve query)
        (orDefault (some <$> Coro.call (I := Calls) (.retrieve s.redactedMessage)) none :
          Action AgentState (Option RetrievalResult)) :=
      emits_orDefault ((Coro.emits_call (I := Calls) ⟨_, rfl⟩).map some)
    have same : Coro.Moves Eq
        (orDefault (some <$> Coro.call (I := Calls) (.retrieve s.redactedMessage)) none :
          Action AgentState (Option RetrievalResult)) :=
      moves_orDefault ((Coro.moves_call _).map some)
    refine ((asked s).and (same s)).bind (fun t result s' step => ?_) fun _ _ _ step =>
      ⟨step.1, nofun⟩
    obtain ⟨made, rfl⟩ := step
    cases result with
    | none =>
      exact ⟨by simpa using made, fun _ => ⟨[], [], s.context.retrievalContext, rfl⟩⟩
    | some result =>
      refine ⟨by simpa using made, fun _ => ⟨result.docs, result.docs.map Doc.citation,
        if result.context = "" then s.context.retrievalContext else some result.context, ?_⟩⟩
      dsimp only
      split <;> rfl

end

end AgentStudio.Orchestration
