import AgentStudio.Orchestration.Walk

/-!
# The graph terminates

Every way back to `generate_response` uses up something that nothing gives back:
tool steps, redact attempts, or the re-asks since the last policy check. The sum
bounds the generations of a turn by the tenant's budgets alone, whatever the
recursion limit.
-/

namespace AgentStudio.Orchestration
open Async Gateway

/-! ## What is left -/

section
variable (svc : Service)

/-- The re-asks between two policy checks. -/
def Budgets.reasks (b : Budgets) : Nat := (b.maxVerifyRetries - 1).toNat

/-- The regenerations the redact guard allows. -/
def Budgets.redacts (b : Budgets) : Nat := (b.maxRedactIterations - 1).toNat

def AgentState.toolsLeft (s : AgentState) : Nat :=
  if s.toolBudgetExhausted then 0 else (svc.budgets.maxToolSteps - s.toolSteps).toNat + 1

def AgentState.redactsLeft (s : AgentState) : Nat :=
  (svc.budgets.maxRedactIterations - 1 - s.redactAttempts).toNat

def AgentState.reasksLeft (s : AgentState) : Nat :=
  (svc.budgets.maxVerifyRetries - 1 - s.verifyRetries).toNat

/-- The generations a policy check can still lead to. Each redact brings back all
the re-asks. -/
def AgentState.afterPolicy (s : AgentState) : Nat :=
  s.toolsLeft svc + s.redactsLeft svc * (svc.budgets.reasks + 1)

/-- The generations that can still start, from a node on. -/
def generationsLeft : Node → AgentState → Nat
  | .processInput, s | .retrieveContext, s | .generateResponse, s =>
    s.afterPolicy svc + s.reasksLeft svc + 1
  | .executeTools, s | .validateOutput, s => s.afterPolicy svc + s.reasksLeft svc
  | .checkPolicy, s => s.afterPolicy svc
  | .prepareHandoff, _ => 0

/-- `execute_tools` is only reached with a call to run and a budget to run it in. -/
def Ready (node : Node) (s : AgentState) : Prop :=
  node = .executeTools → s.toolCalls ≠ [] ∧ s.CallsTools svc

/-- What a visit leaves behind, against what it found. -/
structure Progress (node node' : Node) (s s' : AgentState) : Prop where
  ready : Ready svc node' s'
  left : generationsLeft svc node' s' + (if node = .generateResponse then 1 else 0) ≤
    generationsLeft svc node s
  exhausted : s.toolBudgetExhausted = true → s'.toolBudgetExhausted = true

variable {svc}
variable {s s' : AgentState} {t : Run} {node' : Node}

variable (svc) in
theorem reasksLeft_le (s : AgentState) : s.reasksLeft svc ≤ svc.budgets.reasks := by
  unfold AgentState.reasksLeft Budgets.reasks
  omega

variable (svc) in
theorem toolsLeft_le (steps : s'.toolSteps = s.toolSteps)
    (exhausted : s.toolBudgetExhausted = true → s'.toolBudgetExhausted = true) :
    s'.toolsLeft svc ≤ s.toolsLeft svc := by
  unfold AgentState.toolsLeft
  rw [steps]
  grind

theorem generate_progress (visit : (generateResponse svc).Runs s t (.ok ()) s') :
    Progress svc .generateResponse (routeAfterGenerate s') s s' := by
  obtain ⟨kept, -, live⟩ := Coro.all_iff.mp (generateResponse_spec svc s) t _ s' visit
  have tools := toolsLeft_le svc (kept.same AgentState.toolSteps fun _ => rfl)
    kept.exhausted
  have redacts : s'.redactsLeft svc = s.redactsLeft svc := by
    rw [AgentState.redactsLeft, kept.same AgentState.redactAttempts fun _ => rfl]
    rfl
  have reasks : s'.reasksLeft svc = s.reasksLeft svc := by
    rw [AgentState.reasksLeft, kept.same AgentState.verifyRetries fun _ => rfl]
    rfl
  have left : s'.afterPolicy svc + s'.reasksLeft svc ≤ s.afterPolicy svc + s.reasksLeft svc := by
    rw [AgentState.afterPolicy, AgentState.afterPolicy, redacts, reasks]
    omega
  unfold routeAfterGenerate
  split
  · rename_i calls
    exact ⟨fun _ => ⟨calls, live rfl⟩, by simpa [generationsLeft] using left, kept.exhausted⟩
  · exact ⟨nofun, by simpa [generationsLeft] using left, kept.exhausted⟩

theorem executeTools_progress (ready : Ready svc .executeTools s)
    (visit : (executeTools svc).Runs s t (.ok ()) s') :
    Progress svc .executeTools .generateResponse s s' := by
  obtain ⟨calls, live⟩ := ready rfl
  obtain ⟨fresh, within⟩ := live calls
  obtain ⟨-, rfl⟩ | ⟨-, -, parts, results, rfl⟩ :=
    Coro.all_iff.mp (executeTools_spec svc s) t _ s' visit rfl
  · refine ⟨nofun, ?_, fun _ => rfl⟩
    simp only [generationsLeft, AgentState.afterPolicy, AgentState.toolsLeft,
      AgentState.redactsLeft, AgentState.reasksLeft, fresh, if_true, reduceCtorEq, Bool.false_eq_true,
      if_false]
    omega
  · refine ⟨nofun, ?_, fun h => h⟩
    have some_ := List.length_pos_iff.mpr calls
    simp [generationsLeft, AgentState.afterPolicy, AgentState.toolsLeft, AgentState.redactsLeft,
      AgentState.reasksLeft, fresh]
    omega

variable (svc) in
/-- How a verification moves the counters. -/
theorem verified_counters (base : AgentState) (text : String) (verdict : Verdict) :
    ((base.verified svc text verdict).validationResult.map (·.valid) = some true ∧
      (base.verified svc text verdict).verifyRetries = 0) ∨
    ((base.verified svc text verdict).validationResult.map (·.valid) = some false ∧
      (base.verified svc text verdict).verifyRetries = base.verifyRetries + 1 ∧
      ((base.verified svc text verdict).verifyExhausted = true ∨
        ((base.verifyRetries + 1 : ℕ) : ℤ) < svc.budgets.maxVerifyRetries)) := by
  cases verdict with
  | valid => exact .inl ⟨rfl, rfl⟩
  | invalid reason =>
    right
    unfold AgentState.verified
    dsimp only
    split
    · exact ⟨rfl, rfl, .inl rfl⟩
    · rename_i more
      exact ⟨rfl, rfl, .inr (by simpa using more)⟩

theorem validateOutput_progress (visit : (validateOutput svc).Runs s t (.ok ()) s') :
    Progress svc .validateOutput (routeAfterValidate s') s s' := by
  obtain ⟨base, text, verdict, rfl, frame⟩ :=
    (Coro.all_iff.mp (validateOutput_spec svc s) t _ s' visit rfl).base
  have same {α : Type} (field : AgentState → α) (output : ∀ s, field s.sansOutput = field s) :
      field base = field s := by rw [← output, frame, output]
  have kept {α : Type} (field : AgentState → α) (output : ∀ s, field s.sansOutput = field s)
      (verdict_ : ∀ s, field s.sansVerdict = field s) :
      field (base.verified svc text verdict) = field s := by
    rw [verified_field base text verdict field verdict_, same field output]
  have exhausted := kept AgentState.toolBudgetExhausted (fun _ => rfl) fun _ => rfl
  have policy : (base.verified svc text verdict).afterPolicy svc = s.afterPolicy svc :=
    kept (AgentState.afterPolicy svc) (fun _ => rfl) fun _ => rfl
  have retries : base.verifyRetries = s.verifyRetries := same AgentState.verifyRetries fun _ => rfl
  have counters := verified_counters svc base text verdict
  rw [retries] at counters
  generalize base.verified svc text verdict = s' at *
  unfold routeAfterValidate
  obtain ⟨valid, -⟩ | ⟨invalid, again, atEnd⟩ := counters
  · rw [valid, Option.getD_some, if_pos rfl]
    exact ⟨nofun, by simp [generationsLeft, policy], by rw [exhausted]; exact id⟩
  · rw [invalid, Option.getD_some, if_neg Bool.false_ne_true]
    split
    · exact ⟨nofun, by simp [generationsLeft], by rw [exhausted]; exact id⟩
    · rename_i more
      have within := atEnd.resolve_left more
      refine ⟨nofun, ?_, by rw [exhausted]; exact id⟩
      simp only [generationsLeft, policy, AgentState.reasksLeft, again, reduceCtorEq, if_false]
      omega

variable (svc) in
/-- How a policy check moves the counters. -/
theorem policyChecked_counters (s : AgentState) :
    (s.policyChecked svc).toolSteps = s.toolSteps ∧
    (s.policyChecked svc).toolBudgetExhausted = s.toolBudgetExhausted ∧
    ((s.policyChecked svc).policyAction = .redact →
      (s.policyChecked svc).redactAttempts = s.redactAttempts + 1) := by
  unfold AgentState.policyChecked
  dsimp only
  split
  · split <;> split <;> exact ⟨rfl, rfl, fun _ => rfl⟩
  · rename_i other
    split <;> exact ⟨rfl, rfl, fun redact => absurd redact other⟩

theorem checkPolicy_progress (visit : (checkPolicy svc).Runs s t (.ok ()) s')
    (edge : nextNode svc s' .checkPolicy = some node') :
    Progress svc .checkPolicy node' s s' := by
  obtain rfl : s' = s.policyChecked svc :=
    Coro.all_iff.mp (show (checkPolicy svc).All s fun _ _ s' => s' = s.policyChecked svc from rfl)
      t _ s' visit
  obtain ⟨steps, exhausted, redacts⟩ := policyChecked_counters svc s
  have tools := toolsLeft_le svc steps (by rw [exhausted]; exact id)
  generalize s.policyChecked svc = s' at *
  have kept : s.toolBudgetExhausted = true → s'.toolBudgetExhausted = true := by
    rw [exhausted]
    exact id
  simp only [nextNode] at edge
  cases exit_ : routeAfterPolicy svc s' with
  | allow => simp [exit_] at edge
  | block =>
    obtain rfl : Node.prepareHandoff = node' := by simpa [exit_] using edge
    exact ⟨nofun, by simp [generationsLeft], kept⟩
  | escalate =>
    obtain rfl : Node.prepareHandoff = node' := by simpa [exit_] using edge
    exact ⟨nofun, by simp [generationsLeft], kept⟩
  | redact =>
    obtain rfl : Node.generateResponse = node' := by simpa [exit_] using edge
    obtain ⟨action, within⟩ : s'.policyAction = .redact ∧
        (s'.redactAttempts : ℤ) < svc.budgets.maxRedactIterations := by
      unfold routeAfterPolicy at exit_
      grind
    refine ⟨nofun, ?_, kept⟩
    have attempts := redacts action
    have reasks := reasksLeft_le svc s'
    have fewer : s'.redactsLeft svc + 1 ≤ s.redactsLeft svc := by
      unfold AgentState.redactsLeft
      omega
    have product := Nat.mul_le_mul_right (svc.budgets.reasks + 1) fewer
    simp only [generationsLeft, AgentState.afterPolicy, reduceCtorEq, if_false]
    rw [Nat.add_mul, Nat.one_mul] at product
    omega

theorem visit_progress {node : Node} (ready : Ready svc node s)
    (visit : (runNode svc node).Runs s t (.ok ()) s')
    (edge : nextNode svc s' node = some node') : Progress svc node node' s s' := by
  cases node with
  | processInput =>
    obtain rfl : Node.retrieveContext = node' := Option.some.inj edge
    obtain rfl : s' = { s with context := {} } := Coro.all_iff.mp
      (show processInput.All s fun _ _ s' => s' = { s with context := {} } from rfl) t _ s' visit
    exact ⟨nofun, le_refl _, fun h => h⟩
  | retrieveContext =>
    obtain rfl : Node.generateResponse = node' := Option.some.inj edge
    obtain ⟨docs, citations, context, rfl⟩ :=
      (Coro.all_iff.mp (retrieveContext_spec svc s) t _ s' visit).2 rfl
    exact ⟨nofun, le_refl _, fun h => h⟩
  | generateResponse =>
    obtain rfl := Option.some.inj edge
    exact generate_progress visit
  | executeTools =>
    obtain rfl := Option.some.inj edge
    exact executeTools_progress ready visit
  | validateOutput =>
    obtain rfl := Option.some.inj edge
    exact validateOutput_progress visit
  | checkPolicy => exact checkPolicy_progress visit edge
  | prepareHandoff => cases edge

end

/-! ## The loops of the nodes have fuel enough -/

section
variable (svc : Service)

/-- The call handed over the mark of an exhausted loop: nothing outside the model has
it to hand over. -/
def BlamedForFuel (ev : Ev) : Prop :=
  ev.reply = .error .outOfFuel ∨
    ∃ request events, ev = ⟨.stream request, .ok (.events events (some .outOfFuel))⟩

/-- No loop of `c` runs out of fuel. -/
abbrev Total {σ α : Type} (c : Action σ α) (s : σ) : Prop :=
  Coro.Relays (I := Calls) BlamedForFuel .outOfFuel c s

theorem total_orDefault {σ α : Type} {c : Action σ α} {a : α} {s : σ}
    (h : Total c s) : Total (orDefault c a) s := by
  refine h.tryCatch fun e s' other => ?_
  split
  · exact Coro.relays_pure a
  · exact Coro.relays_throw other

theorem compactWith_total (assembled : Option Assembled) (overflow : Bool) (v : GenVars) :
    Total (compactWith assembled overflow) v := by
  refine Coro.relays_get.bind fun _ _ => (Coro.relays_call (.inl rfl)).bind fun checkpoint _ => ?_
  cases checkpoint with
  | none => exact Coro.relays_pure false
  | some summary => exact (Coro.relays_modify _).bind fun _ _ => Coro.relays_pure true

theorem assembleOrRecover_total (prompt : String) (v : GenVars) :
    Total (assembleOrRecover svc prompt) v := by
  have assemble : Total (assembleContext svc prompt) v := by
    refine Coro.Relays.bind ?_ fun _ _ => Coro.relays_get.bind fun _ _ => Coro.relays_call (.inl rfl)
    unfold retrieveFacts
    split
    · exact Coro.relays_get.bind fun _ _ => total_orDefault (Coro.relays_call (.inl rfl))
    · exact Coro.relays_pure []
  refine (assemble.map some).tryCatch fun e v' other => ?_
  split
  · refine Coro.relays_get.bind fun _ _ => ?_
    split
    · exact Coro.relays_throw other
    · refine (Coro.relays_modify _).bind fun _ _ =>
        (compactWith_total none true _).bind fun made _ => ?_
      split
      · exact Coro.relays_pure none
      · exact Coro.relays_throw other
  · exact Coro.relays_throw other

theorem preempt_total (assembled : Assembled) (v : GenVars) :
    Total (preempt svc assembled) v := by
  refine Coro.relays_get.bind fun _ _ => ?_
  split
  · refine (compactWith_total (some assembled) false _).bind fun made _ => ?_
    split
    · exact (Coro.relays_modify _).bind fun _ _ => Coro.relays_pure true
    · exact Coro.relays_pure false
  · exact Coro.relays_pure false

theorem forward_total (events : List StreamEvent) (acc : StreamAcc) (v : GenVars) :
    Total (forward events acc) v := by
  induction events generalizing acc v with
  | nil => exact Coro.relays_pure acc
  | cons ev rest ih =>
    rw [forward]
    split
    · split
      · exact ih acc v
      · exact (Coro.relays_modify _).bind fun _ _ => (Coro.relays_post _).bind fun _ _ => ih _ _
    · exact ih _ v
    · exact ih _ v
    · exact ih _ v
    · exact ih _ v
    · refine Coro.relays_throw ?_
      unfold streamError
      split <;> (intro fuel; cases fuel)
    · exact ih _ v

theorem generateStreaming_total (request : Request) (v : GenVars) :
    Total (generateStreaming svc request) v := by
  refine (Coro.all_call_bind _ _).mpr ⟨fun reply => ?_, fun e raised => ?_⟩
  · cases reply with
    | coroutine => exact nofun
    | events events ending =>
      refine Coro.All.bind (forward_total events {} v) (fun t acc v' _ => ?_)
        fun t e v' step raised => ?_
      · cases ending with
        | some e =>
          intro raised
          cases raised
          exact ⟨_, List.mem_cons_self, .inr ⟨request, events, rfl⟩⟩
        | none =>
          dsimp only
          split
          · exact nofun
          · split
            · exact nofun
            · exact nofun
      · obtain ⟨ev, mem, own⟩ := step (by cases raised; rfl)
        exact ⟨ev, List.mem_cons_of_mem _ mem, own⟩
  · cases raised
    exact ⟨_, List.mem_cons_self, .inl rfl⟩

theorem callOrRecover_total (request : Request) (assembled : Assembled) (v : GenVars) :
    Total (callOrRecover svc request assembled) v := by
  have call : Total (callGateway svc request) v := by
    unfold callGateway
    split
    · refine (generateStreaming_total svc request v).tryCatch fun e v' other => ?_
      split
      · refine Coro.relays_get.bind fun _ _ => ?_
        split
        · exact Coro.relays_throw other
        · exact (Coro.relays_modify _).bind fun _ _ => Coro.relays_call (.inl rfl)
      · exact Coro.relays_throw other
    · exact Coro.relays_call (.inl rfl)
  refine (call.map some).tryCatch fun e v' other => Coro.relays_get.bind fun _ _ => ?_
  split
  · refine (Coro.relays_modify _).bind fun _ _ =>
      (compactWith_total (some assembled) true _).bind fun made _ => ?_
    split
    · exact Coro.relays_pure none
    · exact Coro.relays_throw other
  · exact Coro.relays_throw other

theorem generationRound_total (prompt : String) (v : GenVars) :
    Total (generationRound svc prompt) v := by
  refine (assembleOrRecover_total svc prompt v).bind fun assembled _ => ?_
  cases assembled with
  | none => exact Coro.relays_pure none
  | some assembled =>
    refine (preempt_total svc assembled _).bind fun early _ => ?_
    split
    · exact Coro.relays_pure none
    · refine Coro.relays_get.bind fun _ _ => (Coro.relays_call (.inl rfl)).bind fun _ _ =>
        (Coro.relays_modify _).bind fun _ _ => (callOrRecover_total svc _ assembled _).bind
          fun response _ => ?_
      cases response with
      | none => exact Coro.relays_pure none
      | some response =>
        refine Coro.relays_get.bind fun v _ => ?_
        dsimp only
        split
        · exact (Coro.relays_modify _).bind fun _ _ => Coro.relays_pure none
        · exact (Coro.relays_modify _).bind fun _ _ => Coro.relays_pure _

/-- The loop of a generation ends within its rounds. -/
theorem generateResponse_total (s : AgentState) : Total (generateResponse svc) s := by
  refine Coro.Relays.zoom (Coro.Relays.tryCatch (Coro.Relays.bind ?prompt fun prompt v =>
    (Coro.relays_modify _).bind fun _ v' => ?loop) fun e v other => ?handler)
  case prompt =>
    unfold buildSystemPrompt
    split
    · exact (total_orDefault (Coro.relays_call (.inl rfl))).bind fun _ _ => Coro.relays_pure _
    · exact Coro.relays_pure _
  case loop =>
    have round := Coro.Relays.iterate (generationRound_total svc prompt) generationFuel v'
    refine Coro.All.bind (round.and (generation_loop_total svc prompt v'))
      (fun t ended v₂ step => ?_) fun t e v₂ step raised => step.1 (by cases raised; rfl)
    cases ended with
    | none => exact absurd rfl step.2.1
    | some =>
      refine (Coro.all_get_bind _).mpr ?_
      obtain ⟨response, found⟩ := Option.isSome_iff_exists.mp (step.2.2 rfl)
      rw [found]
      have usage : Total (recordUsage svc response) { v₂ with state := { v₂.state with
          modelResponse := some response.content
          confidence := estimateConfidence response.content } } := by
        unfold recordUsage
        split
        · exact Coro.relays_get.bind fun _ _ => total_orDefault (Coro.relays_call (.inl rfl))
        · exact Coro.relays_pure _
      refine (Coro.all_modify_bind _ _).mpr (usage.mono fun t' _ _ step' raised => ?_)
      obtain ⟨ev, mem, own⟩ := step' raised
      exact ⟨ev, List.mem_append_right t mem, own⟩
  case handler =>
    split
    · exact Coro.relays_throw other
    · split
      · exact Coro.relays_modify _
      · exact Coro.relays_throw other

theorem runOneTool_total (i : Nat) (call : ToolCall) (phase : ToolPhase) (v : ToolVars) :
    Total (runOneTool svc i call phase) v := by
  have emit (part : ToolPart) (v : ToolVars) : Total (emitToolPart svc part) v := by
    unfold emitToolPart
    split
    · exact total_orDefault (Coro.relays_call (.inl rfl))
    · exact Coro.relays_pure ()
  cases phase with
  | use => exact (emit _ v).bind fun _ _ => Coro.relays_modify _
  | authorize =>
    refine Coro.Relays.bind ?_ fun _ _ => Coro.relays_modify _
    unfold authorizeTool
    split
    · exact total_orDefault (Coro.relays_call (.inl rfl))
    · exact Coro.relays_pure _
  | execute =>
    refine Coro.Relays.bind ?_ fun _ _ => Coro.relays_modify _
    unfold executeTool
    split <;> exact Coro.relays_call (.inl rfl)
  | persist result => exact (emit _ v).bind fun _ _ => Coro.relays_modify _
  | finished => exact Coro.relays_pure ()

theorem resumeTool_total (v : ToolVars) : Total (resumeTool svc) v := by
  refine Coro.relays_get.bind fun v _ => ?_
  dsimp only
  split
  · exact Coro.relays_pure _
  · refine (Coro.relays_call (.inl rfl)).bind fun chosen _ => Coro.relays_get.bind fun v _ => ?_
    split
    · exact (runOneTool_total svc _ _ _ _).bind fun _ _ => Coro.relays_pure _
    · exact Coro.relays_pure _

/-- The gathered calls all finish within four steps each. -/
theorem executeTools_total (s : AgentState) : Total (executeTools svc) s := by
  have ends := Coro.iterate_total (resumeTool svc) (Gathering s) (fun v => v.left.toNat)
    (fun v inv => (resumeTool_spec svc inv).mono fun _ _ v' step again => by
      have := left_nonneg v'
      obtain ⟨gathering, less⟩ := step.1 again
      exact ⟨gathering, by omega⟩)
    (gatherFuel s.toolCalls) (gathering_start s) (by
      rw [gatherStart_left, gatherFuel]
      omega)
  have loop := Coro.Relays.iterate (resumeTool_total svc) (gatherFuel s.toolCalls) (gatherStart s)
  have gather : Total (gatherTools svc s.toolCalls) (gatherStart s) := by
    refine Coro.All.bind (loop.and ends) (fun t ended v step => ?_)
      fun t e v step raised => step.1 (by cases raised; rfl)
    cases ended with
    | none => exact absurd rfl step.2
    | some => exact nofun
  refine (Coro.all_get_bind _).mpr ?_
  split
  · exact Coro.relays_modify _
  · exact gather.zoom.bind fun _ _ => Coro.relays_modify _

theorem validateOutput_total (s : AgentState) : Total (validateOutput svc) s := by
  have ground_ (text : String) (s : AgentState) : Total (ground text) s := by
    refine Coro.relays_get.bind fun _ _ => ?_
    dsimp only
    split
    · exact (Coro.relays_modify _).bind fun _ _ => Coro.relays_pure _
    · refine (Coro.relays_call (.inl rfl)).bind fun check _ =>
        (Coro.relays_modify _).bind fun _ _ => ?_
      split <;> exact Coro.relays_pure _
  have gate (text : String) (s : AgentState) : Total (gateOutput svc text) s := by
    unfold gateOutput
    split
    · refine (total_orDefault ((Coro.relays_call (.inl rfl)).map some)).bind fun answer _ => ?_
      cases answer with
      | none => exact Coro.relays_pure _
      | some check => exact (Coro.relays_modify _).bind fun _ _ => Coro.relays_pure _
    · exact Coro.relays_pure _
  refine Coro.relays_get.bind fun _ _ => Coro.Relays.bind ?_ fun _ _ => Coro.relays_modify _
  unfold verify
  split
  · exact Coro.relays_pure _
  · refine (ground_ _ _).bind fun verdict _ => ?_
    cases verdict with
    | valid => exact gate _ _
    | invalid reason => exact Coro.relays_pure _

theorem retrieveContext_total (s : AgentState) : Total (retrieveContext svc) s := by
  unfold retrieveContext
  split
  · exact Coro.relays_modify _
  · refine Coro.relays_get.bind fun _ _ =>
      (total_orDefault ((Coro.relays_call (.inl rfl)).map some)).bind fun result _ => ?_
    cases result with
    | none => exact Coro.relays_modify _
    | some result => exact Coro.relays_modify _

theorem runNode_total (node : Node) (s : AgentState) : Total (runNode svc node) s := by
  cases node with
  | processInput => exact Coro.relays_modify _
  | retrieveContext => exact retrieveContext_total svc s
  | generateResponse => exact generateResponse_total svc s
  | executeTools => exact executeTools_total svc s
  | validateOutput => exact validateOutput_total svc s
  | checkPolicy => exact Coro.relays_modify _
  | prepareHandoff =>
    refine (Coro.relays_modify _).bind fun _ _ => ?_
    split
    · refine Coro.relays_get.bind fun _ _ =>
        (Coro.Relays.tryCatch (Coro.relays_call (.inl rfl)) fun e _ other => ?_).bind
          fun _ _ => Coro.relays_modify _
      split
      · exact Coro.relays_pure _
      · exact Coro.relays_throw other
    · exact Coro.relays_pure _

theorem walk_total (n : Nat) (node : Node) (s : AgentState) : Total (walk svc n node) s := by
  induction n generalizing node s with
  | zero => exact Coro.relays_pure false
  | succ n ih =>
    refine Coro.relays_get.bind fun _ _ => (Coro.relays_call (.inl rfl)).bind fun _ s =>
      (runNode_total svc node s).bind fun _ _ => Coro.relays_get.bind fun s' _ => ?_
    cases nextNode svc s' node with
    | none => exact Coro.relays_pure true
    | some node' => exact ih node' _

end

/-! ## The bounds -/

section
variable {svc : Service}

/-- How many of the visits are to `generate_response`. -/
def generations (vs : List Visit) : Nat := vs.countP fun v => v.node = .generateResponse

/-- The visits between two generations, and before the first. -/
def Node.steps : Node → Nat
  | .processInput => 2
  | .retrieveContext | .executeTools | .prepareHandoff => 1
  | .generateResponse => 0
  | .validateOutput => 3
  | .checkPolicy => 2

variable (svc) in
/-- A visit of the last node of a run costs what is left there. -/
theorem visit_costs (node : Node) (s : AgentState) :
    (if node = .generateResponse then 1 else 0) ≤ generationsLeft svc node s ∧
      1 ≤ node.steps + 4 * generationsLeft svc node s := by
  cases node <;> refine ⟨by simp [generationsLeft], ?_⟩ <;>
    simp only [generationsLeft, Node.steps] <;> omega

theorem edge_steps {s : AgentState} {node node' : Node} (edge : nextNode svc s node = some node') :
    node'.steps + 1 ≤ node.steps + 4 * (if node = .generateResponse then 1 else 0) := by
  cases node with
  | processInput => obtain rfl := Option.some.inj edge; decide
  | retrieveContext => obtain rfl := Option.some.inj edge; decide
  | generateResponse =>
    obtain rfl := Option.some.inj edge
    unfold routeAfterGenerate
    split <;> decide
  | executeTools => obtain rfl := Option.some.inj edge; decide
  | validateOutput =>
    obtain rfl := Option.some.inj edge
    unfold routeAfterValidate
    split
    · decide
    · split <;> decide
  | checkPolicy =>
    simp only [nextNode] at edge
    split at edge
    · cases edge
    · obtain rfl := Option.some.inj edge; decide
    · obtain rfl := Option.some.inj edge; decide
    · obtain rfl := Option.some.inj edge; decide
  | prepareHandoff => cases edge

/-- Along any run: the generations and the visits are paid for, and the spent tool
budget stays spent. -/
structure Bounded (svc : Service) (node : Node) (s : AgentState) (vs : List Visit) : Prop where
  generations : generations vs ≤ generationsLeft svc node s
  visits : vs.length ≤ node.steps + 4 * generationsLeft svc node s
  ready : ∀ v ∈ vs, Ready svc v.node v.state
  exhausted : s.toolBudgetExhausted = true → ∀ v ∈ vs, v.state.toolBudgetExhausted = true
  spent : vs.Pairwise fun v v' =>
    v.state.toolBudgetExhausted = true → v'.state.toolBudgetExhausted = true

theorem bounded_single {node : Node} {s : AgentState} (ready : Ready svc node s) (t : Run) :
    Bounded svc node s [⟨node, s, t⟩] := by
  obtain ⟨generation, step⟩ := visit_costs svc node s
  refine ⟨?_, by simpa using step, by simpa using ready, by simp, List.pairwise_singleton _ _⟩
  simpa [generations, List.countP_cons] using generation

theorem walked_bounded {node : Node} {s s' : AgentState} {t : Run} {o : Except Raised Bool}
    (h : Walked svc node s t o s') (ready : Ready svc node s) :
    Bounded svc node s (visits t) := by
  induction h with
  | limit node s => exact ⟨by simp [visits, generations], by simp [visits], by simp [visits],
      by simp [visits], List.Pairwise.nil⟩
  | refused node s e => exact bounded_single ready []
  | raised visit =>
    rw [visits_single visit]
    exact bounded_single ready _
  | last visit atEnd =>
    rw [visits_single visit]
    exact bounded_single ready _
  | @next node node' s s' s'' t t' o visit edge rest ih =>
    have progress := visit_progress ready visit edge
    have steps := edge_steps edge
    have tail := ih progress.ready
    rw [visits_cons visit rest]
    refine ⟨?_, ?_, ?_, ?_, ?_⟩
    · have count : generations (⟨node, s, t⟩ :: visits t') =
          generations (visits t') + if node = .generateResponse then 1 else 0 := by
        simp [generations, List.countP_cons]
      rw [count]
      exact (Nat.add_le_add_right tail.generations _).trans progress.left
    · rw [List.length_cons]
      have := tail.visits
      have := progress.left
      omega
    · simpa using ⟨ready, tail.ready⟩
    · simpa using fun spent => ⟨spent, tail.exhausted (progress.exhausted spent)⟩
    · exact List.pairwise_cons.mpr ⟨fun v mem spent =>
        tail.exhausted (progress.exhausted spent) v mem, tail.spent⟩

/-- Running into the recursion limit takes as many visits. -/
theorem walk_limit (n : Nat) (node : Node) (s : AgentState) :
    (walk svc n node).All s fun t o _ => o = .ok false → (visits t).length = n := by
  induction n generalizing node s with
  | zero => exact fun _ => rfl
  | succ n ih =>
    refine (Coro.all_get_bind _).mpr ?_
    refine (Coro.all_call_bind _ _).mpr ⟨fun _ => ?_, fun e => nofun⟩
    have visited : (runNode svc node).All s ((runNode svc node).Runs s) :=
      Coro.all_iff.mpr fun _ _ _ visit => visit
    refine visited.bind (fun t _ s' visit => ?_) fun _ _ _ _ => nofun
    refine (Coro.all_get_bind _).mpr ?_
    cases edge : nextNode svc s' node with
    | none => exact nofun
    | some node' =>
      refine ((ih node' s').and (walk_walked svc n node' s')).mono fun t' o s'' rest limit => ?_
      rw [visits_cons visit rest.2, List.length_cons, rest.1 limit]

/-- Each visit is a run of its node, or never began. -/
theorem walked_visits {node : Node} {s s' : AgentState} {t : Run} {o : Except Raised Bool}
    (h : Walked svc node s t o s') : ∀ v ∈ visits t,
      v.calls = [] ∨ ∃ o s', (runNode svc v.node).Runs v.state v.calls o s' := by
  induction h with
  | limit => simp [visits]
  | refused => simp [visits]
  | raised visit =>
    rw [visits_single visit]
    simpa using .inr ⟨_, _, visit⟩
  | last visit atEnd =>
    rw [visits_single visit]
    simpa using .inr ⟨_, _, visit⟩
  | next visit edge rest ih =>
    rw [visits_cons visit rest]
    simpa using ⟨.inr ⟨_, _, visit⟩, ih⟩

/-- A tool was executed in this visit. -/
def Visit.RunsTool (v : Visit) : Prop :=
  ∃ ev ∈ v.calls, ∃ name arguments, ev.op = .executeTool name arguments

theorem visit_modelCalls {v : Visit}
    (visit : v.calls = [] ∨ ∃ o s', (runNode svc v.node).Runs v.state v.calls o s') :
    modelCalls v.calls ≤ 4 := by
  rcases visit with none_ | ⟨o, s', visit⟩
  · simp [none_, modelCalls]
  · by_cases generate : v.node = .generateResponse
    · rw [generate] at visit
      exact (Coro.all_iff.mp (generateResponse_spec svc v.state) _ _ _ visit).2.1
    · have none_ : modelCalls v.calls = 0 := List.countP_eq_zero.mpr fun ev mem asks =>
        generate (makes_asksModel (made_by visit mem) asks)
      omega

theorem visit_runsTool {v : Visit} (ready : Ready svc v.node v.state)
    (visit : v.calls = [] ∨ ∃ o s', (runNode svc v.node).Runs v.state v.calls o s')
    (runs : v.RunsTool) : v.node = .executeTools ∧ v.state.toolBudgetExhausted = false := by
  obtain ⟨ev, mem, name, arguments, op⟩ := runs
  rcases visit with none_ | ⟨o, s', visit⟩
  · simp [none_] at mem
  · have tools : v.node = .executeTools := makes_executeTool (op ▸ made_by visit mem)
    obtain ⟨calls, live⟩ := ready tools
    exact ⟨tools, (live calls).1⟩

/-! ## Termination -/

/-- The generations of a turn: one, one for each tool step and for the tool-less
answer, and for each redact and at the start the re-asks. -/
def Budgets.maxGenerations (b : Budgets) : Nat :=
  b.maxToolSteps.toNat + 2 + b.redacts * (b.reasks + 1) + b.reasks

/-- The visits of a turn. -/
def Budgets.maxVisits (b : Budgets) : Nat := 2 + 4 * b.maxGenerations

variable (svc) in
theorem generationsLeft_start (input : TurnInput) :
    generationsLeft svc .processInput input.state = svc.budgets.maxGenerations := by
  simp [generationsLeft, AgentState.afterPolicy, AgentState.toolsLeft, AgentState.redactsLeft,
    AgentState.reasksLeft, Budgets.maxGenerations, Budgets.redacts, Budgets.reasks, TurnInput.state]
  omega

/-- Whatever the environment does and whatever the recursion limit `n` is: the
generations of a turn are bounded by the three budgets, each visit makes at most
four model calls, no tool runs once the tool budget is spent, and a limit above the
bound on visits is never reached. -/
theorem graph_terminates (svc : Service) (input : TurnInput) (n : Nat) :
    (walk svc n .processInput).All input.state fun t o _ =>
      generations (visits t) ≤ svc.budgets.maxGenerations ∧
      (visits t).length ≤ svc.budgets.maxVisits ∧
      (svc.budgets.maxVisits < n → o ≠ .ok false) ∧
      (o = .error .outOfFuel → ∃ ev ∈ t, BlamedForFuel ev) ∧
      (∀ v ∈ visits t, modelCalls v.calls ≤ 4 ∧
        (v.RunsTool → v.node = .executeTools ∧ v.state.toolBudgetExhausted = false)) ∧
      (visits t).Pairwise fun v v' => v.state.toolBudgetExhausted = true → ¬ v'.RunsTool := by
  refine (((walk_walked svc n _ _).and (walk_limit n _ _)).and (walk_total svc n _ _)).mono
    fun t o s ⟨⟨walked, limit⟩, total⟩ => ?_
  have bounded := walked_bounded walked nofun
  have visited := walked_visits walked
  have tools (v : Visit) (mem : v ∈ visits t) := visit_runsTool (bounded.ready v mem) (visited v mem)
  have many := bounded.visits
  rw [generationsLeft_start] at many
  refine ⟨generationsLeft_start svc input ▸ bounded.generations, many, ?_, total, ?_, ?_⟩
  · intro above atEnd
    rw [limit atEnd] at many
    exact absurd many (not_le.mpr above)
  · exact fun v mem => ⟨visit_modelCalls (visited v mem), tools v mem⟩
  · refine bounded.spent.imp_of_mem fun {v v'} _ mem' spent exhausted runs => ?_
    have fresh := (tools v' mem' runs).2
    rw [spent exhausted] at fresh
    cases fresh

end

end AgentStudio.Orchestration
