import AgentStudio.Orchestration.Release

/-!
# The tool budget

`max_tool_steps` is looked at once for a whole batch: by the generation that
asks for it and by `_execute_tools` before it gathers the calls. A batch that
was let in runs whole, so the budget holds exactly of the turns whose batches
all fit in what was left of it.
-/

namespace AgentStudio.Orchestration
open Async Gateway

/-! ## What is handled -/

def ToolPart.isUse : ToolPart → Bool
  | .use _ => true
  | .result _ => false

/-- The calls taken up. `_run_one_tool` writes the call down before it goes to the
gate, so the authorised, the executed and the refused are all among them. -/
def AgentState.handled (s : AgentState) : Nat := s.toolParts.countP ToolPart.isUse

def Op.isGate : Op → Bool
  | .authorize _ => true
  | _ => false

def Op.isExecution : Op → Bool
  | .executeTool .. => true
  | _ => false

/-- The calls brought before the gate. -/
def gated (t : Run) : Nat := t.countP fun ev => ev.op.isGate

/-- The calls executed. -/
def executed (t : Run) : Nat := t.countP fun ev => ev.op.isExecution

theorem gated_append (t t' : Run) : gated (t ++ t') = gated t + gated t' := List.countP_append

theorem executed_append (t t' : Run) : executed (t ++ t') = executed t + executed t' :=
  List.countP_append

/-- A run between whose calls there is no gate and no execution. -/
def Toolless (t : Run) : Prop := gated t = 0 ∧ executed t = 0

theorem toolless_of {t : Run}
    (none_ : ∀ ev ∈ t, ev.op.isGate = false ∧ ev.op.isExecution = false) : Toolless t :=
  ⟨List.countP_eq_zero.mpr fun ev mem => by simp [(none_ ev mem).1],
    List.countP_eq_zero.mpr fun ev mem => by simp [(none_ ev mem).2]⟩

/-! ## One batch -/

/-- How far a gathered call is: taken up, past the gate, with a result. -/
def ToolPhase.taken : ToolPhase → ℤ
  | .use => 0
  | _ => 1

def ToolPhase.passed : ToolPhase → ℤ
  | .use | .authorize => 0
  | _ => 1

def ToolPhase.answered : ToolPhase → ℤ
  | .persist _ | .finished => 1
  | _ => 0

/-- A tally over the gathered calls. -/
def ToolVars.tally (f : ToolPhase → ℤ) (v : ToolVars) : ℤ := (v.calls.map fun c => f c.2).sum

theorem tally_setPhase {f : ToolPhase → ℤ} {v : ToolVars} {i : Nat} {call : ToolCall}
    {phase : ToolPhase} (here : v.calls[i]? = some (call, phase)) (phase' : ToolPhase) :
    (v.setPhase i call phase').tally f = v.tally f + (f phase' - f phase) :=
  sum_map_set (fun c : ToolCall × ToolPhase => f c.2) here (call, phase')

/-- Where one call is ahead and none is behind, the tally is ahead. -/
theorem tally_lt {f g : ToolPhase → ℤ} (le : ∀ phase, f phase ≤ g phase) {v : ToolVars} {i : Nat}
    {call : ToolCall} {phase : ToolPhase} (here : v.calls[i]? = some (call, phase))
    (lt : f phase < g phase) : v.tally f < v.tally g := by
  apply List.sum_lt_sum
  · exact fun c _ => le c.2
  · exact ⟨(call, phase), List.mem_of_getElem? here, lt⟩

theorem tally_le {f g : ToolPhase → ℤ} (le : ∀ phase, f phase ≤ g phase) (v : ToolVars) :
    v.tally f ≤ v.tally g := List.sum_le_sum fun c _ => le c.2

theorem passed_le_taken (phase : ToolPhase) : phase.passed ≤ phase.taken := by
  cases phase <;> simp [ToolPhase.passed, ToolPhase.taken]

theorem answered_le_taken (phase : ToolPhase) : phase.answered ≤ phase.taken := by
  cases phase <;> simp [ToolPhase.answered, ToolPhase.taken]

theorem counted_le_taken (phase : ToolPhase) : phase.counted ≤ phase.taken := by
  cases phase <;> simp [ToolPhase.counted, ToolPhase.taken]

theorem taken_nonneg (phase : ToolPhase) : 0 ≤ phase.taken := by
  cases phase <;> simp [ToolPhase.taken]

theorem taken_le_one (phase : ToolPhase) : phase.taken ≤ 1 := by
  cases phase <;> simp [ToolPhase.taken]

/-- The books of a batch that started from `s`, between two turns of the event
loop. -/
structure Taking (s : AgentState) (t : Run) (v : ToolVars) : Prop where
  length : v.calls.length = s.toolCalls.length
  handled : (v.state.handled : ℤ) = s.handled + v.tally ToolPhase.taken
  results : (v.state.toolResults.length : ℤ) = s.toolResults.length + v.tally ToolPhase.counted
  gate : (gated t : ℤ) ≤ v.tally ToolPhase.passed
  runs : (executed t : ℤ) ≤ v.tally ToolPhase.answered

/-- What is left of them wherever a batch of `n` calls stops. -/
structure Took (n : Nat) (s : AgentState) (t : Run) (s' : AgentState) : Prop where
  more : s.handled ≤ s'.handled
  within : s'.handled ≤ s.handled + n
  results : s'.toolResults.length + s.handled ≤ s.toolResults.length + s'.handled
  gate : gated t + s.handled ≤ s'.handled
  runs : executed t + s.handled ≤ s'.handled

theorem tally_const (v : ToolVars) : v.tally (fun _ => 1) = v.calls.length := by
  simp [ToolVars.tally]

theorem tally_nonneg {f : ToolPhase → ℤ} (nonneg : ∀ phase, 0 ≤ f phase) (v : ToolVars) :
    0 ≤ v.tally f := by
  apply List.sum_nonneg
  intro n mem
  obtain ⟨c, -, rfl⟩ := List.mem_map.mp mem
  exact nonneg c.2

/-- The books may be closed at any time, with one more call at most under way at
the gate or in the registry. -/
theorem Taking.took {s : AgentState} {t t' : Run} {v : ToolVars} (h : Taking s t v)
    (gate : (gated (t ++ t') : ℤ) ≤ v.tally ToolPhase.taken)
    (runs : (executed (t ++ t') : ℤ) ≤ v.tally ToolPhase.taken) :
    Took s.toolCalls.length s (t ++ t') v.state := by
  have length := h.length
  have handled := h.handled
  have results := h.results
  have counted := tally_le counted_le_taken v
  have most := tally_le taken_le_one v
  have nonneg := tally_nonneg taken_nonneg v
  rw [tally_const] at most
  constructor <;> omega

theorem Taking.closed {s : AgentState} {t t' : Run} {v : ToolVars} (h : Taking s t v)
    (toolless : Toolless t') : Took s.toolCalls.length s (t ++ t') v.state := by
  have gate := h.gate
  have runs := h.runs
  have passed := tally_le passed_le_taken v
  have answered := tally_le answered_le_taken v
  apply h.took
  · rw [gated_append, toolless.1]
    omega
  · rw [executed_append, toolless.2]
    omega

theorem Taking.ended {s : AgentState} {t : Run} {v : ToolVars} (h : Taking s t v) :
    Took s.toolCalls.length s t v.state := by
  have nothing : Toolless [] := ⟨rfl, rfl⟩
  simpa using h.closed nothing

theorem Taking.idle {s : AgentState} {t t' : Run} {v : ToolVars} (h : Taking s t v)
    (toolless : Toolless t') : Taking s (t ++ t') v := by
  constructor
  · exact h.length
  · exact h.handled
  · exact h.results
  · rw [gated_append, toolless.1]
    exact h.gate
  · rw [executed_append, toolless.2]
    exact h.runs

theorem taking_start (s : AgentState) : Taking s [] (gatherStart s) := by
  have none_ (f : ToolPhase → ℤ) (zero : f .use = 0) : (gatherStart s).tally f = 0 := by
    rw [ToolVars.tally, gatherStart, List.map_map]
    apply List.sum_eq_zero
    intro n mem
    obtain ⟨c, -, rfl⟩ := List.mem_map.mp mem
    exact zero
  constructor
  · simp [gatherStart]
  · rw [none_ _ rfl, add_zero]
    rfl
  · rw [none_ _ rfl, add_zero]
    rfl
  · rw [none_ _ rfl]
    rfl
  · rw [none_ _ rfl]
    rfl

/-- A call that goes on from one phase to the next. -/
theorem Taking.next {s : AgentState} {t t' : Run} {v v' : ToolVars} {i : Nat} {call : ToolCall}
    {phase : ToolPhase} (h : Taking s t v) (here : v.calls[i]? = some (call, phase))
    (phase' : ToolPhase) (calls : v'.calls = v.calls.set i (call, phase'))
    (handled : (v'.state.handled : ℤ) = v.state.handled + (phase'.taken - phase.taken))
    (results : (v'.state.toolResults.length : ℤ) =
      v.state.toolResults.length + (phase'.counted - phase.counted))
    (gate : (gated t' : ℤ) ≤ phase'.passed - phase.passed)
    (runs : (executed t' : ℤ) ≤ phase'.answered - phase.answered) : Taking s (t ++ t') v' := by
  have tally (f : ToolPhase → ℤ) : v'.tally f = v.tally f + (f phase' - f phase) := by
    rw [← tally_setPhase here, ToolVars.tally, calls]
    rfl
  constructor
  · rw [calls, List.length_set, h.length]
  · rw [handled, h.handled, tally, add_assoc]
  · rw [results, h.results, tally, add_assoc]
  · rw [gated_append, tally]
    have := h.gate
    omega
  · rw [executed_append, tally]
    have := h.runs
    omega

section
variable (svc : Service) {s : AgentState} {t : Run} {v : ToolVars}

/-- Persisting a part is neither a gate nor an execution. -/
theorem emitToolPart_toolless (part : ToolPart) (v : ToolVars) :
    (emitToolPart svc part).All v fun t _ v' => v' = v ∧ Toolless t := by
  have calls : Coro.Emits (I := Calls) (fun op => op.isGate = false ∧ op.isExecution = false)
      (emitToolPart svc part) := by
    unfold emitToolPart
    split
    · exact emits_orDefault (Coro.emits_call (I := Calls) ⟨rfl, rfl⟩)
    · exact Coro.emits_pure ()
  exact ((emitToolPart_eq svc part v).and (calls v)).mono fun _ _ _ step =>
    ⟨step.1, toolless_of step.2⟩

theorem authorizeTool_gated (call : ToolCall) (v : ToolVars) :
    (authorizeTool svc call).All v fun t _ v' => v' = v ∧ gated t ≤ 1 ∧ executed t = 0 := by
  unfold authorizeTool
  split
  · apply Coro.All.tryCatch (Ψ := fun t _ v' => v' = v ∧ gated t ≤ 1 ∧ executed t = 0)
    · exact fun _ => ⟨rfl, le_refl 1, rfl⟩
    · exact fun _ _ _ step => step
    · intro t e v' step
      split
      · rw [Coro.all_pure, List.append_nil]
        exact step
      · rw [Coro.all_throw, List.append_nil]
        exact step
  · exact ⟨rfl, Nat.zero_le 1, rfl⟩

theorem executeTool_executed (call : ToolCall) (v : ToolVars) :
    (executeTool call).All v fun t _ v' => v' = v ∧ gated t = 0 ∧ executed t ≤ 1 := by
  unfold executeTool
  split <;> exact fun _ => ⟨rfl, rfl, le_refl 1⟩

/-- What the gate moves on. -/
theorem phaseAfterGate_tallies (call : ToolCall) (allowed : Bool) :
    (phaseAfterGate call allowed).taken - ToolPhase.authorize.taken = 0 ∧
    (phaseAfterGate call allowed).counted - ToolPhase.authorize.counted = 0 ∧
    (phaseAfterGate call allowed).passed - ToolPhase.authorize.passed = 1 ∧
    0 ≤ (phaseAfterGate call allowed).answered - ToolPhase.authorize.answered := by
  unfold phaseAfterGate
  split
  · exact ⟨rfl, rfl, rfl, zero_le_one⟩
  · split
    · exact ⟨rfl, rfl, rfl, zero_le_one⟩
    · exact ⟨rfl, rfl, rfl, le_refl 0⟩

/-- One turn of one call keeps the books, and they can be closed if it raises. -/
theorem runOneTool_books (h : Taking s t v) {i : Nat} {call : ToolCall} {phase : ToolPhase}
    (here : v.calls[i]? = some (call, phase)) (running : phase ≠ .finished) :
    (runOneTool svc i call phase).All v fun t' o v' =>
      (o = .ok () → Taking s (t ++ t') v') ∧
        ∀ e, o = .error e → Took s.toolCalls.length s (t ++ t') v'.state := by
  have gate := h.gate
  have runs := h.runs
  have passed := tally_le passed_le_taken v
  have answered := tally_le answered_le_taken v
  cases phase with
  | use =>
    apply (emitToolPart_toolless svc _ v).bind
    · rintro t' _ v' ⟨rfl, toolless⟩
      refine ⟨fun _ => ?_, fun _ raised => (by cases raised)⟩
      rw [List.append_nil]
      apply h.next here .authorize rfl
      · simp [AgentState.handled, ToolPart.isUse, ToolPhase.taken]
      · simp [ToolPhase.counted]
      · simp [toolless.1, ToolPhase.passed]
      · simp [toolless.2, ToolPhase.answered]
    · rintro t' e v' ⟨rfl, toolless⟩
      exact ⟨fun done => (by cases done), fun _ _ => h.closed toolless⟩
  | authorize =>
    have ahead : v.tally ToolPhase.passed < v.tally ToolPhase.taken :=
      tally_lt passed_le_taken here (by decide)
    apply (authorizeTool_gated svc call v).bind
    · rintro t' allowed v' ⟨rfl, once, none_⟩
      obtain ⟨taken, counted, past, result⟩ := phaseAfterGate_tallies call allowed
      refine ⟨fun _ => ?_, fun _ raised => (by cases raised)⟩
      rw [List.append_nil]
      apply h.next here (phaseAfterGate call allowed) rfl
      · rw [taken, add_zero]
        rfl
      · rw [counted, add_zero]
        rfl
      · rw [past]
        exact_mod_cast once
      · rw [none_]
        exact_mod_cast result
    · rintro t' e v' ⟨rfl, once, none_⟩
      refine ⟨fun done => (by cases done), fun _ _ => h.took ?_ ?_⟩
      · rw [gated_append]
        omega
      · rw [executed_append, none_]
        omega
  | execute =>
    have ahead : v.tally ToolPhase.answered < v.tally ToolPhase.taken :=
      tally_lt answered_le_taken here (by decide)
    apply (executeTool_executed call v).bind
    · rintro t' result v' ⟨rfl, none_, once⟩
      refine ⟨fun _ => ?_, fun _ raised => (by cases raised)⟩
      rw [List.append_nil]
      apply h.next here (.persist (.of call result)) rfl
      · simp [ToolPhase.taken, ToolVars.setPhase]
      · simp [ToolPhase.counted, ToolVars.setPhase]
      · simp [none_, ToolPhase.passed]
      · simpa [ToolPhase.answered] using once
    · rintro t' e v' ⟨rfl, none_, once⟩
      refine ⟨fun done => (by cases done), fun _ _ => h.took ?_ ?_⟩
      · rw [gated_append, none_]
        omega
      · rw [executed_append]
        omega
  | persist result =>
    apply (emitToolPart_toolless svc _ v).bind
    · rintro t' _ v' ⟨rfl, toolless⟩
      refine ⟨fun _ => ?_, fun _ raised => (by cases raised)⟩
      rw [List.append_nil]
      apply h.next here .finished rfl
      · simp [AgentState.handled, ToolPart.isUse, ToolPhase.taken]
      · simp [ToolPhase.counted]
      · simp [toolless.1, ToolPhase.passed]
      · simp [toolless.2, ToolPhase.answered]
    · rintro t' e v' ⟨rfl, toolless⟩
      exact ⟨fun done => (by cases done), fun _ _ => h.closed toolless⟩
  | finished => exact absurd rfl running

/-- One turn of the event loop. -/
theorem resumeTool_books (h : Taking s t v) :
    (resumeTool svc).All v fun t' o v' =>
      match o with
      | .ok none => Taking s (t ++ t') v'
      | .ok (some ()) => Taking s (t ++ t') v' ∧ v'.running = []
      | .error _ => Took s.toolCalls.length s (t ++ t') v'.state := by
  apply (Coro.all_get_bind _).mpr
  dsimp only
  split
  · rename_i atEnd
    rw [Coro.all_pure, List.append_nil]
    exact ⟨h, atEnd⟩
  · rename_i some_
    apply (Coro.all_call_bind _ _).mpr
    constructor
    · intro chosen
      have resumed : Taking s (t ++ [⟨.schedule v.running, .ok chosen⟩]) v := h.idle ⟨rfl, rfl⟩
      obtain ⟨call, phase, here, running⟩ := mem_running (resumed_mem some_ chosen)
      apply (Coro.all_get_bind _).mpr
      rw [here]
      apply (runOneTool_books svc resumed here running).bind
      · intro t' _ v' step
        rw [Coro.all_pure, List.append_nil]
        simpa using step.1 rfl
      · intro t' e v' step
        simpa using step.2 e rfl
    · exact fun e => h.closed ⟨rfl, rfl⟩

theorem tally_of_running_nil (atEnd : v.running = []) :
    v.tally ToolPhase.taken = v.calls.length := by
  have finished := List.findIdxs_eq_nil_iff.mp atEnd
  have ones : v.calls.map (fun c => c.2.taken) = v.calls.map fun _ => (1 : ℤ) := by
    apply List.map_congr_left
    intro c mem
    have : c.2 = .finished := by simpa using finished c mem
    rw [this]
    rfl
  simp [ToolVars.tally, ones]

/-- The batch as a whole: wherever it stops the books can be closed, and when it
ends every call was taken up. -/
theorem gatherTools_books (s : AgentState) :
    (gatherTools svc s.toolCalls).All (gatherStart s) fun t o v =>
      Took s.toolCalls.length s t v.state ∧
        (o = .ok () → v.state.handled = s.handled + s.toolCalls.length) := by
  have loop := Coro.all_iterate (resumeTool svc) (fun t v => Taking s t v)
    (Φ := fun t o v => Took s.toolCalls.length s t v.state ∧
      (o = .ok (some ()) → v.state.handled = s.handled + s.toolCalls.length))
    (fun t v books => (resumeTool_books svc books).mono fun t' o v' step => by
      match o with
      | .ok none => exact step
      | .ok (some ()) =>
        have handled := step.1.handled
        rw [tally_of_running_nil step.2, step.1.length] at handled
        exact ⟨step.1.ended, fun _ => by exact_mod_cast handled⟩
      | .error e => exact ⟨step, nofun⟩)
    (fun t v books => ⟨books.ended, nofun⟩)
    (gatherFuel s.toolCalls) (taking_start s)
  apply Coro.All.bind loop
  · intro t ended v step
    cases ended with
    | none =>
      rw [Coro.all_throw, List.append_nil]
      exact ⟨step.1, nofun⟩
    | some =>
      rw [Coro.all_pure, List.append_nil]
      exact ⟨step.1, fun _ => step.2 rfl⟩
  · exact fun t e v step => ⟨step.1, nofun⟩

/-- The calls that `_execute_tools` gathers from a state. -/
def AgentState.batch (s : AgentState) : List ToolCall :=
  if s.toolCalls = [] ∨ (s.toolSteps : ℤ) ≥ svc.budgets.maxToolSteps ∨ svc.tools = none then []
  else s.toolCalls

theorem executeTools_books (s : AgentState) :
    (executeTools svc).All s fun t o s' => Took (s.batch svc).length s t s' ∧
      (o = .ok () → s'.handled = s.handled + (s.batch svc).length ∧
        s'.toolSteps = s.toolSteps + (s.batch svc).length) := by
  apply (Coro.all_get_bind _).mpr
  unfold AgentState.batch
  split
  · exact ⟨⟨le_refl _, le_refl _, le_refl _, by simp [gated, AgentState.handled],
      by simp [executed, AgentState.handled]⟩, fun _ => ⟨rfl, rfl⟩⟩
  · apply Coro.All.bind (Ψ := fun t o s' => Took s.toolCalls.length s t s' ∧
      (o = .ok () → s'.handled = s.handled + s.toolCalls.length ∧
        s'.toolSteps = s.toolSteps + s.toolCalls.length))
    · apply (Coro.all_zoom _ _ _).mpr
      apply ((gatherTools_books svc s).and (gatherTools_spec svc s)).mono
      exact fun t o v step => ⟨step.1.1, fun ended => ⟨step.1.2 ended, (step.2 ended).2⟩⟩
    · intro t _ s' step
      obtain ⟨took, whole⟩ := step
      apply (Coro.all_modify _).mpr
      rw [List.append_nil]
      exact ⟨⟨took.more, took.within, took.results, took.gate, took.runs⟩, fun _ => whole rfl⟩
    · exact fun t e s' step => ⟨step.1, nofun⟩

end

/-! ## The other nodes -/

/-- What the tools of a turn have written. -/
def AgentState.toolLog (s : AgentState) : List ToolPart × List ToolResult × Nat :=
  (s.toolParts, s.toolResults, s.toolSteps)

def SameTools (s s' : AgentState) : Prop := s'.toolLog = s.toolLog

instance : IsPreorder AgentState SameTools where
  refl _ := rfl
  trans _ _ _ h h' := h'.trans h

section
variable (svc : Service)

theorem validateOutput_sameTools : Coro.Moves SameTools (validateOutput svc) := by
  have ground_ (text : String) : Coro.Moves SameTools (ground text) := by
    apply Coro.moves_get.bind
    intro s
    dsimp only
    split
    · apply Coro.Moves.bind (Coro.moves_modify (by exact fun _ => rfl))
      exact fun _ => Coro.moves_pure _
    · apply (Coro.moves_call (I := Calls) _).bind
      intro check
      apply Coro.Moves.bind (Coro.moves_modify (by exact fun _ => rfl))
      intro _
      split <;> exact Coro.moves_pure _
  have checked (s : AgentState) (check : OutputCheck) : SameTools s (s.withOutputCheck check) := by
    unfold AgentState.withOutputCheck
    dsimp only
    split <;> rfl
  have gate (text : String) : Coro.Moves SameTools (gateOutput svc text) := by
    unfold gateOutput
    split
    · apply (moves_orDefault ((Coro.moves_call (I := Calls) _).map some)).bind
      intro answer
      cases answer with
      | none => exact Coro.moves_pure _
      | some check =>
        exact (Coro.moves_modify fun s => checked s check).bind fun _ => Coro.moves_pure _
    · exact Coro.moves_pure _
  have verdict (s : AgentState) (text : String) (found : Verdict) :
      SameTools s (s.verified svc text found) := by
    unfold AgentState.verified
    cases found with
    | valid => rfl
    | invalid reason =>
      dsimp only
      split <;> rfl
  apply Coro.moves_get.bind
  intro s
  apply Coro.Moves.bind
  · unfold verify
    split
    · exact Coro.moves_pure _
    · apply (ground_ _).bind
      intro found
      cases found with
      | valid => exact gate _
      | invalid reason => exact Coro.moves_pure _
  · exact fun found => Coro.moves_modify fun s => verdict s _ found

theorem retrieveContext_sameTools : Coro.Moves SameTools (retrieveContext svc) := by
  unfold retrieveContext
  split
  · exact Coro.moves_modify fun _ => rfl
  · apply Coro.moves_get.bind
    intro s
    apply (moves_orDefault ((Coro.moves_call (I := Calls) _).map some)).bind
    intro result
    cases result with
    | none => exact Coro.moves_modify fun _ => rfl
    | some result => exact Coro.moves_modify fun _ => rfl

theorem prepareHandoff_sameTools : Coro.Moves SameTools (prepareHandoff svc) := by
  apply Coro.Moves.bind (Coro.moves_modify (by exact fun _ => rfl))
  intro _
  split
  · apply Coro.moves_get.bind
    intro s
    apply Coro.Moves.bind
    · apply Coro.Moves.tryCatch (Coro.moves_call (I := Calls) _)
      intro e
      split
      · exact Coro.moves_pure _
      · exact Coro.moves_throw _
    · exact fun _ => Coro.moves_modify fun _ => rfl
  · exact Coro.moves_pure _

theorem policyChecked_sameTools (s : AgentState) : SameTools s (s.policyChecked svc) := by
  unfold AgentState.policyChecked
  dsimp only
  split
  · split <;> split <;> rfl
  · split <;> rfl

/-- Only `_execute_tools` handles tool calls. -/
theorem runNode_sameTools {node : Node} (other : node ≠ .executeTools) :
    Coro.Moves SameTools (runNode svc node) := by
  cases node with
  | processInput => exact Coro.moves_modify fun _ => rfl
  | retrieveContext => exact retrieveContext_sameTools svc
  | generateResponse =>
    exact fun s => (generateResponse_spec svc s).mono fun _ _ _ step =>
      step.1.same AgentState.toolLog fun _ => rfl
  | executeTools => exact absurd rfl other
  | validateOutput => exact validateOutput_sameTools svc
  | checkPolicy => exact Coro.moves_modify (policyChecked_sameTools svc)
  | prepareHandoff => exact prepareHandoff_sameTools svc

theorem makes_toolless {node : Node} (other : node ≠ .executeTools) {op : Op}
    (made : node.makes op = true) : op.isGate = false ∧ op.isExecution = false := by
  cases op with
  | authorize => cases node <;> first | exact absurd rfl other | cases made
  | executeTool => exact absurd (makes_executeTool made) other
  | _ => exact ⟨rfl, rfl⟩

/-! ## The turn -/

/-- The calls that a visit of a node lets in. -/
def Node.batch (node : Node) (s : AgentState) : Nat :=
  if node = .executeTools then (s.batch svc).length else 0

/-- A visit takes up the calls it lets in, and all of them when it comes to its end. -/
theorem runNode_books (node : Node) (s : AgentState) :
    (runNode svc node).All s fun t o s' => Took (node.batch svc s) s t s' ∧
      (o = .ok () → s'.handled = s.handled + node.batch svc s ∧
        s'.toolSteps = s.toolSteps + node.batch svc s) := by
  by_cases tools : node = .executeTools
  · subst tools
    exact executeTools_books svc s
  · rw [Node.batch, if_neg tools]
    apply ((runNode_sameTools svc tools s).and (runNode_makes svc node s)).mono
    intro t o s' step
    have parts : s'.toolParts = s.toolParts := congrArg Prod.fst step.1
    have results : s'.toolResults = s.toolResults := congrArg (·.2.1) step.1
    have steps : s'.toolSteps = s.toolSteps := congrArg (·.2.2) step.1
    have handled : s'.handled = s.handled := congrArg (List.countP ToolPart.isUse) parts
    have quiet := toolless_of fun ev mem => makes_toolless tools (step.2 ev mem)
    refine ⟨⟨?_, ?_, ?_, ?_, ?_⟩, fun _ => ⟨handled, steps⟩⟩
    · omega
    · omega
    · rw [results]
      omega
    · rw [quiet.1]
      omega
    · rw [quiet.2]
      omega

theorem Took.trans {n n' : Nat} {s s' s'' : AgentState} {t t' : Run} (h : Took n s t s')
    (h' : Took n' s' t' s'') : Took (n + n') s (t ++ t') s'' := by
  obtain ⟨more, within, results, gate, runs⟩ := h
  obtain ⟨more', within', results', gate', runs'⟩ := h'
  constructor
  · omega
  · omega
  · omega
  · rw [gated_append]
    omega
  · rw [executed_append]
    omega

theorem Took.dispatched {n : Nat} {node : Node} {s s' : AgentState} {t : Run}
    {r : Except Raised Unit} (h : Took n s t s') : Took n s (⟨.dispatch node s, r⟩ :: t) s' :=
  ⟨h.more, h.within, h.results, h.gate, h.runs⟩

theorem Took.none (s : AgentState) : Took 0 s [] s :=
  ⟨le_refl _, le_refl _, le_refl _, by simp [gated], by simp [executed]⟩

/-- The calls that a visit lets in. -/
def Visit.batch (v : Visit) : Nat := v.node.batch svc v.state

def batches (vs : List Visit) : Nat := (vs.map (Visit.batch svc)).sum

/-- The calls of the visit fit in what is left of the budget. -/
def Visit.Fits (v : Visit) : Prop :=
  v.batch svc ≠ 0 → ((v.state.toolSteps + v.batch svc : ℕ) : ℤ) ≤ svc.budgets.maxToolSteps

variable {svc} {node : Node} {s s' : AgentState} {t : Run} {o : Except Raised Bool}

/-- A run takes up the calls its visits let in, and all of them when it comes to its
end. -/
theorem walked_took (h : Walked svc node s t o s') :
    Took (batches svc (visits t)) s t s' ∧
      ∀ b, o = .ok b → s'.handled = s.handled + batches svc (visits t) := by
  induction h with
  | limit node s => exact ⟨Took.none s, fun _ _ => rfl⟩
  | refused node s e =>
    refine ⟨⟨le_refl _, ?_, le_refl _, ?_, ?_⟩, fun _ => nofun⟩
    · exact Nat.le_add_right _ _
    · simp [gated, Op.isGate]
    · simp [executed, Op.isExecution]
  | @raised node s s' t e visit =>
    have books := Coro.all_iff.mp (runNode_books svc node s) _ _ _ visit
    rw [visits_single visit]
    exact ⟨by simpa [batches, Visit.batch] using books.1.dispatched, fun _ => nofun⟩
  | @last node s s' t visit atEnd =>
    have books := Coro.all_iff.mp (runNode_books svc node s) _ _ _ visit
    rw [visits_single visit]
    exact ⟨by simpa [batches, Visit.batch] using books.1.dispatched,
      fun _ _ => by simpa [batches, Visit.batch] using (books.2 rfl).1⟩
  | @next node node' s s' s'' t t' o visit edge rest ih =>
    have books := Coro.all_iff.mp (runNode_books svc node s) _ _ _ visit
    have whole := books.2 rfl
    rw [visits_cons visit rest]
    refine ⟨(books.1.trans ih.1).dispatched, fun b ended => ?_⟩
    have later := ih.2 b ended
    simp only [batches, List.map_cons, List.sum_cons, Visit.batch] at later ⊢
    omega

/-- The batches of a run stay within the budget exactly when each fits where it is
let in. -/
theorem walked_fits (h : Walked svc node s t o s') (same : s.toolSteps = s.handled) :
    (((s.handled + batches svc (visits t) : ℕ) : ℤ) ≤ svc.budgets.maxToolSteps ↔
      (s.handled : ℤ) ≤ svc.budgets.maxToolSteps ∧ ∀ v ∈ visits t, v.Fits svc) := by
  have one (node : Node) (s : AgentState) (t : Run) (same : s.toolSteps = s.handled) :
      (((s.handled + batches svc [⟨node, s, t⟩] : ℕ) : ℤ) ≤ svc.budgets.maxToolSteps ↔
        (s.handled : ℤ) ≤ svc.budgets.maxToolSteps ∧ (⟨node, s, t⟩ : Visit).Fits svc) := by
    rw [Visit.Fits, same, batches, List.map_singleton, List.sum_singleton]
    by_cases none_ : (⟨node, s, t⟩ : Visit).batch svc = 0
    · simp [none_]
    · constructor
      · exact fun within => ⟨by omega, fun _ => within⟩
      · exact fun fits => fits.2 none_
  induction h with
  | limit node s => simp [visits, batches]
  | refused node s e => simpa [visits] using one node s [] same
  | @raised node s s' t e visit =>
    rw [visits_single visit]
    simpa using one node s t same
  | @last node s s' t visit atEnd =>
    rw [visits_single visit]
    simpa using one node s t same
  | @next node node' s s' s'' t t' o visit edge rest ih =>
    obtain ⟨-, whole⟩ := Coro.all_iff.mp (runNode_books svc node s) _ _ _ visit
    obtain ⟨handled, steps⟩ := whole rfl
    have all : s.handled + batches svc (⟨node, s, t⟩ :: visits t') =
        s'.handled + batches svc (visits t') := by
      rw [batches, List.map_cons, List.sum_cons, handled, add_assoc]
      rfl
    have here : s.handled + batches svc [⟨node, s, t⟩] = s'.handled := by
      rw [batches, List.map_singleton, List.sum_singleton, handled]
      rfl
    have later : _ ↔ _ := ih (by omega)
    rw [visits_cons visit rest, all, later, ← here, one node s t same, and_assoc,
      List.forall_mem_cons]

/-- The budget holds of every turn whose batches fit, and of a turn that comes to its
end only then. -/
theorem handled_within_budget_iff (svc : Service) (input : TurnInput) (n : Nat) :
    (walk svc n .processInput).All input.state fun t o s =>
      (gated t ≤ s.handled ∧ executed t ≤ s.handled ∧ s.toolResults.length ≤ s.handled) ∧
      (0 ≤ svc.budgets.maxToolSteps → (∀ v ∈ visits t, v.Fits svc) →
        (s.handled : ℤ) ≤ svc.budgets.maxToolSteps) ∧
      ∀ b, o = .ok b → ((s.handled : ℤ) ≤ svc.budgets.maxToolSteps ↔
        0 ≤ svc.budgets.maxToolSteps ∧ ∀ v ∈ visits t, v.Fits svc) := by
  apply (walk_walked svc n _ _).mono
  intro t o s walked
  obtain ⟨took, whole⟩ := walked_took walked
  have fits := walked_fits walked rfl
  have fresh : input.state.handled = 0 := rfl
  have empty : input.state.toolResults.length = 0 := rfl
  rw [fresh, Nat.zero_add, Nat.cast_zero] at fits
  have gate := took.gate
  have runs := took.runs
  have results := took.results
  have within := took.within
  refine ⟨⟨by omega, by omega, by omega⟩, fun positive all => ?_, fun b ended => ?_⟩
  · have := fits.mpr ⟨positive, all⟩
    omega
  · rw [whole b ended, fresh, Nat.zero_add]
    exact fits

end

/-! ## A batch that was let in -/

/-- A tenant with tools and the default budgets. -/
def equipped : Service := { tenantId := "acme", tools := some [] }

/-- A model that asks for five calls at once; the rest as scripted. -/
def eager : (op : Op) → Except Raised (Calls.Ans op)
  | .generate _ => .ok {
      content := "", model := "gpt-4", provider := "openai"
      toolCalls := some (List.replicate 5 ⟨"call", "search", .object "{}"⟩) }
  | op => scripted "" [] unfaithful op

/-- Five calls pass a budget of four: none was counted when they were let in. -/
theorem batch_over_budget : ¬ ∀ (svc : Service) (input : TurnInput) (n : Nat),
    (walk svc n .processInput).All input.state fun _ _ s =>
      (s.handled : ℤ) ≤ svc.budgets.maxToolSteps := by
  intro claim
  have within := Coro.all_iff.mp (claim equipped {} 50) _ _ _ (Coro.runs_with _ eager _)
  have five : ((walk equipped 50 .processInput).outcomeWith eager
      (TurnInput.state {})).2.handled = 5 := by decide +kernel
  rw [five] at within
  exact absurd within (by decide)

end AgentStudio.Orchestration
