import AgentStudio.Async.Observe
import AgentStudio.Governance.ToolGate
import AgentStudio.Orchestration.Visits

/-!
# What the gate lets through

The orchestration's tool calls, from the batch the model asked for down to the
executors: the gate's decision is carried up by the authorizer, and the execution
down by the registry. Counted one by one, the executors started in a batch are among
its calls that the gate permits.
-/

namespace AgentStudio.Governance
open Async Orchestration
open Gateway (ToolCall)

/-! ## Executions -/

/-- The executor a call asks for. -/
def execution (call : ToolCall) : Option (String × String) :=
  match call.arguments with
  | .object json => some (call.name, json)
  | .malformed _ => none

/-- The executors that the gate permits of a batch, one for each of its calls. -/
def ToolAuthorizationGate.permitted (gate : ToolAuthorizationGate) (calls : List ToolCall) :
    List (String × String) := (calls.filter gate.permits).filterMap execution

/-- The execution a call of the service asks the registry for. -/
def asked : Op → Option (String × String)
  | .executeTool name arguments => some (name, arguments)
  | _ => none

/-- The executors a run of the service asks the registry for. -/
def executions (t : Run) : List (String × String) := t.filterMap fun ev => asked ev.op

def started : WireOp → Option (String × String)
  | .tool name arguments => some (name, arguments)
  | _ => none

/-- The executors started. -/
def starts (d : WireRun) : List (String × String) := d.filterMap fun ev => started ev.op

/-- An authorizer that answers as the gate does, if it answers. -/
def Gated (gate : ToolAuthorizationGate) : Ev → Prop
  | ⟨.authorize call, .ok allowed⟩ => allowed = gate.permits call
  | _ => True

/-- The executions so far. -/
def noteExecution (g : List (String × String)) (ev : Ev) : List (String × String) :=
  g ++ (asked ev.op).toList

theorem foldl_noteExecution (g : List (String × String)) (t : Run) :
    t.foldl noteExecution g = g ++ executions t := by
  induction t generalizing g with
  | nil => simp [executions]
  | cons ev t ih =>
    rw [List.foldl_cons, ih, noteExecution, List.append_assoc, executions, executions,
      List.filterMap_cons]
    cases asked ev.op <;> rfl

/-- In every run whose authorizer answers as the gate does, `c` ends as `Q` says of the
executions so far. -/
abbrev Executing {σ α : Type} (gate : ToolAuthorizationGate) (c : Action σ α)
    (g : List (String × String)) (v : σ) (Q : List (String × String) → Except Raised α → σ → Prop) :
    Prop := c.Ends (Gated gate) noteExecution g v Q

theorem executing_modify {σ : Type} {gate : ToolAuthorizationGate} {f : σ → σ}
    {g : List (String × String)} {v : σ}
    {Q : List (String × String) → Except Raised PUnit → σ → Prop} (h : Q g (.ok ()) (f v)) :
    Executing gate (modify f) g v Q := fun _ => h

/-! ## A batch as its tasks run it

`asyncio.gather` raises what the first of its tasks raises, and leaves the others
running. -/

/-- One turn of the event loop, with what the call it resumes does. -/
def resumeWith (body : Nat → ToolCall → ToolPhase → Action ToolVars Unit) :
    Action ToolVars (Option Unit) := do
  let running := (← get).running
  if running = [] then pure (some ())
  else
    let chosen ← Coro.call (I := Calls) (.schedule running)
    let i := if chosen ∈ running then chosen else running.headD 0
    match (← get).calls[i]? with
    | some (call, phase) =>
      body i call phase
      pure none
    | none => pure (some ())

theorem resumeTool_eq (svc : Service) : resumeTool svc = resumeWith (runOneTool svc) := rfl

/-- A call whose task ends where it raises, and not the others' with it. -/
def runTask (svc : Service) (i : Nat) (call : ToolCall) (phase : ToolPhase) : Action ToolVars Unit :=
  tryCatch (runOneTool svc i call phase) fun _ => modify fun v => v.setPhase i call .finished

/-- The tasks of a batch, each to its own end. -/
def toolTasks (svc : Service) (calls : List ToolCall) : Action ToolVars (Option Unit) :=
  Coro.iterate (resumeWith (runTask svc)) (gatherFuel calls)

/-! ## The books of a batch -/

/-- One where a call may have been executed, and is to be. -/
def spent (gate : ToolAuthorizationGate) (p : String × String) (c : ToolCall × ToolPhase) : ℤ :=
  match c.2 with
  | .persist _ | .finished => if gate.permits c.1 ∧ execution c.1 = some p then 1 else 0
  | _ => 0

/-- Between two turns of the event loop: what is about to run is permitted, and what
was run belongs to calls that are past it. -/
structure Within (gate : ToolAuthorizationGate) (calls : List ToolCall)
    (g : List (String × String)) (v : ToolVars) : Prop where
  same : v.calls.map Prod.fst = calls
  passed : ∀ call, (call, ToolPhase.execute) ∈ v.calls →
    gate.permits call = true ∧ ∃ p, execution call = some p
  most : ∀ p, (g.count p : ℤ) ≤ (v.calls.map (spent gate p)).sum

theorem spent_nonneg (gate : ToolAuthorizationGate) (p : String × String) (c : ToolCall × ToolPhase) :
    0 ≤ spent gate p c := by
  unfold spent
  split
  · split <;> decide
  · split <;> decide
  · decide

theorem spent_le (gate : ToolAuthorizationGate) (p : String × String) (c : ToolCall × ToolPhase) :
    spent gate p c ≤ if gate.permits c.1 ∧ execution c.1 = some p then 1 else 0 := by
  unfold spent
  split
  · exact le_rfl
  · exact le_rfl
  · split <;> decide

theorem count_permitted (gate : ToolAuthorizationGate) (calls : List ToolCall)
    (p : String × String) : ((gate.permitted calls).count p : ℤ) =
      (calls.map fun call => if gate.permits call ∧ execution call = some p then (1 : ℤ) else 0).sum := by
  induction calls with
  | nil => rfl
  | cons call calls ih =>
    rw [List.map_cons, List.sum_cons, ← ih, ToolAuthorizationGate.permitted,
      ToolAuthorizationGate.permitted]
    by_cases permits : gate.permits call = true
    · rw [List.filter_cons_of_pos permits, List.filterMap_cons]
      cases runs : execution call with
      | none => simp
      | some q =>
        by_cases same : q = p
        · simp [permits, same, add_comm]
        · simp [same]
    · rw [List.filter_cons_of_neg permits, if_neg fun h => permits h.1, zero_add]

namespace Within

variable {gate : ToolAuthorizationGate} {calls : List ToolCall} {g g' : List (String × String)}
  {v v' : ToolVars} {i : Nat} {call : ToolCall} {phase : ToolPhase}

/-- The executions are among what the gate permits, each at most as often. -/
theorem subperm (h : Within gate calls g v) : g.Subperm (gate.permitted calls) := by
  rw [List.subperm_ext_iff]
  intro p _
  have most := h.most p
  have all : (v.calls.map (spent gate p)).sum ≤ ((gate.permitted calls).count p : ℤ) := by
    rw [count_permitted, ← h.same, List.map_map]
    exact List.sum_le_sum fun c _ => spent_le gate p c
  omega

theorem start (s : AgentState) : Within gate s.toolCalls [] (gatherStart s) := by
  constructor
  · simp [gatherStart, Function.comp_def]
  · intro call mem
    simp [gatherStart] at mem
  · intro p
    rw [gatherStart, List.map_map]
    simp only [List.count_nil, Nat.cast_zero]
    apply List.sum_nonneg
    intro n mem
    obtain ⟨c, -, rfl⟩ := List.mem_map.mp mem
    exact spent_nonneg gate p _

/-- A call goes on to another phase. -/
theorem advance (h : Within gate calls g v) (here : v.calls[i]? = some (call, phase))
    (phase' : ToolPhase) (set_ : v'.calls = v.calls.set i (call, phase'))
    (passed : phase' = .execute → gate.permits call = true ∧ ∃ p, execution call = some p)
    (most : ∀ p, (g'.count p : ℤ) - g.count p ≤ spent gate p (call, phase') - spent gate p (call, phase)) :
    Within gate calls g' v' := by
  constructor
  · rw [set_, ← h.same, List.map_set]
    apply set_here
    rw [List.getElem?_map, here]
    rfl
  · intro other mem
    rw [set_] at mem
    rcases List.mem_or_eq_of_mem_set mem with old | new
    · exact h.passed other old
    · cases new
      exact passed rfl
  · intro p
    rw [set_, sum_map_set (spent gate p) here (call, phase')]
    have := h.most p
    have := most p
    omega

/-- A call that is over. -/
theorem close (h : Within gate calls g v) (here : v.calls[i]? = some (call, phase))
    (same : v'.calls = v.calls) : Within gate calls g (v'.setPhase i call .finished) := by
  apply h.advance here .finished
  · rw [← same]
    rfl
  · exact nofun
  · intro p
    have := spent_le gate p (call, phase)
    simp only [sub_self, spent] at this ⊢
    omega

end Within

/-! ## One turn of the event loop -/

section
variable {svc : Service} {gate : ToolAuthorizationGate} {calls : List ToolCall}
  {g : List (String × String)} {v : ToolVars} {i : Nat} {call : ToolCall} {phase : ToolPhase}

/-- Persisting a part executes nothing. -/
theorem emitToolPart_executing (part : ToolPart) :
    Executing gate (emitToolPart svc part) g v fun g' _ v' => g' = g ∧ v' = v := by
  have calls : Coro.Emits (I := Calls) (fun op => asked op = none) (emitToolPart svc part) := by
    unfold emitToolPart
    split
    · exact emits_orDefault (Coro.emits_call (I := Calls) rfl)
    · exact Coro.emits_pure ()
  have unseen : Executing gate (emitToolPart svc part) g v fun g' _ _ => g' = g :=
    Coro.Ends.unseen (fun op none_ g r => by simp [noteExecution, none_]) calls
  exact unseen.and (Coro.Ends.of_all (emitToolPart_eq svc part v))

/-- The gate is asked, and a failing authorizer denies. -/
theorem authorizeTool_executing (wired : svc.hasAuthorizer = true) :
    Executing gate (authorizeTool svc call) g v fun g' o v' =>
      g' = g ∧ v' = v ∧ (o = .ok true → gate.permits call = true) := by
  unfold authorizeTool
  rw [if_pos wired]
  apply Coro.Ends.tryCatch (Q := fun g' o v' =>
    g' = g ∧ v' = v ∧ (o = .ok true → gate.permits call = true))
  · apply Coro.Ends.call
    intro r answered
    refine ⟨by simp [noteExecution, asked], rfl, ?_⟩
    rintro rfl
    exact answered.symm
  · exact fun _ _ _ step => step
  · rintro g' e v' ⟨rfl, rfl, -⟩
    split
    · exact .pure ⟨rfl, rfl, fun denied => by cases denied⟩
    · exact .throw ⟨rfl, rfl, fun denied => by cases denied⟩

theorem executeTool_executing {p : String × String} (runs : execution call = some p) :
    Executing gate (executeTool call) g v fun g' _ v' => g' = g ++ [p] ∧ v' = v := by
  unfold execution at runs
  unfold executeTool
  cases arguments : call.arguments with
  | malformed raw => simp [arguments] at runs
  | object json =>
    obtain rfl : (call.name, json) = p := by simpa [arguments] using runs
    exact .call fun r _ => ⟨rfl, rfl⟩

/-- What follows the gate runs only what is permitted. -/
theorem phaseAfterGate_passed {allowed : Bool} (permits : allowed = true → gate.permits call = true)
    (run : phaseAfterGate call allowed = .execute) :
    gate.permits call = true ∧ ∃ p, execution call = some p := by
  unfold phaseAfterGate at run
  cases allowed with
  | false => simp at run
  | true =>
    refine ⟨permits rfl, ?_⟩
    cases arguments : call.arguments with
    | malformed raw => simp [arguments] at run
    | object json => exact ⟨(call.name, json), by simp [execution, arguments]⟩

/-- A turn of one call keeps the books. If it raises they are kept without it. -/
theorem runOneTool_executing (wired : svc.hasAuthorizer = true) (h : Within gate calls g v)
    (here : v.calls[i]? = some (call, phase)) (running : phase ≠ .finished) :
    Executing gate (runOneTool svc i call phase) g v fun g' o v' =>
      match o with
      | .ok _ => Within gate calls g' v'
      | .error _ => Within gate calls g' (v'.setPhase i call .finished) := by
  -- before the execution nothing is spent, so any phase may follow
  have free {g' : List (String × String)} {v' : ToolVars} (phase' : ToolPhase) (same : g' = g)
      (set_ : v'.calls = v.calls.set i (call, phase'))
      (passed : phase' = .execute → gate.permits call = true ∧ ∃ p, execution call = some p)
      (unspent : ∀ p, spent gate p (call, phase) ≤ spent gate p (call, phase')) :
      Within gate calls g' v' := by
    apply h.advance here phase' set_ passed
    intro p
    have := unspent p
    rw [same]
    omega
  cases phase with
  | use =>
    apply (emitToolPart_executing _).bind
    · rintro g' _ v' ⟨rfl, rfl⟩
      apply executing_modify
      exact free .authorize rfl rfl nofun fun p => le_rfl
    · rintro g' e v' ⟨rfl, rfl⟩
      exact h.close here rfl
  | authorize =>
    apply (authorizeTool_executing wired).bind
    · rintro g' allowed v' ⟨rfl, rfl, permits⟩
      apply executing_modify
      apply free (phaseAfterGate call allowed) rfl rfl
      · exact phaseAfterGate_passed fun yes => permits (by rw [yes])
      · exact fun p => spent_nonneg gate p _
    · rintro g' e v' ⟨rfl, rfl, -⟩
      exact h.close here rfl
  | execute =>
    obtain ⟨permits, p, runs⟩ := h.passed call (List.mem_of_getElem? here)
    have run (phase' : ToolPhase) (v' : ToolVars) (set_ : v'.calls = v.calls.set i (call, phase'))
        (past : ∀ q, spent gate q (call, phase') =
          if gate.permits call ∧ execution call = some q then 1 else 0)
        (other : phase' ≠ .execute) : Within gate calls (g ++ [p]) v' := by
      apply h.advance here phase' set_ fun same => absurd same other
      intro q
      rw [past q, List.count_append]
      by_cases same : p = q
      · simp [permits, runs, same, spent]
      · simp [runs, same, spent]
    apply (executeTool_executing runs).bind
    · rintro g' result v' ⟨rfl, rfl⟩
      apply executing_modify
      exact run (.persist (.of call result)) _ rfl (fun _ => rfl) nofun
    · rintro g' e v' ⟨rfl, rfl⟩
      exact run .finished _ rfl (fun _ => rfl) nofun
  | persist result =>
    apply (emitToolPart_executing _).bind
    · rintro g' _ v' ⟨rfl, rfl⟩
      apply executing_modify
      exact free .finished rfl rfl nofun fun p => le_rfl
    · rintro g' e v' ⟨rfl, rfl⟩
      exact h.close here rfl
  | finished => exact absurd rfl running

theorem runTask_executing (wired : svc.hasAuthorizer = true) (h : Within gate calls g v)
    (here : v.calls[i]? = some (call, phase)) (running : phase ≠ .finished) :
    Executing gate (runTask svc i call phase) g v fun g' _ v' => Within gate calls g' v' := by
  apply (runOneTool_executing wired h here running).tryCatch
  · exact fun g' _ v' step => step
  · exact fun g' e v' step => executing_modify step

/-- One turn of the event loop, whose exceptions leave the books as they should be
without the call. -/
theorem resumeWith_executing {body : Nat → ToolCall → ToolPhase → Action ToolVars Unit}
    (turn : ∀ {i : Nat} {call : ToolCall} {phase : ToolPhase}, v.calls[i]? = some (call, phase) →
      phase ≠ .finished → Executing gate (body i call phase) g v fun g' o v' =>
        match o with
        | .ok _ => Within gate calls g' v'
        | .error _ => g'.Subperm (gate.permitted calls))
    (h : Within gate calls g v) :
    Executing gate (resumeWith body) g v fun g' o v' =>
      match o with
      | .ok _ => Within gate calls g' v'
      | .error _ => g'.Subperm (gate.permitted calls) := by
  apply Coro.Ends.get_bind
  dsimp only
  split
  · exact .pure h
  · rename_i some_
    apply Coro.Ends.call_bind
    · intro chosen _
      have noted : noteExecution g ⟨.schedule v.running, .ok chosen⟩ = g := List.append_nil g
      rw [noted]
      obtain ⟨call, phase, here, running⟩ := mem_running (resumed_mem some_ chosen)
      apply Coro.Ends.get_bind
      rw [here]
      apply (turn here running).bind
      · exact fun g' _ v' step => .pure step
      · exact fun g' e v' step => step
    · intro e _
      have noted : noteExecution g ⟨.schedule v.running, .error e⟩ = g := List.append_nil g
      rw [noted]
      exact h.subperm

/-- Any number of turns of the event loop. -/
theorem iterate_executing {body : Nat → ToolCall → ToolPhase → Action ToolVars Unit}
    (turn : ∀ {g : List (String × String)} {v : ToolVars} {i : Nat} {call : ToolCall}
      {phase : ToolPhase}, Within gate calls g v → v.calls[i]? = some (call, phase) →
      phase ≠ .finished → Executing gate (body i call phase) g v fun g' o v' =>
        match o with
        | .ok _ => Within gate calls g' v'
        | .error _ => g'.Subperm (gate.permitted calls))
    (n : Nat) (h : Within gate calls g v) :
    Executing gate (Coro.iterate (resumeWith body) n) g v fun g' _ _ =>
      g'.Subperm (gate.permitted calls) := by
  apply Coro.Ends.iterate (Within gate calls) _ _ n h
  · intro g v h
    apply (resumeWith_executing (turn h) h).mono
    intro g' o v' step
    match o with
    | .ok none => exact step
    | .ok (some ()) => exact step.subperm
    | .error e => exact step
  · exact fun g v h => h.subperm

/-- A batch, wherever it stops, has executed what the gate permits of its calls, each at
most once. -/
theorem gatherTools_executing (wired : svc.hasAuthorizer = true) (s : AgentState) :
    Executing gate (gatherTools svc s.toolCalls) [] (gatherStart s) fun g _ _ =>
      g.Subperm (gate.permitted s.toolCalls) := by
  unfold gatherTools
  rw [resumeTool_eq]
  apply (iterate_executing _ _ (.start s)).bind
  · intro g ended v step
    cases ended with
    | none => exact .throw step
    | some _ => exact .pure step
  · exact fun g e v step => step
  · intro g v i call phase h here running
    apply (runOneTool_executing wired h here running).mono
    intro g' o v' step
    cases o with
    | ok _ => exact step
    | error e => exact step.subperm

/-- So have its tasks, when each of them has come to its end. -/
theorem toolTasks_executing (wired : svc.hasAuthorizer = true) (s : AgentState) :
    Executing gate (toolTasks svc s.toolCalls) [] (gatherStart s) fun g _ _ =>
      g.Subperm (gate.permitted s.toolCalls) := by
  apply iterate_executing _ _ (.start s)
  intro g v i call phase h here running
  apply (runTask_executing wired h here running).mono
  intro g' o v' step
  cases o with
  | ok _ => exact step
  | error e => exact step.subperm

theorem executeTools_executing (wired : svc.hasAuthorizer = true) (s : AgentState) :
    Executing gate (executeTools svc) [] s fun g _ _ => g.Subperm (gate.permitted s.toolCalls) := by
  apply Coro.Ends.get_bind
  split
  · exact executing_modify (List.nil_subperm)
  · have zoomed : Executing gate (Coro.zoom gatherStart ToolVars.state (gatherTools svc s.toolCalls))
        [] s fun g _ _ => g.Subperm (gate.permitted s.toolCalls) :=
      (Coro.all_zoom _ _ _).mpr (gatherTools_executing wired s)
    apply zoomed.bind
    · exact fun g _ v step => executing_modify step
    · exact fun g e v step => step

end

/-! ## The turn and what is below it -/

/-- What a route hands the service: the authorizer, and a registry. -/
structure Wiring where
  ids : EvidenceIds
  gate : ToolAuthorizationGate
  registry : ToolRegistry

/-- The service as a route builds it. -/
def governed (svc : Service) : Service :=
  { svc with hasAuthorizer := true }

/-- What becomes of each call of the service. -/
def Wiring.below (w : Wiring) : (op : Op) → Tree Wire Raised (Except Raised (Calls.Ans op)) :=
  Orchestration.below (fun call => (toolAuthorizer w.ids w.gate call).tree ()) w.registry

/-- At most the executor asked for is started. -/
theorem execute_starts (registry : ToolRegistry) (name json : String) :
    (registry.execute name (.object json)).All () fun d _ _ =>
      (starts d).Sublist [(name, json)] ∧ ∀ ev ∈ d, ∃ n a, ev.op = .tool n a := by
  unfold ToolRegistry.execute
  have nothing : (starts []).Sublist [(name, json)] := List.nil_sublist _
  split
  · exact ⟨nothing, fun _ mem => by cases mem⟩
  · split
    · exact ⟨nothing, fun _ mem => by cases mem⟩
    · have one (d : WireRun) (r : Except Raised Outcome) :
          (starts [⟨.tool name json, r⟩]).Sublist [(name, json)] ∧
            ∀ ev ∈ ([⟨.tool name json, r⟩] : WireRun), ∃ n a, ev.op = .tool n a :=
        ⟨List.Sublist.refl _, fun ev mem => ⟨name, json, by rw [List.mem_singleton.mp mem]⟩⟩
      apply Coro.All.tryCatch (Ψ := fun d _ _ => (starts d).Sublist [(name, json)] ∧
        ∀ ev ∈ d, ∃ n a, ev.op = .tool n a)
      · apply Coro.All.map (Ψ := fun d _ _ => (starts d).Sublist [(name, json)] ∧
          ∀ ev ∈ d, ∃ n a, ev.op = .tool n a)
        · exact fun r => one [] r
        · exact fun _ _ _ step => step
        · exact fun _ _ _ step => step
      · exact fun _ _ _ step => step
      · intro d e _ step
        split
        · rw [Coro.all_pure, List.append_nil]
          exact step
        · rw [Coro.all_throw, List.append_nil]
          exact step
    · exact ⟨nothing, fun _ mem => by cases mem⟩

/-- Starts a node of the graph. -/
def starting : WireOp → Bool
  | .service op => op.isDispatch
  | _ => false

section
variable {w : Wiring} {op : Op} {d : WireRun} {r : Except Raised (Calls.Ans op)}

/-- The authorizer answers as the gate does, if it answers, and stores evidence only. -/
theorem below_authorize {call : ToolCall} {r : Except Raised Bool}
    (run : (w.below (.authorize call)).Runs d r) :
    Gated w.gate ⟨.authorize call, r⟩ ∧ ∀ ev ∈ d, ev.op.isEvidence = true := by
  obtain ⟨_, run⟩ := Coro.runs_tree.mp run
  obtain ⟨evidence, answers⟩ := Coro.all_iff.mp (toolAuthorizer_spec w.ids w.gate call) _ _ _ run
  refine ⟨?_, evidence⟩
  cases r with
  | ok allowed => exact answers allowed rfl
  | error e => trivial

/-- An executor is started for an execution asked for, once. -/
theorem below_starts (run : (w.below op).Runs d r) : (starts d).Sublist (asked op).toList := by
  cases op with
  | authorize call =>
    have evidence := (below_authorize run).2
    have none_ : starts d = [] := by
      apply List.filterMap_eq_nil_iff.mpr
      intro ev mem
      have := evidence ev mem
      cases kind : ev.op with
      | tool => simp [kind, WireOp.isEvidence] at this
      | _ => rfl
    rw [none_]
    exact List.nil_sublist _
  | executeTool name json =>
    obtain ⟨_, run⟩ := Coro.runs_tree.mp run
    exact (Coro.all_iff.mp (execute_starts w.registry name json) _ _ _ run).1
  | _ =>
    rw [(below_plain rfl).mp run]
    exact List.nil_sublist _

/-- Below a call that starts no node, none is started. -/
theorem below_quiet (quiet : op.isDispatch = false) (run : (w.below op).Runs d r) :
    ∀ ev ∈ d, starting ev.op = false := by
  cases op with
  | authorize call =>
    intro ev mem
    have := (below_authorize run).2 ev mem
    cases kind : ev.op with
    | service => simp [kind, WireOp.isEvidence] at this
    | _ => rfl
  | executeTool name json =>
    obtain ⟨_, run⟩ := Coro.runs_tree.mp run
    intro ev mem
    obtain ⟨n, a, is⟩ := (Coro.all_iff.mp (execute_starts w.registry name json) _ _ _ run).2 ev mem
    rw [is]
    rfl
  | _ =>
    intro ev mem
    rw [(below_plain rfl).mp run] at mem
    rw [List.mem_singleton.mp mem]
    exact quiet

/-- What the runs of the calls of `t` start is among what `t` asks for. -/
theorem starts_handled {t : Run} {ds : List WireRun} (handled : Tree.Handled w.below t ds) :
    (starts ds.flatten).Sublist (executions t) := by
  induction handled with
  | nil => exact List.Sublist.refl _
  | @cons ev d t ds first rest ih =>
    have split_ : executions (ev :: t) = (asked ev.op).toList ++ executions t := by
      rw [executions, List.filterMap_cons]
      cases asked ev.op <;> rfl
    rw [List.flatten_cons, starts, List.filterMap_append, split_]
    exact (below_starts first).append ih

/-- Below the service's calls the authorizer answers as the gate does. -/
theorem gated_handled {t : Run} {ds : List WireRun} (handled : Tree.Handled w.below t ds) :
    ∀ ev ∈ t, Gated w.gate ev := by
  induction handled with
  | nil => exact fun _ mem => by cases mem
  | @cons ev d t ds first rest ih =>
    intro ev' mem
    rcases List.mem_cons.mp mem with rfl | mem
    · obtain ⟨op, r⟩ := ev'
      cases op with
      | authorize call => exact (below_authorize first).1
      | _ => trivial
    · exact ih ev' mem

end

/-! ## The visits, seen from below -/

structure WireVisit where
  node : Node
  state : AgentState
  calls : WireRun

/-- The visits of a run of the graph, with the runs of all they call. -/
def wireVisits : WireRun → List WireVisit
  | [] => []
  | ⟨.service (.dispatch node s), _⟩ :: rest =>
    ⟨node, s, rest.takeWhile fun ev => !starting ev.op⟩ :: wireVisits rest
  | _ :: rest => wireVisits rest

/-- The executors that a visit may start. -/
def WireVisit.permitted (gate : ToolAuthorizationGate) (v : WireVisit) : List (String × String) :=
  if v.node = .executeTools then gate.permitted v.state.toolCalls else []

theorem wireVisits_append_quiet {d : WireRun} (quiet : ∀ ev ∈ d, starting ev.op = false)
    (d' : WireRun) : wireVisits (d ++ d') = wireVisits d' := by
  induction d with
  | nil => rfl
  | cons ev d ih =>
    have here := quiet ev List.mem_cons_self
    have rest := ih fun ev mem => quiet ev (List.mem_cons_of_mem _ mem)
    obtain ⟨op, r⟩ := ev
    cases op with
    | service op => cases op <;> first | exact rest | cases here
    | _ => exact rest

/-- Every executor is started before the first visit or in one of the visits. -/
theorem starts_visits (d : WireRun) : starts d =
    starts (d.takeWhile fun ev => !starting ev.op) ++
      (wireVisits d).flatMap fun v => starts v.calls := by
  induction d with
  | nil => rfl
  | cons ev d ih =>
    have other (quiet : starting ev.op = false) (same : wireVisits (ev :: d) = wireVisits d) :
        starts (ev :: d) = starts ((ev :: d).takeWhile fun ev => !starting ev.op) ++
          (wireVisits (ev :: d)).flatMap fun v => starts v.calls := by
      rw [List.takeWhile_cons_of_pos (by simp [quiet]), same]
      have one (d : WireRun) : starts (ev :: d) = (started ev.op).toList ++ starts d := by
        rw [starts, List.filterMap_cons]
        cases started ev.op <;> rfl
      rw [one, one, ih, List.append_assoc]
    obtain ⟨op, r⟩ := ev
    cases op with
    | service op =>
      cases op with
      | dispatch node s => exact ih
      | _ => exact other rfl rfl
    | _ => exact other rfl rfl

section
variable {w : Wiring} {t : Run} {ds : List WireRun}

/-- Up to the next visit, above and below. -/
theorem takeWhile_handled (handled : Tree.Handled w.below t ds) :
    ∃ ds', Tree.Handled w.below (t.takeWhile fun ev : Ev => !ev.op.isDispatch) ds' ∧
      (ds.flatten.takeWhile fun ev => !starting ev.op) = ds'.flatten := by
  induction handled with
  | nil => exact ⟨[], .nil, rfl⟩
  | @cons ev d t ds first rest ih =>
    by_cases quiet : ev.op.isDispatch = false
    · obtain ⟨ds', handled, same⟩ := ih
      refine ⟨d :: ds', ?_, ?_⟩
      · rw [List.takeWhile_cons_of_pos (by simp [quiet])]
        exact .cons first handled
      · rw [List.flatten_cons, List.takeWhile_append_of_pos, same, List.flatten_cons]
        intro ev mem
        simp [below_quiet quiet first ev mem]
    · rw [Bool.not_eq_false] at quiet
      refine ⟨[], ?_, ?_⟩
      · rw [List.takeWhile_cons_of_neg (by simp [quiet])]
        exact .nil
      · obtain ⟨op, r⟩ := ev
        cases op with
        | dispatch node s =>
          rw [(below_plain rfl).mp first, List.flatten_cons]
          rfl
        | _ => cases quiet

/-- The visits below are those above. -/
theorem visits_handled (handled : Tree.Handled w.below t ds) :
    ∀ below ∈ wireVisits ds.flatten, ∃ v ∈ visits t, v.node = below.node ∧ v.state = below.state ∧
      ∃ ds', Tree.Handled w.below v.calls ds' ∧ below.calls = ds'.flatten := by
  induction handled with
  | nil => exact fun _ mem => by cases mem
  | @cons ev d t ds first rest ih =>
    by_cases quiet : ev.op.isDispatch = false
    · rw [List.flatten_cons, wireVisits_append_quiet (below_quiet quiet first)]
      obtain ⟨op, r⟩ := ev
      cases op with
      | dispatch node s => cases quiet
      | _ => exact ih
    · rw [Bool.not_eq_false] at quiet
      obtain ⟨op, r⟩ := ev
      cases op with
      | dispatch node s =>
        rw [(below_plain rfl).mp first, List.flatten_cons]
        intro below mem
        rcases List.mem_cons.mp mem with rfl | mem
        · exact ⟨_, List.mem_cons_self, rfl, rfl, takeWhile_handled rest⟩
        · obtain ⟨v, mem, step⟩ := ih below mem
          exact ⟨v, List.mem_cons_of_mem _ mem, step⟩
      | _ => cases quiet

end

/-! ## Every turn -/

theorem executions_eq_nil {t : Run} (none_ : ∀ ev ∈ t, asked ev.op = none) : executions t = [] :=
  List.filterMap_eq_nil_iff.mpr none_

/-- A visit asks for what the gate permits of its batch, and no other asks for any. -/
theorem visit_executions {svc : Service} {gate : ToolAuthorizationGate} {node : Node}
    {s s' : AgentState} {t : Run} {o : Except Raised Unit} (wired : svc.hasAuthorizer = true)
    (visit : (runNode svc node).Runs s t o s') (gated : ∀ ev ∈ t, Gated gate ev) :
    (executions t).Subperm (if node = .executeTools then gate.permitted s.toolCalls else []) := by
  by_cases tools : node = .executeTools
  · subst tools
    have books := Coro.all_iff.mp (executeTools_executing wired s) _ _ _ visit gated
    rw [foldl_noteExecution, List.nil_append] at books
    rw [if_pos rfl]
    exact books
  · have none_ : executions t = [] := by
      apply executions_eq_nil
      intro ev mem
      have made := made_by visit mem
      cases kind : ev.op with
      | executeTool name arguments =>
        rw [kind] at made
        exact absurd (makes_executeTool made) tools
      | _ => rfl
    rw [none_]
    exact List.nil_subperm

/-- For every service built with the gate, every registry and every turn: executors are
started in visits of `execute_tools` only, and those of a visit are, one for one, calls
of its batch that are named, enabled for the tenant, on the surface's allowlist, and have
a JSON object for arguments. So are those that the tasks of a batch start when one of
them has raised. -/
theorem executors_authorized (svc : Service) (w : Wiring) (input : TurnInput) :
    (((processMessage (governed svc) input).tree ()).handle w.below).All (fun d _ =>
      (starts d = (wireVisits d).flatMap fun v => starts v.calls) ∧
        ∀ v ∈ wireVisits d, (starts v.calls).Subperm (v.permitted w.gate)) ∧
    ∀ s : AgentState, (((toolTasks (governed svc) s.toolCalls).tree (gatherStart s)).handle
      w.below).All fun d _ => (starts d).Subperm (w.gate.permitted s.toolCalls) := by
  constructor
  · apply (Tree.all_iff _ _).mpr
    intro d o run
    obtain ⟨t, ds, above, handled, rfl⟩ := (Tree.runs_handle _).mp run
    obtain ⟨_, turn⟩ := Coro.runs_tree.mp above
    constructor
    · obtain ⟨walked, reported, o', s, rfl, chain, evidence⟩ :=
        Coro.all_iff.mp (processMessage_chain (governed svc) input) _ _ _ turn
      obtain ⟨ds', handled', same⟩ := takeWhile_handled handled
      have none_ : executions ((walked ++ reported).takeWhile fun ev : Ev => !ev.op.isDispatch) = [] := by
        apply executions_eq_nil
        intro ev mem
        rcases chain.head with rfl | ⟨r, rest, rfl⟩
        · obtain ⟨record, is⟩ := evidence ev ((List.takeWhile_sublist _).mem mem)
          rw [is]
          rfl
        · rw [List.cons_append, List.takeWhile_cons_of_neg (by simp [Op.isDispatch])] at mem
          cases mem
      have before := starts_handled handled'
      rw [none_, List.sublist_nil] at before
      rw [starts_visits, same, before, List.nil_append]
    · intro below mem
      obtain ⟨v, mem, node, state, ds', handled', calls⟩ := visits_handled handled below mem
      obtain ⟨own, q, split_, evidence, visit⟩ :=
        Coro.all_iff.mp (turn_visits (governed svc) input) _ _ _ turn v mem
      have late : executions q = [] := by
        apply executions_eq_nil
        intro ev mem
        obtain ⟨record, is⟩ := evidence ev mem
        rw [is]
        rfl
      have asks : (executions v.calls).Subperm (below.permitted w.gate) := by
        rw [split_, executions, List.filterMap_append]
        change (executions own ++ executions q).Subperm _
        rw [late, List.append_nil, WireVisit.permitted, ← node, ← state]
        rcases visit with rfl | ⟨o, s, visit⟩
        · exact List.nil_subperm
        · apply visit_executions rfl visit
          intro ev mem
          apply gated_handled handled' ev
          rw [split_]
          exact List.mem_append_left q mem
      rw [calls]
      exact (starts_handled handled').subperm.trans asks
  · intro s
    apply (Tree.all_iff _ _).mpr
    intro d o run
    obtain ⟨t, ds, above, handled, rfl⟩ := (Tree.runs_handle _).mp run
    obtain ⟨_, turn⟩ := Coro.runs_tree.mp above
    have books := Coro.all_iff.mp (toolTasks_executing rfl s) _ _ _ turn
      (gated_handled handled)
    rw [foldl_noteExecution, List.nil_append] at books
    exact (starts_handled handled).subperm.trans books

end AgentStudio.Governance
