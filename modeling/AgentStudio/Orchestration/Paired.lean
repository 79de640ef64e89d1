import AgentStudio.Async.Observe
import AgentStudio.Orchestration.Registry

/-!
# A result for every call

`_execute_tools` runs the calls of a batch side by side; what they append to
`tool_parts` comes in any order. A batch ends well, and each call finds its own
`tool_use` and then its own `tool_result` there, exactly when none of the calls meets
what the code does not guard against: a schema that cannot be read, an exception that is
no `Exception`, a result that names another call.
-/

namespace AgentStudio.Orchestration
open Async Gateway

/-! ## The parts dealt out -/

/-- What is marked `i`. -/
def dealt {α : Type} (tagged : List (Nat × α)) (i : Nat) : List α :=
  (tagged.filter fun p => p.1 = i).map Prod.snd

theorem dealt_append {α : Type} (tagged tagged' : List (Nat × α)) (i : Nat) :
    dealt (tagged ++ tagged') i = dealt tagged i ++ dealt tagged' i := by
  rw [dealt, List.filter_append, List.map_append]
  rfl

/-- `r` carries the call's own id and name. -/
structure OwnResult (call : ToolCall) (r : ToolResult) : Prop where
  id : r.toolUseId = some call.id
  name : r.name = some call.name

/-- The parts can be dealt out to the calls so that each has its own use, and after it a
result of its own. -/
def Paired (calls : List ToolCall) (parts : List ToolPart) : Prop :=
  ∃ tagged : List (Nat × ToolPart), tagged.map Prod.snd = parts ∧
    (∀ p ∈ tagged, p.1 < calls.length) ∧
      ∀ i call, calls[i]? = some call →
        ∃ r, OwnResult call r ∧ dealt tagged i = [.use call, .result r]

/-- A use with a result right after it. -/
theorem Paired.own {calls : List ToolCall} {call : ToolCall} {r : ToolResult}
    {more : List ToolPart} (h : Paired calls ([.use call, .result r] ++ more)) :
    OwnResult call r := by
  obtain ⟨tagged, parts, within, each⟩ := h
  match tagged, parts with
  | [], parts => simp at parts
  | [_], parts => simp at parts
  | (i, first) :: (j, second) :: tagged, parts =>
  obtain ⟨rfl, rfl, -⟩ : first = .use call ∧ second = .result r ∧ tagged.map Prod.snd = more := by
    simpa using parts
  have bound (k : Nat) (lt : k < calls.length) : calls[k]? = some calls[k] :=
    List.getElem?_eq_getElem lt
  have lt := within _ List.mem_cons_self
  have lt' := within _ (List.mem_cons_of_mem _ List.mem_cons_self)
  obtain ⟨r₁, own, dealt₁⟩ := each i _ (bound i lt)
  by_cases same : j = i
  · subst same
    simp only [dealt, List.filter_cons, decide_true, if_true, List.map_cons, List.cons.injEq,
      ToolPart.use.injEq, ToolPart.result.injEq] at dealt₁
    obtain ⟨is, is', -⟩ := dealt₁
    rw [is, is']
    exact own
  · obtain ⟨r₂, -, dealt₂⟩ := each j _ (bound j lt')
    simp [dealt, Ne.symm same] at dealt₂

/-! ## What the calls below may answer -/

/-- What may be answered to each call: something, and to the scheduler any order. -/
structure Surroundings where
  may : Event Wire Raised → Prop
  some_ : ∀ op, ∃ r, may ⟨op, r⟩
  order : ∀ running r, may ⟨.service (.schedule running), r⟩ ↔ ∃ i : Nat, r = .ok i

/-- The authorizer as any other hook. -/
def hook (call : ToolCall) : Tree Wire Raised (Except Raised Bool) :=
  .await (.service (.authorize call)) .done

/-- `_execute_tools` with the registry below it. -/
def runBatch (svc : Service) (registry : ToolRegistry) (s : AgentState) :
    Tree Wire Raised (Except Raised Unit × AgentState) :=
  ((executeTools svc) s).handle (below hook registry)

/-- A batch within the budget, with a registry to run it. -/
structure LetIn (svc : Service) (s : AgentState) : Prop where
  calls : s.toolCalls ≠ []
  budget : (s.toolSteps : ℤ) < svc.budgets.maxToolSteps
  registry : svc.tools ≠ none

section
variable (registry : ToolRegistry) (W : Surroundings)

/-- The tool's executor is started on these arguments. -/
def ToolRegistry.Starts (name json : String) : Prop :=
  ∃ spec, registry.get name = some spec ∧ registry.validateArguments spec (.object json) = .ok []

/-- What `execute` may come to. -/
inductive ToolRegistry.Answers (name json : String) : Except Raised ToolResult → Prop
  | unknown (get : registry.get name = none) :
      Answers name json (.ok (.failure ("unknown tool: " ++ name)))
  | unreadable {spec : ToolSpec} {e : Raised} (get : registry.get name = some spec)
      (raises : registry.validateArguments spec (.object json) = .error e) :
      Answers name json (.error e)
  | invalid {spec : ToolSpec} {errors : List String} (get : registry.get name = some spec)
      (found : registry.validateArguments spec (.object json) = .ok errors) (some_ : errors ≠ []) :
      Answers name json (.ok (.failure ("tool " ++ name ++ ": invalid arguments: " ++
        "; ".intercalate (errors.take 5))))
  | returned {outcome : Outcome} (starts : registry.Starts name json)
      (may : W.may ⟨.tool name json, .ok outcome⟩) : Answers name json (.ok outcome.result)
  | failed {e : Raised} (starts : registry.Starts name json)
      (may : W.may ⟨.tool name json, .error e⟩) (exception : e.isException = true) :
      Answers name json (.ok (.failure ("tool error: " ++ e.text)))
  | raised {e : Raised} (starts : registry.Starts name json)
      (may : W.may ⟨.tool name json, .error e⟩) (base : e.isException = false) :
      Answers name json (.error e)

variable {registry W}

theorem execute_answers {name json : String} :
    (registry.execute name (.object json)).All () fun d r _ =>
      (∀ ev ∈ d, W.may ev) → registry.Answers W name json r := by
  unfold ToolRegistry.execute
  cases get : registry.get name with
  | none => exact fun _ => .unknown get
  | some spec =>
    dsimp only
    cases found : registry.validateArguments spec (.object json) with
    | error e => exact fun _ => .unreadable get found
    | ok errors =>
      cases errors with
      | cons error errors => exact fun _ => .invalid get found (List.cons_ne_nil _ _)
      | nil =>
        intro r
        cases r with
        | ok outcome =>
          exact fun may => .returned ⟨spec, get, found⟩ (may _ (List.mem_singleton_self _))
        | error e =>
          change Tree.All ((if e.isException then _ else _ : Coro Wire Raised Unit ToolResult) ()) _
          by_cases exception : e.isException = true
          · rw [if_pos exception]
            exact fun may =>
              .failed ⟨spec, get, found⟩ (may _ (List.mem_singleton_self _)) exception
          · rw [if_neg exception]
            exact fun may => .raised ⟨spec, get, found⟩ (may _ (List.mem_singleton_self _))
              (Bool.eq_false_of_not_eq_true exception)

/-- `execute` comes to these answers and no others. -/
theorem execute_answers_iff {name json : String} {r : Except Raised ToolResult} :
    (∃ d s', (registry.execute name (.object json)).Runs () d r s' ∧ ∀ ev ∈ d, W.may ev) ↔
      registry.Answers W name json r := by
  constructor
  · rintro ⟨d, s', run, may⟩
    exact Coro.all_iff.mp execute_answers d r s' run may
  · have one {ev : Event Wire Raised} (may : W.may ev) : ∀ ev' ∈ [ev], W.may ev' := by
      intro ev' mem
      rw [List.mem_singleton.mp mem]
      exact may
    have nothing : ∀ ev ∈ ([] : WireRun), W.may ev := fun _ mem => by cases mem
    rintro (get | ⟨get, raises⟩ | ⟨get, found, some_⟩ | ⟨⟨spec, get, valid⟩, may⟩ |
      ⟨⟨spec, get, valid⟩, may, exception⟩ | ⟨⟨spec, get, valid⟩, may, base⟩)
    · refine ⟨[], (), ?_, nothing⟩
      simp only [ToolRegistry.execute, get]
      exact .done _
    · refine ⟨[], (), ?_, nothing⟩
      simp only [ToolRegistry.execute, get, raises]
      exact .done _
    · refine ⟨[], (), ?_, nothing⟩
      simp only [ToolRegistry.execute, get, found]
      exact .done _
    · refine ⟨_, (), ?_, one may⟩
      simp only [ToolRegistry.execute, get, valid]
      exact .await _ _ _ (.done _)
    · refine ⟨_, (), ?_, one may⟩
      simp only [ToolRegistry.execute, get, valid]
      refine .await _ _ _ ?_
      change Tree.Runs ((if _ then _ else _ : Coro Wire Raised Unit ToolResult) ()) _ _
      rw [if_pos exception]
      exact .done _
    · refine ⟨_, (), ?_, one may⟩
      simp only [ToolRegistry.execute, get, valid]
      refine .await _ _ _ ?_
      change Tree.Runs ((if _ then _ else _ : Coro Wire Raised Unit ToolResult) ()) _ _
      rw [if_neg (by simp [base])]
      exact .done _

/-! ## What a call may meet -/

variable (registry W) in
/-- The registry's part: the schema can be read, the executor raises nothing but
`Exception`s, and a dict that it returns names no other call. -/
structure ToolRegistry.Behaves (call : ToolCall) (json : String) : Prop where
  readable : ∀ spec, registry.get call.name = some spec →
    ∀ e, registry.validateArguments spec (.object json) ≠ .error e
  contained : registry.Starts call.name json →
    ∀ e, W.may ⟨.tool call.name json, .error e⟩ → e.isException = true
  own : registry.Starts call.name json →
    ∀ result, W.may ⟨.tool call.name json, .ok (.dict result)⟩ →
      (∀ id ∈ result.toolUseId, id = call.id) ∧ ∀ name ∈ result.name, name = call.name

theorem own_of_iff (call : ToolCall) (result : ToolResult) : OwnResult call (.of call result) ↔
    (∀ id ∈ result.toolUseId, id = call.id) ∧ ∀ name ∈ result.name, name = call.name := by
  constructor
  · rintro ⟨id, name⟩
    constructor
    · intro own mem
      rw [Option.mem_def] at mem
      simpa [ToolResult.of, mem] using id
    · intro own mem
      rw [Option.mem_def] at mem
      simpa [ToolResult.of, mem] using name
  · rintro ⟨id, name⟩
    constructor
    · cases given : result.toolUseId with
      | none => simp [ToolResult.of, given]
      | some own => simp [ToolResult.of, given, id own given]
    · cases given : result.name with
      | none => simp [ToolResult.of, given]
      | some own => simp [ToolResult.of, given, name own given]

/-- The registry behaves when it always comes to a result, and one of the call's own. -/
theorem behaves_iff {call : ToolCall} {json : String} : registry.Behaves W call json ↔
    ∀ r, registry.Answers W call.name json r →
      ∃ result, r = .ok result ∧ OwnResult call (.of call result) := by
  constructor
  · intro behaves r answer
    have blank (content : String) : OwnResult call (.of call (.failure content)) :=
      (own_of_iff _ _).mpr ⟨nofun, nofun⟩
    cases answer with
    | unknown => exact ⟨_, rfl, blank _⟩
    | unreadable get raises => exact absurd raises (behaves.readable _ get _)
    | invalid => exact ⟨_, rfl, blank _⟩
    | @returned outcome starts may =>
      refine ⟨_, rfl, (own_of_iff _ _).mpr ?_⟩
      cases outcome with
      | dict result => exact behaves.own starts result may
      | other text => exact ⟨nofun, nofun⟩
    | failed => exact ⟨_, rfl, blank _⟩
    | raised starts may base =>
      rw [behaves.contained starts _ may] at base
      cases base
  · intro each
    constructor
    · intro spec get e raises
      obtain ⟨_, is, -⟩ := each _ (.unreadable get raises)
      cases is
    · intro starts e may
      by_contra base
      obtain ⟨_, is, -⟩ := each _ (.raised starts may (Bool.eq_false_of_not_eq_true base))
      cases is
    · intro starts result may
      obtain ⟨_, is, own⟩ := each _ (.returned starts may)
      cases is
      exact (own_of_iff _ _).mp own

end

section
variable (svc : Service) (registry : ToolRegistry) (W : Surroundings) (call : ToolCall)

/-- What `_authorize_tool` may come to. -/
inductive Decides : Bool → Prop
  | absent (none_ : svc.hasAuthorizer = false) : Decides true
  | answers {allowed : Bool} (there : svc.hasAuthorizer = true)
      (may : W.may ⟨.service (.authorize call), .ok allowed⟩) : Decides allowed
  | fails {e : Raised} (there : svc.hasAuthorizer = true)
      (may : W.may ⟨.service (.authorize call), .error e⟩) (exception : e.isException = true) :
      Decides false

/-- The results a call may end with. -/
inductive Gets : ToolResult → Prop
  | settled {allowed : Bool} {r : ToolResult} (gate : Decides svc W call allowed)
      (is : phaseAfterGate call allowed = .persist r) : Gets r
  | executed {json : String} {result : ToolResult} (gate : Decides svc W call true)
      (object : call.arguments = .object json)
      (answer : registry.Answers W call.name json (.ok result)) : Gets (.of call result)

/-- The call meets nothing that the code does not guard against: its hooks raise nothing
but `Exception`s, and the registry behaves if the call may come to it. -/
structure Sound : Prop where
  use : svc.hasToolCallback = true →
    ∀ e, W.may ⟨.service (.toolPart (.use call)), .error e⟩ → e.isException = true
  gate : svc.hasAuthorizer = true →
    ∀ e, W.may ⟨.service (.authorize call), .error e⟩ → e.isException = true
  run : Decides svc W call true → ∀ json, call.arguments = .object json →
    registry.Behaves W call json
  persist : svc.hasToolCallback = true → ∀ r, Gets svc registry W call r →
    ∀ e, W.may ⟨.service (.toolPart (.result r)), .error e⟩ → e.isException = true

end

/-! ## The calls of the service, answered from below -/

/-- What the calls below make of a call of the service. -/
def Surroundings.real (W : Surroundings) (registry : ToolRegistry) : Ev → Prop
  | ⟨.executeTool name json, r⟩ => registry.Answers W name json r
  | ⟨op, r⟩ => W.may ⟨.service op, r⟩

section
variable {svc : Service} {registry : ToolRegistry} {W : Surroundings}

theorem real_iff (ev : Ev) : W.real registry ev ↔
    ∃ d, (below hook registry ev.op).Runs d ev.reply ∧ ∀ ev' ∈ d, W.may ev' := by
  obtain ⟨op, r⟩ := ev
  have itself (same : ∀ d, (below hook registry op).Runs d r ↔ d = [⟨.service op, r⟩]) :
      W.may ⟨.service op, r⟩ ↔
        ∃ d, (below hook registry op).Runs d r ∧ ∀ ev' ∈ d, W.may ev' := by
    constructor
    · intro may
      refine ⟨_, (same _).mpr rfl, fun ev' mem => ?_⟩
      rw [List.mem_singleton.mp mem]
      exact may
    · rintro ⟨d, run, may⟩
      rw [(same d).mp run] at may
      exact may _ (List.mem_singleton_self _)
  cases op with
  | executeTool name json =>
    change registry.Answers W name json r ↔ _
    rw [← execute_answers_iff]
    constructor
    · rintro ⟨d, s', run, may⟩
      exact ⟨d, Coro.runs_tree.mpr ⟨s', run⟩, may⟩
    · rintro ⟨d, run, may⟩
      obtain ⟨s', run⟩ := Coro.runs_tree.mp run
      exact ⟨d, s', run, may⟩
  | authorize call =>
    apply itself
    intro d
    constructor
    · intro run
      cases run with
      | await _ _ _ rest =>
        cases rest
        rfl
    · rintro rfl
      exact Tree.Runs.await (I := Wire) (.service (.authorize call)) _ r (.done r)
  | _ => exact itself fun d => below_plain rfl

/-- In every run whose calls are answered as they may be, `c` ends as `Q` says. -/
abbrev Fairly {σ α : Type} (fair : Ev → Prop) (c : Action σ α) (v : σ)
    (Q : Except Raised α → σ → Prop) : Prop :=
  c.Ends fair (fun g _ => g) () v fun _ o v' => Q o v'

/-- A hook that raises nothing but `Exception`s never stops the call. -/
theorem emitToolPart_fairly {part : ToolPart} {v : ToolVars} (quiet : svc.hasToolCallback = true →
      ∀ e, W.may ⟨.service (.toolPart part), .error e⟩ → e.isException = true) :
    Fairly (W.real registry) (emitToolPart svc part) v fun o v' => o = .ok () ∧ v' = v := by
  unfold emitToolPart
  split
  · rename_i there
    apply Coro.Ends.tryCatch (Q := fun _ r v' => v' = v ∧ W.may ⟨.service (.toolPart part), r⟩)
    · exact .call fun r may => ⟨rfl, may⟩
    · rintro _ _ v' ⟨rfl, -⟩
      exact ⟨rfl, rfl⟩
    · rintro _ e v' ⟨rfl, may⟩
      rw [if_pos (quiet there e may)]
      exact .pure ⟨rfl, rfl⟩
  · exact .pure ⟨rfl, rfl⟩

theorem authorizeTool_fairly {call : ToolCall} {v : ToolVars} (quiet : svc.hasAuthorizer = true →
      ∀ e, W.may ⟨.service (.authorize call), .error e⟩ → e.isException = true) :
    Fairly (W.real registry) (authorizeTool svc call) v fun o v' =>
      v' = v ∧ ∃ allowed, o = .ok allowed ∧ Decides svc W call allowed := by
  unfold authorizeTool
  split
  · rename_i there
    apply Coro.Ends.tryCatch (Q := fun _ r v' => v' = v ∧ W.may ⟨.service (.authorize call), r⟩)
    · exact .call fun r may => ⟨rfl, may⟩
    · rintro _ allowed v' ⟨rfl, may⟩
      exact ⟨rfl, allowed, rfl, .answers there may⟩
    · rintro _ e v' ⟨rfl, may⟩
      rw [if_pos (quiet there e may)]
      exact .pure ⟨rfl, false, rfl, .fails there may (quiet there e may)⟩
  · rename_i none_
    exact .pure ⟨rfl, true, rfl, .absent (Bool.eq_false_of_not_eq_true none_)⟩

theorem executeTool_fairly {call : ToolCall} {json : String} {v : ToolVars}
    (object : call.arguments = .object json) :
    Fairly (W.real registry) (executeTool call) v fun o v' =>
      v' = v ∧ registry.Answers W call.name json o := by
  unfold executeTool
  rw [object]
  exact .call fun r answer => ⟨rfl, answer⟩

end

/-! ## A batch of sound calls -/

/-- What a call has added to the parts. -/
def Share (call : ToolCall) : ToolPhase → List ToolPart → Prop
  | .use, parts => parts = []
  | .authorize, parts | .execute, parts | .persist _, parts => parts = [.use call]
  | .finished, parts => ∃ r, OwnResult call r ∧ parts = [.use call, .result r]

section
variable {svc : Service} {registry : ToolRegistry} {W : Surroundings}

variable (svc registry W) in
/-- How a call came where it is. -/
def Came (call : ToolCall) : ToolPhase → Prop
  | .execute => Decides svc W call true ∧ ∃ json, call.arguments = .object json
  | .persist r => Gets svc registry W call r ∧ OwnResult call r
  | _ => True

variable (svc registry W) in
/-- Between two turns of the event loop, every call has its share of the new parts. -/
structure Dealing (s : AgentState) (v : ToolVars) : Prop where
  same : v.calls.map Prod.fst = s.toolCalls
  shares : ∃ tagged : List (Nat × ToolPart),
    v.state.toolParts = s.toolParts ++ tagged.map Prod.snd ∧
      (∀ p ∈ tagged, p.1 < s.toolCalls.length) ∧
        ∀ i c, v.calls[i]? = some c → Share c.1 c.2 (dealt tagged i)
  came : ∀ c ∈ v.calls, Came svc registry W c.1 c.2

namespace Dealing

variable {s : AgentState} {v v' : ToolVars} {i : Nat} {call : ToolCall} {phase : ToolPhase}

theorem start (s : AgentState) : Dealing svc registry W s (gatherStart s) := by
  constructor
  · simp [gatherStart, Function.comp_def]
  · refine ⟨[], by simp [gatherStart], fun _ mem => absurd mem List.not_mem_nil, ?_⟩
    intro i c here
    obtain ⟨call, -, rfl⟩ := List.mem_map.mp (List.mem_of_getElem? here)
    rfl
  · intro c mem
    obtain ⟨call, -, rfl⟩ := List.mem_map.mp mem
    trivial

/-- A call goes on, and may add a part. -/
theorem advance (h : Dealing svc registry W s v) (here : v.calls[i]? = some (call, phase))
    (phase' : ToolPhase) (new : List ToolPart) (calls : v'.calls = v.calls.set i (call, phase'))
    (parts : v'.state.toolParts = v.state.toolParts ++ new)
    (share : ∀ l, Share call phase l → Share call phase' (l ++ new))
    (came : Came svc registry W call phase') : Dealing svc registry W s v' := by
  obtain ⟨tagged, all, within, each⟩ := h.shares
  have lt : i < s.toolCalls.length := by
    rw [← h.same, List.length_map]
    exact (List.getElem?_eq_some_iff.mp here).1
  have mine : dealt (new.map fun part => (i, part)) i = new := by
    simp [dealt, List.filter_map, Function.comp_def]
  have others {j : Nat} (other : i ≠ j) : dealt (new.map fun part => (i, part)) j = [] := by
    simp [dealt, List.filter_map, Function.comp_def, other]
  constructor
  · rw [calls, ← h.same, List.map_set]
    apply set_here
    rw [List.getElem?_map, here]
    rfl
  · refine ⟨tagged ++ new.map fun part => (i, part), ?_, ?_, ?_⟩
    · rw [parts, all, List.map_append, List.map_map]
      simp [Function.comp_def]
    · intro p mem
      rcases List.mem_append.mp mem with mem | mem
      · exact within p mem
      · obtain ⟨part, -, rfl⟩ := List.mem_map.mp mem
        exact lt
    · intro j c at_
      rw [dealt_append]
      rw [calls] at at_
      rcases get_set_cases at_ with ⟨rfl, rfl⟩ | ⟨other, at_⟩
      · rw [mine]
        exact share _ (each j _ here)
      · rw [others other.symm, List.append_nil]
        exact each j c at_
  · intro c mem
    rw [calls] at mem
    rcases List.mem_or_eq_of_mem_set mem with old | rfl
    · exact h.came c old
    · exact came

/-- When every call is over, the new parts are paired. -/
theorem paired (h : Dealing svc registry W s v) (atEnd : v.running = []) :
    ∃ new, v.state.toolParts = s.toolParts ++ new ∧ Paired s.toolCalls new := by
  obtain ⟨tagged, all, within, each⟩ := h.shares
  refine ⟨_, all, tagged, rfl, within, fun i call here => ?_⟩
  rw [← h.same, List.getElem?_map] at here
  obtain ⟨c, at_, rfl⟩ := Option.map_eq_some_iff.mp here
  have finished : c.2 = .finished := by
    simpa using List.findIdxs_eq_nil_iff.mp atEnd _ (List.mem_of_getElem? at_)
  have share := each i c at_
  rw [finished] at share
  exact share

end Dealing

/-- What follows the gate: a result at once, or the execution of a call that is allowed and
has an object for arguments. -/
theorem phaseAfterGate_cases (call : ToolCall) (allowed : Bool) :
    (∃ r, phaseAfterGate call allowed = .persist r) ∨ (phaseAfterGate call allowed = .execute ∧
      allowed = true ∧ ∃ json, call.arguments = .object json) := by
  cases allowed with
  | false => exact .inl ⟨_, rfl⟩
  | true =>
    cases arguments : call.arguments with
    | object json => exact .inr ⟨by simp [phaseAfterGate, arguments], rfl, json, rfl⟩
    | malformed raw =>
      exact .inl ⟨_, by simp only [phaseAfterGate, arguments]; rfl⟩

/-- Both belong to the call. -/
theorem phaseAfterGate_came {call : ToolCall} {allowed : Bool}
    (decides : Decides svc W call allowed) :
    Share call (phaseAfterGate call allowed) [.use call] ∧
      Came svc registry W call (phaseAfterGate call allowed) := by
  cases allowed with
  | false => exact ⟨rfl, .settled decides rfl, (own_of_iff _ _).mpr ⟨nofun, nofun⟩⟩
  | true =>
    cases arguments : call.arguments with
    | object json =>
      have is : phaseAfterGate call true = .execute := by simp [phaseAfterGate, arguments]
      rw [is]
      exact ⟨rfl, decides, json, arguments⟩
    | malformed raw =>
      have is : phaseAfterGate call true = .persist (.of call
          { content := "malformed tool arguments", isError := true }) := by
        simp [phaseAfterGate, arguments]
      rw [is]
      exact ⟨rfl, .settled decides is, (own_of_iff _ _).mpr ⟨nofun, nofun⟩⟩

/-- A call of a sound batch goes on, whatever it is answered. -/
theorem runOneTool_dealing {s : AgentState} {v : ToolVars} {i : Nat} {call : ToolCall}
    {phase : ToolPhase} (sound : Sound svc registry W call) (h : Dealing svc registry W s v)
    (here : v.calls[i]? = some (call, phase)) (running : phase ≠ .finished) :
    Fairly (W.real registry) (runOneTool svc i call phase) v fun o v' =>
      o = .ok () ∧ Dealing svc registry W s v' := by
  have came := h.came _ (List.mem_of_getElem? here)
  have modified {f : ToolVars → ToolVars} {v : ToolVars} (step : Dealing svc registry W s (f v)) :
      Fairly (W.real registry) (modify f) v fun o v' => o = .ok () ∧ Dealing svc registry W s v' :=
    fun _ => ⟨rfl, step⟩
  cases phase with
  | use =>
    apply (emitToolPart_fairly sound.use).bind
    · rintro _ _ v' ⟨-, rfl⟩
      apply modified
      apply h.advance here .authorize [.use call] rfl rfl
      · rintro l rfl
        rfl
      · trivial
    · rintro _ e v' ⟨raised, -⟩
      cases raised
  | authorize =>
    apply (authorizeTool_fairly sound.gate).bind
    · rintro _ allowed v' ⟨rfl, allowed', is, decides⟩
      obtain rfl := Except.ok.inj is
      apply modified
      have after : Share call (phaseAfterGate call allowed) [.use call] ∧
          Came svc registry W call (phaseAfterGate call allowed) := phaseAfterGate_came decides
      apply h.advance here (phaseAfterGate call allowed) [] rfl (by simp [ToolVars.setPhase])
      · rintro l rfl
        exact after.1
      · exact after.2
    · rintro _ e v' ⟨-, allowed, raised, -⟩
      cases raised
  | execute =>
    obtain ⟨decides, json, object⟩ := came
    apply (executeTool_fairly object).bind
    · rintro _ result v' ⟨rfl, answer⟩
      obtain ⟨_, is, own⟩ := behaves_iff.mp (sound.run decides json object) _ answer
      obtain rfl := Except.ok.inj is
      apply modified
      apply h.advance here (.persist (.of call result)) [] rfl (by simp [ToolVars.setPhase])
      · rintro l rfl
        rfl
      · exact ⟨.executed decides object answer, own⟩
    · rintro _ e v' ⟨-, answer⟩
      obtain ⟨_, is, -⟩ := behaves_iff.mp (sound.run decides json object) _ answer
      cases is
  | persist r =>
    apply (emitToolPart_fairly fun there => sound.persist there r came.1).bind
    · rintro _ _ v' ⟨-, rfl⟩
      apply modified
      apply h.advance here .finished [.result r] rfl rfl
      · rintro l rfl
        exact ⟨r, came.2, rfl⟩
      · trivial
    · rintro _ e v' ⟨raised, -⟩
      cases raised
  | finished => exact absurd rfl running

/-- One turn of the event loop. -/
theorem resumeTool_dealing {s : AgentState} {v : ToolVars}
    (sound : ∀ call ∈ s.toolCalls, Sound svc registry W call) (h : Dealing svc registry W s v) :
    Fairly (W.real registry) (resumeTool svc) v fun o v' => Dealing svc registry W s v' ∧
      ∃ ended, o = .ok ended ∧ (ended = some () → v'.running = []) := by
  apply Coro.Ends.get_bind
  dsimp only
  split
  · rename_i atEnd
    exact .pure ⟨h, some (), rfl, fun _ => atEnd⟩
  · rename_i some_
    apply Coro.Ends.call_bind
    · intro chosen _
      obtain ⟨call, phase, here, running⟩ := mem_running (resumed_mem some_ chosen)
      have mem : call ∈ s.toolCalls := by
        rw [← h.same]
        exact List.mem_map_of_mem (List.mem_of_getElem? here)
      apply Coro.Ends.get_bind
      rw [here]
      apply (runOneTool_dealing (sound call mem) h here running).bind
      · rintro _ _ v' ⟨-, step⟩
        exact .pure ⟨step, none, rfl, nofun⟩
      · rintro _ e v' ⟨raised, -⟩
        cases raised
    · intro e may
      obtain ⟨i, is⟩ := (W.order _ _).mp may
      cases is

/-- With a step for each phase of each call, the event loop comes to its end. -/
theorem gather_total (svc : Service) (s : AgentState) :
    (Coro.iterate (resumeTool svc) (gatherFuel s.toolCalls)).All (gatherStart s)
      fun _ o _ => o ≠ .ok none := by
  apply Coro.iterate_total (resumeTool svc) (Gathering s) (fun v => v.left.toNat)
  · intro v gathering
    apply (resumeTool_spec svc gathering).mono
    intro _ o v' step ended
    obtain ⟨gathering', less⟩ := step.1 ended
    have := left_nonneg v'
    exact ⟨gathering', by omega⟩
  · exact gathering_start s
  · rw [gatherStart_left, gatherFuel]
    omega

/-- A batch of sound calls ends, with a result for every call. -/
theorem gatherTools_paired {s : AgentState}
    (sound : ∀ call ∈ s.toolCalls, Sound svc registry W call) :
    Fairly (W.real registry) (gatherTools svc s.toolCalls) (gatherStart s) fun o v =>
      o = .ok () ∧ ∃ new, v.state.toolParts = s.toolParts ++ new ∧ Paired s.toolCalls new := by
  have loop : Fairly (W.real registry)
      (Coro.iterate (resumeTool svc) (gatherFuel s.toolCalls)) (gatherStart s) fun o v =>
        o = .ok none ∨ (o = .ok (some ()) ∧ Dealing svc registry W s v ∧ v.running = []) := by
    apply Coro.Ends.iterate (fun _ v => Dealing svc registry W s v) _ _ _ (.start s)
    · intro _ v h
      apply (resumeTool_dealing sound h).mono
      rintro _ o v' ⟨step, ended, rfl, atEnd⟩
      cases ended with
      | none => exact step
      | some _ => exact .inr ⟨rfl, step, atEnd rfl⟩
    · exact fun _ v _ => .inl rfl
  apply (loop.and (Coro.Ends.of_all ((gather_total svc s).mono fun _ _ _ ended => ended))).bind
  · rintro _ ended v ⟨dry | ⟨is, step, atEnd⟩, total⟩
    · exact absurd dry total
    · obtain rfl := Except.ok.inj is
      exact .pure ⟨rfl, step.paired atEnd⟩
  · rintro _ e v ⟨dry | ⟨raised, -⟩, -⟩
    · cases dry
    · cases raised

/-- What a batch that was let in comes to is what its gathered calls come to. -/
theorem executeTools_ends {fair : Ev → Prop} {s : AgentState} (letIn : LetIn svc s)
    {Q : Except Raised Unit → AgentState → Prop}
    (gathered : Fairly fair (gatherTools svc s.toolCalls) (gatherStart s) fun o v =>
      match o with
      | .ok _ => Q (.ok ()) { v.state with toolCalls := [] }
      | .error e => Q (.error e) v.state) : Fairly fair (executeTools svc) s Q := by
  apply Coro.Ends.get_bind
  rw [if_neg (by simpa using ⟨letIn.calls, letIn.budget, letIn.registry⟩)]
  have zoomed : Fairly fair
      (Coro.zoom gatherStart ToolVars.state (gatherTools svc s.toolCalls)) s fun o s' =>
        match o with
        | .ok _ => Q (.ok ()) { s' with toolCalls := [] }
        | .error e => Q (.error e) s' := (Coro.all_zoom _ _ _).mpr gathered
  apply zoomed.bind
  · exact fun _ _ s' step _ => step
  · exact fun _ e s' step => step

end

/-! ## A call that is not sound

Where one call may meet what is not guarded against, the event loop may take that call
up first and the answers may be just those. -/

/-- The decision that a reply of the gate comes to. -/
def decision : Except Raised Bool → Bool
  | .ok allowed => allowed
  | .error _ => false

/-- The answers a call is led to. -/
structure Steering where
  gate : Except Raised Bool → Prop := fun _ => True
  exec : Except Raised ToolResult → Prop := fun _ => True
  part : ToolPart → Except Raised Unit → Prop := fun _ _ => True

/-- The event loop resumes the call at `i` as long as it runs, and the call is answered
as it is led. -/
def Steering.keeps (st : Steering) (call : ToolCall) (i : Nat) : Ev → Prop
  | ⟨.schedule _, r⟩ => r = .ok i
  | ⟨.authorize c, r⟩ => c = call → st.gate r
  | ⟨.executeTool name json, r⟩ => name = call.name → call.arguments = .object json → st.exec r
  | ⟨.toolPart p, r⟩ => st.part p r
  | _ => True

/-- It did not end, or not with its own result for every call. -/
def Spoiled (s : AgentState) (o : Except Raised (Option Unit)) (v : ToolVars) : Prop :=
  o = .ok (some ()) → ∀ new, v.state.toolParts = s.toolParts ++ new → ¬ Paired s.toolCalls new

/-- A turn that adds to the parts, if anything. -/
def ToolVars.Grows (v v' : ToolVars) : Prop := v.state.toolParts <+: v'.state.toolParts

instance : IsPreorder ToolVars ToolVars.Grows where
  refl _ := List.prefix_rfl
  trans _ _ _ h h' := List.IsPrefix.trans h h'

theorem runOneTool_grows (svc : Service) (i : Nat) (call : ToolCall) (phase : ToolPhase) :
    Coro.Moves ToolVars.Grows (runOneTool svc i call phase) := by
  have emit (part : ToolPart) : Coro.Moves ToolVars.Grows (emitToolPart svc part) := by
    unfold emitToolPart
    split
    · exact moves_orDefault (Coro.moves_call _)
    · exact Coro.moves_pure ()
  cases phase with
  | use => exact (emit _).bind fun _ => Coro.moves_modify fun v => List.prefix_append _ _
  | authorize =>
    refine Coro.Moves.bind ?_ fun _ => Coro.moves_modify fun v => List.prefix_rfl
    unfold authorizeTool
    split
    · exact moves_orDefault (Coro.moves_call _)
    · exact Coro.moves_pure true
  | execute =>
    refine Coro.Moves.bind ?_ fun _ => Coro.moves_modify fun v => List.prefix_rfl
    unfold executeTool
    split <;> exact Coro.moves_call _
  | persist r => exact (emit _).bind fun _ => Coro.moves_modify fun v => List.prefix_append _ _
  | finished => exact Coro.moves_pure ()

theorem gather_grows (svc : Service) (n : Nat) :
    Coro.Moves ToolVars.Grows (Coro.iterate (resumeTool svc) n) := by
  have turn : Coro.Moves ToolVars.Grows (resumeTool svc) := by
    refine Coro.moves_get.bind fun v => ?_
    dsimp only
    split
    · exact Coro.moves_pure _
    · refine (Coro.moves_call (I := Calls) _).bind fun chosen => Coro.moves_get.bind fun v' => ?_
      split
      · exact (runOneTool_grows svc _ _ _).bind fun _ => Coro.moves_pure _
      · exact Coro.moves_pure _
  induction n with
  | zero => exact Coro.moves_pure none
  | succ n ih =>
    refine turn.bind fun ended => ?_
    cases ended with
    | none => exact ih
    | some _ => exact Coro.moves_pure _

section
variable (svc : Service) (registry : ToolRegistry) (W : Surroundings) (st : Steering)
  (call : ToolCall) (i : Nat)

/-- Real answers that lead the call. -/
def Led (ev : Ev) : Prop := W.real registry ev ∧ st.keeps call i ev

/-- The call is where `phase` says, with what it has added so far. -/
structure At (s : AgentState) (v : ToolVars) (phase : ToolPhase) (parts : List ToolPart) :
    Prop where
  here : v.calls[i]? = some (call, phase)
  parts : v.state.toolParts = s.toolParts ++ parts

/-- The persisting of `part` is led to an exception that nothing catches. -/
def Fatal (part : ToolPart) : Prop :=
  svc.hasToolCallback = true ∧
    ∃ e : Raised, e.isException = false ∧ ∀ r, st.part part r → r = .error e

variable {svc registry W st call i} {s : AgentState} {v : ToolVars}

/-- A turn of the loop is a turn of the call. -/
theorem led_loop {n : Nat} {phase : ToolPhase} {Q : Except Raised Unit → ToolVars → Prop}
    (here : v.calls[i]? = some (call, phase)) (running : phase ≠ .finished)
    (turn : Fairly (Led registry W st call i) (runOneTool svc i call phase) v Q)
    (next : ∀ v', Q (.ok ()) v' →
      Fairly (Led registry W st call i) (Coro.iterate (resumeTool svc) n) v' (Spoiled s)) :
    Fairly (Led registry W st call i) (Coro.iterate (resumeTool svc) (n + 1)) v (Spoiled s) := by
  obtain ⟨lt, is⟩ := List.getElem?_eq_some_iff.mp here
  have mem : i ∈ v.running := by
    apply List.mem_findIdxs_iff_exists_getElem_pos.mpr
    exact ⟨lt, by simp [is, running]⟩
  have resumed : Fairly (Led registry W st call i) (resumeTool svc) v fun o v' =>
      ∀ ended, o = .ok ended → ended = none ∧ Q (.ok ()) v' := by
    apply Coro.Ends.get_bind
    dsimp only
    rw [if_neg (List.ne_nil_of_mem mem)]
    apply Coro.Ends.call_bind
    · rintro chosen ⟨-, first⟩
      obtain rfl : chosen = i := Except.ok.inj first
      apply Coro.Ends.get_bind
      rw [if_pos mem, here]
      apply turn.bind
      · intro _ _ v' step
        apply Coro.Ends.pure
        rintro _ ⟨⟩
        exact ⟨rfl, step⟩
      · rintro _ e v' _ _ ⟨⟩
    · rintro e - _ ⟨⟩
  rw [Coro.iterate]
  apply resumed.bind
  · rintro _ ended v' step
    obtain ⟨rfl, turned⟩ := step ended rfl
    exact next v' turned
  · rintro _ e v' - ⟨⟩

theorem emitToolPart_led {part : ToolPart} :
    Fairly (Led registry W st call i) (emitToolPart svc part) v fun o v' =>
      v' = v ∧ (Fatal svc st part → o ≠ .ok ()) := by
  unfold emitToolPart
  split
  · apply Coro.Ends.tryCatch (Q := fun _ r v' => v' = v ∧ st.part part r)
    · exact .call fun r led => ⟨rfl, led.2⟩
    · rintro _ _ v' ⟨rfl, part⟩
      refine ⟨rfl, fun fatal => ?_⟩
      obtain ⟨-, e, -, only⟩ := fatal
      cases only _ part
    · rintro _ e v' ⟨rfl, part⟩
      by_cases exception : e.isException = true
      · rw [if_pos exception]
        apply Coro.Ends.pure
        refine ⟨rfl, fun fatal => ?_⟩
        obtain ⟨-, e', base, only⟩ := fatal
        obtain rfl := Except.error.inj (only _ part)
        rw [exception] at base
        cases base
      · rw [if_neg exception]
        exact .throw ⟨rfl, fun _ => nofun⟩
  · rename_i none_
    exact .pure ⟨rfl, fun fatal => absurd fatal.1 none_⟩

variable (svc st) in
/-- The decision that the gate is led to, if it does not raise. -/
def LedTo (allowed : Bool) : Prop :=
  (svc.hasAuthorizer = false ∧ allowed = true) ∨
    (svc.hasAuthorizer = true ∧
      ∃ r, st.gate r ∧ decision r = allowed ∧ ∀ e, r = .error e → e.isException = true)

theorem authorizeTool_led :
    Fairly (Led registry W st call i) (authorizeTool svc call) v fun o v' => v' = v ∧
      ∀ allowed, o = .ok allowed → LedTo svc st allowed := by
  unfold authorizeTool
  split
  · rename_i there
    apply Coro.Ends.tryCatch (Q := fun _ r v' => v' = v ∧ st.gate r)
    · exact .call fun r led => ⟨rfl, led.2 rfl⟩
    · rintro _ allowed v' ⟨rfl, gate⟩
      refine ⟨rfl, fun _ is => ?_⟩
      obtain rfl := Except.ok.inj is
      exact .inr ⟨there, _, gate, rfl, nofun⟩
    · rintro _ e v' ⟨rfl, gate⟩
      by_cases exception : e.isException = true
      · rw [if_pos exception]
        apply Coro.Ends.pure
        refine ⟨rfl, fun _ is => .inr ⟨there, _, gate, Except.ok.inj is, ?_⟩⟩
        rintro _ ⟨⟩
        exact exception
      · rw [if_neg exception]
        exact .throw ⟨rfl, fun _ => nofun⟩
  · rename_i none_
    refine .pure ⟨rfl, fun allowed is => .inl ⟨Bool.eq_false_of_not_eq_true none_, ?_⟩⟩
    exact (Except.ok.inj is).symm

theorem executeTool_led {json : String} (object : call.arguments = .object json) :
    Fairly (Led registry W st call i) (executeTool call) v fun o v' => v' = v ∧ st.exec o := by
  unfold executeTool
  rw [object]
  exact .call fun r led => ⟨rfl, led.2 rfl object⟩

variable (svc st call) in
/-- A result that names another call, or whose persisting is fatal. -/
def Spoils (r : ToolResult) : Prop := ¬ OwnResult call r ∨ Fatal svc st (.result r)

/-- Where a call has such a result, the batch is spoiled. -/
theorem persist_spoils {n : Nat} {r : ToolResult} (bad : Spoils svc st call r)
    (at_ : At call i s v (.persist r) [.use call]) :
    Fairly (Led registry W st call i) (Coro.iterate (resumeTool svc) (n + 1)) v (Spoiled s) := by
  apply led_loop at_.here (by simp) (Q := fun o v' => o = .ok () → ¬ OwnResult call r ∧
    v'.state.toolParts = s.toolParts ++ [.use call, .result r])
  · apply emitToolPart_led.bind
    · rintro _ _ v' ⟨rfl, fine⟩ _ -
      refine ⟨bad.resolve_right fun fatal => fine fatal rfl, ?_⟩
      simp [at_.parts]
    · rintro _ e v' - ⟨⟩
  · intro v' step
    obtain ⟨foreign, parts⟩ := step rfl
    apply Coro.Ends.of_all
    apply (gather_grows svc n v').mono
    rintro _ o w ⟨more, grown⟩ - new all
    rw [parts] at grown
    have tail : new = [.use call, .result r] ++ more := by
      rw [← grown, List.append_assoc] at all
      exact (List.append_cancel_left all).symm
    rw [tail]
    exact fun paired => foreign paired.own

/-- A call whose every way, as it is led, comes to such a result or to an exception. -/
theorem led_spoils (here : s.toolCalls[i]? = some call)
    (settled : ∀ allowed, LedTo svc st allowed → ∀ r, phaseAfterGate call allowed = .persist r →
      Spoils svc st call r)
    (executed : LedTo svc st true → phaseAfterGate call true = .execute →
      ∀ r, st.exec (.ok r) → Spoils svc st call (.of call r))
    (n : Nat) : Fairly (Led registry W st call i)
      (Coro.iterate (resumeTool svc) (n + 4)) (gatherStart s) (Spoiled s) := by
  have start : (gatherStart s).calls[i]? = some (call, .use) := by
    simp [gatherStart, here]
  have set_ {v : ToolVars} {phase : ToolPhase} (at_ : v.calls[i]? = some (call, phase))
      (phase' : ToolPhase) : (v.calls.set i (call, phase'))[i]? = some (call, phase') :=
    List.getElem?_set_self (List.getElem?_eq_some_iff.mp at_).1
  apply led_loop start (by simp) (Q := fun o v => o = .ok () → At call i s v .authorize [.use call])
  · apply emitToolPart_led.bind
    · rintro _ _ v ⟨rfl, -⟩ _ -
      exact ⟨set_ start _, rfl⟩
    · rintro _ e v - ⟨⟩
  · intro v step
    have at_ := step rfl
    apply led_loop at_.here (by simp) (Q := fun o v => o = .ok () → ∃ allowed, LedTo svc st allowed ∧
      At call i s v (phaseAfterGate call allowed) [.use call])
    · apply authorizeTool_led.bind
      · rintro _ allowed v ⟨rfl, led⟩ _ -
        exact ⟨allowed, led allowed rfl, set_ at_.here _, at_.parts⟩
      · rintro _ e v - ⟨⟩
    · intro v step
      obtain ⟨allowed, led, at_⟩ := step rfl
      rcases phaseAfterGate_cases call allowed with ⟨r, phase⟩ | ⟨phase, rfl, json, object⟩
      · rw [phase] at at_
        exact persist_spoils (settled allowed led r phase) at_
      · rw [phase] at at_
        apply led_loop at_.here (by simp) (Q := fun o v => o = .ok () → ∃ r, st.exec (.ok r) ∧
          At call i s v (.persist (.of call r)) [.use call])
        · apply (executeTool_led object).bind
          · rintro _ r v ⟨rfl, led⟩ _ -
            exact ⟨r, led, set_ at_.here _, at_.parts⟩
          · rintro _ e v - ⟨⟩
        · intro v step
          obtain ⟨r, led', at_⟩ := step rfl
          exact persist_spoils (executed led phase r led') at_

/-- The gate is led to a decision that it may come to. -/
def gateTo (svc : Service) (allowed : Bool) (r : Except Raised Bool) : Prop :=
  svc.hasAuthorizer = true → decision r = allowed

theorem gateTo_some {allowed : Bool} (decides : Decides svc W call allowed) :
    ∃ r, W.may ⟨.service (.authorize call), r⟩ ∧ gateTo svc allowed r := by
  cases decides with
  | absent none_ =>
    obtain ⟨r, may⟩ := W.some_ (.service (.authorize call))
    exact ⟨r, may, fun there => by rw [none_] at there; cases there⟩
  | answers there may => exact ⟨_, may, fun _ => rfl⟩
  | fails there may exception => exact ⟨_, may, fun _ => rfl⟩

theorem ledTo_gateTo {allowed allowed' : Bool} (decides : Decides svc W call allowed)
    (gate : st.gate = gateTo svc allowed) (led : LedTo svc st allowed') : allowed' = allowed := by
  rcases led with ⟨none_, rfl⟩ | ⟨there, r, led, rfl, -⟩
  · cases decides with
    | absent => rfl
    | answers there => rw [none_] at there; cases there
    | fails there => rw [none_] at there; cases there
  · rw [gate] at led
    exact led there

variable (registry W call) in
/-- What is led to may be answered. -/
structure Steering.Open (st : Steering) : Prop where
  gate : ∃ r, W.may ⟨.service (.authorize call), r⟩ ∧ st.gate r
  exec : ∀ json, call.arguments = .object json →
    ∃ r, registry.Answers W call.name json r ∧ st.exec r
  part : ∀ p, ∃ r, W.may ⟨.service (.toolPart p), r⟩ ∧ st.part p r

variable (registry W) in
theorem answers_some (name json : String) : ∃ r, registry.Answers W name json r := by
  cases get : registry.get name with
  | none => exact ⟨_, .unknown get⟩
  | some spec =>
    cases found : registry.validateArguments spec (.object json) with
    | error e => exact ⟨_, .unreadable get found⟩
    | ok errors =>
      by_cases none_ : errors = []
      · subst none_
        obtain ⟨r, may⟩ := W.some_ (.tool name json)
        cases r with
        | ok outcome => exact ⟨_, .returned ⟨spec, get, found⟩ may⟩
        | error e =>
          by_cases exception : e.isException = true
          · exact ⟨_, .failed ⟨spec, get, found⟩ may exception⟩
          · exact ⟨_, .raised ⟨spec, get, found⟩ may (Bool.eq_false_of_not_eq_true exception)⟩
      · exact ⟨_, .invalid get found none_⟩

theorem Steering.Open.led (h : st.Open registry W call) (op : Op) :
    ∃ r, Led registry W st call i ⟨op, r⟩ := by
  have any : ∃ r : Except Raised (Calls.Ans op), W.may ⟨.service op, r⟩ := W.some_ (.service op)
  cases op with
  | schedule running => exact ⟨.ok i, (W.order _ _).mpr ⟨i, rfl⟩, rfl⟩
  | authorize c =>
    by_cases same : c = call
    · subst same
      obtain ⟨r, may, gate⟩ := h.gate
      exact ⟨r, may, fun _ => gate⟩
    · obtain ⟨r, may⟩ := any
      exact ⟨r, may, fun is => absurd is same⟩
  | executeTool name json =>
    by_cases same : name = call.name ∧ call.arguments = .object json
    · obtain ⟨rfl, object⟩ := same
      obtain ⟨r, answer, exec⟩ := h.exec json object
      exact ⟨r, answer, fun _ _ => exec⟩
    · obtain ⟨r, answer⟩ := answers_some registry W name json
      exact ⟨r, answer, fun is object => absurd ⟨is, object⟩ same⟩
  | toolPart p =>
    obtain ⟨r, may, part⟩ := h.part p
    exact ⟨r, may, part⟩
  | _ =>
    obtain ⟨r, may⟩ := any
    exact ⟨r, may, trivial⟩

/-- The batch ended, and each call has its use and its result among the new parts. -/
def EndsPaired (s : AgentState) (w : Except Raised Unit × AgentState) : Prop :=
  w.1 = .ok () ∧ ∃ new, w.2.toolParts = s.toolParts ++ new ∧ Paired s.toolCalls new

/-- A batch that is led to be spoiled does not always end well. -/
theorem not_always_paired (st : Steering) (i : Nat) (letIn : LetIn svc s)
    (open_ : st.Open registry W call)
    (spoiled : Fairly (Led registry W st call i)
      (Coro.iterate (resumeTool svc) (gatherFuel s.toolCalls)) (gatherStart s) (Spoiled s)) :
    ¬ Fairly (W.real registry) (executeTools svc) s fun o s' => EndsPaired s (o, s') := by
  intro always
  have bad : Fairly (Led registry W st call i) (executeTools svc) s
      fun o s' => ¬ EndsPaired s (o, s') := by
    apply executeTools_ends letIn
    unfold gatherTools
    apply spoiled.bind
    · intro _ ended v step
      cases ended with
      | none => exact .throw fun h => by cases h.1
      | some _ =>
        apply Coro.Ends.pure
        rintro ⟨-, new, all, paired⟩
        exact step rfl new all paired
    · exact fun _ e v step h => by cases h.1
  obtain ⟨t, w, run, led⟩ := Tree.exists_fair_run (open_.led (i := i)) ((executeTools svc) s)
  exact Coro.all_iff.mp bad t w.1 w.2 run led
    (Coro.all_iff.mp always t w.1 w.2 run fun ev mem => (led ev mem).1)

/-- A batch that always ends well has sound calls only. -/
theorem sound_of_paired (letIn : LetIn svc s)
    (always : Fairly (W.real registry) (executeTools svc) s fun o s' => EndsPaired s (o, s'))
    (mem : call ∈ s.toolCalls) : Sound svc registry W call := by
  obtain ⟨i, here⟩ := List.mem_iff_getElem?.mp mem
  have fuel : gatherFuel s.toolCalls = (4 * s.toolCalls.length - 3) + 4 := by
    have := List.length_pos_of_mem mem
    rw [gatherFuel]
    omega
  have free (p : ToolPart) : ∃ r, W.may ⟨.service (.toolPart p), r⟩ ∧ True := by
    obtain ⟨r, may⟩ := W.some_ (.service (.toolPart p))
    exact ⟨r, may, trivial⟩
  have anyGate : ∃ r, W.may ⟨.service (.authorize call), r⟩ ∧ True := by
    obtain ⟨r, may⟩ := W.some_ (.service (.authorize call))
    exact ⟨r, may, trivial⟩
  have anyExec (json : String) : ∃ r, registry.Answers W call.name json r ∧ True := by
    obtain ⟨r, answer⟩ := answers_some registry W call.name json
    exact ⟨r, answer, trivial⟩
  -- a part whose persisting is led to raise `e`
  have raising {part : ToolPart} {e : Raised} (may : W.may ⟨.service (.toolPart part), .error e⟩)
      (p : ToolPart) : ∃ r, W.may ⟨.service (.toolPart p), r⟩ ∧ (p = part → r = .error e) := by
    by_cases same : p = part
    · subst same
      exact ⟨_, may, fun _ => rfl⟩
    · obtain ⟨r, may⟩ := W.some_ (.service (.toolPart p))
      exact ⟨r, may, fun is => absurd is same⟩
  constructor
  · intro there e may
    by_contra base
    let st : Steering := { part := fun p r => p = .use call → r = .error e }
    refine not_always_paired st i letIn
      ⟨anyGate, fun json _ => anyExec json, raising may⟩ ?_ always
    have start : (gatherStart s).calls[i]? = some (call, .use) := by simp [gatherStart, here]
    rw [fuel]
    apply led_loop start (by simp) (Q := fun o _ => o ≠ .ok ())
    · apply emitToolPart_led.bind
      · rintro _ _ v ⟨-, fine⟩
        exact absurd rfl (fine ⟨there, e, Bool.eq_false_of_not_eq_true base, fun _ led => led rfl⟩)
      · intro _ _ _ _ same
        cases same
    · exact fun v raised => absurd rfl raised
  · intro there e may
    by_contra base
    let st : Steering := { gate := fun r => r = .error e }
    have never {allowed : Bool} : ¬ LedTo svc st allowed := by
      rintro (⟨none_, -⟩ | ⟨-, r, rfl, -, exception⟩)
      · rw [there] at none_
        cases none_
      · exact base (exception e rfl)
    refine not_always_paired st i letIn
      ⟨⟨_, may, rfl⟩, fun json _ => anyExec json, free⟩ ?_ always
    rw [fuel]
    exact led_spoils here (fun _ led => absurd led never) (fun led => absurd led never) _
  · intro decides json object
    apply behaves_iff.mpr
    intro r answer
    by_contra bad
    let st : Steering := { gate := gateTo svc true, exec := fun x => x = r }
    refine not_always_paired st i letIn
      ⟨gateTo_some decides, fun json' object' => ?_, free⟩ ?_ always
    · obtain rfl := Args.object.inj (object.symm.trans object')
      exact ⟨r, answer, rfl⟩
    · rw [fuel]
      apply led_spoils here
      · intro allowed led result settled
        obtain rfl := ledTo_gateTo decides rfl led
        simp [phaseAfterGate, object] at settled
      · intro _ _ result led
        exact .inl fun own => bad ⟨result, led.symm, own⟩
  · intro there r gets e may
    by_contra base
    have fatal {st : Steering} (part : st.part = fun p x => p = .result r → x = .error e) :
        Fatal svc st (.result r) :=
      ⟨there, e, Bool.eq_false_of_not_eq_true base, fun x led => by rw [part] at led; exact led rfl⟩
    cases gets with
    | @settled allowed _ decides is =>
      let st : Steering :=
        { gate := gateTo svc allowed, part := fun p x => p = .result r → x = .error e }
      refine not_always_paired st i letIn
        ⟨gateTo_some decides, fun json _ => anyExec json, raising may⟩ ?_ always
      rw [fuel]
      apply led_spoils here
      · intro allowed' led result settled
        obtain rfl := ledTo_gateTo decides rfl led
        rw [is] at settled
        cases settled
        exact .inr (fatal rfl)
      · intro led execute
        obtain rfl := ledTo_gateTo decides rfl led
        rw [is] at execute
        cases execute
    | @executed json result decides object answer =>
      let st : Steering :=
        { gate := gateTo svc true, exec := fun x => x = .ok result,
          part := fun p x => p = .result (.of call result) → x = .error e }
      refine not_always_paired st i letIn
        ⟨gateTo_some decides, fun json' object' => ?_, raising may⟩ ?_ always
      · obtain rfl := Args.object.inj (object.symm.trans object')
        exact ⟨_, answer, rfl⟩
      · rw [fuel]
        apply led_spoils here
        · intro allowed led result' settled
          obtain rfl := ledTo_gateTo decides rfl led
          simp [phaseAfterGate, object] at settled
        · intro _ _ result' led
          obtain rfl := Except.ok.inj led
          exact .inr (fatal rfl)

end

/-! ## Every batch -/

/-- The runs of a batch below are its runs above, with the registry's answers. -/
theorem runBatch_fairly (svc : Service) (registry : ToolRegistry) (W : Surroundings)
    (s : AgentState) :
    (runBatch svc registry s).All (fun d w => (∀ ev ∈ d, W.may ev) → EndsPaired s w) ↔
      Fairly (W.real registry) (executeTools svc) s fun o s' => EndsPaired s (o, s') := by
  rw [runBatch, Tree.all_handle_iff]
  refine Iff.trans ?_ Coro.all_iff.symm
  constructor
  · intro all t o s' run real
    exact all t (o, s') run fun ev mem => (real_iff ev).mp (real ev mem)
  · intro all t w run real
    exact all t w.1 w.2 run fun ev mem => (real_iff ev).mpr (real ev mem)

/-- For every service, registry and batch within the budget, and whatever the hooks, the
authorizer and the tools may answer: in every run, in any order of the gathered calls,
`_execute_tools` ends and each call has its own use and then its own result among the new
parts, exactly when every call of the batch is sound. -/
theorem batch_paired_iff (svc : Service) (registry : ToolRegistry) (W : Surroundings)
    (s : AgentState) (letIn : LetIn svc s) :
    (runBatch svc registry s).All (fun d w => (∀ ev ∈ d, W.may ev) → EndsPaired s w) ↔
      ∀ call ∈ s.toolCalls, Sound svc registry W call := by
  rw [runBatch_fairly]
  constructor
  · exact fun always call mem => sound_of_paired letIn always mem
  · intro sound
    apply executeTools_ends letIn
    apply (gatherTools_paired sound).mono
    rintro _ o v ⟨rfl, new, all, paired⟩
    exact ⟨rfl, new, all, paired⟩

/-- Anything may be answered. -/
def anyAnswer : Surroundings where
  may
    | ⟨.service (.schedule _), r⟩ => ∃ i : Nat, r = .ok i
    | _ => True
  some_ op := by
    cases op with
    | service op =>
      cases op with
      | schedule _ => exact ⟨.ok (0 : Nat), 0, rfl⟩
      | _ => exact ⟨.error .cancelled, trivial⟩
    | _ => exact ⟨.error .cancelled, trivial⟩
  order _ _ := Iff.rfl

/-- A service with tools, and a batch of one call. -/
def oneSearch : Service × AgentState :=
  ({ tenantId := "acme", tools := some [] },
    { toolCalls := [{ id := "call_1", name := "search", arguments := .object "{}" }] })

theorem oneSearch_letIn : LetIn oneSearch.1 oneSearch.2 :=
  ⟨by decide, by decide, by decide⟩

theorem batch_paired_search :
    LetIn oneSearch.1 oneSearch.2 ∧
      ((runBatch oneSearch.1 {} oneSearch.2).All
        (fun d w => (∀ ev ∈ d, anyAnswer.may ev) → EndsPaired oneSearch.2 w) ↔
          ∀ call ∈ oneSearch.2.toolCalls, Sound oneSearch.1 {} anyAnswer call) :=
  ⟨oneSearch_letIn, batch_paired_iff oneSearch.1 {} anyAnswer oneSearch.2 oneSearch_letIn⟩

/-- An MCP server may declare `true` for an input schema, which has no `.get`. -/
def booleanSchema : ToolRegistry := { tools := [{ name := "search", parameters := .other "true" }] }

/-- Its check raises, outside of what `execute` guards. -/
theorem batch_not_paired :
    LetIn oneSearch.1 oneSearch.2 ∧ ¬ (runBatch oneSearch.1 booleanSchema oneSearch.2).All
      fun d w => (∀ ev ∈ d, anyAnswer.may ev) → EndsPaired oneSearch.2 w := by
  refine ⟨oneSearch_letIn, fun paired => ?_⟩
  have always := (runBatch_fairly _ _ _ _).mp paired
  have sound := sound_of_paired oneSearch_letIn always (List.mem_singleton_self _)
  have behaves := sound.run (.absent rfl) "{}" rfl
  exact behaves.readable { name := "search", parameters := .other "true" } rfl _ rfl

end AgentStudio.Orchestration
