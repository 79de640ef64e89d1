import AgentStudio.Async.Observe
import AgentStudio.Context.Budget
import AgentStudio.Orchestration.ToolBudget

/-!
# What is sent

The loader fits a prompt to the budget. The tool results of earlier steps and the note
of a re-ask are appended to it afterwards, and counted by no one: a request is within
the budget exactly when they fit in what the loader left of it.
-/

namespace AgentStudio.Orchestration
open Async Gateway

/-! ## The loader behind the service -/

/-- The loader's arguments. A turn of the history has more to it than the service
looks at. -/
structure AssembleArgs.Renders (args : AssembleArgs) (request : Context.Request) : Prop where
  provider : request.provider = args.provider
  model : request.model = args.model
  systemPrompt : request.systemPrompt = args.systemPrompt
  currentMessage : request.currentMessage = args.currentMessage
  turns : (request.historyTurns.map fun turn => (turn.role, turn.content, turn.seq)) =
    args.historyTurns.map fun turn => (turn.role, turn.content, turn.seq)
  summary : (request.summary, request.summaryPosition, request.summaryLayers) =
    (args.summary.summary, args.summary.position, args.summary.layers)
  facts : request.memoryFacts = args.memoryFacts
  docs : (request.retrievedDocs.map fun doc => (doc.content, doc.score)) =
    args.retrievedDocs.map fun doc => (doc.content, doc.score)
  clear : request.clearToolPayloads = args.clearToolPayloads
  window : request.contextWindowOverride = none
  markers : request.cacheMarkers = none

structure Rendering where
  ask : AssembleArgs → Context.Request
  renders (args : AssembleArgs) : args.Renders (ask args)

def assembledMessage (m : Context.Message) : Message where
  role := m.role
  content := m.content
  metadata := if m.cacheControl then [("cache_control", "\x7b\"type\": \"ephemeral\"\x7d")] else []

/-- What the service gets of `assemble`. -/
def assembledAnswer :
    Except Context.AssemblyError Context.AssembledContext → Except Raised Assembled
  | .ok ctx => .ok {
      messages := ctx.messages.map assembledMessage
      totalTokens := ctx.totalTokens
      budgetTokens := ctx.budgetTokens }
  | .error (.contextBudgetExceeded text) => .error (.contextBudgetExceeded text)
  | .error (.redactionViolation text) => .error (.exception text)

section
variable (loader : Context.Loader) (rendering : Rendering)

/-- The loader answers. -/
def Assembles : Ev → Prop
  | ⟨.assemble args, r⟩ => r = assembledAnswer (loader.assemble (rendering.ask args))
  | _ => True

/-! ## Requests -/

/-- A request as it is sent: the state its visit started on, what the loader was asked
last, and whether the visit had built no other. -/
structure Sending where
  state : AgentState
  args : Option AssembleArgs
  first : Bool
  request : Request

/-- What is appended to the assembled messages. -/
def Sending.appended (x : Sending) : List String :=
  (if x.state.toolResults = [] then [] else [renderToolResults x.state.toolResults]) ++
    if x.first then (nonEmpty x.state.verifyNote).toList else []

/-- The messages are within the budget. -/
def Fits (request : Request) : Prop :=
  loader.costOf request.provider (request.model.getD "") (request.messages.map Message.content) ≤
    loader.contextBudget request.provider (request.model.getD "")

instance (request : Request) : Decidable (Fits loader request) := inferInstanceAs (Decidable (_ ≤ _))

/-- What is appended is within what the prompt leaves of the budget. -/
def Sending.Room (x : Sending) : Prop :=
  ∃ args ∈ x.args, ∃ ctx, loader.assemble (rendering.ask args) = .ok ctx ∧
    ctx.totalTokens + loader.costOf args.provider args.model x.appended ≤ ctx.budgetTokens

/-! ## Reading a run -/

/-- What is known between two calls of a run. -/
structure Desk where
  state : AgentState := {}
  args : Option AssembleArgs := none
  asked : Nat := 0
  sent : List Sending := []

/-- A node starts on a state; a request is built under a new id. -/
def Desk.watch (d : Desk) (ev : Ev) : Desk :=
  match ev.op with
  | .dispatch _ s => { d with state := s, args := none, asked := 0 }
  | .assemble args => { d with args := some args }
  | .uuid4 => { d with asked := d.asked + 1 }
  | .generate request | .stream request =>
    { d with sent := d.sent ++ [⟨d.state, d.args, d.asked = 1, request⟩] }
  | _ => d

/-- The requests of a run. -/
def sendings (t : Run) : List Sending := (t.foldl Desk.watch {}).sent

end

section
variable {loader : Context.Loader} {rendering : Rendering} {svc : Service}

/-! ## One request -/

variable (loader rendering) in
/-- What the claim of a request is about is settled by what is known of it. -/
def Sending.Settled (x : Sending) : Prop := Fits loader x.request ↔ x.Room loader rendering

variable (loader rendering svc) in
/-- `a` is what the loader made of these arguments. -/
structure Held (args : AssembleArgs) (a : Assembled) : Prop where
  provider : args.provider = svc.defaultProvider
  model : args.model = svc.model
  answer : assembledAnswer (loader.assemble (rendering.ask args)) = .ok a

theorem assembledAnswer_ok {r : Except Context.AssemblyError Context.AssembledContext}
    {a : Assembled} (ok : assembledAnswer r = .ok a) : ∃ ctx, r = .ok ctx ∧
      a.messages.map Message.content = ctx.messages.map Context.Message.content := by
  cases r with
  | ok ctx =>
    cases ok
    exact ⟨ctx, rfl, by simp [assembledMessage, Function.comp_def]⟩
  | error e => cases e <;> cases ok

theorem contents_eq (s : AgentState) (a : Assembled) :
    (requestMessages s a).map Message.content = a.messages.map Message.content ++
      ((if s.toolResults = [] then [] else [renderToolResults s.toolResults]) ++
        (nonEmpty s.verifyNote).toList) := by
  unfold requestMessages
  by_cases none_ : s.toolResults = [] <;> cases nonEmpty s.verifyNote <;> simp [none_]

/-- A request that is built on a state with the results and the note of `x`. -/
theorem Held.settled {args : AssembleArgs} {a : Assembled} (held : Held loader rendering svc args a)
    {s : AgentState} {x : Sending} {requestId : String} (asked : x.args = some args)
    (request : x.request = buildRequest svc s a requestId)
    (results : s.toolResults = x.state.toolResults)
    (note : nonEmpty s.verifyNote = if x.first then nonEmpty x.state.verifyNote else none) :
    x.Settled loader rendering := by
  obtain ⟨ctx, ok, contents⟩ := assembledAnswer_ok held.answer
  obtain ⟨counted, within, budget⟩ := Context.assemble_counted ok
  have renders := rendering.renders args
  have own : loader.budget (rendering.ask args) =
      loader.contextBudget svc.defaultProvider svc.model := by
    rw [Context.budget_eq _ _ renders.window, renders.provider, renders.model, held.provider,
      held.model]
  have appended : x.request.messages.map Message.content =
      ctx.messages.map Context.Message.content ++ x.appended := by
    rw [request, ← contents]
    change (requestMessages s a).map Message.content = _
    rw [contents_eq, results, note, Sending.appended]
    cases x.first <;> rfl
  rw [Context.cost_eq, renders.provider, renders.model, held.provider, held.model] at counted
  have fits : Fits loader x.request ↔ ctx.totalTokens +
      loader.costOf svc.defaultProvider svc.model x.appended ≤ ctx.budgetTokens := by
    rw [Fits, appended, Context.costOf_append, request]
    change loader.costOf svc.defaultProvider svc.model _ + _ ≤
      loader.contextBudget svc.defaultProvider svc.model ↔ _
    rw [counted, budget, own]
    rfl
  rw [Sending.Settled, fits, Sending.Room, asked]
  constructor
  · intro room
    refine ⟨args, rfl, ctx, ok, ?_⟩
    rw [held.provider, held.model]
    exact room
  · rintro ⟨args', is, ctx', ok', room⟩
    obtain rfl := Option.some.inj is
    obtain rfl := Except.ok.inj (ok.symm.trans ok')
    rw [held.provider, held.model] at room
    exact room

/-! ## A generation -/

/-- The tool results and the note are as they were. -/
structure GenVars.Retains (v v' : GenVars) : Prop where
  results : v'.state.toolResults = v.state.toolResults
  note : v'.state.verifyNote = v.state.verifyNote

instance : IsPreorder GenVars GenVars.Retains where
  refl _ := ⟨rfl, rfl⟩
  trans _ _ _ h h' := ⟨h'.results.trans h.results, h'.note.trans h.note⟩

theorem GenVars.Retains.of_state {v v' : GenVars} (same : v'.state = v.state) : v.Retains v' :=
  ⟨by rw [same], by rw [same]⟩

theorem compactWith_retains (assembled : Option Assembled) (overflow : Bool) :
    Coro.Moves GenVars.Retains (compactWith assembled overflow) := by
  refine Coro.moves_get.bind fun v => (Coro.moves_call _).bind fun checkpoint => ?_
  cases checkpoint with
  | none => exact Coro.moves_pure false
  | some summary =>
    exact (Coro.moves_modify fun v => ⟨rfl, rfl⟩).bind fun _ => Coro.moves_pure true

variable (svc) in
theorem assembleOrRecover_retains (prompt : String) :
    Coro.Moves GenVars.Retains (assembleOrRecover svc prompt) := by
  have body : Coro.Moves GenVars.Retains (some <$> assembleContext svc prompt) :=
    Coro.Moves.map (fun v => (assembleContext_same svc prompt v).mono fun _ _ _ same =>
      .of_state same.state) some
  refine body.tryCatch fun e => ?_
  split
  · refine Coro.moves_get.bind fun v => ?_
    split
    · exact Coro.moves_throw _
    · refine (Coro.moves_modify fun v => ⟨rfl, rfl⟩).bind fun _ =>
        (compactWith_retains none true).bind fun made => ?_
      split
      · exact Coro.moves_pure none
      · exact Coro.moves_throw _
  · exact Coro.moves_throw _

variable (svc) in
theorem preempt_retains (assembled : Assembled) :
    Coro.Moves GenVars.Retains (preempt svc assembled) := by
  refine Coro.moves_get.bind fun v => ?_
  split
  · refine (compactWith_retains (some assembled) false).bind fun made => ?_
    split
    · exact (Coro.moves_modify fun v => ⟨rfl, rfl⟩).bind fun _ => Coro.moves_pure true
    · exact Coro.moves_pure false
  · exact Coro.moves_pure false

variable (svc) in
theorem callOrRecover_retains (request : Request) (assembled : Assembled) :
    Coro.Moves GenVars.Retains (callOrRecover svc request assembled) := by
  have body : Coro.Moves GenVars.Retains (some <$> callGateway svc request) :=
    Coro.Moves.map (fun v => (callGateway_spec svc request v).mono fun _ _ _ step =>
      .of_state step.2.state) some
  refine body.tryCatch fun e => Coro.moves_get.bind fun v => ?_
  split
  · refine (Coro.moves_modify fun v => ⟨rfl, rfl⟩).bind fun _ =>
      (compactWith_retains (some assembled) true).bind fun made => ?_
    split
    · exact Coro.moves_pure none
    · exact Coro.moves_throw _
  · exact Coro.moves_throw _

variable (svc) in
theorem settleToolCalls_retains (response : Result) :
    Coro.Moves GenVars.Retains (settleToolCalls svc response) := by
  refine Coro.moves_get.bind fun v => ?_
  dsimp only
  split
  · exact (Coro.moves_modify fun v => ⟨rfl, rfl⟩).bind fun _ => Coro.moves_pure none
  · exact (Coro.moves_modify fun v => ⟨rfl, rfl⟩).bind fun _ => Coro.moves_pure _

/-- Nothing is read but that this request is sent. -/
structure Desk.Sends (request : Request) (d d' : Desk) : Prop where
  state : d'.state = d.state
  args : d'.args = d.args
  asked : d'.asked = d.asked
  sent : ∀ x ∈ d'.sent, x ∈ d.sent ∨ x = ⟨d.state, d.args, d.asked = 1, request⟩

instance (request : Request) : IsPreorder Desk (Desk.Sends request) where
  refl _ := ⟨rfl, rfl, rfl, fun _ => .inl⟩
  trans d d' d'' h h' := by
    refine ⟨h'.state.trans h.state, h'.args.trans h.args, h'.asked.trans h.asked, ?_⟩
    intro x mem
    rcases h'.sent x mem with mem | rfl
    · exact h.sent x mem
    · rw [h.state, h.args, h.asked]
      exact .inr rfl

/-- The calls around one request. -/
def Op.Carries (request : Request) (op : Op) : Prop :=
  op = .generate request ∨ op = .stream request ∨ op.isDelta = true ∨ ∃ args, op = .compact args

theorem watch_sends {request : Request} (op : Op) (carries : op.Carries request) (d : Desk)
    (r : Except Raised (Calls.Ans op)) : d.Sends request (d.watch ⟨op, r⟩) := by
  rcases carries with rfl | rfl | delta | ⟨args, rfl⟩
  · exact ⟨rfl, rfl, rfl, fun x mem => by simpa [Desk.watch] using mem⟩
  · exact ⟨rfl, rfl, rfl, fun x mem => by simpa [Desk.watch] using mem⟩
  · cases op with
    | delta chunk => exact refl_of (Desk.Sends request) d
    | _ => cases delta
  · exact refl_of (Desk.Sends request) d

theorem compactWith_carries (request : Request) (assembled : Option Assembled) (overflow : Bool) :
    Coro.Emits (I := Calls) (Op.Carries request) (compactWith assembled overflow) := by
  refine Coro.emits_get.bind fun v =>
    (Coro.emits_call (I := Calls) (.inr (.inr (.inr ⟨_, rfl⟩)))).bind fun checkpoint => ?_
  cases checkpoint with
  | none => exact Coro.emits_pure false
  | some summary => exact (Coro.emits_modify _).bind fun _ => Coro.emits_pure true

variable (svc) in
theorem callOrRecover_carries (request : Request) (assembled : Assembled) :
    Coro.Emits (I := Calls) (Op.Carries request) (callOrRecover svc request assembled) := by
  have streams : Coro.Emits (I := Calls) (Op.Carries request) (generateStreaming svc request) := by
    refine (Coro.emits_call (I := Calls) (.inr (.inl rfl))).bind fun reply => ?_
    cases reply with
    | coroutine => exact Coro.emits_throw _
    | events events ending =>
      refine ((forward_isDelta events {}).mono fun _ delta => .inr (.inr (.inl delta))).bind
        fun acc => ?_
      cases ending with
      | some e => exact Coro.emits_throw e
      | none =>
        dsimp only
        split
        · exact Coro.emits_pure _
        · split
          · exact Coro.emits_throw _
          · exact Coro.emits_pure _
  have asks : Coro.Emits (I := Calls) (Op.Carries request)
      (Coro.call (I := Calls) (.generate request) : Action GenVars Result) :=
    Coro.emits_call (I := Calls) (.inl rfl)
  have body : Coro.Emits (I := Calls) (Op.Carries request) (callGateway svc request) :=
    callGateway_leaves svc (Coro.additive_calls _) streams asks
  refine (Coro.Emits.map body some).tryCatch fun e => Coro.emits_get.bind fun v => ?_
  split
  · refine (Coro.emits_modify _).bind fun _ =>
      (compactWith_carries request (some assembled) true).bind fun made => ?_
    split
    · exact Coro.emits_pure none
    · exact Coro.emits_throw e
  · exact Coro.emits_throw e

/-! ## What a visit reads -/

/-- The run of `c`, read from the desk, with the loader's answers. -/
abbrev Reads (loader : Context.Loader) (rendering : Rendering) {σ α : Type} (c : Action σ α)
    (d : Desk) (v : σ) (Q : Desk → Except Raised α → σ → Prop) : Prop :=
  c.Ends (Assembles loader rendering) Desk.watch d v Q

/-- Between two passes of a generation that was started on `s`. -/
structure Visiting (s : AgentState) (d : Desk) (v : GenVars) : Prop where
  state : d.state = s
  results : v.state.toolResults = s.toolResults
  note : nonEmpty v.state.verifyNote = if d.asked = 0 then nonEmpty s.verifyNote else none

/-- The desk but for what the loader was asked. -/
def Desk.blank (d : Desk) : Desk := { d with args := none }

theorem Visiting.retained {s : AgentState} {d d' : Desk} {v v' : GenVars} (h : Visiting s d v)
    (desk : d'.blank = d.blank) (retains : v.Retains v') : Visiting s d' v' := by
  have state : d'.blank.state = d.blank.state := by rw [desk]
  have asked : d'.blank.asked = d.blank.asked := by rw [desk]
  exact ⟨state.trans h.state, retains.results.trans h.results, by
    rw [retains.note, show d'.asked = d.asked from asked]
    exact h.note⟩

/-- The calls before a request is built. -/
def Op.renders : Op → Bool
  | .memoryFacts _ | .assemble _ | .compact _ => true
  | _ => false

theorem watch_blank (op : Op) (renders : op.renders = true) (d : Desk)
    (r : Except Raised (Calls.Ans op)) : (d.watch ⟨op, r⟩).blank = d.blank := by
  cases op with
  | memoryFacts | assemble | compact => rfl
  | _ => cases renders

theorem compactWith_renders (assembled : Option Assembled) (overflow : Bool) :
    Coro.Emits (I := Calls) (Op.renders ·) (compactWith assembled overflow) := by
  refine Coro.emits_get.bind fun v => (Coro.emits_call (I := Calls) (by rfl)).bind fun made => ?_
  cases made with
  | none => exact Coro.emits_pure false
  | some summary => exact (Coro.emits_modify _).bind fun _ => Coro.emits_pure true

variable (svc) in
theorem retrieveFacts_calls :
    Coro.Emits (I := Calls) (fun op => ∃ message, op = .memoryFacts message)
      (retrieveFacts svc) := by
  unfold retrieveFacts
  split
  · exact Coro.emits_get.bind fun v => emits_orDefault (Coro.emits_call (I := Calls) ⟨_, rfl⟩)
  · exact Coro.emits_pure []

/-- What was assembled is the loader's answer. -/
theorem assembleContext_held (prompt : String) (d : Desk) (v : GenVars) :
    Reads loader rendering (assembleContext svc prompt) d v fun d' o _ => d'.blank = d.blank ∧
      ∀ a, o = .ok a → ∃ args, d'.args = some args ∧ Held loader rendering svc args a := by
  have facts : Reads loader rendering (retrieveFacts svc) d v fun d' _ _ => d' = d :=
    Coro.Ends.unseen (by rintro _ ⟨message, rfl⟩ d r; rfl) (retrieveFacts_calls svc)
  apply facts.bind
  · rintro _ found v' rfl
    apply Coro.Ends.get_bind
    exact .call fun r answered => ⟨rfl, fun a is => ⟨_, rfl, rfl, rfl, answered.symm.trans is⟩⟩
  · rintro _ e v' rfl
    exact ⟨rfl, fun _ is => by cases is⟩

theorem assembleOrRecover_held (prompt : String) (d : Desk) (v : GenVars) :
    Reads loader rendering (assembleOrRecover svc prompt) d v fun d' o _ => d'.blank = d.blank ∧
      ∀ a, o = .ok (some a) → ∃ args, d'.args = some args ∧ Held loader rendering svc args a := by
  apply Coro.Ends.tryCatch (Q := fun d' o _ => d'.blank = d.blank ∧
    ∀ a, o = .ok (some a) → ∃ args, d'.args = some args ∧ Held loader rendering svc args a)
  · apply (assembleContext_held prompt d v).bind
    · rintro d' a v' ⟨blank, held⟩
      refine .pure ⟨blank, ?_⟩
      rintro a' is
      obtain rfl := Option.some.inj (Except.ok.inj is)
      exact held a rfl
    · exact fun d' e v' step => ⟨step.1, fun _ is => by cases is⟩
  · exact fun _ _ _ step => step
  · rintro d' e v' ⟨blank, -⟩
    split
    · apply Coro.Ends.get_bind
      split
      · exact .throw ⟨blank, fun _ is => by cases is⟩
      · apply Coro.Ends.modify_bind
        have asks : Reads loader rendering (compactWith none true) d' { v' with compacted := true }
            fun d'' _ _ => d''.blank = d'.blank :=
          Coro.Ends.view Desk.blank watch_blank (compactWith_renders none true)
        apply asks.bind
        · intro d'' made v'' same
          cases made with
          | true => exact .pure ⟨same.trans blank, fun _ is => by cases is⟩
          | false => exact .throw ⟨same.trans blank, fun _ is => by cases is⟩
        · exact fun d'' e v'' same => ⟨same.trans blank, fun _ is => by cases is⟩
    · exact .throw ⟨blank, fun _ is => by cases is⟩

/-- The trigger reads nothing. -/
theorem preempt_reads (assembled : Assembled) (d : Desk) (v : GenVars) :
    Reads loader rendering (preempt svc assembled) d v fun d' _ _ => d' = d := by
  have calls : Coro.Emits (I := Calls) (fun op => ∃ args, op = .compact args)
      (preempt svc assembled) := by
    refine Coro.emits_get.bind fun v => ?_
    split
    · refine Coro.Emits.bind ?_ fun made => ?_
      · refine Coro.emits_get.bind fun v =>
          (Coro.emits_call (I := Calls) ⟨_, rfl⟩).bind fun made => ?_
        cases made with
        | none => exact Coro.emits_pure false
        | some summary => exact (Coro.emits_modify _).bind fun _ => Coro.emits_pure true
      · split
        · exact (Coro.emits_modify _).bind fun _ => Coro.emits_pure true
        · exact Coro.emits_pure false
    · exact Coro.emits_pure false
  exact Coro.Ends.unseen (by rintro _ ⟨args, rfl⟩ d r; rfl) calls

variable (loader rendering) in
/-- All that was sent is settled. -/
def Desk.Settled (d : Desk) : Prop := ∀ x ∈ d.sent, x.Settled loader rendering

theorem Desk.Settled.blank {d d' : Desk} (h : d.Settled loader rendering)
    (same : d'.blank = d.blank) : d'.Settled loader rendering := by
  have sent : d'.blank.sent = d.blank.sent := by rw [same]
  exact fun x mem => h x (sent ▸ mem)

theorem nonEmpty_taken (v : GenVars) : nonEmpty v.takeNote.state.verifyNote = none := by
  by_cases given : truthy v.state.verifyNote = true
  · simp [GenVars.takeNote, given, nonEmpty]
  · have none_ : nonEmpty v.state.verifyNote = none := by simpa [truthy] using given
    simp [GenVars.takeNote, given, none_]

/-- A request is built, and sent as often as it takes. -/
theorem callModel_settles {s : AgentState} {d : Desk} {v : GenVars} {args : AssembleArgs}
    {a : Assembled} (visiting : Visiting s d v) (settled : d.Settled loader rendering)
    (asked : d.args = some args) (held : Held loader rendering svc args a) :
    Reads loader rendering (callModel svc a) d v fun d' o v' =>
      d'.Settled loader rendering ∧ ∀ r, o = .ok r → Visiting s d' v' := by
  apply Coro.Ends.get_bind
  apply Coro.Ends.call_bind
  · intro requestId _
    apply Coro.Ends.modify_bind
    -- the request under its new id
    let d₁ : Desk := { d with asked := d.asked + 1 }
    let request := buildRequest svc v.state a requestId
    have own : Sending.Settled loader rendering ⟨d₁.state, d₁.args, d₁.asked = 1, request⟩ := by
      apply held.settled asked rfl
      · rw [visiting.results]
        exact congrArg AgentState.toolResults visiting.state.symm
      · rw [visiting.note, ← visiting.state]
        simp [d₁]
    have called : Reads loader rendering (callOrRecover svc request a) d₁ v.takeNote
        fun d' _ v' => d₁.Sends request d' ∧ v.takeNote.Retains v' :=
      (Coro.Ends.moves watch_sends (callOrRecover_carries svc request a)).and
        (.of_all (callOrRecover_retains svc request a v.takeNote))
    have after {d' : Desk} {v' : GenVars} (sends : d₁.Sends request d')
        (retains : v.takeNote.Retains v') :
        d'.Settled loader rendering ∧ Visiting s d' v' := by
      constructor
      · intro x mem
        rcases sends.sent x mem with mem | rfl
        · exact settled x mem
        · exact own
      · refine ⟨sends.state.trans visiting.state, retains.results.trans visiting.results, ?_⟩
        rw [retains.note, nonEmpty_taken, sends.asked, if_neg (Nat.succ_ne_zero d.asked)]
    apply called.bind
    · rintro d' response v' ⟨sends, retains⟩
      obtain ⟨settled', visiting'⟩ := after sends retains
      cases response with
      | none => exact .pure ⟨settled', fun _ _ => visiting'⟩
      | some response =>
        have silent : Coro.Emits (I := Calls) (fun _ => False) (settleToolCalls svc response) := by
          refine Coro.emits_get.bind fun v => ?_
          dsimp only
          split
          · exact (Coro.emits_modify _).bind fun _ => Coro.emits_pure none
          · exact (Coro.emits_modify _).bind fun _ => Coro.emits_pure _
        have unread : Reads loader rendering (settleToolCalls svc response) d' v'
            fun d'' _ _ => d'' = d' := Coro.Ends.unseen (fun _ made => made.elim) silent
        apply (unread.and (.of_all (settleToolCalls_retains svc response v'))).mono
        rintro _ o v'' ⟨rfl, retains'⟩
        exact ⟨settled', fun _ _ => visiting'.retained rfl retains'⟩
    · rintro d' e v' ⟨sends, retains⟩
      exact ⟨(after sends retains).1, fun _ is => by cases is⟩
  · exact fun e _ => ⟨settled, fun _ is => by cases is⟩

/-- A pass of the loop. -/
theorem generationRound_settles (prompt : String) {s : AgentState} {d : Desk} {v : GenVars}
    (visiting : Visiting s d v) (settled : d.Settled loader rendering) :
    Reads loader rendering (generationRound svc prompt) d v fun d' o v' =>
      d'.Settled loader rendering ∧ ∀ r, o = .ok r → Visiting s d' v' := by
  apply ((assembleOrRecover_held prompt d v).and
    (.of_all (assembleOrRecover_retains svc prompt v))).bind
  · rintro d₁ assembled v₁ ⟨⟨blank, held⟩, retains⟩
    have visiting₁ := visiting.retained blank retains
    have settled₁ := settled.blank blank
    cases assembled with
    | none => exact .pure ⟨settled₁, fun _ _ => visiting₁⟩
    | some a =>
      obtain ⟨args, asked, answer⟩ := held a rfl
      apply ((preempt_reads a d₁ v₁).and (.of_all (preempt_retains svc a v₁))).bind
      · rintro d₁ early v₂ ⟨rfl, retains⟩
        have visiting₂ := visiting₁.retained rfl retains
        cases early with
        | true => exact .pure ⟨settled₁, fun _ _ => visiting₂⟩
        | false => exact callModel_settles visiting₂ settled₁ asked answer
      · rintro _ e v₂ ⟨rfl, -⟩
        exact ⟨settled₁, fun _ is => by cases is⟩
  · rintro d₁ e v₁ ⟨⟨blank, -⟩, -⟩
    exact ⟨settled.blank blank, fun _ is => by cases is⟩

/-- A generation that was just started. -/
theorem generateResponse_settles {s : AgentState} {d : Desk} (start : d.state = s)
    (fresh : d.asked = 0) (settled : d.Settled loader rendering) :
    Reads loader rendering (generateResponse svc) d s fun d' _ _ =>
      d'.Settled loader rendering := by
  have body : Reads loader rendering (generationBody svc) d { state := s } fun d' _ _ =>
      d'.Settled loader rendering := by
    have prompt : Reads loader rendering (buildSystemPrompt svc) d { state := s } fun d' _ v' =>
        d' = d ∧ GenVars.Same { state := s } v' := by
      have calls : Coro.Emits (I := Calls) (fun op => op = .resolvePrompt)
          (buildSystemPrompt svc) := by
        unfold buildSystemPrompt
        split
        · have asks : Coro.Emits (I := Calls) (fun op => op = .resolvePrompt)
              (Coro.call (I := Calls) .resolvePrompt : Action GenVars (Option String)) :=
            Coro.emits_call (I := Calls) (P := fun op => op = .resolvePrompt) rfl
          exact (emits_orDefault asks).bind fun _ => Coro.emits_pure _
        · exact Coro.emits_pure _
      apply (Coro.Ends.unseen (by rintro _ rfl d r; rfl) calls).and
      apply Coro.Ends.of_all
      exact (buildSystemPrompt_spec svc { state := s }).mono fun _ _ _ step => step.2.1
    apply prompt.bind
    · rintro d text v ⟨rfl, same⟩
      apply Coro.Ends.modify_bind
      have visiting : Visiting s d { v with state := { v.state with toolCalls := [] } } := by
        have state : v.state = s := same.state
        refine ⟨start, by rw [state], ?_⟩
        rw [if_pos fresh, state]
      have loop : Reads loader rendering
          (Coro.iterate (generationRound svc text) generationFuel) d
          { v with state := { v.state with toolCalls := [] } } fun d' _ _ =>
            d'.Settled loader rendering := by
        apply Coro.Ends.iterate fun d v => Visiting s d v ∧ d.Settled loader rendering
        · rintro d v ⟨visiting, settled⟩
          apply (generationRound_settles text visiting settled).mono
          rintro d' o v' ⟨settled', visiting'⟩
          cases o with
          | ok ended =>
            cases ended with
            | none => exact ⟨visiting' none rfl, settled'⟩
            | some _ => exact settled'
          | error e => exact settled'
        · exact fun d v step => step.2
        · exact ⟨visiting, settled⟩
      apply loop.bind
      · intro d' ended v' settled'
        cases ended with
        | none => exact .throw settled'
        | some _ =>
          apply Coro.Ends.get_bind
          split
          · exact .throw settled'
          · apply Coro.Ends.modify_bind
            have calls (response : Result) : Coro.Emits (I := Calls)
                (fun op => ∃ record, op = .usage record) (recordUsage svc response) := by
              unfold recordUsage
              split
              · exact Coro.emits_get.bind fun v =>
                  emits_orDefault (Coro.emits_call (I := Calls) ⟨_, rfl⟩)
              · exact Coro.emits_pure ()
            apply (Coro.Ends.unseen (by rintro _ ⟨record, rfl⟩ d r; rfl) (calls _)).mono
            rintro _ o v'' rfl
            exact settled'
      · exact fun d' e v' settled' => settled'
    · rintro _ e v ⟨rfl, -⟩
      exact settled
  unfold generateResponse
  apply Coro.Ends.zoom
  apply Coro.Ends.tryCatch body
  · exact fun _ _ _ settled' => settled'
  · intro d' e v' settled'
    split
    · exact .throw settled'
    · split
      · exact fun _ => settled'
      · exact .throw settled'

/-! ## A turn -/

/-- Only a generation makes calls that are read. -/
theorem watch_unread {node : Node} (other : node ≠ .generateResponse) (op : Op)
    (made : node.makes op = true) (d : Desk) (r : Except Raised (Calls.Ans op)) :
    d.watch ⟨op, r⟩ = d := by
  cases op with
  | generate | stream => exact absurd (makes_asksModel made rfl) other
  | dispatch node' s => cases node <;> cases made
  | assemble args => cases node <;> first | exact absurd rfl other | cases made
  | uuid4 => cases node <;> first | exact absurd rfl other | cases made
  | _ => rfl

theorem runNode_settles (node : Node) {s : AgentState} {d : Desk} (start : d.state = s)
    (fresh : d.asked = 0) (settled : d.Settled loader rendering) :
    Reads loader rendering (runNode svc node) d s fun d' _ _ => d'.Settled loader rendering := by
  by_cases generation : node = .generateResponse
  · subst generation
    exact generateResponse_settles start fresh settled
  · have unread : Reads loader rendering (runNode svc node) d s fun d' _ _ => d' = d :=
      Coro.Ends.unseen (watch_unread generation) (runNode_makes svc node)
    apply unread.mono
    rintro _ o s' rfl
    exact settled

theorem walk_settles (n : Nat) (node : Node) (s : AgentState) {d : Desk}
    (settled : d.Settled loader rendering) :
    Reads loader rendering (walk svc n node) d s fun d' _ _ => d'.Settled loader rendering := by
  induction n generalizing node s d with
  | zero => exact .pure settled
  | succ n ih =>
    apply Coro.Ends.get_bind
    apply Coro.Ends.call_bind
    · intro _ _
      apply (runNode_settles node (d := d.watch ⟨.dispatch node s, .ok ()⟩) rfl rfl settled).bind
      · intro d' _ s' settled'
        apply Coro.Ends.get_bind
        cases nextNode svc s' node with
        | none => exact .pure settled'
        | some node' => exact ih node' s' settled'
      · exact fun d' e s' settled' => settled'
    · exact fun e _ => settled

theorem processMessage_settles (svc : Service) (input : TurnInput) :
    Reads loader rendering (processMessage svc input) {} () fun d _ _ =>
      d.Settled loader rendering := by
  have graph : Reads loader rendering (ainvoke svc) {} input.state fun d _ _ =>
      d.Settled loader rendering := by
    apply (walk_settles _ _ _ fun x mem => by cases mem).bind
    · intro d ended s settled
      cases ended with
      | true => exact .pure settled
      | false => exact .throw settled
    · exact fun d e s settled => settled
  apply Coro.Ends.scope
  apply graph.bind
  · intro d _ s settled
    apply Coro.Ends.get_bind
    have evidence : Coro.Emits (I := Calls) (fun op => ∃ record, op = .evidence record)
        (emitDecisionEvidence svc s) := by
      unfold emitDecisionEvidence
      split
      · exact emits_orDefault (Coro.emits_call (I := Calls) ⟨_, rfl⟩)
      · exact Coro.emits_pure ()
    have unread : Reads loader rendering (emitDecisionEvidence svc s) d s fun d' _ _ => d' = d :=
      Coro.Ends.unseen (by rintro _ ⟨record, rfl⟩ d r; rfl) evidence
    apply unread.bind
    · rintro _ _ s' rfl
      exact .pure settled
    · rintro _ e s' rfl
      exact settled
  · exact fun d e s settled => settled

/-- In every run of a turn, whatever the budgets, the tools and the checks do: a request
is within the context budget of its model exactly when the tool results and the note that
were appended to it are within what the loader's prompt left of the budget. -/
theorem requests_fit_iff (loader : Context.Loader) (rendering : Rendering) (svc : Service)
    (input : TurnInput) :
    (processMessage svc input).All () fun t _ _ => (∀ ev ∈ t, Assembles loader rendering ev) →
      ∀ x ∈ sendings t, Fits loader x.request ↔ x.Room loader rendering :=
  processMessage_settles svc input

end

/-! ## A long tool result -/

/-- Four characters a token, and so much reserved that 40 are left of 8192. -/
def narrow : Context.Loader where
  estimate text _ _ := (text.length + 3) / 4
  catalog := ⟨[⟨"openai", "gpt-4", 8192, 30, 60⟩]⟩
  outputReserveTokens := 8152
  cacheMarkers := true

/-- Turns that carry no payload. -/
def plainly : Rendering where
  ask args := {
    provider := args.provider
    model := args.model
    systemPrompt := args.systemPrompt
    currentMessage := args.currentMessage
    historyTurns := args.historyTurns.map fun turn =>
      { role := turn.role, content := turn.content, seq := turn.seq }
    summary := args.summary.summary
    summaryPosition := args.summary.position
    summaryLayers := args.summary.layers
    memoryFacts := args.memoryFacts
    retrievedDocs := args.retrievedDocs.map fun doc => { content := doc.content, score := doc.score }
    clearToolPayloads := args.clearToolPayloads }
  renders args := by constructor <;> simp [Function.comp_def]

/-- A tenant with tools and a prompt of its own. -/
def terse : Service := { tenantId := "acme", tools := some [], hasPromptResolver := true }

/-- The first request is answered with a tool call, and the tool with 100 characters. -/
def verbose : (op : Op) → Except Raised (Calls.Ans op)
  | .resolvePrompt => .ok (some "Be brief.")
  | .assemble args => assembledAnswer (narrow.assemble (plainly.ask args))
  | .generate request => .ok {
      content := "Done.", model := "gpt-4", provider := "openai"
      toolCalls := if request.messages.length ≤ 2 then
        some [⟨"call_1", "search", .object "{}"⟩] else none }
  | .executeTool .. => .ok { content := String.join (List.replicate 10 "0123456789") }
  | op => scripted "" [] unfaithful op

/-- The request after such a result is over the budget. -/
theorem request_over_budget : ¬ ∀ (loader : Context.Loader) (rendering : Rendering) (svc : Service)
    (input : TurnInput), (processMessage svc input).All () fun t _ _ =>
      (∀ ev ∈ t, Assembles loader rendering ev) → ∀ x ∈ sendings t, Fits loader x.request := by
  intro claim
  have fits := Coro.all_iff.mp (claim narrow plainly terse { redactedMessage := "Find it." }) _ _
    _ (Coro.runs_with _ verbose _)
  have answered : ∀ ev ∈ (processMessage terse { redactedMessage := "Find it." }).traceWith
      verbose (), Assembles narrow plainly ev := by
    intro ev mem
    have reply := Coro.mem_traceWith mem
    obtain ⟨op, r⟩ := ev
    cases op with
    | assemble args => exact reply
    | _ => trivial
  have past : ((sendings ((processMessage terse { redactedMessage := "Find it." }).traceWith
      verbose ())).any fun x => !decide (Fits narrow x.request)) = true := by decide +kernel
  obtain ⟨x, mem, past⟩ := List.any_eq_true.mp past
  simp [fits answered x mem] at past

end AgentStudio.Orchestration
