import AgentStudio.Async.Observe
import AgentStudio.Orchestration.ToolBudget
import AgentStudio.Orchestration.Visits

/-!
# One checkpoint a turn

The hook is asked when a prompt overflows, when it is about to, and when the provider
says so. The flag that remembers a checkpoint belongs to one visit of the generation,
and the graph visits it many times: a turn keeps to one checkpoint exactly when no
generation after the one that made it meets an overflow.
-/

namespace AgentStudio.Orchestration
open Async Gateway

/-! ## The hook's answers -/

/-- The hook is called. -/
def consults (ev : Ev) : Bool :=
  match ev.op with
  | .compact _ => true
  | _ => false

/-- The hook returns a checkpoint. -/
def checkpoints : Ev → Bool
  | ⟨.compact _, .ok (some _)⟩ => true
  | _ => false

/-- The hook is not called again once it has returned a checkpoint. -/
def Once (t : Run) : Prop := t.Pairwise fun ev ev' => checkpoints ev = true → consults ev' = false

/-! ## What sets off a compaction -/

/-- What the stream raises before any text of it is passed on. -/
def quietly (ending : Option Raised) : List StreamEvent → Bool → Option Raised
  | [], _ => ending
  | ev :: rest, opened =>
    match ev.type with
    | .error => some (streamError ev)
    | .delta => if opened then quietly ending rest opened else none
    | .toolUseStart | .toolUseDelta => quietly ending rest true
    | _ => quietly ending rest opened

/-- What is known of a visit between two of its calls. -/
structure Tally where
  emitted : Bool := false
  fellBack : Bool := false
  triggered : Bool := false
  consulted : Bool := false
  made : Bool := false
  again : Bool := false
  deriving DecidableEq

section
variable (svc : Service)

/-- The prompt takes up more of the budget than the ratio. -/
def Assembled.isLarge (a : Assembled) : Bool :=
  (a.totalTokens : ℚ) > a.budgetTokens * svc.preemptiveRatio

/-- The provider overflowed before any text was passed on. -/
def Tally.blames (g : Tally) (e : Raised) : Bool :=
  e.isException && !g.emitted && isProviderOverflow e

/-- A malformed stream falls back to a plain call, once. -/
def Tally.fallsBack (g : Tally) : Raised → Bool
  | .streamToolParse _ => !g.fellBack
  | _ => false

/-- The answer to the call asks for a compaction. -/
def Tally.overflows (g : Tally) : Ev → Bool
  | ⟨.assemble _, .error (.contextBudgetExceeded _)⟩ => true
  | ⟨.assemble _, .ok a⟩ => a.isLarge svc
  | ⟨.generate _, .error e⟩ => g.blames e
  | ⟨.stream _, .error e⟩ => g.blames e && !g.fallsBack e
  | ⟨.stream _, .ok (.events events ending)⟩ =>
    (quietly ending events false).any fun e => g.blames e && !g.fallsBack e
  | _ => false

def Tally.watch (g : Tally) (ev : Ev) : Tally where
  emitted := g.emitted || ev.op.isDelta
  fellBack := g.fellBack || match ev.op with
    | .generate _ => true
    | _ => false
  triggered := g.triggered || svc.hasCompaction && g.overflows svc ev
  consulted := g.consulted || consults ev
  made := g.made || checkpoints ev
  again := g.again || g.made && consults ev

/-- An overflow in these calls sets off a compaction. -/
def triggers (calls : Run) : Bool := (calls.foldl (Tally.watch svc) {}).triggered

end

/-! ## The tally of a run -/

section
variable {svc : Service}

theorem watch_consulted (g : Tally) (t : Run) :
    (t.foldl (Tally.watch svc) g).consulted = (g.consulted || t.any consults) := by
  induction t generalizing g with
  | nil => simp
  | cons ev t ih => rw [List.foldl_cons, ih, List.any_cons, ← Bool.or_assoc]; rfl

theorem watch_again (g : Tally) (t : Run) : (t.foldl (Tally.watch svc) g).again = false ↔
    g.again = false ∧ (g.made = true → ∀ ev ∈ t, consults ev = false) ∧ Once t := by
  induction t generalizing g with
  | nil => simp [Once]
  | cons ev t ih =>
    have cons : Once (ev :: t) ↔
        (∀ ev' ∈ t, checkpoints ev = true → consults ev' = false) ∧ Once t := List.pairwise_cons
    rw [List.foldl_cons, ih, cons]
    cases made : g.made <;> cases checkpoint : checkpoints ev <;> cases asked : consults ev <;>
      simp [Tally.watch, made, checkpoint, asked]

/-- The calls that the tally does not count. -/
def Op.uncounted : Op → Bool
  | .memoryFacts _ | .resolvePrompt | .uuid4 | .usage _ => true
  | _ => false

theorem watch_uncounted (op : Op) (uncounted : op.uncounted = true) (g : Tally)
    (r : Except Raised (Calls.Ans op)) : g.watch svc ⟨op, r⟩ = g := by
  cases op with
  | memoryFacts | resolvePrompt | uuid4 | usage =>
    simp [Tally.watch, Tally.overflows, consults, checkpoints, Op.isDelta]
  | _ => cases uncounted

/-! ## One generation -/

variable (svc) in
/-- The run of `c`, counted. -/
abbrev Counts {α : Type} (c : Action GenVars α) (g : Tally) (v : GenVars)
    (Q : Tally → Except Raised α → GenVars → Prop) : Prop :=
  c.Ends (fun _ => True) (Tally.watch svc) g v Q

variable (svc) in
/-- The tally and the flags of the visit: a checkpoint sets the flag, the flag is set by
a call of the hook, and no overflow is unanswered but `due`. -/
structure Tied (due : Bool) (g : Tally) (v : GenVars) : Prop where
  emitted : g.emitted = v.streamEmitted
  fellBack : svc.streaming = true → g.fellBack = v.fallbackUsed
  made : g.made = true → v.compacted = true
  consulted : v.compacted = true → g.consulted = true
  once : g.again = false
  triggered : g.triggered = (g.consulted || svc.hasCompaction && due)

/-- The variables but for the flags may change. -/
theorem Tied.flags {due : Bool} {g : Tally} {v v' : GenVars} (h : Tied svc due g v)
    (emitted : v'.streamEmitted = v.streamEmitted) (fellBack : v'.fallbackUsed = v.fallbackUsed)
    (compacted : v'.compacted = v.compacted) : Tied svc due g v' :=
  ⟨emitted ▸ h.emitted, fellBack ▸ h.fellBack, compacted ▸ h.made, compacted ▸ h.consulted,
    h.once, h.triggered⟩

/-- What is due where it cannot be asked for, or was. -/
theorem Tied.waived {due : Bool} {g : Tally} {v : GenVars} (h : Tied svc due g v)
    (waived : v.compacted = true ∨ svc.hasCompaction = false ∨ due = false) :
    Tied svc false g v := by
  refine ⟨h.emitted, h.fellBack, h.made, h.consulted, h.once, ?_⟩
  rw [h.triggered]
  rcases waived with compacted | none_ | paid
  · simp [h.consulted compacted]
  · simp [none_]
  · simp [paid]

/-- The hook is asked. -/
theorem compactWith_counts (assembled : Option Assembled) (overflow : Bool) (g : Tally)
    (v : GenVars) : Counts svc (compactWith assembled overflow) g v fun g' o v' =>
      ∃ made, g' = { g with
        consulted := true, made := g.made || made, again := g.again || g.made } ∧
      (made = true → o = .ok true) ∧ v'.streamEmitted = v.streamEmitted ∧
        v'.fallbackUsed = v.fallbackUsed ∧ v'.compacted = v.compacted := by
  have asked (args : CompactArgs) (r : Except Raised (Option Summary)) :
      g.watch svc ⟨.compact args, r⟩ = { g with
        consulted := true, made := g.made || checkpoints ⟨.compact args, r⟩,
        again := g.again || g.made } := by
    simp [Tally.watch, Tally.overflows, consults, Op.isDelta]
  apply Coro.Ends.get_bind
  apply Coro.Ends.call_bind
  · intro checkpoint _
    rw [asked]
    cases checkpoint with
    | none => exact .pure ⟨false, rfl, by simp, rfl, rfl, rfl⟩
    | some summary =>
      apply Coro.Ends.modify_bind
      exact .pure ⟨true, rfl, fun _ => rfl, rfl, rfl, rfl⟩
  · intro e _
    rw [asked]
    exact ⟨false, rfl, by simp, rfl, rfl, rfl⟩

/-- An overflow that is answered by the hook. -/
theorem Tied.answered {due : Bool} {g : Tally} {v v' : GenVars} (h : Tied svc due g v)
    (fresh : v.compacted = false) (hook_ : svc.hasCompaction = true) (due_ : due = true)
    {made : Bool} (emitted : v'.streamEmitted = v.streamEmitted)
    (fellBack : v'.fallbackUsed = v.fallbackUsed) (compacted : made = true → v'.compacted = true) :
    Tied svc false
      { g with consulted := true, made := g.made || made, again := g.again || g.made } v' := by
  have none_ : g.made = false := by
    by_contra some_
    rw [h.made (by simpa using some_)] at fresh
    cases fresh
  constructor
  · exact h.emitted.trans emitted.symm
  · exact fun streaming => (h.fellBack streaming).trans fellBack.symm
  · simpa [none_] using compacted
  · exact fun _ => rfl
  · simp [h.once, none_]
  · simp [h.triggered, hook_, due_]

variable (svc) in
/-- What an answer of the loader asks for. -/
def dueAfter : Except Raised Assembled → Bool
  | .ok a => a.isLarge svc
  | .error (.contextBudgetExceeded _) => true
  | .error _ => false

theorem assembleContext_counts (prompt : String) {g : Tally} {v : GenVars}
    (tied : Tied svc false g v) : Counts svc (assembleContext svc prompt) g v fun g' o v' =>
      v' = v ∧ Tied svc (dueAfter svc o) g' v := by
  have facts : Counts svc (retrieveFacts svc) g v fun g' o v' => g' = g ∧ v' = v ∧
      ∀ e, o = .error e → e.isException = false := by
    unfold retrieveFacts
    split
    · apply Coro.Ends.get_bind
      apply Coro.Ends.and
      · apply Coro.Ends.unseen watch_uncounted
        exact emits_orDefault (Coro.emits_call (I := Calls) (by rfl))
      · apply Coro.Ends.of_all
        have unmoved : Coro.Moves (@Eq GenVars)
            (orDefault (Coro.call (I := Calls) (.memoryFacts v.state.redactedMessage)) []) :=
          moves_orDefault (Coro.moves_call _)
        exact ((unmoved v).mono fun _ _ _ same => same.symm).and (orDefault_raises _ _ _)
    · exact .pure ⟨rfl, rfl, fun _ is => by cases is⟩
  apply facts.bind
  · rintro _ found _ ⟨rfl, rfl, -⟩
    apply Coro.Ends.get_bind
    apply Coro.Ends.call
    intro r _
    refine ⟨rfl, ?_⟩
    refine ⟨?_, ?_, ?_, ?_, ?_, ?_⟩
    · simpa [Tally.watch, Op.isDelta] using tied.emitted
    · simpa [Tally.watch] using tied.fellBack
    · simpa [Tally.watch, checkpoints] using tied.made
    · simpa [Tally.watch, consults] using tied.consulted
    · simpa [Tally.watch, consults] using tied.once
    · have before := tied.triggered
      simp only [Bool.and_false, Bool.or_false] at before
      cases r with
      | ok a => simp [Tally.watch, consults, Tally.overflows, dueAfter, before]
      | error e => cases e <;> simp [Tally.watch, consults, Tally.overflows, dueAfter, before]
  · rintro _ e _ ⟨rfl, rfl, base⟩
    have base := base e rfl
    refine ⟨rfl, ?_⟩
    cases e <;> first | exact tied | cases base

theorem assembleOrRecover_counts (prompt : String) {g : Tally} {v : GenVars}
    (tied : Tied svc false g v) : Counts svc (assembleOrRecover svc prompt) g v fun g' o v' =>
      match o with
      | .ok (some a) => Tied svc (a.isLarge svc) g' v'
      | _ => Tied svc false g' v' := by
  apply Coro.Ends.tryCatch (Q := fun g' o v' => ∃ o₀, o = some <$> o₀ ∧
    Tied svc (dueAfter svc o₀) g' v')
  · apply (assembleContext_counts prompt tied).bind
    · rintro g' a v' ⟨rfl, tied'⟩
      exact .pure ⟨.ok a, rfl, tied'⟩
    · rintro g' e v' ⟨rfl, tied'⟩
      exact ⟨.error e, rfl, tied'⟩
  · rintro g' a v' ⟨o₀, is, tied'⟩
    cases o₀ with
    | error e => cases is
    | ok a₀ =>
      cases is
      exact tied'
  · rintro g' e v' ⟨o₀, is, tied'⟩
    cases o₀ with
    | ok a₀ => cases is
    | error e₀ =>
      cases is
      split
      · apply Coro.Ends.get_bind
        by_cases spent : (v'.compacted || !svc.hasCompaction) = true
        · rw [if_pos spent]
          apply Coro.Ends.throw
          apply tied'.waived
          simpa [or_assoc] using Or.inl spent
        · rw [if_neg spent]
          simp only [Bool.or_eq_true, Bool.not_eq_true', not_or, Bool.not_eq_true,
            Bool.not_eq_false] at spent
          apply Coro.Ends.modify_bind
          apply (compactWith_counts none true g' _).bind
          · rintro _ answer v'' ⟨made, rfl, -, emitted, fellBack, compacted⟩
            have answered := tied'.answered spent.1 spent.2 rfl emitted fellBack
              fun _ : made = true => compacted
            cases answer with
            | true => exact .pure answered
            | false => exact .throw answered
          · rintro _ e v'' ⟨made, rfl, -, emitted, fellBack, compacted⟩
            exact tied'.answered spent.1 spent.2 rfl emitted fellBack fun _ => compacted
      · rename_i other
        apply Coro.Ends.throw
        have none_ : dueAfter svc (.error e) = false := by
          cases e with
          | contextBudgetExceeded text => exact absurd rfl (other text)
          | _ => rfl
        rw [none_] at tied'
        exact tied'

theorem preempt_counts (a : Assembled) {g : Tally} {v : GenVars}
    (tied : Tied svc (a.isLarge svc) g v) : Counts svc (preempt svc a) g v fun g' _ v' =>
      Tied svc false g' v' := by
  apply Coro.Ends.get_bind
  by_cases asks : (svc.hasCompaction && !v.compacted && a.isLarge svc) = true
  · rw [if_pos (by simpa [Assembled.isLarge] using asks)]
    simp only [Bool.and_eq_true, Bool.not_eq_true'] at asks
    obtain ⟨⟨hook_, fresh⟩, large⟩ := asks
    apply (compactWith_counts (some a) false g v).bind
    · rintro _ answer v' ⟨made, rfl, returned, emitted, fellBack, compacted⟩
      cases answer with
      | true =>
        apply Coro.Ends.modify_bind
        exact .pure (tied.answered fresh hook_ large emitted fellBack fun _ => rfl)
      | false =>
        have none_ : made = true → False := fun some_ => by cases returned some_
        exact .pure (tied.answered fresh hook_ large emitted fellBack fun some_ =>
          (none_ some_).elim)
    · rintro _ e v' ⟨made, rfl, returned, emitted, fellBack, compacted⟩
      have none_ : made = true → False := fun some_ => by cases returned some_
      exact tied.answered fresh hook_ large emitted fellBack fun some_ => (none_ some_).elim
  · rw [if_neg (by simpa [Assembled.isLarge] using asks)]
    apply Coro.Ends.pure
    apply tied.waived
    grind

/-! ## The model call -/

/-- What a stretch of the stream does to the tally: it may show that text was passed on. -/
structure Emitting (g : Tally) (v : GenVars) (g' : Tally) (v' : GenVars) : Prop where
  tally : g' = { g with emitted := g'.emitted }
  more : g.emitted = true → g'.emitted = true
  emitted : g'.emitted = v'.streamEmitted
  fellBack : v'.fallbackUsed = v.fallbackUsed
  compacted : v'.compacted = v.compacted

theorem Emitting.refl {g : Tally} {v : GenVars} (same : g.emitted = v.streamEmitted) :
    Emitting g v g v := ⟨rfl, id, same, rfl, rfl⟩

/-- How the events of a stream end, if some text is not passed on before. -/
def Ended (ending : Option Raised) (quiet : Option Raised) (g : Tally) (o : Except Raised StreamAcc)
    (g' : Tally) : Prop :=
  match quiet with
  | some e => g' = g ∧ (o = .error e ∨ ∃ acc, o = .ok acc ∧ ending = some e)
  | none => g'.emitted = true ∨ ∃ acc, o = .ok acc ∧ ending = none

theorem forward_counts (ending : Option Raised) (events : List StreamEvent) (acc : StreamAcc)
    {g : Tally} {v : GenVars} (same : g.emitted = v.streamEmitted) :
    Counts svc (forward events acc) g v fun g' o v' => Emitting g v g' v' ∧
      Ended ending (quietly ending events (acc.toolAcc ≠ [])) g o g' := by
  induction events generalizing acc g v with
  | nil =>
    apply Coro.Ends.pure
    refine ⟨.refl same, ?_⟩
    cases ending with
    | none => exact .inr ⟨acc, rfl, rfl⟩
    | some e => exact ⟨rfl, .inr ⟨acc, rfl, rfl⟩⟩
  | cons ev rest ih =>
    have opens (args : String) : (acc.update ev args).toolAcc ≠ [] := by
      unfold StreamAcc.update
      dsimp only
      split
      · rename_i there
        intro none_
        have empty : acc.toolAcc = [] := by simpa using none_
        simp [empty] at there
      · simp
    rw [forward]
    cases type : ev.type with
    | delta =>
      dsimp only
      by_cases opened : acc.toolAcc ≠ []
      · rw [if_pos opened]
        have rest_ := ih acc same
        simpa [quietly, type, opened] using rest_
      · rw [if_neg opened]
        apply Coro.Ends.modify_bind
        apply Coro.Ends.post_bind
        intro r _
        have told : g.watch svc ⟨.delta ev.content, r⟩ = { g with emitted := true } := by
          simp [Tally.watch, Tally.overflows, consults, checkpoints, Op.isDelta]
        rw [told]
        have rest_ := ih { acc with parts := acc.parts ++ [ev.content] }
          (g := { g with emitted := true }) (v := { v with streamEmitted := true }) rfl
        apply rest_.mono
        rintro g' o v' ⟨emitting, -⟩
        have some_ : g'.emitted = true := emitting.more rfl
        refine ⟨⟨emitting.tally, fun _ => some_, emitting.emitted, emitting.fellBack,
          emitting.compacted⟩, ?_⟩
        simp only [quietly, type, opened, decide_false, Bool.false_eq_true, if_false]
        exact .inl some_
    | toolUseStart => simpa [quietly, type, opens] using ih (acc.update ev "") same
    | toolUseDelta => simpa [quietly, type, opens] using ih (acc.update ev (ev.args.getD "")) same
    | usage => simpa [quietly, type] using ih { acc with usage := _ } same
    | done => simpa [quietly, type] using ih { acc with
        provider := _, model := _, finishReason := _, usage := _ } same
    | toolUseEnd => simpa [quietly, type] using ih acc same
    | error =>
      apply Coro.Ends.throw
      refine ⟨.refl same, ?_⟩
      simp only [quietly, type]
      exact ⟨rfl, .inl rfl⟩

theorem Tied.emits {due : Bool} {g g' : Tally} {v v' : GenVars} (h : Tied svc due g v)
    (emitting : Emitting g v g' v') : Tied svc due g' v' := by
  obtain ⟨tally, -, emitted, fellBack, compacted⟩ := emitting
  rw [tally]
  exact ⟨emitted, fellBack ▸ h.fellBack, compacted ▸ h.made, compacted ▸ h.consulted, h.once,
    h.triggered⟩

/-- An answer that asks for a compaction, and is no call of the hook. -/
theorem Tied.asked {g : Tally} {v : GenVars} (h : Tied svc false g v) (due : Bool) :
    Tied svc due { g with triggered := g.triggered || svc.hasCompaction && due } v := by
  refine ⟨h.emitted, h.fellBack, h.made, h.consulted, h.once, ?_⟩
  have before := h.triggered
  simp only [Bool.and_false, Bool.or_false] at before
  simp [before]

theorem Tally.blames_emitted {g : Tally} (emitted : g.emitted = true) (e : Raised) :
    g.blames e = false := by simp [Tally.blames, emitted]

/-- What the orchestration itself raises about a stream is not taken for an overflow. -/
theorem Tally.blames_own (g : Tally) :
    g.blames (.streamToolParse "malformed tool arguments in stream") = false ∧
      g.blames (.exception
        "'async for' requires an object with __aiter__ method, got coroutine") = false := by
  have parse : isProviderOverflow (.streamToolParse "malformed tool arguments in stream") =
      false := by decide +kernel
  have iterate : isProviderOverflow (.exception
      "'async for' requires an object with __aiter__ method, got coroutine") = false := by
    decide +kernel
  simp [Tally.blames, parse, iterate]

theorem generateStreaming_counts (request : Request) {g : Tally} {v : GenVars}
    (tied : Tied svc false g v) : Counts svc (generateStreaming svc request) g v fun g' o v' =>
      g'.fellBack = g.fellBack ∧
        match o with
        | .ok _ => Tied svc false g' v'
        | .error e => Tied svc (g'.blames e && !g'.fallsBack e) g' v' := by
  have streams (r : Except Raised StreamReply) : g.watch svc ⟨.stream request, r⟩ = { g with
      triggered := g.triggered || svc.hasCompaction && g.overflows svc ⟨.stream request, r⟩ } := by
    simp [Tally.watch, consults, checkpoints, Op.isDelta]
  apply Coro.Ends.call_bind
  · intro reply _
    rw [streams]
    cases reply with
    | coroutine =>
      apply Coro.Ends.throw
      refine ⟨rfl, ?_⟩
      dsimp only
      rw [(Tally.blames_own _).2]
      exact tied.asked false
    | events events ending =>
      have asked := tied.asked ((quietly ending events false).any fun e =>
        g.blames e && !g.fallsBack e)
      generalize start : Tally.mk g.emitted g.fellBack (g.triggered || svc.hasCompaction &&
        g.overflows svc ⟨.stream request, .ok (.events events ending)⟩) g.consulted g.made
          g.again = g₁
      have asked : Tied svc ((quietly ending events false).any fun e =>
          g.blames e && !g.fallsBack e) g₁ v := start ▸ asked
      have fellBack : g₁.fellBack = g.fellBack := start ▸ rfl
      have same (e : Raised) : g₁.blames e = g.blames e ∧ g₁.fallsBack e = g.fallsBack e := by
        rw [← start]
        exact ⟨rfl, by cases e <;> rfl⟩
      -- what is raised after text is not blamed, and otherwise was seen in the events
      have raises {e : Raised} {g' : Tally} {v' : GenVars} (emitting : Emitting g₁ v g' v')
          (seen : (quietly ending events false = some e ∧ g' = g₁) ∨
            (quietly ending events false = none ∧ g'.blames e = false)) :
          Tied svc (g'.blames e && !g'.fallsBack e) g' v' := by
        have moved := asked.emits emitting
        rcases seen with ⟨is, rfl⟩ | ⟨none_, clear⟩
        · rw [is] at moved
          rw [(same e).1, (same e).2]
          exact moved
        · rw [none_] at moved
          rw [clear]
          exact moved
      have kept {g' : Tally} {v' : GenVars} (emitting : Emitting g₁ v g' v') :
          g'.fellBack = g.fellBack := by
        rw [emitting.tally]
        exact fellBack
      have read : Counts svc (forward events {}) g₁ v fun g' o v' => Emitting g₁ v g' v' ∧
          Ended ending (quietly ending events false) g₁ o g' :=
        forward_counts ending events {} asked.emitted
      apply read.bind
      · rintro g' acc v' ⟨emitting, ended⟩
        cases ending with
        | some e =>
          refine .throw ⟨kept emitting, raises emitting ?_⟩
          cases quiet : quietly (some e) events false with
          | some e₀ =>
            rw [quiet] at ended
            obtain ⟨same_, raised | ⟨acc', -, is⟩⟩ := ended
            · cases raised
            · exact .inl ⟨is.symm ▸ rfl, same_⟩
          | none =>
            rw [quiet] at ended
            rcases ended with emitted | ⟨acc', -, none_⟩
            · exact .inr ⟨rfl, Tally.blames_emitted emitted e⟩
            · cases none_
        | none =>
          have none_ : quietly none events false = none := by
            cases quiet : quietly none events false with
            | none => rfl
            | some e₀ =>
              rw [quiet] at ended
              obtain ⟨-, raised | ⟨acc', -, is⟩⟩ := ended
              · cases raised
              · cases is
          have moved := asked.emits emitting
          rw [none_] at moved
          dsimp only
          split
          · exact .pure ⟨kept emitting, moved⟩
          · split
            · exact .throw ⟨kept emitting,
                raises emitting (.inr ⟨none_, (Tally.blames_own g').1⟩)⟩
            · exact .pure ⟨kept emitting, moved⟩
      · rintro g' e v' ⟨emitting, ended⟩
        refine ⟨kept emitting, raises emitting ?_⟩
        cases quiet : quietly ending events false with
        | some e₀ =>
          rw [quiet] at ended
          obtain ⟨same_, raised | ⟨acc', raised, -⟩⟩ := ended
          · cases raised
            exact .inl ⟨rfl, same_⟩
          · cases raised
        | none =>
          rw [quiet] at ended
          rcases ended with emitted | ⟨acc', raised, -⟩
          · exact .inr ⟨rfl, Tally.blames_emitted emitted e⟩
          · cases raised
  · intro e _
    rw [streams]
    refine ⟨rfl, ?_⟩
    exact tied.asked (g.blames e && !g.fallsBack e)

/-- The flags are the tally's; what the gateway raised may be due to an overflow. -/
theorem callGateway_counts (request : Request) {g : Tally} {v : GenVars}
    (tied : Tied svc false g v) : Counts svc (callGateway svc request) g v fun g' o v' =>
      match o with
      | .ok _ => Tied svc false g' v'
      | .error e => Tied svc (g'.blames e) g' v' := by
  have asks {g : Tally} {v v₁ : GenVars} (tied : Tied svc false g v)
      (emitted : v₁.streamEmitted = v.streamEmitted) (compacted : v₁.compacted = v.compacted)
      (used : svc.streaming = true → v₁.fallbackUsed = true) :
      Counts svc (α := Result) (Coro.call (I := Calls) (.generate request)) g v₁ fun g' o v' =>
        match o with
        | .ok _ => Tied svc false g' v'
        | .error e => Tied svc (g'.blames e) g' v' := by
    apply Coro.Ends.call
    intro r _
    have told : g.watch svc ⟨.generate request, r⟩ = { g with
        fellBack := true
        triggered := g.triggered || svc.hasCompaction && g.overflows svc ⟨.generate request, r⟩ } := by
      simp [Tally.watch, consults, checkpoints, Op.isDelta]
    rw [told]
    have fell {due : Bool} {g : Tally} (h : Tied svc due g v) :
        Tied svc due { g with fellBack := true } v₁ :=
      ⟨h.emitted.trans emitted.symm, fun streaming => (used streaming).symm, compacted ▸ h.made,
        compacted ▸ h.consulted, h.once, h.triggered⟩
    cases r with
    | ok response => exact fell (tied.asked false)
    | error e => exact fell (tied.asked (g.blames e))
  unfold callGateway
  by_cases streaming : svc.streaming = true
  · rw [if_pos streaming]
    apply (generateStreaming_counts request tied).tryCatch
    · exact fun g' response v' step => step.2
    · rintro g' e v' ⟨-, raised⟩
      split
      · rename_i text
        apply Coro.Ends.get_bind
        by_cases used : v'.fallbackUsed = true
        · rw [if_pos used]
          apply Coro.Ends.throw
          have fell : g'.fallsBack (.streamToolParse text) = false := by
            simp [Tally.fallsBack, raised.fellBack streaming, used]
          dsimp only at raised
          rw [fell, Bool.not_false, Bool.and_true] at raised
          exact raised
        · rw [if_neg used]
          apply Coro.Ends.modify_bind
          have fell : g'.fallsBack (.streamToolParse text) = true := by
            simp [Tally.fallsBack, raised.fellBack streaming, used]
          dsimp only at raised
          rw [fell, Bool.not_true, Bool.and_false] at raised
          exact asks raised rfl rfl fun _ => rfl
      · rename_i other
        apply Coro.Ends.throw
        have fell : g'.fallsBack e = false := by
          cases e with
          | streamToolParse text => exact absurd rfl (other text)
          | _ => rfl
        dsimp only at raised
        rw [fell, Bool.not_false, Bool.and_true] at raised
        exact raised
  · rw [if_neg streaming]
    exact asks tied rfl rfl fun is => absurd is streaming

theorem callOrRecover_counts (request : Request) (a : Assembled) {g : Tally} {v : GenVars}
    (tied : Tied svc false g v) : Counts svc (callOrRecover svc request a) g v fun g' _ v' =>
      Tied svc false g' v' := by
  apply Coro.Ends.tryCatch (Q := fun g' o v' => match o with
    | .ok _ => Tied svc false g' v'
    | .error e => Tied svc (g'.blames e) g' v')
  · apply (callGateway_counts request tied).bind
    · exact fun g' response v' step => .pure step
    · exact fun g' e v' step => step
  · exact fun g' _ v' step => step
  · intro g' e v' due
    apply Coro.Ends.get_bind
    by_cases recovers : (e.isException && !v'.compacted && !v'.streamEmitted &&
        svc.hasCompaction && isProviderOverflow e) = true
    · rw [if_pos recovers]
      have emitted := due.emitted
      have blamed : g'.blames e = true := by
        rw [Tally.blames, emitted]
        grind
      simp only [Bool.and_eq_true, Bool.not_eq_true'] at recovers
      apply Coro.Ends.modify_bind
      apply (compactWith_counts (some a) true g' _).bind
      · rintro _ answer v'' ⟨made, rfl, -, emitted, fellBack, compacted⟩
        have answered := due.answered recovers.1.1.1.2 recovers.1.2 blamed emitted fellBack
          fun _ : made = true => compacted
        cases answer with
        | true => exact .pure answered
        | false => exact .throw answered
      · rintro _ e v'' ⟨made, rfl, -, emitted, fellBack, compacted⟩
        exact due.answered recovers.1.1.1.2 recovers.1.2 blamed emitted fellBack fun _ => compacted
    · rw [if_neg recovers]
      apply Coro.Ends.throw
      apply due.waived
      have emitted := due.emitted
      rw [Tally.blames, emitted]
      grind

/-! ## A visit -/

theorem callModel_counts (a : Assembled) {g : Tally} {v : GenVars} (tied : Tied svc false g v) :
    Counts svc (callModel svc a) g v fun g' _ v' => Tied svc false g' v' := by
  apply Coro.Ends.get_bind
  apply Coro.Ends.call_bind
  · intro requestId _
    rw [watch_uncounted _ rfl]
    apply Coro.Ends.modify_bind
    have taken : Tied svc false g v.takeNote := tied.flags rfl rfl rfl
    apply (callOrRecover_counts _ a taken).bind
    · intro g' response v' tied'
      cases response with
      | none => exact .pure tied'
      | some response =>
        apply Coro.Ends.get_bind
        dsimp only
        split
        · apply Coro.Ends.modify_bind
          exact .pure (tied'.flags rfl rfl rfl)
        · apply Coro.Ends.modify_bind
          exact .pure (tied'.flags rfl rfl rfl)
    · exact fun g' e v' tied' => tied'
  · intro e _
    rw [watch_uncounted _ rfl]
    exact tied

theorem generationRound_counts (prompt : String) {g : Tally} {v : GenVars}
    (tied : Tied svc false g v) : Counts svc (generationRound svc prompt) g v fun g' _ v' =>
      Tied svc false g' v' := by
  apply (assembleOrRecover_counts prompt tied).bind
  · intro g' assembled v' step
    cases assembled with
    | none => exact .pure step
    | some a =>
      apply (preempt_counts a step).bind
      · intro g' early v' tied'
        cases early with
        | true => exact .pure tied'
        | false => exact callModel_counts a tied'
      · exact fun g' e v' tied' => tied'
  · exact fun g' e v' step => step

/-- What the hook has no part in. -/
theorem uncounted_counts {α : Type} {c : Action GenVars α}
    (calls : Coro.Emits (I := Calls) (Op.uncounted ·) c) (unmoved : Coro.Moves (@Eq GenVars) c)
    {g : Tally} {v : GenVars} (tied : Tied svc false g v) :
    Counts svc c g v fun g' _ v' => Tied svc false g' v' := by
  have unseen : Counts svc c g v fun g' _ _ => g' = g := Coro.Ends.unseen watch_uncounted calls
  apply (unseen.and (.of_all (unmoved v))).mono
  rintro _ o _ ⟨rfl, rfl⟩
  exact tied

theorem generationBody_counts {g : Tally} {v : GenVars} (tied : Tied svc false g v) :
    Counts svc (generationBody svc) g v fun g' _ v' => Tied svc false g' v' := by
  have prompt : Counts svc (buildSystemPrompt svc) g v fun g' _ v' => Tied svc false g' v' := by
    unfold buildSystemPrompt
    split
    · exact uncounted_counts
        ((emits_orDefault (Coro.emits_call (I := Calls) (by rfl))).bind fun _ => Coro.emits_pure _)
        ((moves_orDefault (Coro.moves_call _)).bind fun _ => Coro.moves_pure _) tied
    · exact .pure tied
  have usage (response : Result) {g : Tally} {v : GenVars} (tied : Tied svc false g v) :
      Counts svc (recordUsage svc response) g v fun g' _ v' => Tied svc false g' v' := by
    unfold recordUsage
    split
    · exact uncounted_counts
        (Coro.emits_get.bind fun _ => emits_orDefault (Coro.emits_call (I := Calls) (by rfl)))
        (Coro.moves_get.bind fun _ => moves_orDefault (Coro.moves_call _)) tied
    · exact .pure tied
  apply prompt.bind
  · intro g' text v' tied'
    apply Coro.Ends.modify_bind
    have cleared : Tied svc false g' { v' with state := { v'.state with toolCalls := [] } } :=
      tied'.flags rfl rfl rfl
    have loop : Counts svc (Coro.iterate (generationRound svc text) generationFuel) g'
        { v' with state := { v'.state with toolCalls := [] } } fun g' _ v' =>
          Tied svc false g' v' := by
      apply Coro.Ends.iterate (Tied svc false)
      · intro g v tied
        apply (generationRound_counts text tied).mono
        intro g' o v' tied'
        cases o with
        | ok ended => cases ended <;> exact tied'
        | error e => exact tied'
      · exact fun g v tied => tied
      · exact cleared
    apply loop.bind
    · intro g' ended v' tied'
      cases ended with
      | none => exact .throw tied'
      | some _ =>
        apply Coro.Ends.get_bind
        split
        · exact .throw tied'
        · apply Coro.Ends.modify_bind
          exact usage _ (tied'.flags rfl rfl rfl)
    · exact fun g' e v' tied' => tied'
  · exact fun g' e v' tied' => tied'

/-- In a generation the hook makes one checkpoint at most, and it is asked exactly when
an overflow asks for it. -/
theorem generateResponse_counts (s : AgentState) :
    (generateResponse svc).All s fun t _ _ => Once t ∧ t.any consults = triggers svc t := by
  have start : Tied svc false {} { state := s } :=
    ⟨rfl, fun _ => rfl, fun made => (by cases made), fun spent => (by cases spent), rfl, by simp⟩
  have counts : Coro.Ends (fun _ => True) (Tally.watch svc) (generateResponse svc) {} s
      fun g _ _ => g.again = false ∧ g.triggered = g.consulted := by
    have settled {g : Tally} {v : GenVars} (tied : Tied svc false g v) :
        g.again = false ∧ g.triggered = g.consulted :=
      ⟨tied.once, by simpa using tied.triggered⟩
    unfold generateResponse
    apply Coro.Ends.zoom
    apply (generationBody_counts start).tryCatch
    · exact fun g _ v tied => settled tied
    · intro g e v tied
      split
      · exact .throw (settled tied)
      · split
        · exact fun _ => settled tied
        · exact .throw (settled tied)
  apply Coro.All.mono counts
  intro t o s' step
  obtain ⟨again, triggered⟩ := step fun _ _ => trivial
  refine ⟨((watch_again _ t).mp again).2.2, ?_⟩
  rw [triggers, triggered, watch_consulted]
  rfl

/-! ## A turn -/

/-- The calls before the first visit. -/
def untilDispatch (t : Run) : Run := t.takeWhile fun ev => !ev.op.isDispatch

theorem visits_call {ev : Ev} (call : ev.op.isDispatch = false) (t : Run) :
    untilDispatch (ev :: t) = ev :: untilDispatch t ∧ visits (ev :: t) = visits t := by
  refine ⟨List.takeWhile_cons_of_pos (by simp [call]), ?_⟩
  obtain ⟨op, r⟩ := ev
  cases op with
  | dispatch => cases call
  | _ => rfl

theorem visits_dispatch {ev : Ev} (starts : ev.op.isDispatch = true) (t : Run) :
    untilDispatch (ev :: t) = [] ∧
      ∃ node s, visits (ev :: t) = ⟨node, s, untilDispatch t⟩ :: visits t := by
  refine ⟨List.takeWhile_cons_of_neg (by simp [starts]), ?_⟩
  obtain ⟨op, r⟩ := ev
  cases op with
  | dispatch node s => exact ⟨node, s, rfl⟩
  | _ => cases starts

theorem forall_visits {P : Ev → Prop} (quiet : ∀ ev : Ev, ev.op.isDispatch = true → P ev)
    (t : Run) : (∀ ev ∈ t, P ev) ↔
      (∀ ev ∈ untilDispatch t, P ev) ∧ ∀ v ∈ visits t, ∀ ev ∈ v.calls, P ev := by
  induction t with
  | nil => simp [visits, untilDispatch]
  | cons ev t ih =>
    rw [List.forall_mem_cons, ih]
    cases starts : ev.op.isDispatch with
    | true =>
      obtain ⟨before, node, s, after⟩ := visits_dispatch starts t
      have here := quiet ev starts
      rw [before, after, List.forall_mem_cons]
      simp [here]
    | false =>
      rw [(visits_call starts t).1, (visits_call starts t).2, List.forall_mem_cons]
      tauto

/-- What holds pairwise, and of every pair with the start of a node, visit by visit. -/
theorem pairwise_visits {R : Ev → Ev → Prop}
    (quiet : ∀ ev ev' : Ev, ev.op.isDispatch = true ∨ ev'.op.isDispatch = true → R ev ev')
    (t : Run) : t.Pairwise R ↔
      (untilDispatch t).Pairwise R ∧
      (∀ ev ∈ untilDispatch t, ∀ v ∈ visits t, ∀ ev' ∈ v.calls, R ev ev') ∧
      (∀ v ∈ visits t, v.calls.Pairwise R) ∧
      (visits t).Pairwise fun v w => ∀ ev ∈ v.calls, ∀ ev' ∈ w.calls, R ev ev' := by
  induction t with
  | nil => simp [visits, untilDispatch]
  | cons ev t ih =>
    have first := forall_visits (P := R ev) (fun ev' starts => quiet ev ev' (.inr starts)) t
    rw [List.pairwise_cons, ih, first]
    cases starts : ev.op.isDispatch with
    | true =>
      obtain ⟨before, node, s, after⟩ := visits_dispatch starts t
      have here (ev' : Ev) : R ev ev' := quiet ev ev' (.inl starts)
      rw [before, after, List.forall_mem_cons, List.pairwise_cons]
      constructor
      · rintro ⟨-, head, cross, each, rest⟩
        exact ⟨.nil, by simp, ⟨head, each⟩,
          fun w mem ev mem' ev' mem'' => cross ev mem' w mem ev' mem'', rest⟩
      · rintro ⟨-, -, ⟨head, each⟩, cross, rest⟩
        exact ⟨⟨fun ev' _ => here ev', fun _ _ ev' _ => here ev'⟩, head,
          fun ev mem v mem' ev' mem'' => cross v mem' ev mem ev' mem'', each, rest⟩
    | false =>
      rw [(visits_call starts t).1, (visits_call starts t).2, List.pairwise_cons,
        List.forall_mem_cons]
      tauto

/-- The calls that neither ask the hook nor can overflow. -/
def Op.idle : Op → Bool
  | .assemble _ | .generate _ | .stream _ | .compact _ => false
  | _ => true

theorem consults_idle {ev : Ev} (idle : ev.op.idle = true) : consults ev = false := by
  obtain ⟨op, r⟩ := ev
  cases op with
  | compact => cases idle
  | _ => rfl

theorem watch_idle {q : Run} (idle : ∀ ev ∈ q, ev.op.idle = true) (g : Tally) :
    (q.foldl (Tally.watch svc) g).triggered = g.triggered := by
  induction q generalizing g with
  | nil => rfl
  | cons ev q ih =>
    rw [List.foldl_cons, ih fun ev' mem => idle ev' (List.mem_cons_of_mem _ mem)]
    have here := idle ev List.mem_cons_self
    obtain ⟨op, r⟩ := ev
    cases op with
    | assemble | generate | stream | compact => cases here
    | _ => simp [Tally.watch, Tally.overflows]

variable (svc) in
/-- One checkpoint at most, and the hook is asked exactly when an overflow asks for it. -/
structure Single (calls : Run) : Prop where
  once : Once calls
  asks : calls.any consults = triggers svc calls

theorem Single.idle_late {calls q : Run} (h : Single svc calls)
    (idle : ∀ ev ∈ q, ev.op.idle = true) : Single svc (calls ++ q) := by
  have none_ : ∀ ev ∈ q, consults ev = false := fun ev mem => consults_idle (idle ev mem)
  constructor
  · apply List.pairwise_append.mpr
    refine ⟨h.once, ?_, fun ev _ ev' mem _ => none_ ev' mem⟩
    exact List.Pairwise.imp_of_mem (fun _ mem _ _ => none_ _ mem) (List.pairwise_of_forall
      (R := fun _ _ => True) fun _ _ => trivial)
  · have late : q.any consults = false := by simpa using none_
    rw [List.any_append, late, Bool.or_false, h.asks, triggers, triggers, List.foldl_append,
      watch_idle idle]

theorem Single.nil : Single svc [] := ⟨.nil, rfl⟩

theorem evidence_idle {q : Run} (evidence : ∀ ev ∈ q, ∃ record, ev.op = .evidence record) :
    ∀ ev ∈ q, ev.op.idle = true := by
  intro ev mem
  obtain ⟨record, is⟩ := evidence ev mem
  rw [is]
  rfl

/-- Every visit of a turn. -/
theorem visits_single_checkpoint (svc : Service) (input : TurnInput) :
    (processMessage svc input).All () fun t _ _ => ∀ v ∈ visits t, Single svc v.calls := by
  apply (turn_visits svc input).mono
  intro t _ _ each v mem
  obtain ⟨own, q, calls, evidence, visit⟩ := each v mem
  rw [calls]
  apply Single.idle_late _ (evidence_idle evidence)
  rcases visit with rfl | ⟨o, s, run⟩
  · exact .nil
  · by_cases generation : v.node = .generateResponse
    · rw [generation] at run
      obtain ⟨once, asks⟩ := Coro.all_iff.mp (generateResponse_counts v.state) _ _ _ run
      exact ⟨once, asks⟩
    · have idle : ∀ ev ∈ own, ev.op.idle = true := by
        intro ev mem
        have made := made_by run mem
        cases op : ev.op with
        | generate | stream => exact absurd (makes_asksModel (op ▸ made) rfl) generation
        | assemble | compact =>
          rw [op] at made
          cases node : v.node <;> rw [node] at made generation <;>
            first | exact absurd rfl generation | cases made
        | _ => rfl
      have single : Single svc ([] ++ own) := Single.nil.idle_late idle
      exact single

/-- Nothing but evidence comes before the first visit. -/
theorem untilDispatch_idle (svc : Service) (input : TurnInput) :
    (processMessage svc input).All () fun t _ _ => ∀ ev ∈ untilDispatch t, ev.op.idle = true := by
  apply (processMessage_chain svc input).mono
  rintro t _ _ ⟨walked, reported, o, s, rfl, chain, evidence⟩ ev mem
  rcases chain.head with rfl | ⟨r, rest, rfl⟩
  · exact evidence_idle evidence ev ((List.takeWhile_prefix _).mem mem)
  · rw [List.cons_append, (visits_dispatch rfl _).1] at mem
    cases mem

/-- In every run of a turn, whatever the loader, the model, the tools, the checks and the
hook answer: the hook is not asked again after it returned a checkpoint, exactly when no
visit after the one it did so in meets an overflow. -/
theorem one_checkpoint_iff (svc : Service) (input : TurnInput) :
    (processMessage svc input).All () fun t _ _ => Once t ↔ (visits t).Pairwise fun v w =>
      v.calls.any checkpoints = true → triggers svc w.calls = false := by
  apply ((visits_single_checkpoint svc input).and (untilDispatch_idle svc input)).mono
  rintro t _ _ ⟨each, idle⟩
  have starts {ev : Ev} (starts : ev.op.isDispatch = true) :
      checkpoints ev = false ∧ consults ev = false := by
    obtain ⟨op, r⟩ := ev
    cases op with
    | dispatch => exact ⟨rfl, rfl⟩
    | _ => cases starts
  have unmade {ev : Ev} (idle : ev.op.idle = true) : checkpoints ev = false := by
    obtain ⟨op, r⟩ := ev
    cases op with
    | compact => cases idle
    | _ => rfl
  rw [Once, pairwise_visits]
  · constructor
    · rintro ⟨-, -, -, pairs⟩
      apply pairs.imp_of_mem
      intro v w _ mem pair made
      rw [← (each w mem).asks, List.any_eq_false]
      obtain ⟨ev, there, is⟩ := List.any_eq_true.mp made
      intro ev' mem'
      rw [pair ev there ev' mem' is]
      exact Bool.false_ne_true
    · intro pairs
      refine ⟨?_, ?_, fun v mem => (each v mem).once, pairs.imp_of_mem ?_⟩
      · have single : Single svc ([] ++ untilDispatch t) := Single.nil.idle_late idle
        exact single.once
      · intro ev mem _ _ _ _ made
        rw [unmade (idle ev mem)] at made
        cases made
      · intro v w _ mem pair ev there ev' mem' made
        have quiet := pair (List.any_eq_true.mpr ⟨ev, there, made⟩)
        rw [← (each w mem).asks, List.any_eq_false] at quiet
        exact Bool.eq_false_of_not_eq_true (quiet ev' mem')
  · rintro ev ev' (first | second) made
    · rw [(starts first).1] at made
      cases made
    · exact (starts second).2

end

/-! ## A second checkpoint -/

/-- A loader whose prompts take up four fifths of the budget, a hook that always returns
a checkpoint, and a model that asks for a tool first. -/
def crowded : (op : Op) → Except Raised (Calls.Ans op)
  | .assemble args => .ok {
      messages := List.replicate (if args.summary.summary = none then 1 else 2) {}
      totalTokens := 8, budgetTokens := 10 }
  | .compact _ => .ok (some { summary := some "Earlier." })
  | .generate request => .ok {
      content := "Done.", model := "gpt-4", provider := "openai"
      toolCalls := if request.messages.length ≤ 2 then
        some [⟨"call_1", "search", .object "{}"⟩] else none }
  | op => scripted "" [] unfaithful op

/-- The generation after the tool compacts again. -/
theorem compacted_twice : ¬ ∀ (svc : Service) (input : TurnInput),
    (processMessage svc input).All () fun t _ _ => Once t := by
  intro claim
  have once := Coro.all_iff.mp (claim { tenantId := "acme", tools := some [], hasCompaction := true }
    {}) _ _ _ (Coro.runs_with _ crowded _)
  have twice : (((processMessage { tenantId := "acme", tools := some [], hasCompaction := true }
      {}).traceWith crowded ()).foldl (Tally.watch unconfigured) {}).again = true := by
    decide +kernel
  rw [((watch_again _ _).mpr ⟨rfl, fun made => (by cases made), once⟩)] at twice
  cases twice

end AgentStudio.Orchestration
