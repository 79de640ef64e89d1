import AgentStudio.Gateway.MidStream

/-!
# The last event of a stream

`stream` is to end with `done` or `error`, whatever its collaborators do. Its first
line is outside of every `try`; and a `_release` that raises is caught after an
`error` was yielded, or leaves a handler before one was.
-/

namespace AgentStudio.Gateway
open Async

/-! ## Any router -/

/-- What code that does not wait can raise: it is never cancelled. -/
abbrev Failure := { e : Raised // e.isException = true }

/-- The answers of a router in one run of `_stream_impl`. -/
structure Routing where
  /-- `router.candidates` on the first line. -/
  candidates : Except Failure (List Deployment)
  /-- `router.candidates` in `_decide`. -/
  considered : Except Failure (List Deployment)
  /-- `router.decide`, given what is available. -/
  decide : (Deployment → Bool) → Except Failure Deployment

/-- The answers of `Router`. -/
def Routing.of (gw : Service) (request : Request) (cfg : Cfg) : Routing where
  candidates := .ok (candidatesAt gw request cfg 0)
  considered := .ok (candidatesAt gw request cfg 1)
  decide up := .ok (Router.decide (candidatesAt gw request cfg 2) up)

/-- The answer, or what was raised instead. -/
def answered {σ α : Type} : Except Failure α → Coro Calls Raised σ α
  | .ok a => pure a
  | .error e => throw e.1

section
variable (gw : Service) (request : Request) (tenant : TenantConfig) (cfg : Cfg) (route : Routing)

/-- `_decide`, with any router. -/
def routedDecide {σ : Type} : Coro Calls Raised σ Deployment := do
  let snap ← snapshot (← answered route.considered)
  answered (route.decide fun d => (snap.reverse.lookup d).getD true)

/-- The outer `try` block, with any router. -/
def routedBody (candidates : List Deployment) : Coro Calls Raised StreamVars Unit := do
  let reservation ← Coro.call (I := Calls) (.reserve { reserveArgs gw request tenant cfg with
    estimatedUsd := estimateMaxSpend gw request candidates })
  modify fun v => { v with reservation := reservation }
  let apiKey ← Coro.call (I := Calls) (.resolveKey tenant)
  let decision ← routedDecide route
  let chain := fallbackChain gw request cfg candidates
  modify fun v => { v with targets := [decision] }
  match ← Coro.iterate (streamRound gw request tenant cfg chain apiKey) (chainFuel chain) with
  | none => throw .outOfFuel
  | some true => pure ()
  | some false =>
    releaseOnce
    throw (streamExhausted (← get))

/-- `_stream_impl`, with any router. -/
def routedStream : Coro Calls Raised StreamVars Unit := do
  let candidates ← answered route.candidates
  tryCatch (routedBody gw request tenant cfg route candidates) onStreamRaise

end

/-! ## What is seen of a run -/

/-- `done` and `error`. -/
def StreamEvent.isTerminal (event : StreamEvent) : Bool :=
  event.type == .done || event.type == .error

/-- The adapter's stream ends, with no `error` among its events. -/
def endsWell : Except Raised Script → Bool
  | .ok script => script.ending.isNone && script.events.all fun ev => ev.type != .error
  | .error _ => false

/-- The consumer takes the event, and nothing is cancelled. -/
structure Uncut (ev : Ev) : Prop where
  raised : ∀ e, raisedBy ev = some e → e.isException = true ∧ yielded ev = none
  broken : ∀ script, delivered ev = some (.ok script) → ∀ e, script.ending = some e →
    e.isException = true

/-- One terminal event, and it is the last; a `done` only after a stream that ended well. -/
structure OneTerminal (t : Run) : Prop where
  last : ∃ init event, t.filterMap yielded = init ++ [event] ∧ event.isTerminal = true ∧
    ∀ e ∈ init, e.isTerminal = false
  done : (∃ e ∈ t.filterMap yielded, e.type = .done) → ∃ r ∈ deliveries t, endsWell r = true

/-- `_release` raises only where the chain is exhausted, right after the last failure was
recorded. -/
def ReleasesElsewhere (t : Run) : Prop :=
  ∀ pre reservation e post, t = pre ++ ⟨.release reservation, .error e⟩ :: post →
    ∃ d, pre.getLast? = some ⟨.recordFailure d, .ok ()⟩

/-! ## The observer -/

/-- What the observer keeps. -/
structure Closing where
  /-- A terminal event was yielded. -/
  ended : Bool := false
  /-- An event was yielded after that. -/
  after : Bool := false
  done : Bool := false
  /-- A stream ended well. -/
  clean : Bool := false
  /-- The last call recorded a failure. -/
  recorded : Bool := false
  /-- A `_release` raised that does not follow on such a call. -/
  spilled : Bool := false

def Closing.see (g : Closing) (ev : Ev) : Closing :=
  match ev with
  | ⟨.emit event, _⟩ => { g with
      ended := g.ended || event.isTerminal
      after := g.after || g.ended
      done := g.done || event.type == .done
      recorded := false }
  | ⟨.openStream .., r⟩ => { g with clean := g.clean || endsWell r, recorded := false }
  | ⟨.recordFailure _, .ok _⟩ => { g with recorded := true }
  | ⟨.release _, .error _⟩ => { g with spilled := g.spilled || !g.recorded, recorded := false }
  | _ => { g with recorded := false }

/-- Every uncut run of `c`, as the observer sees it. -/
abbrev Closes {σ α : Type} (c : Coro Calls Raised σ α) (g : Closing) (v : σ)
    (Q : Closing → Except Raised α → σ → Prop) : Prop := c.Ends Uncut Closing.see g v Q

/-- Nothing terminal was yielded yet, and no hold spilled. -/
structure Running (g : Closing) : Prop where
  ended : g.ended = false
  after : g.after = false
  done : g.done = false
  spilled : g.spilled = false

/-- One terminal event ended the run. -/
structure Finished (g : Closing) : Prop where
  ended : g.ended = true
  after : g.after = false
  spilled : g.spilled = false
  done : g.done = true → g.clean = true

/-- What is to be shown of a whole run. -/
def Closed (g : Closing) : Prop :=
  (g.ended = true ∧ g.after = false ↔ g.spilled = false) ∧ (g.done = true → g.clean = true)

/-- An exception is on its way out: with nothing terminal yielded and the hold open or
returned, or after an `error` whose release raised. -/
def Raising (g : Closing) (v : StreamVars) (e : Raised) : Prop :=
  e.isException = true ∧ (Running g ∧ (v.finalized = false → g.recorded = false) ∨
    g.ended = true ∧ g.spilled = true ∧ g.done = false ∧ v.finalized = true)

/-- A call that is neither a `yield`, nor answered with a stream, nor does it record a
failure or release. -/
def Plain : Op → Prop
  | .emit _ | .openStream .. | .recordFailure _ | .release _ => False
  | _ => True

section
variable {σ α : Type} {g : Closing} {v : σ}

theorem Running.still (running : Running g) (recorded : Bool) :
    Running { g with recorded := recorded } :=
  ⟨running.ended, running.after, running.done, running.spilled⟩

theorem see_plain {op : Op} (plain : Plain op) (r : Except Raised (Calls.Ans op)) :
    g.see ⟨op, r⟩ = { g with recorded := false } := by
  cases op with
  | emit => exact plain.elim
  | openStream => exact plain.elim
  | recordFailure => exact plain.elim
  | release => exact plain.elim
  | _ => rfl

theorem plain_call {op : Op} (plain : Plain op) :
    Closes (Coro.call (I := Calls) op : Coro Calls Raised σ _) g v fun g' o v' =>
      g' = { g with recorded := false } ∧ v' = v ∧ ∀ e, o = .error e → e.isException = true := by
  apply Coro.Ends.call
  intro r uncut
  refine ⟨see_plain plain r, rfl, ?_⟩
  rintro e rfl
  exact (uncut.raised e rfl).1

theorem plain_suppress {c : Coro Calls Raised σ Unit}
    (is : Closes c g v fun g' o v' =>
      g' = { g with recorded := false } ∧ v' = v ∧ ∀ e, o = .error e → e.isException = true) :
    Closes (suppress c) g v fun g' o v' =>
      g' = { g with recorded := false } ∧ v' = v ∧ o = .ok () := by
  apply is.tryCatch
  · exact fun _ _ _ ⟨still, same, _⟩ => ⟨still, same, rfl⟩
  · rintro _ e _ ⟨rfl, rfl, exception⟩
    rw [exception e rfl]
    exact .pure ⟨rfl, rfl, rfl⟩

theorem afterSuccess_closes (gw : Service) (request : Request) (cfg : Cfg) (result : Result) :
    Closes (afterSuccess gw request cfg result : Coro Calls Raised σ _) g v fun g' o v' =>
      g' = { g with recorded := false } ∧ v' = v ∧ o = .ok () := by
  unfold afterSuccess
  apply (plain_suppress (plain_call (by trivial))).bind
  · rintro _ _ _ ⟨rfl, rfl, -⟩
    split
    · exact plain_suppress (plain_call (by trivial))
    · exact .pure ⟨rfl, rfl, rfl⟩
  · rintro _ e _ ⟨-, -, raised⟩
    cases raised

theorem snapshot_closes (ds : List Deployment) (running : Running g) (waiting : g.recorded = false) :
    Closes (snapshot ds : Coro Calls Raised σ _) g v fun g' o v' =>
      Running g' ∧ g'.recorded = false ∧ v' = v ∧ ∀ e, o = .error e → e.isException = true := by
  induction ds generalizing g with
  | nil => exact .pure ⟨running, waiting, rfl, by simp⟩
  | cons d ds ih =>
    apply (plain_call (by trivial)).bind
    · rintro _ up _ ⟨rfl, rfl, -⟩
      apply (ih (running.still false) rfl).bind
      · rintro g' rest v' ⟨running', waiting', same, -⟩
        exact .pure ⟨running', waiting', same, by simp⟩
      · rintro g' e v' ⟨running', waiting', same, exception⟩
        refine ⟨running', waiting', same, ?_⟩
        rintro _ ⟨⟩
        exact exception e rfl
    · rintro _ e _ ⟨rfl, rfl, exception⟩
      refine ⟨running.still false, rfl, rfl, ?_⟩
      rintro _ ⟨⟩
      exact exception e rfl

theorem answered_closes (r : Except Failure α) (running : Running g) (waiting : g.recorded = false) :
    Closes (answered r : Coro Calls Raised σ α) g v fun g' o v' =>
      Running g' ∧ g'.recorded = false ∧ v' = v ∧ ∀ e, o = .error e → e.isException = true := by
  cases r with
  | ok a => exact .pure ⟨running, waiting, rfl, by simp⟩
  | error e =>
    refine .throw ⟨running, waiting, rfl, ?_⟩
    rintro _ ⟨⟩
    exact e.2

theorem routedDecide_closes (route : Routing) (running : Running g) (waiting : g.recorded = false) :
    Closes (routedDecide route : Coro Calls Raised σ _) g v fun g' o v' =>
      Running g' ∧ g'.recorded = false ∧ v' = v ∧ ∀ e, o = .error e → e.isException = true := by
  unfold routedDecide
  apply (answered_closes route.considered running waiting).bind
  · rintro g₁ ds _ ⟨running₁, waiting₁, rfl, -⟩
    apply (snapshot_closes ds running₁ waiting₁).bind
    · rintro g₂ snap _ ⟨running₂, waiting₂, rfl, -⟩
      exact answered_closes _ running₂ waiting₂
    · rintro g₂ e _ ⟨running₂, waiting₂, rfl, exception⟩
      refine ⟨running₂, waiting₂, rfl, ?_⟩
      rintro _ ⟨⟩
      exact exception e rfl
  · rintro g₁ e _ ⟨running₁, waiting₁, rfl, exception⟩
    refine ⟨running₁, waiting₁, rfl, ?_⟩
    rintro _ ⟨⟩
    exact exception e rfl

end

section
variable (gw : Service) (request : Request) (tenant : TenantConfig) (cfg : Cfg)
  {g : Closing} {v : StreamVars}

/-- What `_handle` raises is an exception, and it does so for an `error` alone. -/
theorem handle_raises (d : Deployment) (ev : LLMStreamEvent) :
    (handle gw d ev).All v fun _ o _ =>
      match o with
      | .error e => e.isException = true
      | .ok out => ev.type ≠ .error ∧ ∀ event, out = some event → event.isTerminal = false := by
  unfold handle
  cases type : ev.type with
  | delta =>
    dsimp only
    split
    · exact ⟨by simp, by simp⟩
    · exact ⟨by simp, by rintro event ⟨⟩; rfl⟩
  | toolUseStart => exact ⟨by simp, by rintro event ⟨⟩; rfl⟩
  | toolUseDelta => exact ⟨by simp, by rintro event ⟨⟩; rfl⟩
  | toolUseEnd =>
    simp only [Coro.all_get_bind]
    split
    · exact ⟨by simp, by rintro event ⟨⟩; rfl⟩
    · exact ⟨by simp, by rintro event ⟨⟩; rfl⟩
  | usage =>
    dsimp only
    split <;> exact ⟨by simp, by simp⟩
  | done => exact ⟨by simp, by simp⟩
  | error => exact rfl
  | other => exact ⟨by simp, by simp⟩

theorem forwardEvents_closes (d : Deployment) (events : List LLMStreamEvent)
    (running : Running g) :
    Closes (forwardEvents gw d events) g v fun g' o v' =>
      Running g' ∧ v'.finalized = v.finalized ∧ v'.seen = v.seen ∧
        match o with
        | .error e => e.isException = true
        | .ok _ => (events.all fun ev => ev.type != .error) = true := by
  induction events generalizing g v with
  | nil => exact .pure ⟨running, rfl, rfl, rfl⟩
  | cons ev rest ih =>
    have step := (handle_spec gw d ev (v := v)).and (handle_raises gw d ev)
    apply Coro.Ends.bind (Q := fun g' o v' => g' = g ∧ v'.finalized = v.finalized ∧
      v'.seen = v.seen ∧
      match o with
      | .error e => e.isException = true
      | .ok out => ev.type ≠ .error ∧ ∀ event, out = some event → event.isTerminal = false)
    · apply Coro.All.mono step
      rintro t o v' ⟨⟨rfl, same, -⟩, ends⟩ -
      exact ⟨rfl, same.finalized, same.seen, ends⟩
    · rintro _ out v' ⟨rfl, finalized, seen, goesOn, content⟩
      have later {g' : Closing} (running' : Running g') :
          Closes (forwardEvents gw d rest) g' v' fun g'' o v'' =>
            Running g'' ∧ v''.finalized = v.finalized ∧ v''.seen = v.seen ∧
              match o with
              | .error e => e.isException = true
              | .ok _ => ((ev :: rest).all fun ev => ev.type != .error) = true := by
        apply (ih running').mono
        rintro g'' o v'' ⟨running'', finalized', seen', ends⟩
        refine ⟨running'', finalized'.trans finalized, seen'.trans seen, ?_⟩
        cases o with
        | error e => exact ends
        | ok _ => simpa [goesOn] using ends
      cases out with
      | none => exact later running
      | some event =>
        apply Coro.Ends.call_bind
        · intro _ _
          apply later
          have plain := content event rfl
          have type : event.type ≠ .done := by
            intro is
            simp [StreamEvent.isTerminal, is] at plain
          refine ⟨?_, ?_, ?_, running.spilled⟩
          · simp [Closing.see, running.ended, plain]
          · simp [Closing.see, running.ended, running.after]
          · simp [Closing.see, running.done, type]
        · intro e uncut
          cases (uncut.raised e rfl).2
    · rintro _ e v' ⟨rfl, finalized, seen, exception⟩
      exact ⟨running, finalized, seen, exception⟩

/-- Passing events on says nothing of how the stream ends. -/
theorem forwardEvents_clean (d : Deployment) (events : List LLMStreamEvent) :
    Closes (forwardEvents gw d events) g v fun g' _ _ => g'.clean = g.clean := by
  induction events generalizing g v with
  | nil => exact .pure rfl
  | cons ev rest ih =>
    apply Coro.Ends.bind (Q := fun g' _ _ => g' = g)
    · apply Coro.All.mono (handle_spec gw d ev (v := v))
      rintro t o v' ⟨rfl, -⟩ -
      rfl
    · rintro _ out v' rfl
      cases out with
      | none => exact ih
      | some event => exact .call_bind (fun _ _ => ih) fun _ _ => rfl
    · rintro _ e v' rfl
      rfl

/-- One call of a deployment. -/
theorem consume_closes (d : Deployment) (running : Running g) :
    Closes (consume gw request tenant d) g v fun g' o v' =>
      Running g' ∧ v'.finalized = v.finalized ∧ v'.seen = v.seen ∧
        match o with
        | .error e => e.isException = true
        | .ok _ => g'.clean = true := by
  unfold consume
  apply Coro.Ends.call_bind
  · intro script uncut
    apply Coro.Ends.modify_bind
    have opened : Running { g with clean := g.clean || endsWell (.ok script), recorded := false } :=
      ⟨running.ended, running.after, running.done, running.spilled⟩
    have kept := forwardEvents_clean gw d script.events (g := { g with
      clean := g.clean || endsWell (.ok script), recorded := false }) (v := { v with opened := true })
    apply ((forwardEvents_closes gw d script.events opened).and kept).bind
    · rintro g' _ v' ⟨⟨running', finalized, seen, plain⟩, clean⟩
      cases ending : script.ending with
      | some e => exact .throw ⟨running', finalized, seen, uncut.broken script rfl e ending⟩
      | none =>
        dsimp only
        split
        · exact .throw ⟨running', finalized, seen, rfl⟩
        · refine .pure ⟨running', finalized, seen, ?_⟩
          simp [clean, endsWell, ending, plain]
    · exact fun g' e v' ends => ends.1
  · intro e uncut
    exact ⟨⟨running.ended, running.after, running.done, running.spilled⟩, rfl, rfl,
      (uncut.raised e rfl).1⟩

/-- An `error` event is the end of the run. -/
theorem Running.report (running : Running g) (event : StreamEvent) (type : event.type = .error)
    (r : Except Raised Unit) : Finished (g.see ⟨.emit event, r⟩) ∧
      (g.see ⟨.emit event, r⟩).done = false := by
  refine ⟨⟨?_, ?_, running.spilled, ?_⟩, ?_⟩ <;>
    simp [Closing.see, StreamEvent.isTerminal, type, running.ended, running.after, running.done]

/-- `_release` ends the hold, and what it raises is an exception. -/
theorem releaseOnce_closes : Closes releaseOnce g v fun g' o v' => v'.finalized = true ∧
    match o with
    | .ok _ => g' = { g with recorded := g'.recorded }
    | .error e => v.finalized = false ∧ e.isException = true ∧
        g' = { g with spilled := g.spilled || !g.recorded, recorded := false } := by
  unfold releaseOnce
  apply Coro.Ends.get_bind
  cases finalized : v.finalized with
  | true => exact .pure ⟨finalized, rfl⟩
  | false =>
    apply Coro.Ends.modify_bind
    apply Coro.Ends.get_bind
    apply Coro.Ends.call
    intro r uncut
    cases r with
    | ok _ => exact ⟨rfl, rfl⟩
    | error e => exact ⟨rfl, rfl, (uncut.raised e rfl).1, rfl⟩

/-- How a failed attempt goes on. -/
def FailClosed (g' : Closing) (v v' : StreamVars) : Except Raised Flow → Prop
  | .ok .again => Running g' ∧ v'.finalized = false ∧ g'.recorded = true ∧ v'.seen = v.seen ∧
      ∀ d ∈ v'.targets, d ∉ v'.seen
  | .ok .left => Finished g'
  | .ok .completed => False
  | .error e => Raising g' v' e

theorem failAttempt_closes (chain : FallbackChain) (d : Deployment) (e : Raised)
    (running : Running g) (held_ : v.finalized = false) :
    Closes (failAttempt chain d e) g v fun g' o v' => FailClosed g' v v' o := by
  unfold failAttempt
  apply Coro.Ends.modify_bind
  apply Coro.Ends.call_bind
  · intro _ _
    apply Coro.Ends.get_bind
    by_cases marked : v.emitted = true
    · rw [if_pos (by exact marked)]
      apply Coro.Ends.call_bind
      · intro _ _
        obtain ⟨finished, quiet⟩ := (running.still true).report {
          type := .error, error := e.text, provider := d.1, model := d.2
          failureClass := (asProviderCallError e d).failureClass.name } rfl (.ok ())
        apply releaseOnce_closes.bind
        · rintro g' _ v' ⟨-, same⟩
          rw [same]
          exact .pure ⟨finished.ended, finished.after, finished.spilled, finished.done⟩
        · rintro g' e' v' ⟨finalized, -, exception, same⟩
          rw [same]
          refine ⟨exception, .inr ⟨finished.ended, ?_, quiet, finalized⟩⟩
          simp [Closing.see]
      · intro e' uncut
        cases (uncut.raised e' rfl).2
    · rw [if_neg (by exact marked)]
      intro _
      refine ⟨running.still true, held_, rfl, rfl, ?_⟩
      intro x mem
      simpa using (List.mem_filter.mp mem).2
  · intro e' uncut
    exact ⟨(uncut.raised e' rfl).1, .inl ⟨running.still false, fun _ => rfl⟩⟩

theorem onAttemptRaise_closes (chain : FallbackChain) (d : Deployment) {e : Raised}
    (exception : e.isException = true) (running : Running g) (held_ : v.finalized = false) :
    Closes (onAttemptRaise chain d e) g v fun g' o v' => FailClosed g' v v' o := by
  cases e with
  | cancelled => cases exception
  | generatorExit => cases exception
  | outOfFuel => cases exception
  | _ => exact failAttempt_closes chain d _ running held_

/-- How an attempt leaves its handlers. -/
def AttemptClosed (g' : Closing) (v v' : StreamVars) (o : Except Raised Flow) : Prop :=
  match o with
  | .ok .completed => Running g' ∧ v'.finalized = false ∧ g'.clean = true
  | o => FailClosed g' v v' o

theorem attemptStream_closes (chain : FallbackChain) (d : Deployment) (running : Running g)
    (held_ : v.finalized = false) :
    Closes (attemptStream gw request tenant chain d) g v fun g' o v' => AttemptClosed g' v v' o := by
  apply Coro.Ends.tryCatch (Q := fun g' o v' => Running g' ∧ v'.finalized = v.finalized ∧
    v'.seen = v.seen ∧
    match o with
    | .error e => e.isException = true
    | .ok flow => flow = .completed ∧ g'.clean = true)
  · apply (consume_closes gw request tenant d running).bind
    · rintro g' _ v' ⟨running', finalized, seen, clean⟩
      exact .pure ⟨running', finalized, seen, rfl, clean⟩
    · exact fun _ _ _ ends => ends
  · rintro g' flow v' ⟨running', finalized, -, rfl, clean⟩
    exact ⟨running', finalized.trans held_, clean⟩
  · rintro g' e v' ⟨running', finalized, seen, exception⟩
    apply (onAttemptRaise_closes chain d exception running' (finalized.trans held_)).mono
    intro g'' o v'' ends
    match o with
    | .ok .again =>
      obtain ⟨running'', held'', recorded, same, fresh⟩ := ends
      exact ⟨running'', held'', recorded, same.trans seen, fresh⟩
    | .ok .left => exact ends
    | .ok .completed => exact ends.elim
    | .error e => exact ends

/-- After a completed stream: the two closing events, or an exception before them. -/
theorem complete_closes (d : Deployment) (running : Running g) (clean : g.clean = true)
    (held_ : v.finalized = false) :
    Closes (complete gw request cfg d) g v fun g' o v' =>
      match o with
      | .ok _ => Finished g'
      | .error e => Raising g' v' e := by
  unfold complete
  apply (plain_call (by trivial)).bind
  · rintro _ _ _ ⟨rfl, rfl, -⟩
    apply Coro.Ends.get_bind
    apply (plain_call (by trivial)).bind
    · rintro _ _ _ ⟨rfl, rfl, -⟩
      apply Coro.Ends.modify_bind
      apply (afterSuccess_closes gw request cfg _).bind
      · rintro _ _ _ ⟨rfl, rfl, -⟩
        apply Coro.Ends.call_bind
        · intro _ _
          apply Coro.Ends.call
          intro r uncut
          cases r with
          | ok _ =>
            refine ⟨?_, ?_, running.spilled, fun _ => clean⟩ <;>
              simp [Closing.see, StreamEvent.isTerminal, running.ended, running.after]
          | error e => cases (uncut.raised e rfl).2
        · intro e uncut
          cases (uncut.raised e rfl).2
      · rintro _ e _ ⟨-, -, raised⟩
        cases raised
    · rintro _ e _ ⟨rfl, rfl, exception⟩
      exact ⟨exception e rfl, .inl ⟨running.still false, fun _ => rfl⟩⟩
  · rintro _ e _ ⟨rfl, rfl, exception⟩
    exact ⟨exception e rfl, .inl ⟨running.still false, fun _ => rfl⟩⟩

/-! ## The loop -/

/-- At the head of the loop. -/
structure Ready (g : Closing) (v : StreamVars) : Prop where
  running : Running g
  held_ : v.finalized = false
  /-- No targets are left only where a failure was just recorded. -/
  last : v.targets = [] → g.recorded = true
  fresh : ∀ d ∈ v.targets, d ∉ v.seen

theorem streamRound_closes (chain : FallbackChain) (apiKey : String) (ready : Ready g v) :
    Closes (streamRound gw request tenant cfg chain apiKey) g v fun g' o v' =>
      match o with
      | .ok none => Ready g' v'
      | .ok (some true) => Finished g'
      | .ok (some false) => Running g' ∧ g'.recorded = true ∧ v'.finalized = false
      | .error e => Raising g' v' e := by
  unfold streamRound
  apply Coro.Ends.get_bind
  cases targets : v.targets with
  | nil => exact .pure ⟨ready.running, ready.last targets, ready.held_⟩
  | cons d rest =>
    have new : d ∉ v.seen := ready.fresh d (targets ▸ List.mem_cons_self)
    apply Coro.Ends.modify_bind
    apply Coro.Ends.get_bind
    rw [if_neg (by exact new)]
    apply Coro.Ends.modify_bind
    apply (plain_call (by trivial)).bind
    · rintro _ _ _ ⟨rfl, rfl, -⟩
      apply Coro.Ends.modify_bind
      apply (attemptStream_closes gw request tenant chain d (ready.running.still false)
        (by exact ready.held_)).bind
      · intro g' flow v' ends
        match flow with
        | .completed =>
          obtain ⟨running, held', clean⟩ := ends
          apply (complete_closes gw request cfg d running clean held').bind
          · exact fun _ _ _ finished => .pure finished
          · exact fun _ _ _ raising => raising
        | .again =>
          obtain ⟨running, held', recorded, -, fresh⟩ := ends
          exact .pure ⟨running, held', fun _ => recorded, fresh⟩
        | .left => exact .pure ends
      · exact fun _ _ _ raising => raising
    · rintro _ e _ ⟨rfl, rfl, exception⟩
      exact ⟨exception e rfl, .inl ⟨ready.running.still false, fun _ => rfl⟩⟩

theorem streamLoop_closes (chain : FallbackChain) (decision : Deployment) (apiKey : String)
    (running : Running g) (held_ : v.finalized = false) (unseen_ : v.seen = []) :
    Closes (Coro.iterate (streamRound gw request tenant cfg chain apiKey) (chainFuel chain)) g
      { v with targets := [decision] } fun g' o v' =>
        match o with
        | .ok none => False
        | .ok (some true) => Finished g'
        | .ok (some false) => Running g' ∧ g'.recorded = true ∧ v'.finalized = false
        | .error e => Raising g' v' e := by
  have dry : (Coro.iterate (streamRound gw request tenant cfg chain apiKey) (chainFuel chain)).All
      { v with targets := [decision] } fun _ o _ => o ≠ .ok none :=
    (streamLoop_spec gw request tenant cfg apiKey held_ unseen_).mono fun _ _ _ ends => ends.2
  have rounds : Closes (Coro.iterate (streamRound gw request tenant cfg chain apiKey)
      (chainFuel chain)) g { v with targets := [decision] } fun g' o v' =>
        match o with
        | .ok none => True
        | .ok (some true) => Finished g'
        | .ok (some false) => Running g' ∧ g'.recorded = true ∧ v'.finalized = false
        | .error e => Raising g' v' e := by
    apply Coro.Ends.iterate Ready
    · intro g v ready
      apply (streamRound_closes gw request tenant cfg chain apiKey ready).mono
      intro g' o v' ends
      match o with
      | .ok none => exact ends
      | .ok (some true) => exact ends
      | .ok (some false) => exact ends
      | .error e => exact ends
    · exact fun _ _ _ => trivial
    · exact ⟨running, held_, by simp, by simp [unseen_]⟩
  apply (rounds.and (.of_all dry)).mono
  intro g' o v' ends
  match o with
  | .ok none => exact ends.2 rfl
  | .ok (some true) => exact ends.1
  | .ok (some false) => exact ends.1
  | .error e => exact ends.1

theorem routedBody_closes (route : Routing) (candidates : List Deployment) :
    Closes (routedBody gw request tenant cfg route candidates) {} {} fun g' o v' =>
      match o with
      | .ok _ => Finished g'
      | .error e => Raising g' v' e := by
  have start : Running {} := ⟨rfl, rfl, rfl, rfl⟩
  unfold routedBody
  apply (plain_call (by trivial)).bind
  · rintro _ reservation _ ⟨rfl, rfl, -⟩
    apply Coro.Ends.modify_bind
    apply (plain_call (by trivial)).bind
    · rintro _ apiKey _ ⟨rfl, rfl, -⟩
      apply (routedDecide_closes route start rfl).bind
      · rintro g₁ decision _ ⟨running, -, rfl, -⟩
        apply Coro.Ends.modify_bind
        apply (streamLoop_closes gw request tenant cfg _ decision apiKey running rfl rfl).bind
        · intro g₂ found v₂ ends
          match found with
          | none => exact ends.elim
          | some true => exact .pure ends
          | some false =>
            obtain ⟨running₂, recorded, -⟩ := ends
            apply releaseOnce_closes.bind
            · rintro g₃ _ v₃ ⟨finalized, same⟩
              apply Coro.Ends.get_bind
              refine .throw ⟨?_, .inl ⟨?_, fun off => ?_⟩⟩
              · unfold streamExhausted
                split <;> rfl
              · rw [same]
                exact running₂.still _
              · rw [finalized] at off
                cases off
            · rintro g₃ e v₃ ⟨finalized, -, exception, same⟩
              refine ⟨exception, .inl ⟨?_, fun off => ?_⟩⟩
              · rw [same, recorded]
                exact ⟨running₂.ended, running₂.after, running₂.done, by simp [running₂.spilled]⟩
              · rw [finalized] at off
                cases off
        · exact fun _ _ _ raising => raising
      · rintro g₁ e _ ⟨running, waiting, rfl, exception⟩
        exact ⟨exception e rfl, .inl ⟨running, fun _ => waiting⟩⟩
    · rintro _ e _ ⟨rfl, rfl, exception⟩
      exact ⟨exception e rfl, .inl ⟨start, fun _ => rfl⟩⟩
  · rintro _ e _ ⟨rfl, rfl, exception⟩
    exact ⟨exception e rfl, .inl ⟨start, fun _ => rfl⟩⟩

/-- An exception that leaves the body is reported, unless the hold's release raises; after
an `error` it is reported once more. -/
theorem onStreamRaise_closes {e : Raised} (raising : Raising g v e) :
    Closes (onStreamRaise e) g v fun g' _ _ => Closed g' := by
  obtain ⟨exception, state⟩ := raising
  have report (event : StreamEvent) (type : event.type = .error) (g : Closing) (v : StreamVars)
      (state : Running g ∨ g.ended = true ∧ g.spilled = true ∧ g.done = false) :
      Closes (Coro.call (I := Calls) (.emit event) : Coro Calls Raised StreamVars Unit) g v
        fun g' _ _ => Closed g' := by
    apply Coro.Ends.call
    intro r _
    rcases state with running | ⟨ended, spilled, done⟩
    · obtain ⟨⟨ended, after, spilled, clean⟩, -⟩ := running.report event type r
      exact ⟨by simp [ended, after, spilled], clean⟩
    · constructor <;> simp [Closing.see, ended, spilled, done, type]
  have reported (failureClass : String) :
      Closes (releaseAndReport e failureClass) g v fun g' _ _ => Closed g' := by
    apply releaseOnce_closes.bind
    · rintro g₁ _ v₁ ⟨-, same⟩
      apply report _ rfl
      rw [same]
      exact state.imp (fun running => running.1.still _) fun ⟨ended, spilled, done, _⟩ =>
        ⟨ended, spilled, done⟩
    · rintro g₁ e' v₁ ⟨-, held_, -, same⟩
      rcases state with ⟨running, waiting⟩ | ⟨-, -, -, finalized⟩
      · rw [same]
        constructor <;> simp [running.ended, running.done, waiting held_]
      · rw [finalized] at held_
        cases held_
  cases e with
  | cancelled => cases exception
  | generatorExit => cases exception
  | outOfFuel => cases exception
  | quotaExceeded => exact reported _
  | configuration => exact reported _
  | chainExhausted =>
    exact report _ rfl g v (state.imp And.left fun ⟨ended, spilled, done, _⟩ =>
      ⟨ended, spilled, done⟩)
  | _ => exact reported _

/-- What the `try` statement of the function leaves. -/
theorem tried_closes (route : Routing) (candidates : List Deployment) :
    Closes (tryCatch (routedBody gw request tenant cfg route candidates) onStreamRaise) {} {}
      fun g' _ _ => Closed g' := by
  apply (routedBody_closes gw request tenant cfg route candidates).tryCatch
  · rintro g' _ _ ⟨ended, after, spilled, clean⟩
    exact ⟨by simp [ended, after, spilled], clean⟩
  · exact fun _ _ _ raising => onStreamRaise_closes raising

end

/-! ## What the observer says of the run -/

section
variable {t : Run} {ev : Ev} {g : Closing}

theorem closing_clean : (t.foldl Closing.see g).clean = (g.clean || (deliveries t).any endsWell) := by
  induction t generalizing g with
  | nil => simp [deliveries]
  | cons ev t ih =>
    have sees : (g.see ev).clean = (g.clean || (delivered ev).any endsWell) := by
      obtain ⟨op, r⟩ := ev
      cases op with
      | release => cases r <;> simp [Closing.see, delivered]
      | recordFailure => cases r <;> simp [Closing.see, delivered]
      | _ => simp [Closing.see, delivered]
    rw [List.foldl_cons, ih, sees, deliveries, deliveries, List.filterMap_cons, Bool.or_assoc]
    cases delivered ev <;> rfl

/-- What a call says of the events yielded. -/
theorem see_yielded : (g.see ev).ended = (g.ended || (yielded ev).any StreamEvent.isTerminal) ∧
    (g.see ev).after = (g.after || (g.ended && (yielded ev).isSome)) ∧
    (g.see ev).done = (g.done || (yielded ev).any fun e => e.type == .done) := by
  obtain ⟨op, r⟩ := ev
  cases op with
  | release => cases r <;> simp [Closing.see, yielded]
  | recordFailure => cases r <;> simp [Closing.see, yielded]
  | _ => simp [Closing.see, yielded]

theorem closing_done : (t.foldl Closing.see g).done = true ↔
    g.done = true ∨ ∃ e ∈ t.filterMap yielded, e.type = .done := by
  induction t generalizing g with
  | nil => simp
  | cons ev t ih =>
    rw [List.foldl_cons, ih, see_yielded.2.2, List.filterMap_cons]
    cases yielded ev <;> simp [or_assoc]

theorem closing_ended : (t.foldl Closing.see g).ended =
    (g.ended || (t.filterMap yielded).any StreamEvent.isTerminal) := by
  induction t generalizing g with
  | nil => simp
  | cons ev t ih =>
    rw [List.foldl_cons, ih, see_yielded.1, List.filterMap_cons]
    cases yielded ev <;> simp [Bool.or_assoc]

theorem ended_of_after (after : (t.foldl Closing.see {}).after = true) :
    (t.foldl Closing.see {}).ended = true := by
  induction t using List.reverseRecOn with
  | nil => cases after
  | append_singleton t ev ih =>
    rw [List.foldl_append, List.foldl_cons, List.foldl_nil] at after ⊢
    rw [see_yielded.2.1, Bool.or_eq_true, Bool.and_eq_true] at after
    rw [see_yielded.1, Bool.or_eq_true]
    exact .inl (after.elim ih And.left)

theorem closing_last : ((t.foldl Closing.see {}).ended = true ∧ (t.foldl Closing.see {}).after = false) ↔
    ∃ init event, t.filterMap yielded = init ++ [event] ∧ event.isTerminal = true ∧
      ∀ e ∈ init, e.isTerminal = false := by
  induction t using List.reverseRecOn with
  | nil => simp
  | append_singleton t ev ih =>
    rw [List.foldl_append, List.foldl_cons, List.foldl_nil, see_yielded.1, see_yielded.2.1,
      List.filterMap_append]
    cases is : yielded ev with
    | none => simpa [is] using ih
    | some event =>
      have none_ : (t.foldl Closing.see {}).ended = false ↔
          ∀ e ∈ t.filterMap yielded, e.isTerminal = false := by
        rw [closing_ended, Bool.false_or, List.any_eq_false]
        simp
      constructor
      · rintro ⟨terminal, quiet⟩
        simp only [Option.isSome_some, Bool.and_true, Bool.or_eq_false_iff] at quiet
        rw [quiet.2, Bool.false_or, Option.any_some] at terminal
        exact ⟨_, event, by simp [is], terminal, none_.mp quiet.2⟩
      · rintro ⟨init, last, split, terminal, before⟩
        obtain ⟨rfl, same⟩ := List.append_inj' split (by simp [is])
        obtain rfl : event = last := by simpa [is] using same
        have ended := none_.mpr before
        have after : (t.foldl Closing.see {}).after = false := by
          by_contra h
          rw [ended_of_after (by simpa using h)] at ended
          cases ended
        simp [terminal, ended, after]

/-- The failure of an attempt was recorded. -/
def recordsFailure (ev : Ev) : Bool :=
  match ev with
  | ⟨.recordFailure _, .ok _⟩ => true
  | _ => false

def releaseRaised (ev : Ev) : Bool :=
  match ev with
  | ⟨.release _, .error _⟩ => true
  | _ => false

theorem see_recorded : (g.see ev).recorded = recordsFailure ev := by
  obtain ⟨op, r⟩ := ev
  cases op with
  | release => cases r <;> rfl
  | recordFailure => cases r <;> rfl
  | _ => rfl

theorem see_spilled : (g.see ev).spilled = (g.spilled || (releaseRaised ev && !g.recorded)) := by
  obtain ⟨op, r⟩ := ev
  cases op with
  | release => cases r <;> simp [Closing.see, releaseRaised]
  | recordFailure => cases r <;> simp [Closing.see, releaseRaised]
  | _ => simp [Closing.see, releaseRaised]

theorem recordsFailure_iff : recordsFailure ev = true ↔ ∃ d, ev = ⟨.recordFailure d, .ok ()⟩ := by
  obtain ⟨op, r⟩ := ev
  cases op with
  | recordFailure => cases r <;> simp [recordsFailure]
  | _ => simp [recordsFailure]

theorem releaseRaised_iff :
    releaseRaised ev = true ↔ ∃ reservation e, ev = ⟨.release reservation, .error e⟩ := by
  obtain ⟨op, r⟩ := ev
  cases op with
  | release => cases r <;> simp [releaseRaised]
  | _ => simp [releaseRaised]

theorem closing_recorded : (t.foldl Closing.see {}).recorded = true ↔
    ∃ d, t.getLast? = some ⟨.recordFailure d, .ok ()⟩ := by
  induction t using List.reverseRecOn with
  | nil => simp
  | append_singleton t ev ih =>
    rw [List.foldl_append, List.foldl_cons, List.foldl_nil, see_recorded, recordsFailure_iff,
      List.getLast?_concat]
    simp

theorem closing_spilled : (t.foldl Closing.see {}).spilled = false ↔ ReleasesElsewhere t := by
  induction t using List.reverseRecOn with
  | nil => simp [ReleasesElsewhere]
  | append_singleton t ev ih =>
    rw [List.foldl_append, List.foldl_cons, List.foldl_nil, see_spilled, Bool.or_eq_false_iff, ih]
    constructor
    · rintro ⟨before, now⟩ pre reservation e post split
      rcases List.eq_nil_or_concat post with rfl | ⟨post, last, rfl⟩
      · obtain ⟨rfl, same⟩ := List.append_inj' split rfl
        obtain rfl := List.singleton_inj.mp same
        apply closing_recorded.mp
        simpa [releaseRaised] using now
      · rw [List.concat_eq_append, ← List.cons_append, ← List.append_assoc] at split
        exact before pre reservation e post (List.append_inj' split rfl).1
    · intro all
      constructor
      · intro pre reservation e post split
        exact all pre reservation e (post ++ [ev]) (by simp [split])
      · by_contra h
        rw [Bool.not_eq_false, Bool.and_eq_true, releaseRaised_iff] at h
        obtain ⟨⟨reservation, e, rfl⟩, unrecorded⟩ := h
        have recorded := closing_recorded.mpr (all t reservation e [] rfl)
        rw [recorded] at unrecorded
        cases unrecorded

end

/-- For every request, config and behaviour of the quota store, the key resolver, the
router and the adapters, in a run that is neither cancelled nor closed: the stream
ends with its one terminal event, a `done` only after a stream that ended well,
exactly when the router answers on the first line and no release raises but that
of an exhausted chain. -/
theorem oneTerminal_iff (gw : Service) (request : Request) (tenant : TenantConfig) (cfg : Cfg)
    (route : Routing) :
    (routedStream gw request tenant cfg route).All {} fun t _ _ => (∀ ev ∈ t, Uncut ev) →
      (OneTerminal t ↔ (∃ candidates, route.candidates = .ok candidates) ∧ ReleasesElsewhere t) := by
  unfold routedStream
  cases first : route.candidates with
  | error e =>
    intro _
    refine ⟨fun one => ?_, fun h => ?_⟩
    · obtain ⟨init, event, none_, -⟩ := one.last
      simp at none_
    · obtain ⟨⟨_, h⟩, -⟩ := h
      cases h
  | ok candidates =>
    apply Coro.All.mono (tried_closes gw request tenant cfg route candidates)
    intro t o v ends uncut
    obtain ⟨last, clean⟩ := ends uncut
    rw [closing_last, closing_spilled] at last
    rw [closing_clean, Bool.false_or, closing_done, List.any_eq_true] at clean
    have clean := fun done => clean (.inr done)
    constructor
    · exact fun one => ⟨⟨_, rfl⟩, last.mp one.last⟩
    · exact fun h => ⟨last.mpr h.2, clean⟩

/-- A router that fails on a `fallback_models` which is a number. -/
def brokenRouter : Routing :=
  let raised : Failure := ⟨.exception "'int' object is not iterable", rfl⟩
  { candidates := .error raised, considered := .error raised, decide := fun _ => .error raised }

/-- The store of the quotas is gone when a hold is released. -/
def storeGone : (op : Op) → Except Raised (Calls.Ans op)
  | .release _ => .error (.exception "connection refused")
  | op => answering op

/-- The adapter breaks off after a `delta`. -/
def breaksAfterDelta : (op : Op) → Except Raised (Calls.Ans op)
  | .openStream .. => .ok {
      events := [{ type := .delta, content := "hel" }]
      ending := some (.exception "connection reset") }
  | op => storeGone op

/-- There is no key either. -/
def keyGone : (op : Op) → Except Raised (Calls.Ans op)
  | .resolveKey _ => .error (.configuration "no key")
  | op => storeGone op

theorem terminal_fails :
    let stream := routedStream oneModel estimated { id := "acme" } {}
    let router := Routing.of oneModel estimated {}
    let seen (route : Routing) (env : (op : Op) → Except Raised (Calls.Ans op)) :=
      (((stream route).traceWith env {}).filterMap yielded).map (·.type)
    seen brokenRouter answering = [] ∧ seen router keyGone = [] ∧
      seen router breaksAfterDelta = [.delta, .error, .error] ∧
      ¬ ∀ route, (stream route).All {} fun t _ _ => (∀ ev ∈ t, Uncut ev) → OneTerminal t := by
  intro stream router seen
  refine ⟨by decide +kernel, by decide +kernel, by decide +kernel, fun all => ?_⟩
  have run := (stream brokenRouter).runs_with answering {}
  obtain ⟨init, event, none_, -⟩ := (Coro.all_iff.mp (all brokenRouter) _ _ _ run
    (by intro ev mem; cases mem)).last
  have empty : ((stream brokenRouter).traceWith answering {}).filterMap yielded = [] := rfl
  rw [empty] at none_
  simp at none_

end AgentStudio.Gateway
