import AgentStudio.Gateway.Parts
import AgentStudio.Gateway.StreamSettlement
import AgentStudio.Async.Observe

/-!
# What a chain does with its deployments

The marks of a run: which deployments were sent the messages, which failed and
how, and which served. The two fallback loops leave the same kind of marks: each
deployment comes from the targets that the chain named for the failure before it.
-/

namespace AgentStudio.Gateway
open Async Quota

-- nothing here depends on which text has which class
attribute [local irreducible] classifyFailure

/-! ## Marks -/

inductive Mark where
  | called (d : Deployment)
  | failed (d : Deployment) (failureClass : FailureClass)
  | served (d : Deployment)
  deriving DecidableEq

/-- The class under which `_stream_impl` files an exception. -/
def raisedClass : Raised → FailureClass
  | .providerCall failureClass .. => failureClass
  | e => classifyFailure e.text

/-- The text of an adapter's `error` event. -/
def LLMStreamEvent.message (ev : LLMStreamEvent) : String :=
  if ev.error = "" then "stream error" else ev.error

/-- How a stream fails, if it does: at its first `error` event, or at its end. -/
def Script.failure (script : Script) : Option FailureClass :=
  match script.events.find? (·.type == .error), script.ending with
  | some ev, _ => some (classifyFailure ev.message)
  | none, some e => some (raisedClass e)
  | none, none => if script.events.isEmpty then some (classifyFailure "") else none

/-- The observer of a run: the marks so far, and the class of the last failure. -/
structure Logbook where
  pending : FailureClass := .general
  marks : List Mark := []

def Logbook.note (g : Logbook) (ev : Ev) : Logbook :=
  match ev with
  | ⟨.getAdapter .., .error e⟩ => { g with pending := classifyFailure e.text }
  | ⟨.chat d .., r⟩ => {
      pending := match r with
        | .ok _ => g.pending
        | .error e => classifyFailure e.text
      marks := g.marks ++ [.called d] }
  | ⟨.openStream d .., r⟩ => {
      pending := match r with
        | .ok script => script.failure.getD g.pending
        | .error e => raisedClass e
      marks := g.marks ++ [.called d] }
  | ⟨.emit _, .error e⟩ => { g with pending := raisedClass e }
  | ⟨.recordFailure d, _⟩ => { g with marks := g.marks ++ [.failed d g.pending] }
  | ⟨.recordSuccess d, _⟩ => { g with marks := g.marks ++ [.served d] }
  | _ => g

/-- The marks of a run. -/
def marks (t : Run) : List Mark := (t.foldl Logbook.note {}).marks

/-- A call that leaves no mark. -/
def Markless : Op → Prop
  | .chat .. | .openStream .. | .recordFailure _ | .recordSuccess _ => False
  | _ => True

theorem note_markless (op : Op) (h : Markless op) (g : Logbook) (r : Except Raised (Calls.Ans op)) :
    (g.note ⟨op, r⟩).marks = g.marks := by
  cases op with
  | chat => exact h.elim
  | openStream => exact h.elim
  | recordFailure => exact h.elim
  | recordSuccess => exact h.elim
  | getAdapter => cases r <;> rfl
  | emit => cases r <;> rfl
  | _ => rfl

/-- What a call tells of a failure of `d`. -/
inductive Tells : Ev → Deployment → FailureClass → Prop
  | adapter (d : Deployment) (request : Request) (apiKey : String) (e : Raised) :
      Tells ⟨.getAdapter d request apiKey, .error e⟩ d (classifyFailure e.text)
  | chat (d : Deployment) (messages : List Message) (timeout : ℚ) (e : Raised) :
      Tells ⟨.chat d messages timeout, .error e⟩ d (classifyFailure e.text)
  | refused (d : Deployment) (messages : List Message) (timeout : ℚ) (e : Raised) :
      Tells ⟨.openStream d messages timeout, .error e⟩ d (raisedClass e)
  | broke (d : Deployment) (messages : List Message) (timeout : ℚ) (script : Script)
      {failureClass : FailureClass} (fails : script.failure = some failureClass) :
      Tells ⟨.openStream d messages timeout, .ok script⟩ d failureClass
  | thrown (event : StreamEvent) (e : Raised) (d : Deployment) :
      Tells ⟨.emit event, .error e⟩ d (raisedClass e)

/-! ## What the marks may be -/

section
variable (chain : FallbackChain) (first : Deployment) (fails : Deployment → FailureClass → Prop)

/-- What is left to try once `seen` was tried and the last failed in this class. -/
def FallbackChain.left (failureClass : FailureClass) (seen : List Deployment) : List Deployment :=
  (chain.targets failureClass).filter (· ∉ seen)

/-- The marks, the targets and the deployments tried between two attempts. -/
inductive ChainMarks : List Mark → List Deployment → List Deployment → Prop
  | start : ChainMarks [] [first] []
  | failed {marks : List Mark} {d : Deployment} {rest seen : List Deployment}
      {failureClass : FailureClass} (h : ChainMarks marks (d :: rest) seen) (shown : fails d failureClass) :
      ChainMarks (marks ++ [.called d, .failed d failureClass])
        (chain.left failureClass (seen ++ [d])) (seen ++ [d])
  /-- The adapter was not there: nothing was sent. -/
  | unbuilt {marks : List Mark} {d : Deployment} {rest seen : List Deployment}
      {failureClass : FailureClass} (h : ChainMarks marks (d :: rest) seen) (shown : fails d failureClass) :
      ChainMarks (marks ++ [.failed d failureClass])
        (chain.left failureClass (seen ++ [d])) (seen ++ [d])

/-- The marks of a run, wherever it stops. -/
inductive RunMarks : List Mark → Prop
  | between {marks : List Mark} {targets seen : List Deployment}
      (h : ChainMarks chain first fails marks targets seen) : RunMarks marks
  | called {marks : List Mark} {d : Deployment} {rest seen : List Deployment}
      (h : ChainMarks chain first fails marks (d :: rest) seen) : RunMarks (marks ++ [.called d])
  | served {marks : List Mark} {d : Deployment} {rest seen : List Deployment}
      (h : ChainMarks chain first fails marks (d :: rest) seen) :
      RunMarks (marks ++ [.called d, .served d])

variable {chain first fails} {marks : List Mark} {targets seen : List Deployment}

/-- No target was tried before. -/
theorem ChainMarks.fresh (h : ChainMarks chain first fails marks targets seen) : ∀ d ∈ targets, d ∉ seen := by
  cases h with
  | start => simp
  | failed => exact fun d mem => by simpa using (List.mem_filter.mp mem).2
  | unbuilt => exact fun d mem => by simpa using (List.mem_filter.mp mem).2

end

/-! ## The parts of the loops -/

/-- Every run of `c` whose calls are answered fairly, as the observer sees it. -/
abbrev Noted {σ α : Type} (fair : Ev → Prop) (c : Coro Calls Raised σ α) (g : Logbook) (v : σ)
    (Q : Logbook → Except Raised α → σ → Prop) : Prop :=
  c.Ends fair Logbook.note g v Q

section
variable {fair : Ev → Prop} {fails : Deployment → FailureClass → Prop}
  (told : ∀ ev, fair ev → ∀ d failureClass, Tells ev d failureClass → fails d failureClass)
  {σ : Type} {g : Logbook} {v : σ}

theorem noted_markless {α : Type} {c : Coro Calls Raised σ α} (calls : Coro.Emits Markless c) :
    Noted fair c g v fun g' _ _ => g'.marks = g.marks := .view Logbook.marks note_markless calls

theorem afterSuccess_markless (gw : Service) (request : Request) (cfg : Cfg) (result : Result) :
    Coro.Emits Markless (afterSuccess gw request cfg result : Coro Calls Raised σ _) :=
  afterSuccess_emits gw request cfg result (by trivial) (by trivial)

include told in
/-- One attempt of `generate`. -/
theorem attempt_noted (request : Request) (tenant : TenantConfig) (apiKey : String)
    (d : Deployment) :
    Noted fair (attempt request tenant apiKey d) g v fun g' o v' => v' = v ∧
      match o with
      | .ok (.ok _) => g'.marks = g.marks ++ [.called d]
      | .ok (.error failure) => g'.pending = failure.failureClass ∧ fails d failure.failureClass ∧
          (g'.marks = g.marks ∨ g'.marks = g.marks ++ [.called d])
      | .error _ => g'.marks = g.marks ∨ g'.marks = g.marks ++ [.called d] := by
  unfold attempt
  apply Coro.Ends.tryCatch (Q := fun g' o v' => v' = v ∧
    match o with
    | .ok (.ok _) => g'.marks = g.marks ++ [.called d]
    | .ok (.error _) => False
    | .error e => g'.pending = classifyFailure e.text ∧ fails d (classifyFailure e.text) ∧
        (g'.marks = g.marks ∨ g'.marks = g.marks ++ [.called d]))
  · apply Coro.Ends.call_bind
    · intro _ _
      apply Coro.Ends.call_bind
      · exact fun response _ => .pure ⟨rfl, rfl⟩
      · exact fun e answered => ⟨rfl, rfl, told _ answered d _ (.chat ..), .inr rfl⟩
    · exact fun e answered => ⟨rfl, rfl, told _ answered d _ (.adapter ..), .inl rfl⟩
  · rintro g' a v' ⟨rfl, marked⟩
    cases a with
    | ok result => exact ⟨rfl, marked⟩
    | error failure => exact marked.elim
  · rintro g' e v' ⟨rfl, pending, shown, marked⟩
    by_cases quota : e.isQuotaExceeded = true
    · rw [if_pos quota]
      exact .throw ⟨rfl, marked⟩
    · rw [if_neg quota]
      by_cases exception : e.isException = true
      · rw [if_pos exception]
        exact .pure ⟨rfl, pending, shown, marked⟩
      · rw [if_neg exception]
        exact .throw ⟨rfl, marked⟩

/-- The availability on which the router decides: the answers, and otherwise up. -/
def Informs (fair : Ev → Prop) (gw : Service) (request : Request) (cfg : Cfg)
    (up : Deployment → Bool) : Prop :=
  ∀ d, d ∈ candidatesAt gw request cfg 1 ∧ fair ⟨.isAvailable d, .ok (up d)⟩ ∨
    d ∉ candidatesAt gw request cfg 1 ∧ up d = true

theorem snapshot_noted (ds : List Deployment) :
    Noted fair (snapshot ds) g v fun g' o v' => g'.marks = g.marks ∧ v' = v ∧ ∀ snap, o = .ok snap →
      snap.map Prod.fst = ds ∧ ∀ p ∈ snap, fair ⟨.isAvailable p.1, .ok p.2⟩ := by
  induction ds generalizing g v with
  | nil =>
    apply Coro.Ends.pure
    refine ⟨rfl, rfl, ?_⟩
    rintro snap is
    cases is
    exact ⟨rfl, nofun⟩
  | cons d ds ih =>
    apply Coro.Ends.call_bind
    · intro up answered
      apply ih.bind
      · rintro g' rest v' ⟨same, rfl, known⟩
        obtain ⟨listed, all⟩ := known rest rfl
        apply Coro.Ends.pure
        refine ⟨same, rfl, ?_⟩
        rintro snap is
        cases is
        exact ⟨by rw [List.map_cons, listed], List.forall_mem_cons.mpr ⟨answered, all⟩⟩
      · rintro g' e v' ⟨same, rfl, -⟩
        exact ⟨same, rfl, nofun⟩
    · exact fun e _ => ⟨rfl, rfl, nofun⟩

/-- A look-up in the snapshot finds one of its answers, for each deployment asked. -/
theorem informs_lookup {gw : Service} {request : Request} {cfg : Cfg}
    {snap : List (Deployment × Bool)} (listed : snap.map Prod.fst = candidatesAt gw request cfg 1)
    (all : ∀ p ∈ snap, fair ⟨.isAvailable p.1, .ok p.2⟩) :
    Informs fair gw request cfg fun d => (snap.reverse.lookup d).getD true := by
  intro d
  dsimp only
  rw [← listed]
  cases found : snap.reverse.lookup d with
  | some up =>
    obtain ⟨before, after, is, -⟩ := List.lookup_eq_some_iff.mp found
    have mem : (d, up) ∈ snap := List.mem_reverse.mp (by simp [is])
    exact .inl ⟨List.mem_map_of_mem mem, all _ mem⟩
  | none =>
    refine .inr ⟨fun mem => ?_, rfl⟩
    obtain ⟨p, asked, rfl⟩ := List.mem_map.mp mem
    have other := List.lookup_eq_none_iff.mp found p (List.mem_reverse.mpr asked)
    simp at other

/-- What `_decide` returns is what the router decides on what it was answered. -/
theorem decide_noted (gw : Service) (request : Request) (cfg : Cfg) :
    Noted fair (decide gw request cfg) g v fun g' o v' => g'.marks = g.marks ∧ v' = v ∧
      ∀ d, o = .ok d → ∃ up, Informs fair gw request cfg up ∧
        d = Router.decide (candidatesAt gw request cfg 2) up := by
  apply (snapshot_noted _).bind
  · rintro g' snap v' ⟨same, rfl, known⟩
    obtain ⟨listed, all⟩ := known snap rfl
    apply Coro.Ends.pure
    exact ⟨same, rfl, fun d is => ⟨_, informs_lookup listed all, (Except.ok.inj is).symm⟩⟩
  · rintro g' e v' ⟨same, rfl, -⟩
    exact ⟨same, rfl, nofun⟩

end

/-! ## `generate` -/

section
variable {fair : Ev → Prop} {fails : Deployment → FailureClass → Prop}
  (told : ∀ ev, fair ev → ∀ d failureClass, Tells ev d failureClass → fails d failureClass)
  (gw : Service) (request : Request) (tenant : TenantConfig) (cfg : Cfg)
  {chain : FallbackChain} {first d : Deployment} {rest seen : List Deployment} {g : Logbook}

/-- An attempt that stops leaves the marks of a run. -/
theorem ChainMarks.stopped (h : ChainMarks chain first fails g.marks (d :: rest) seen)
    {marks : List Mark} (marked : marks = g.marks ∨ marks = g.marks ++ [.called d]) :
    RunMarks chain first fails marks := by
  rcases marked with rfl | rfl
  · exact .between h
  · exact .called h

/-- After a successful attempt nothing is marked but the deployment that served. -/
theorem succeed_noted {σ : Type} {v : σ} (reservation : Option Reservation) (result : Result)
    (h : ChainMarks chain first fails g.marks (d :: rest) seen) {g' : Logbook}
    (marked : g'.marks = g.marks ++ [.called d]) :
    Noted fair (do
      Coro.call (I := Calls) (.recordSuccess d)
      Coro.call (I := Calls) (.reconcile reservation (resultUsd gw result))
      afterSuccess gw request cfg result
      pure (some (some result)) : Coro Calls Raised σ (Option (Option Result))) g' v
        fun g'' o _ => RunMarks chain first fails g''.marks ∧ o ≠ .ok none := by
  have served (r : Except Raised Unit) :
      RunMarks chain first fails (g'.note ⟨.recordSuccess d, r⟩).marks := by
    have all : (g'.note ⟨.recordSuccess d, r⟩).marks = g.marks ++ [.called d, .served d] := by
      change g'.marks ++ [.served d] = _
      simp [marked]
    rw [all]
    exact .served h
  apply Coro.Ends.call_bind
  · intro _ _
    have after : Coro.Emits Markless (do
        Coro.call (I := Calls) (.reconcile reservation (resultUsd gw result))
        afterSuccess gw request cfg result : Coro Calls Raised σ Unit) :=
      (Coro.emits_call (by trivial)).bind fun _ => afterSuccess_markless gw request cfg result
    have quiet : Noted fair (do
        Coro.call (I := Calls) (.reconcile reservation (resultUsd gw result))
        afterSuccess gw request cfg result)
        (g'.note ⟨.recordSuccess d, .ok ()⟩) v
        fun g'' _ _ => g''.marks = (g'.note ⟨.recordSuccess d, .ok ()⟩).marks :=
      noted_markless after
    have rest : Noted fair ((do
        Coro.call (I := Calls) (.reconcile reservation (resultUsd gw result))
        afterSuccess gw request cfg result) >>= fun _ => pure (some (some result)))
        (g'.note ⟨.recordSuccess d, .ok ()⟩) v
        fun g'' o _ => RunMarks chain first fails g''.marks ∧ o ≠ .ok none := quiet.bind
      (fun g'' _ _ same => .pure ⟨same ▸ served _, by simp⟩)
      (fun g'' e _ same => ⟨same ▸ served _, by simp⟩)
    rw [Coro.bind_assoc] at rest
    exact rest
  · exact fun e _ => ⟨served _, by simp⟩

include told in
theorem chainRound_noted (apiKey : String) (reservation : Option Reservation) {v : ChainVars}
    (h : ChainMarks chain first fails g.marks v.targets v.seen) :
    Noted fair (chainRound gw request tenant cfg chain apiKey reservation) g v fun g' o v' =>
      match o with
      | .ok none => ChainMarks chain first fails g'.marks v'.targets v'.seen
      | .ok (some _) => RunMarks chain first fails g'.marks
      | .error _ => RunMarks chain first fails g'.marks := by
  unfold chainRound
  apply Coro.Ends.get_bind
  split
  next empty => exact .pure (.between h)
  next d rest targets =>
    have new : d ∉ v.seen := h.fresh d (by simp [targets])
    rw [targets] at h
    apply Coro.Ends.modify_bind
    apply Coro.Ends.get_bind
    rw [if_neg new]
    apply Coro.Ends.modify_bind
    apply (attempt_noted told request tenant apiKey d).bind
    · rintro g' outcome v' ⟨rfl, marked⟩
      cases outcome with
      | ok result =>
        apply (succeed_noted gw request cfg reservation result h marked).mono
        rintro g'' o _ ⟨run, ended⟩
        match o with
        | .ok none => exact absurd rfl ended
        | .ok (some _) => exact run
        | .error _ => exact run
      | error failure =>
        obtain ⟨pending, shown, marked⟩ := marked
        have noted (r : Except Raised Unit) : ChainMarks chain first fails
            (g'.note ⟨.recordFailure d, r⟩).marks
            (chain.left failure.failureClass (v.seen ++ [d])) (v.seen ++ [d]) := by
          change ChainMarks chain first fails (g'.marks ++ [.failed d g'.pending]) _ _
          rw [pending]
          rcases marked with same | same
          · rw [same]
            exact .unbuilt h shown
          · rw [same, List.append_assoc]
            exact .failed h shown
        apply Coro.Ends.modify_bind
        apply Coro.Ends.call_bind
        · intro _ _
          exact .modify_bind (.pure (noted (.ok ())))
        · exact fun e _ => .between (noted (.error e))
    · rintro g' e v' ⟨rfl, marked⟩
      exact h.stopped marked

/-- Once the marks are those of a run, calls that leave none keep them. -/
theorem RunMarks.kept {σ α : Type} {v : σ} (h : RunMarks chain first fails g.marks)
    {c : Coro Calls Raised σ α} (calls : Coro.Emits Markless c) :
    Noted fair c g v fun g' _ _ => RunMarks chain first fails g'.marks :=
  (noted_markless calls).mono fun _ _ _ same => same ▸ h

include told in
theorem runChain_noted (apiKey : String) (reservation : Option Reservation) (none_ : g.marks = []) :
    Noted fair (runChain gw request tenant cfg chain apiKey reservation) g { targets := [first] }
      fun g' _ _ => RunMarks chain first fails g'.marks := by
  have loop : Noted fair (Coro.iterate (chainRound gw request tenant cfg chain apiKey reservation)
      (chainFuel chain)) g { targets := [first] }
      fun g' _ _ => RunMarks chain first fails g'.marks := by
    apply Coro.Ends.iterate (fun g v => ChainMarks chain first fails g.marks v.targets v.seen)
    · intro g v h
      apply (chainRound_noted told gw request tenant cfg apiKey reservation h).mono
      rintro g' o v' step
      match o with
      | .ok none => exact step
      | .ok (some _) => exact step
      | .error _ => exact step
    · exact fun _ _ h => .between h
    · rw [none_]
      exact .start
  apply Coro.Ends.bind (Q := fun g' _ _ => RunMarks chain first fails g'.marks)
  · apply Coro.Ends.tryCatch (Q := fun g' _ _ => RunMarks chain first fails g'.marks)
    · apply loop.bind
      · rintro g' found v' run
        cases found with
        | none => exact .throw run
        | some found => exact .pure run
      · exact fun _ _ _ run => run
    · exact fun _ _ _ run => run
    · intro g' e v' run
      split
      · exact run.kept ((Coro.emits_call (by trivial)).bind fun _ => Coro.emits_throw e)
      · exact .throw run
  · intro g' found v' run
    cases found with
    | some result => exact .pure run
    | none =>
      exact run.kept ((Coro.emits_call (by trivial)).bind fun _ =>
        Coro.emits_get.bind fun _ => Coro.emits_throw _)
  · exact fun _ _ _ run => run

include told in
/-- The marks of every run of `generate`. -/
theorem generate_noted :
    Noted fair (generate gw request tenant cfg) {} () fun g _ _ => g.marks = [] ∨
      ∃ up, Informs fair gw request cfg up ∧
        RunMarks (fallbackChain gw request cfg (candidatesAt gw request cfg 3))
          (Router.decide (candidatesAt gw request cfg 2) up) fails g.marks := by
  have before : Coro.Emits Markless (lookupExact request tenant cfg) := by
    unfold lookupExact
    split
    · exact Coro.emits_call (by trivial)
    · exact Coro.emits_pure none
  apply Coro.Ends.call_bind
  · intro reservation _
    apply (noted_markless before).bind
    · intro g found _ none_
      cases found with
      | some entry =>
        apply Coro.Ends.call_bind
        · exact fun _ _ => .pure (.inl none_)
        · exact fun _ _ => .inl none_
      | none =>
        apply Coro.Ends.call_bind
        · intro apiKey _
          apply (decide_noted gw request cfg).bind
          · rintro g' decision _ ⟨same, -, decided⟩
            obtain ⟨up, informs, is⟩ := decided decision rfl
            have fresh : g'.marks = [] := same.trans none_
            have run : Noted fair (runChain gw request tenant cfg
                (fallbackChain gw request cfg (candidatesAt gw request cfg 3)) apiKey reservation)
                g' { targets := [decision] } fun g'' _ _ => RunMarks
                  (fallbackChain gw request cfg (candidatesAt gw request cfg 3)) decision fails
                  g''.marks :=
              runChain_noted told gw request tenant cfg apiKey reservation fresh
            exact .scope (run.mono fun g'' _ _ marked => .inr ⟨up, informs, is ▸ marked⟩)
          · exact fun g' e _ step => .inl (step.1.trans none_)
        · exact fun _ _ => .inl none_
    · exact fun g e _ none_ => .inl none_
  · exact fun e _ => .inl rfl

end

/-! ## `_stream_impl` -/

section
variable {fair : Ev → Prop} {fails : Deployment → FailureClass → Prop}
  (told : ∀ ev, fair ev → ∀ d failureClass, Tells ev d failureClass → fails d failureClass)
  (gw : Service) (request : Request) (tenant : TenantConfig) (cfg : Cfg)
  {g : Logbook} {v : StreamVars}

/-- `_handle` raises at an `error` event and nowhere else. -/
theorem handle_fails (d : Deployment) (ev : LLMStreamEvent) :
    (handle gw d ev).All v fun _ o _ =>
      match o with
      | .ok _ => ev.type ≠ .error
      | .error e => ev.type = .error ∧ e = .providerCall (classifyFailure ev.message) d.1 d.2 ev.message := by
  unfold handle
  cases type : ev.type with
  | delta =>
    dsimp only
    split <;> exact nofun
  | toolUseStart => exact nofun
  | toolUseDelta => exact nofun
  | toolUseEnd =>
    simp only [Coro.all_get_bind]
    split <;> exact nofun
  | usage =>
    dsimp only
    split <;> exact nofun
  | done => exact nofun
  | error => exact ⟨rfl, rfl⟩
  | other => exact nofun

/-- The class of the first `error` event among the events. -/
def errorClass (events : List LLMStreamEvent) : Option FailureClass :=
  (events.find? (·.type == .error)).map fun ev => classifyFailure ev.message

theorem raisedClass_providerCall (failureClass : FailureClass) (provider model cause : String) :
    raisedClass (.providerCall failureClass provider model cause) = failureClass := by
  rw [raisedClass]

/-- The events are passed on up to an `error` event, or to a consumer that raises. -/
theorem forwardEvents_noted (d : Deployment) (events : List LLMStreamEvent) :
    Noted fair (forwardEvents gw d events) g v fun g' o v' =>
      g'.marks = g.marks ∧ v'.seen = v.seen ∧
      match o with
      | .ok _ => g'.pending = g.pending ∧ errorClass events = none
      | .error e => g'.pending = g.pending ∧ errorClass events = some (raisedClass e) ∨
          g'.pending = raisedClass e ∧ ∃ event, fair ⟨.emit event, .error e⟩ := by
  induction events generalizing g v with
  | nil => exact .pure ⟨rfl, rfl, rfl, rfl⟩
  | cons ev rest ih =>
    apply Coro.Ends.bind (Q := fun g' o v' => g' = g ∧ v'.seen = v.seen ∧
      match o with
      | .ok _ => ev.type ≠ .error
      | .error e => ev.type = .error ∧
          e = .providerCall (classifyFailure ev.message) d.1 d.2 ev.message)
    · apply Coro.All.mono ((handle_spec gw d ev).and (handle_fails gw d ev))
      rintro t o v' ⟨⟨rfl, same, -⟩, raises⟩ -
      exact ⟨rfl, same.seen, raises⟩
    · rintro g out v' ⟨rfl, seen, goesOn⟩
      have later : errorClass (ev :: rest) = errorClass rest := by
        simp [errorClass, goesOn]
      rw [later]
      cases out with
      | none => exact ih.mono fun _ _ _ step => ⟨step.1, step.2.1.trans seen, step.2.2⟩
      | some out =>
        apply Coro.Ends.call_bind
        · exact fun _ _ => ih.mono fun _ _ _ step => ⟨step.1, step.2.1.trans seen, step.2.2⟩
        · intro e answered
          have marked := note_markless (.emit out) trivial g (.error e)
          exact ⟨marked, seen, .inr ⟨by rw [Logbook.note], out, answered⟩⟩
    · rintro _ e v' ⟨rfl, seen, error, rfl⟩
      refine ⟨rfl, seen, .inl ⟨rfl, ?_⟩⟩
      rw [raisedClass_providerCall]
      simp [errorClass, error]

theorem errorClass_failure {script : Script} {failureClass : FailureClass}
    (first : errorClass script.events = some failureClass) : script.failure = some failureClass := by
  unfold errorClass at first
  unfold Script.failure
  cases found : script.events.find? (·.type == .error) with
  | none =>
    rw [found] at first
    cases first
  | some ev =>
    rw [found] at first
    exact first

include told in
/-- One call of a deployment; what it raises is what the observer has noted. -/
theorem consume_noted (d : Deployment) :
    Noted fair (consume gw request tenant d) g v fun g' o v' =>
      g'.marks = g.marks ++ [.called d] ∧ v'.seen = v.seen ∧
      ∀ e, o = .error e → g'.pending = raisedClass e ∧ fails d (raisedClass e) := by
  unfold consume
  apply Coro.Ends.call_bind
  · intro script answered
    have shown {failureClass : FailureClass} (is : script.failure = some failureClass) :
        fails d failureClass := told _ answered d _ (.broke _ _ _ _ is)
    apply Coro.Ends.modify_bind
    apply (forwardEvents_noted gw d script.events).bind
    · rintro g' _ v' ⟨marked, seen, pending, clean⟩
      have clean' : script.events.find? (·.type == .error) = none := by
        simpa [errorClass] using clean
      have noted {failureClass : FailureClass} (is : script.failure = some failureClass) :
          g'.pending = failureClass := by
        rw [pending, Logbook.note, is, Option.getD_some]
      cases ends : script.ending with
      | some e =>
        have is : script.failure = some (raisedClass e) := by
          rw [Script.failure, clean', ends]
        apply Coro.Ends.throw
        refine ⟨marked, seen, fun e' raised => ?_⟩
        cases raised
        exact ⟨noted is, shown is⟩
      | none =>
        dsimp only
        split
        next empty =>
          have blank : raisedClass (.exception "") = classifyFailure "" := rfl
          have is : script.failure = some (raisedClass (.exception "")) := by
            rw [Script.failure, clean', ends, blank]
            exact if_pos empty
          apply Coro.Ends.throw
          refine ⟨marked, seen, fun e' raised => ?_⟩
          cases raised
          exact ⟨noted is, shown is⟩
        next => exact .pure ⟨marked, seen, nofun⟩
    · rintro g' e v' ⟨marked, seen, raised⟩
      refine ⟨marked, seen, fun e' is => ?_⟩
      cases is
      rcases raised with ⟨pending, first⟩ | ⟨pending, event, thrown⟩
      · have is := errorClass_failure first
        refine ⟨?_, shown is⟩
        rw [pending, Logbook.note, is, Option.getD_some]
      · exact ⟨pending, told _ thrown d _ (.thrown event e d)⟩
  · intro e answered
    refine ⟨rfl, rfl, fun e' is => ?_⟩
    cases is
    refine ⟨?_, told _ answered d _ (.refused _ _ _ e)⟩
    rw [Logbook.note]

variable {chain : FallbackChain} {first d : Deployment} {rest seen : List Deployment}

theorem failAttempt_noted (e : Raised) (pending : g.pending = raisedClass e) :
    Noted fair (failAttempt chain d e) g v fun g' o v' =>
      g'.marks = g.marks ++ [.failed d (raisedClass e)] ∧
      ∀ flow, o = .ok flow → flow ≠ .completed ∧ (flow = .again → v'.seen = v.seen ∧
        v'.targets = chain.left (raisedClass e) v.seen) := by
  have filed : (asProviderCallError e d).failureClass = raisedClass e := by
    cases e <;> rfl
  have noted (r : Except Raised Unit) :
      (g.note ⟨.recordFailure d, r⟩).marks = g.marks ++ [.failed d (raisedClass e)] := by
    rw [← pending]
    rfl
  unfold failAttempt
  apply Coro.Ends.modify_bind
  apply Coro.Ends.call_bind
  · intro _ _
    apply Coro.Ends.get_bind
    split
    · have after : Coro.Emits Markless (do
          Coro.call (I := Calls) (.emit {
            type := .error, error := e.text
            failureClass := (asProviderCallError e d).failureClass.name
            provider := d.1, model := d.2 })
          releaseOnce : Coro Calls Raised StreamVars Unit) :=
        (Coro.emits_call (by trivial)).bind fun _ => releaseOnce_emits fun _ => trivial
      rw [← Coro.bind_assoc]
      apply (noted_markless after).bind
      · exact fun g' _ v' same => .pure ⟨same.trans (noted _), by simp⟩
      · exact fun g' e' v' same => ⟨same.trans (noted _), by simp⟩
    · apply Coro.Ends.modify_bind
      apply Coro.Ends.pure
      refine ⟨noted _, fun flow is => ?_⟩
      obtain rfl := Except.ok.inj is
      refine ⟨by simp, fun _ => ⟨rfl, ?_⟩⟩
      dsimp only
      rw [filed]
      rfl
  · exact fun e' _ => ⟨noted _, by simp⟩

theorem onAttemptRaise_noted (e : Raised) (pending : g.pending = raisedClass e) :
    Noted fair (onAttemptRaise chain d e) g v fun g' o v' =>
      (g'.marks = g.marks ∧ (∀ flow, o ≠ .ok flow) ∨
        g'.marks = g.marks ++ [.failed d (raisedClass e)]) ∧
      ∀ flow, o = .ok flow → flow ≠ .completed ∧ (flow = .again → v'.seen = v.seen ∧
        v'.targets = chain.left (raisedClass e) v.seen) := by
  have aborted (e : Raised) : Noted fair (abandon e : Coro Calls Raised StreamVars Flow) g v
      fun g' o _ => g'.marks = g.marks ∧ ∀ flow, o ≠ .ok flow := by
    apply (noted_markless (abandon_emits (by trivial) (fun _ => trivial) e)).and
    apply Coro.Ends.of_all
    have any {β : Type} (c : Coro Calls Raised StreamVars β) (v : StreamVars) :
        c.All v fun _ _ _ => True := Coro.all_iff.mpr fun _ _ _ _ => trivial
    apply (any closeUpstream v).bind
    · intro _ _ v' _
      apply (any releaseOnce v').bind
      · exact fun _ _ _ _ => nofun
      · exact fun _ _ _ _ => nofun
    · exact fun _ _ _ _ => nofun
  have failed : Noted fair (failAttempt chain d e) g v fun g' o v' =>
      (g'.marks = g.marks ∧ (∀ flow, o ≠ .ok flow) ∨
        g'.marks = g.marks ++ [.failed d (raisedClass e)]) ∧
      ∀ flow, o = .ok flow → flow ≠ .completed ∧ (flow = .again → v'.seen = v.seen ∧
        v'.targets = chain.left (raisedClass e) v.seen) :=
    (failAttempt_noted e pending).mono fun _ _ _ step => ⟨.inr step.1, step.2⟩
  have left : Noted fair (abandon e : Coro Calls Raised StreamVars Flow) g v fun g' o v' =>
      (g'.marks = g.marks ∧ (∀ flow, o ≠ .ok flow) ∨
        g'.marks = g.marks ++ [.failed d (raisedClass e)]) ∧
      ∀ flow, o = .ok flow → flow ≠ .completed ∧ (flow = .again → v'.seen = v.seen ∧
        v'.targets = chain.left (raisedClass e) v.seen) :=
    (aborted e).mono fun _ _ _ step => ⟨.inl step, fun flow is => absurd is (step.2 flow)⟩
  cases e with
  | cancelled => exact left
  | generatorExit => exact left
  | outOfFuel => exact .throw ⟨.inl ⟨rfl, nofun⟩, nofun⟩
  | _ => exact failed

include told in
/-- One attempt of `_stream_impl`. -/
theorem attemptStream_noted (d : Deployment) :
    Noted fair (attemptStream gw request tenant chain d) g v fun g' o v' =>
      match o with
      | .ok .completed => g'.marks = g.marks ++ [.called d]
      | .ok .again => ∃ failureClass, fails d failureClass ∧ v'.seen = v.seen ∧
          g'.marks = g.marks ++ [.called d, .failed d failureClass] ∧
          v'.targets = chain.left failureClass v.seen
      | _ => g'.marks = g.marks ++ [.called d] ∨ ∃ failureClass, fails d failureClass ∧
          g'.marks = g.marks ++ [.called d, .failed d failureClass] := by
  apply Coro.Ends.tryCatch (Q := fun g' o v' => g'.marks = g.marks ++ [.called d] ∧
    v'.seen = v.seen ∧ (∀ flow, o = .ok flow → flow = .completed) ∧
    ∀ e, o = .error e → g'.pending = raisedClass e ∧ fails d (raisedClass e))
  · apply (consume_noted told gw request tenant d).bind
    · exact fun g' _ v' step => .pure ⟨step.1, step.2.1, by simp, by simp⟩
    · rintro g' e v' ⟨marked, seen, raised⟩
      exact ⟨marked, seen, by simp, fun e' is => raised e' (by cases is; rfl)⟩
  · rintro g' flow v' ⟨marked, -, only, -⟩
    obtain rfl := only flow rfl
    exact marked
  · rintro g₁ e v₁ ⟨marked, seen, -, raised⟩
    obtain ⟨pending, shown⟩ := raised e rfl
    apply (onAttemptRaise_noted e pending).mono
    rintro g' o v' ⟨marks, flows⟩
    have whole : g₁.marks ++ [.failed d (raisedClass e)] =
        g.marks ++ [.called d, .failed d (raisedClass e)] := by
      simp [marked]
    rw [whole, marked] at marks
    have stops : g'.marks = g.marks ++ [.called d] ∨ ∃ failureClass, fails d failureClass ∧
        g'.marks = g.marks ++ [.called d, .failed d failureClass] :=
      marks.imp (·.1) fun same => ⟨_, shown, same⟩
    match o with
    | .ok .completed => exact absurd rfl (flows _ rfl).1
    | .ok .again =>
      obtain ⟨kept, targets⟩ := (flows _ rfl).2 rfl
      refine ⟨_, shown, kept.trans seen, ?_, seen ▸ targets⟩
      rcases marks with ⟨-, never⟩ | same
      · exact absurd rfl (never _)
      · exact same
    | .ok .left => exact stops
    | .error e' => exact stops

theorem complete_noted (h : ChainMarks chain first fails g.marks (d :: rest) seen) {g' : Logbook}
    (marked : g'.marks = g.marks ++ [.called d]) :
    Noted fair (complete gw request cfg d) g' v
      fun g'' _ _ => RunMarks chain first fails g''.marks := by
  have served (r : Except Raised Unit) :
      RunMarks chain first fails (g'.note ⟨.recordSuccess d, r⟩).marks := by
    have all : (g'.note ⟨.recordSuccess d, r⟩).marks = g.marks ++ [.called d, .served d] := by
      change g'.marks ++ [.served d] = _
      simp [marked]
    rw [all]
    exact .served h
  apply Coro.Ends.call_bind
  · intro _ _
    apply (served _).kept
    apply Coro.emits_get.bind
    intro v
    apply Coro.Emits.bind (Coro.emits_call (by trivial))
    intro _
    apply Coro.Emits.bind (Coro.emits_modify _)
    intro _
    apply (afterSuccess_markless gw request cfg _).bind
    intro _
    apply Coro.Emits.bind (Coro.emits_call (by trivial))
    exact fun _ => Coro.emits_call (by trivial)
  · exact fun e _ => served _

include told in
theorem streamRound_noted (apiKey : String)
    (h : ChainMarks chain first fails g.marks v.targets v.seen) :
    Noted fair (streamRound gw request tenant cfg chain apiKey) g v fun g' o v' =>
      match o with
      | .ok none => ChainMarks chain first fails g'.marks v'.targets v'.seen
      | .ok (some _) => RunMarks chain first fails g'.marks
      | .error _ => RunMarks chain first fails g'.marks := by
  unfold streamRound
  apply Coro.Ends.get_bind
  split
  next empty => exact .pure (.between h)
  next d rest targets =>
    have new : d ∉ v.seen := h.fresh d (by simp [targets])
    rw [targets] at h
    apply Coro.Ends.modify_bind
    apply Coro.Ends.get_bind
    rw [if_neg new]
    apply Coro.Ends.modify_bind
    apply Coro.Ends.call_bind
    · intro _ _
      have stopped {marks : List Mark} (ends : marks = g.marks ++ [.called d] ∨
          ∃ failureClass, fails d failureClass ∧
            marks = g.marks ++ [.called d, .failed d failureClass]) :
          RunMarks chain first fails marks := by
        rcases ends with rfl | ⟨failureClass, shown, rfl⟩
        · exact .called h
        · exact .between (.failed h shown)
      apply Coro.Ends.modify_bind
      apply (attemptStream_noted told gw request tenant d).bind
      · intro g' flow v' step
        cases flow with
        | completed =>
          apply (complete_noted gw request cfg h step).bind
          · exact fun _ _ _ run => .pure run
          · exact fun _ _ _ run => run
        | again =>
          obtain ⟨failureClass, shown, seen, marked, next⟩ := step
          apply Coro.Ends.pure
          dsimp only
          rw [marked, next, seen]
          exact .failed h shown
        | left => exact .pure (stopped step)
      · exact fun g' e v' step => stopped step
    · intro e _
      have marked := note_markless (.getAdapter d request apiKey) trivial g (.error e)
      dsimp only
      rw [marked]
      exact .between h

include told in
/-- The marks of every run of `_stream_impl`. -/
theorem streamImpl_noted :
    Noted fair (streamImpl gw request tenant cfg) {} {} fun g _ _ => g.marks = [] ∨
      ∃ up, Informs fair gw request cfg up ∧
        RunMarks (fallbackChain gw request cfg (candidatesAt gw request cfg 0))
          (Router.decide (candidatesAt gw request cfg 2) up) fails g.marks := by
  let chain := fallbackChain gw request cfg (candidatesAt gw request cfg 0)
  have loop (apiKey : String) (g : Logbook) (v : StreamVars) (decision : Deployment)
      (none_ : g.marks = []) (unseen : v.seen = []) :
      Noted fair (Coro.iterate (streamRound gw request tenant cfg chain apiKey) (chainFuel chain)) g
        { v with targets := [decision] }
        fun g' _ _ => RunMarks chain decision fails g'.marks := by
    apply Coro.Ends.iterate (fun g v => ChainMarks chain decision fails g.marks v.targets v.seen)
    · intro g v h
      apply (streamRound_noted told gw request tenant cfg apiKey h).mono
      rintro g' o v' step
      match o with
      | .ok none => exact step
      | .ok (some _) => exact step
      | .error _ => exact step
    · exact fun _ _ h => .between h
    · rw [none_, unseen]
      exact .start
  apply Coro.Ends.tryCatch (Q := fun g _ _ => g.marks = [] ∨ ∃ up, Informs fair gw request cfg up ∧
    RunMarks chain (Router.decide (candidatesAt gw request cfg 2) up) fails g.marks)
  · apply Coro.Ends.call_bind
    · intro reservation _
      apply Coro.Ends.modify_bind
      apply Coro.Ends.call_bind
      · intro apiKey _
        apply (decide_noted gw request cfg).bind
        · rintro g decision v ⟨same, rfl, decided⟩
          obtain ⟨up, informs, is⟩ := decided decision rfl
          subst is
          apply Coro.Ends.modify_bind
          apply Coro.Ends.bind (loop apiKey g { reservation } _ same rfl)
          · intro g' found v' run
            match found with
            | none => exact .throw (.inr ⟨up, informs, run⟩)
            | some true => exact .pure (.inr ⟨up, informs, run⟩)
            | some false =>
              have end_ : Coro.Emits Markless (do
                  releaseOnce
                  throw (streamExhausted (← get)) : Coro Calls Raised StreamVars Unit) :=
                (releaseOnce_emits fun _ => trivial).bind fun _ =>
                  Coro.emits_get.bind fun _ => Coro.emits_throw _
              exact (run.kept end_).mono fun _ _ _ run => .inr ⟨up, informs, run⟩
          · exact fun _ _ _ run => .inr ⟨up, informs, run⟩
        · exact fun g e _ step => .inl step.1
      · exact fun _ _ => .inl rfl
    · exact fun e _ => .inl rfl
  · exact fun _ _ _ run => run
  · intro g e v step
    have handler := onStreamRaise_emits (P := Markless) (by trivial) (fun _ => trivial)
      (fun _ _ => trivial) e
    rcases step with none_ | ⟨up, informs, run⟩
    · exact (noted_markless handler).mono fun _ _ _ same => .inl (same.trans none_)
    · exact (run.kept handler).mono fun _ _ _ run => .inr ⟨up, informs, run⟩

end

/-! ## Runs and their marks -/

section
variable {chain : FallbackChain} {first : Deployment} {fails fails' : Deployment → FailureClass → Prop}
  {targets seen : List Deployment} {all : List Mark} {d : Deployment}
  {failureClass : FailureClass}

theorem note_grows (g : Logbook) (ev : Ev) : g.marks ⊆ (g.note ev).marks := by
  obtain ⟨op, r⟩ := ev
  cases op with
  | chat => exact List.subset_append_left _ _
  | openStream => exact List.subset_append_left _ _
  | recordFailure => exact List.subset_append_left _ _
  | recordSuccess => exact List.subset_append_left _ _
  | getAdapter => cases r <;> exact List.Subset.refl _
  | emit => cases r <;> exact List.Subset.refl _
  | _ => exact List.Subset.refl _

theorem marks_grow (g : Logbook) (t : Run) : g.marks ⊆ (t.foldl Logbook.note g).marks := by
  induction t generalizing g with
  | nil => exact List.Subset.refl _
  | cons ev t ih => exact List.Subset.trans (note_grows g ev) (ih _)

/-- The deployment whose success is recorded is marked. -/
theorem served_mem {t : Run} {r : Except Raised Unit} (mem : (⟨.recordSuccess d, r⟩ : Ev) ∈ t) :
    .served d ∈ marks t := by
  obtain ⟨before, after, rfl⟩ := List.append_of_mem mem
  rw [marks, List.foldl_append, List.foldl_cons]
  apply marks_grow
  exact List.mem_append_right _ (List.mem_singleton_self _)

theorem ChainMarks.shown {marks : List Mark} (h : ChainMarks chain first fails marks targets seen)
    (mem : .failed d failureClass ∈ marks) : fails d failureClass := by
  induction h with
  | start => simp at mem
  | failed h shown ih =>
    rcases List.mem_append.mp mem with mem | mem
    · exact ih mem
    · simp only [List.mem_cons, reduceCtorEq, List.not_mem_nil, or_false, false_or] at mem
      cases mem
      exact shown
  | unbuilt h shown ih =>
    rcases List.mem_append.mp mem with mem | mem
    · exact ih mem
    · cases List.mem_singleton.mp mem
      exact shown

theorem ChainMarks.mono {marks : List Mark} (h : ChainMarks chain first fails marks targets seen)
    (imp : ∀ d failureClass, .failed d failureClass ∈ marks → fails' d failureClass) :
    ChainMarks chain first fails' marks targets seen := by
  induction h with
  | start => exact .start
  | failed h shown ih =>
    have earlier := ih fun d failureClass mem => imp d failureClass (List.mem_append_left _ mem)
    exact .failed earlier (imp _ _ (by simp))
  | unbuilt h shown ih =>
    have earlier := ih fun d failureClass mem => imp d failureClass (List.mem_append_left _ mem)
    exact .unbuilt earlier (imp _ _ (by simp))

theorem RunMarks.shown (h : RunMarks chain first fails all) (mem : .failed d failureClass ∈ all) :
    fails d failureClass := by
  cases h with
  | between h => exact h.shown mem
  | called h => exact h.shown (by simpa using mem)
  | served h => exact h.shown (by simpa using mem)

theorem RunMarks.mono (h : RunMarks chain first fails all)
    (imp : ∀ d failureClass, .failed d failureClass ∈ all → fails' d failureClass) :
    RunMarks chain first fails' all := by
  cases h with
  | between h => exact .between (h.mono imp)
  | called h =>
    exact .called (h.mono fun d failureClass mem => imp d failureClass (List.mem_append_left _ mem))
  | served h =>
    exact .served (h.mono fun d failureClass mem => imp d failureClass (List.mem_append_left _ mem))

theorem ChainMarks.not_served {marks : List Mark}
    (h : ChainMarks chain first fails marks targets seen) : .served d ∉ marks := by
  induction h with
  | start => simp
  | failed h shown ih => simpa using ih
  | unbuilt h shown ih => simpa using ih

/-- A run with a success ends in it. -/
theorem RunMarks.of_served (h : RunMarks chain first fails all) (mem : .served d ∈ all) :
    ∃ earlier rest seen, ChainMarks chain first fails earlier (d :: rest) seen ∧
      all = earlier ++ [.called d, .served d] := by
  cases h with
  | between h => exact absurd mem h.not_served
  | called h => simp [h.not_served] at mem
  | @served marks d' rest seen h =>
    simp only [List.mem_append, h.not_served, List.mem_cons, reduceCtorEq, Mark.served.injEq,
      List.not_mem_nil, or_false, false_or] at mem
    subst mem
    exact ⟨marks, rest, seen, h, rfl⟩

theorem RunMarks.called_of_served (h : RunMarks chain first fails all) (mem : .served d ∈ all) :
    .called d ∈ all := by
  obtain ⟨earlier, rest, seen, -, rfl⟩ := h.of_served mem
  simp

end

section
variable {fair : Ev → Prop} {fails : Deployment → FailureClass → Prop}
  (told : ∀ ev, fair ev → ∀ d failureClass, Tells ev d failureClass → fails d failureClass)
  {gw : Service} {request : Request} {tenant : TenantConfig} {cfg : Cfg} {t : Run}

include told

theorem generate_marks {o : Except Raised Result}
    (run : (generate gw request tenant cfg).Runs () t o ()) (answered : ∀ ev ∈ t, fair ev) :
    marks t = [] ∨ ∃ up, Informs fair gw request cfg up ∧
      RunMarks (fallbackChain gw request cfg (candidatesAt gw request cfg 3))
        (Router.decide (candidatesAt gw request cfg 2) up) fails (marks t) :=
  Coro.all_iff.mp (generate_noted told gw request tenant cfg) t o () run answered

theorem streamImpl_marks {o : Except Raised Unit} {v : StreamVars}
    (run : (streamImpl gw request tenant cfg).Runs {} t o v) (answered : ∀ ev ∈ t, fair ev) :
    marks t = [] ∨ ∃ up, Informs fair gw request cfg up ∧
      RunMarks (fallbackChain gw request cfg (candidatesAt gw request cfg 0))
        (Router.decide (candidatesAt gw request cfg 2) up) fails (marks t) :=
  Coro.all_iff.mp (streamImpl_noted told gw request tenant cfg) t o v run answered

end

end AgentStudio.Gateway
