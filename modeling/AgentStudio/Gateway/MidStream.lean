import AgentStudio.Gateway.StreamSettlement
import AgentStudio.Async.Observe

/-!
# After the first byte

A stream from which something was passed on is not replaced by another. Whether
something was is a flag that `_handle` sets for a `delta` and for the start of a
tool call, and for no other fragment of one.
-/

namespace AgentStudio.Gateway
open Async

/-! ## What is seen of a run -/

/-- The deployment called. -/
def called (ev : Ev) : Option Deployment :=
  match ev.op with
  | .openStream d .. => some d
  | _ => none

/-- What the adapter called sends. -/
def delivered (ev : Ev) : Option (Except Raised Script) :=
  match ev with
  | ⟨.openStream .., r⟩ => some r
  | _ => none

/-- The event yielded to the consumer. -/
def yielded (ev : Ev) : Option StreamEvent :=
  match ev.op with
  | .emit event => some event
  | _ => none

def StreamEvent.isContent (event : StreamEvent) : Bool :=
  match event.type with
  | .delta | .toolUseStart | .toolUseDelta | .toolUseEnd => true
  | .usage | .done | .error => false

def contentYielded (ev : Ev) : Bool :=
  match ev.op with
  | .emit event => event.isContent
  | _ => false

def errorYielded (ev : Ev) : Bool :=
  match ev.op with
  | .emit event => event.type == .error
  | _ => false

def failureRecorded (ev : Ev) : Bool :=
  match ev.op with
  | .recordFailure _ => true
  | _ => false

def lastCalled (t : Run) : Option Deployment := (t.filterMap called).getLast?

/-- What the adapters called sent, in order. -/
def deliveries (t : Run) : List (Except Raised Script) := t.filterMap delivered

/-- A stream that began with one deployment stays with it. -/
structure OneDeployment (t : Run) (o : Except Raised Unit) : Prop where
  /-- No other deployment is called after content or a tool event. -/
  noOther : ∀ pre ev post, t = pre ++ ev :: post → contentYielded ev = true →
    ∀ d ∈ post.filterMap called, lastCalled pre = some d
  /-- All content and tool events come from one deployment. -/
  oneSource : ∀ pre ev post pre' ev' post', t = pre ++ ev :: post → contentYielded ev = true →
    t = pre' ++ ev' :: post' → contentYielded ev' = true → lastCalled pre = lastCalled pre'
  /-- A failure after it surfaces, unless the run is cut off. -/
  surfaces : o = .ok () → ∀ pre ev post, t = pre ++ ev :: post → failureRecorded ev = true →
    (∃ e ∈ pre, contentYielded e = true) → ∃ e ∈ post, errorYielded e = true

def LLMStreamEvent.isFragment (ev : LLMStreamEvent) : Bool :=
  ev.type == .toolUseDelta || ev.type == .toolUseEnd

/-- A `tool_use_delta` or a `tool_use_end` is among the events, before any `error`. -/
def fragments (events : List LLMStreamEvent) : Bool :=
  (events.takeWhile fun ev => ev.type != .error).any LLMStreamEvent.isFragment

def sentFragments : Except Raised Script → Bool
  | .ok script => fragments script.events
  | .error _ => false

/-! ## The observer -/

/-- What the observer keeps. -/
structure Watch where
  deliveries : List (Except Raised Script) := []
  current : Option Deployment := none
  /-- Content or a tool event was yielded. -/
  content : Bool := false
  /-- Another deployment was called after that. -/
  late : Bool := false
  /-- A failure was recorded after it, and no error yielded since. -/
  pending : Bool := false

def Watch.see (g : Watch) (ev : Ev) : Watch :=
  match ev with
  | ⟨.openStream d .., r⟩ => { g with
      deliveries := g.deliveries ++ [r]
      current := some d
      late := g.late || (g.content && g.current != some d) }
  | ⟨.recordFailure _, _⟩ => { g with pending := g.pending || g.content }
  | ⟨.emit event, _⟩ =>
    if event.isContent then { g with content := true }
    else if event.type = .error then { g with pending := false }
    else g
  | _ => g

section
variable {t : Run} {ev : Ev} {g : Watch}

theorem see_content : (g.see ev).content = (g.content || contentYielded ev) := by
  obtain ⟨op, r⟩ := ev
  cases op with
  | emit event =>
    cases is : event.isContent with
    | true => simp [Watch.see, contentYielded, is]
    | false => by_cases error : event.type = .error <;> simp [Watch.see, contentYielded, is, error]
  | _ => simp [Watch.see, contentYielded]

theorem see_current : (g.see ev).current = (called ev).or g.current := by
  obtain ⟨op, r⟩ := ev
  cases op with
  | emit event =>
    simp only [Watch.see, called, Option.none_or]
    split_ifs <;> rfl
  | _ => rfl

theorem see_deliveries : (g.see ev).deliveries = g.deliveries ++ (delivered ev).toList := by
  obtain ⟨op, r⟩ := ev
  cases op with
  | emit event =>
    simp only [Watch.see, delivered]
    split_ifs <;> simp
  | _ => simp [Watch.see, delivered]

theorem see_late : (g.see ev).late =
    (g.late || (g.content && (called ev).any fun d => g.current != some d)) := by
  obtain ⟨op, r⟩ := ev
  cases op with
  | emit event =>
    simp only [Watch.see, called]
    split_ifs <;> simp
  | _ => simp [Watch.see, called]

theorem see_pending (silent : errorYielded ev = false) :
    (g.see ev).pending = (g.pending || (g.content && failureRecorded ev)) := by
  obtain ⟨op, r⟩ := ev
  cases op with
  | emit event =>
    have other : event.type ≠ .error := by simpa [errorYielded] using silent
    cases is : event.isContent <;> simp [Watch.see, failureRecorded, is, other]
  | _ => simp [Watch.see, failureRecorded]

theorem watched_content : (t.foldl Watch.see g).content = (g.content || t.any contentYielded) := by
  induction t generalizing g with
  | nil => simp
  | cons ev t ih => rw [List.foldl_cons, ih, see_content, List.any_cons, Bool.or_assoc]

theorem watched_current : (t.foldl Watch.see g).current = (lastCalled t).or g.current := by
  induction t using List.reverseRecOn with
  | nil => rfl
  | append_singleton t ev ih =>
    rw [List.foldl_append, List.foldl_cons, List.foldl_nil, see_current, ih, lastCalled, lastCalled,
      List.filterMap_append, List.getLast?_append]
    cases is : called ev <;> simp [is]

theorem watched_deliveries :
    (t.foldl Watch.see g).deliveries = g.deliveries ++ deliveries t := by
  induction t generalizing g with
  | nil => simp [deliveries]
  | cons ev t ih =>
    rw [List.foldl_cons, ih, see_deliveries, deliveries, deliveries, List.filterMap_cons]
    cases delivered ev <;> simp

theorem late_stays (late : g.late = true) : (t.foldl Watch.see g).late = true := by
  induction t generalizing g with
  | nil => exact late
  | cons ev t ih => exact ih (by simp [see_late, late])

theorem pending_stays (pending : g.pending = true) (silent : ∀ e ∈ t, errorYielded e = false) :
    (t.foldl Watch.see g).pending = true := by
  induction t generalizing g with
  | nil => exact pending
  | cons ev t ih =>
    apply ih
    · rw [see_pending (silent ev List.mem_cons_self), pending, Bool.true_or]
    · exact fun e mem => silent e (List.mem_cons_of_mem _ mem)

/-- After content every deployment called is the current one, or the call is late. -/
theorem called_after (content : g.content = true) (onTime : (t.foldl Watch.see g).late = false) :
    ∀ d ∈ t.filterMap called, g.current = some d := by
  induction t generalizing g with
  | nil => simp
  | cons ev t ih =>
    have now : (g.see ev).late = false := by
      by_contra late
      rw [List.foldl_cons, late_stays (by simpa using late)] at onTime
      cases onTime
    have later := @ih (g.see ev) (by simp [see_content, content]) onTime
    rw [see_current] at later
    rw [see_late, content] at now
    intro d mem
    cases is : called ev with
    | none =>
      rw [List.filterMap_cons, is] at mem
      simpa [is] using later d mem
    | some x =>
      have same : g.current = some x := by simpa [is] using (Bool.or_eq_false_iff.mp now).2
      rw [List.filterMap_cons, is, List.mem_cons] at mem
      rcases mem with rfl | mem
      · exact same
      · have here := later d mem
        rw [is, Option.some_or] at here
        exact same.trans here

end

theorem lastCalled_append (t t' : Run) :
    lastCalled (t ++ t') = (lastCalled t').or (lastCalled t) := by
  rw [lastCalled, List.filterMap_append, List.getLast?_append]
  rfl

/-- A part in which only the deployment called last is called does not change it. -/
theorem lastCalled_same {t t' : Run} (same : ∀ d ∈ t'.filterMap called, lastCalled t = some d) :
    lastCalled (t ++ t') = lastCalled t := by
  rw [lastCalled_append]
  cases last : lastCalled t' with
  | none => rfl
  | some d => exact (same d (List.mem_of_getLast? last)).symm

theorem content_calls {ev : Ev} (content : contentYielded ev = true) : called ev = none := by
  obtain ⟨op, r⟩ := ev
  cases op with
  | emit event => rfl
  | _ => cases content

theorem failureRecorded_silent {ev : Ev} (failed : failureRecorded ev = true) :
    errorYielded ev = false := by
  obtain ⟨op, r⟩ := ev
  cases op with
  | recordFailure d => rfl
  | _ => cases failed

/-- No other deployment is called after content: what the first part of
`OneDeployment` says, and the second. -/
def NoOther (t : Run) : Prop :=
  ∀ pre ev post, t = pre ++ ev :: post → contentYielded ev = true →
    ∀ d ∈ post.filterMap called, lastCalled pre = some d

theorem NoOther.between {t pre mid post : Run} {ev ev' : Ev} (h : NoOther t)
    (split : t = pre ++ ev :: (mid ++ ev' :: post)) (content : contentYielded ev = true) :
    lastCalled (pre ++ ev :: mid) = lastCalled pre := by
  apply lastCalled_same
  intro d mem
  rw [List.filterMap_cons, content_calls content] at mem
  apply h pre ev _ split content d
  rw [List.filterMap_append]
  exact List.mem_append_left _ mem

theorem NoOther.oneSource {t pre pre' post post' : Run} {ev ev' : Ev} (h : NoOther t)
    (split : t = pre ++ ev :: post) (content : contentYielded ev = true)
    (split' : t = pre' ++ ev' :: post') (content' : contentYielded ev' = true) :
    lastCalled pre = lastCalled pre' := by
  rcases List.append_eq_append_iff.mp (split.symm.trans split') with
    ⟨mid, before, rest⟩ | ⟨mid, before, rest⟩
  · cases mid with
    | nil => rw [before, List.append_nil]
    | cons e mid =>
      obtain ⟨rfl, rfl⟩ := List.cons.inj rest
      rw [before]
      exact (h.between split content).symm
  · cases mid with
    | nil => rw [before, List.append_nil]
    | cons e mid =>
      obtain ⟨rfl, rfl⟩ := List.cons.inj rest
      rw [before]
      exact h.between split' content'

theorem noOther_iff {t : Run} : NoOther t ↔ (t.foldl Watch.see {}).late = false := by
  constructor
  · induction t using List.reverseRecOn with
    | nil => exact fun _ => rfl
    | append_singleton t ev ih =>
      intro h
      have before : NoOther t := by
        intro pre e post split content d mem
        apply h pre e (post ++ [ev]) (by simp [split]) content
        rw [List.filterMap_append]
        exact List.mem_append_left _ mem
      rw [List.foldl_append, List.foldl_cons, List.foldl_nil, see_late, ih before,
        watched_content, watched_current, Bool.false_or, Bool.false_or, Option.or_none]
      cases content : t.any contentYielded with
      | false => rfl
      | true =>
        cases calls : called ev with
        | none => rfl
        | some d =>
          obtain ⟨e, mem, yields⟩ := List.any_eq_true.mp content
          obtain ⟨pre, post, split⟩ := List.append_of_mem mem
          have same := h pre e (post ++ [ev]) (by simp [split]) yields
          have source : lastCalled pre = some d := same d (by simp [calls])
          have last : lastCalled t = lastCalled pre := by
            rw [split]
            apply lastCalled_same
            intro x called
            rw [List.filterMap_cons, content_calls yields] at called
            exact same x (by rw [List.filterMap_append]; exact List.mem_append_left _ called)
          simp [last, source]
  · intro onTime pre ev post split content
    rw [split, List.foldl_append, List.foldl_cons] at onTime
    have after := called_after (by simp [see_content, content]) onTime
    rw [see_current, content_calls content, watched_current, Option.none_or,
      Option.or_none] at after
    exact after

/-! ## The parts of the stream -/

/-- Every run of `c`, as the observer sees it. -/
abbrev Watched {σ α : Type} (c : Coro Calls Raised σ α) (g : Watch) (v : σ)
    (Q : Watch → Except Raised α → σ → Prop) : Prop :=
  c.Ends (fun _ => True) Watch.see g v Q

/-- A call that the observer does not look at. -/
def Unwatched : Op → Prop
  | .openStream .. | .recordFailure _ => False
  | .emit event => event.type = .usage ∨ event.type = .done
  | _ => True

theorem see_unwatched (op : Op) (h : Unwatched op) (g : Watch) (r : Except Raised (Calls.Ans op)) :
    g.see ⟨op, r⟩ = g := by
  cases op with
  | openStream => exact h.elim
  | recordFailure => exact h.elim
  | emit event => rcases h with type | type <;> simp [Watch.see, StreamEvent.isContent, type]
  | _ => rfl

theorem see_emit {out : StreamEvent} (content : out.isContent = true) (g : Watch)
    (r : Except Raised Unit) : g.see ⟨.emit out, r⟩ = { g with content := true } := if_pos content

section
variable {σ α : Type} {g : Watch} {s : σ}

theorem unwatched {c : Coro Calls Raised σ α} (calls : Coro.Emits Unwatched c) :
    Watched c g s fun g' _ _ => g' = g := .unseen see_unwatched calls

theorem suppress_unwatched {c : Coro Calls Raised σ Unit} (calls : Coro.Emits Unwatched c) :
    Coro.Emits Unwatched (suppress c) := by
  apply calls.tryCatch
  intro e
  split
  · exact Coro.emits_pure ()
  · exact Coro.emits_throw e

theorem snapshot_unwatched (ds : List Deployment) :
    Coro.Emits Unwatched (snapshot ds : Coro Calls Raised σ _) := by
  induction ds with
  | nil => exact Coro.emits_pure []
  | cons d ds ih =>
    apply Coro.Emits.bind (Coro.emits_call (by trivial))
    exact fun up => ih.bind fun rest => Coro.emits_pure _

theorem afterSuccess_unwatched (gw : Service) (request : Request) (cfg : Cfg) (result : Result) :
    Coro.Emits Unwatched (afterSuccess gw request cfg result : Coro Calls Raised σ _) := by
  apply Coro.Emits.bind (suppress_unwatched (Coro.emits_call (by trivial)))
  intro _
  split
  · exact suppress_unwatched (Coro.emits_call (by trivial))
  · exact Coro.emits_pure ()

end

theorem releaseOnce_unwatched : Coro.Emits Unwatched releaseOnce := by
  apply Coro.Emits.bind Coro.emits_get
  intro v
  split
  · apply Coro.Emits.bind (Coro.emits_modify _)
    exact fun _ => Coro.emits_get.bind fun v => Coro.emits_call (by trivial)
  · exact Coro.emits_pure _

theorem abandon_unwatched {α : Type} (e : Raised) :
    Coro.Emits Unwatched (abandon e : Coro Calls Raised StreamVars α) := by
  have close : Coro.Emits Unwatched closeUpstream := by
    apply Coro.Emits.bind Coro.emits_get
    intro v
    split
    · exact suppress_unwatched (Coro.emits_call (by trivial))
    · exact Coro.emits_pure _
  exact close.bind fun _ => releaseOnce_unwatched.bind fun _ => Coro.emits_throw e

theorem abandon_watched {α : Type} {g : Watch} {v : StreamVars} (e : Raised) :
    Watched (abandon e : Coro Calls Raised StreamVars α) g v
      fun g' o _ => g' = g ∧ ∃ e', o = .error e' := by
  apply (unwatched (abandon_unwatched e)).and
  apply Coro.Ends.of_all
  have any {β : Type} (c : Coro Calls Raised StreamVars β) (v : StreamVars) :
      c.All v fun _ _ _ => True := Coro.all_iff.mpr fun _ _ _ _ => trivial
  apply (any closeUpstream v).bind
  · intro _ _ v' _
    apply (any releaseOnce v').bind
    · exact fun _ _ _ _ => ⟨e, rfl⟩
    · exact fun _ e' _ _ => ⟨e', rfl⟩
  · exact fun _ e' _ _ => ⟨e', rfl⟩

section
variable (gw : Service) (request : Request) (tenant : TenantConfig) (cfg : Cfg)
  {g : Watch} {v : StreamVars}

theorem complete_unwatched (d : Deployment) :
    Coro.Emits Unwatched (complete gw request cfg d) := by
  apply Coro.Emits.bind (Coro.emits_call (by trivial))
  intro _
  apply Coro.Emits.bind Coro.emits_get
  intro v
  apply Coro.Emits.bind (Coro.emits_call (by trivial))
  intro _
  apply Coro.Emits.bind (Coro.emits_modify _)
  intro _
  apply (afterSuccess_unwatched gw request cfg _).bind
  intro _
  apply Coro.Emits.bind (Coro.emits_call (.inl rfl))
  exact fun _ => Coro.emits_call (.inr rfl)

/-- What `_handle` does to the flag. -/
theorem handle_marks (d : Deployment) (ev : LLMStreamEvent) :
    (handle gw d ev).All v fun _ o v' => (v.emitted = true → v'.emitted = true) ∧
      match o with
      | .error _ => ev.type = .error
      | .ok none => ev.type ≠ .error ∧ ev.isFragment = false
      | .ok (some out) => ev.type ≠ .error ∧ out.isContent = true ∧
          (v'.emitted = false → ev.isFragment = true) := by
  have entry (index : Nat) (entry : ToolEntry) : (v.setEntry index entry).emitted = v.emitted := by
    unfold StreamVars.setEntry
    split <;> rfl
  unfold handle LLMStreamEvent.isFragment
  cases type : ev.type with
  | delta =>
    dsimp only
    split
    · exact ⟨id, by simp⟩
    · exact ⟨fun _ => rfl, by simp, rfl, by simp⟩
  | toolUseStart => exact ⟨fun _ => rfl, by simp, rfl, by simp⟩
  | toolUseDelta => exact ⟨fun h => (entry _ _).trans h, by simp, rfl, fun _ => rfl⟩
  | toolUseEnd =>
    simp only [Coro.all_get_bind]
    split
    · exact ⟨fun h => (entry _ _).trans h, by simp, rfl, fun _ => rfl⟩
    · exact ⟨id, by simp, rfl, fun _ => rfl⟩
  | usage =>
    dsimp only
    split <;> exact ⟨id, by simp⟩
  | done => exact ⟨id, by simp⟩
  | error => exact ⟨id, rfl⟩
  | other => exact ⟨id, by simp⟩

/-- What passing events on does: the observer sees content, and while the flag is not
set, that is where there was a fragment. -/
structure Passed (events : List LLMStreamEvent) (g g' : Watch) (v v' : StreamVars) : Prop where
  same : g' = { g with content := g'.content }
  seen : v'.seen = v.seen
  emitted : v.emitted = true → v'.emitted = true
  content : g.content = true → g'.content = true
  unmarked : v'.emitted = false → (g'.content = true ↔ g.content = true ∨ fragments events = true)

theorem fragments_cons {ev : LLMStreamEvent} {rest : List LLMStreamEvent}
    (goesOn : ev.type ≠ .error) : fragments (ev :: rest) = (ev.isFragment || fragments rest) := by
  simp [fragments, goesOn]

theorem forwardEvents_passed (d : Deployment) (events : List LLMStreamEvent) :
    Watched (forwardEvents gw d events) g v fun g' _ v' => Passed events g g' v v' := by
  induction events generalizing g v with
  | nil => exact .pure ⟨rfl, rfl, id, id, by simp [fragments]⟩
  | cons ev rest ih =>
    have step := (handle_spec gw d ev (v := v)).and (handle_marks gw d ev)
    apply Coro.Ends.bind (Q := fun g' o v' => g' = g ∧ v'.seen = v.seen ∧
      (v.emitted = true → v'.emitted = true) ∧
      match o with
      | .error _ => ev.type = .error
      | .ok none => ev.type ≠ .error ∧ ev.isFragment = false
      | .ok (some out) => ev.type ≠ .error ∧ out.isContent = true ∧
          (v'.emitted = false → ev.isFragment = true))
    · apply Coro.All.mono step
      rintro t o v' ⟨⟨rfl, same, -⟩, marks, ends⟩ -
      exact ⟨rfl, same.seen, marks, ends⟩
    · rintro _ out v' ⟨rfl, seen, marks, ends⟩
      cases out with
      | none =>
        obtain ⟨goesOn, plain⟩ := ends
        apply (ih (v := v')).mono
        intro g' _ v'' passed
        refine ⟨passed.same, passed.seen.trans seen, passed.emitted ∘ marks, passed.content, ?_⟩
        rw [fragments_cons goesOn, plain, Bool.false_or]
        exact passed.unmarked
      | some out =>
        obtain ⟨goesOn, content, fragment⟩ := ends
        apply Coro.Ends.call_bind
        · intro _ _
          rw [see_emit content]
          apply ih.mono
          intro g' _ v'' passed
          have now : g'.content = true := passed.content rfl
          refine ⟨passed.same, passed.seen.trans seen, passed.emitted ∘ marks, fun _ => now, ?_⟩
          intro unmarked
          have was : v'.emitted = false := by
            by_contra marked
            rw [passed.emitted (by simpa using marked)] at unmarked
            cases unmarked
          simp [now, fragments_cons goesOn, fragment was]
        · intro e _
          rw [see_emit content]
          refine ⟨rfl, seen, marks, fun _ => rfl, fun unmarked => ?_⟩
          simp [fragments_cons goesOn, fragment unmarked]
    · rintro _ e v' ⟨rfl, seen, marks, ends⟩
      exact ⟨rfl, seen, marks, id, by simp [fragments, ends]⟩

/-- What one call of a deployment does. -/
structure Consumed (d : Deployment) (g g' : Watch) (v v' : StreamVars) : Prop where
  current : g'.current = some d
  late : g'.late = (g.late || (g.content && g.current != some d))
  pending : g'.pending = g.pending
  seen : v'.seen = v.seen
  delivered : ∃ r, g'.deliveries = g.deliveries ++ [r] ∧ (v'.emitted = false →
    (g'.content = true ↔ g.content = true ∨ sentFragments r = true))

theorem consume_watched (d : Deployment) :
    Watched (consume gw request tenant d) g v fun g' _ v' => Consumed d g g' v v' := by
  unfold consume
  apply Coro.Ends.call_bind
  · intro script _
    apply Coro.Ends.modify_bind
    apply (forwardEvents_passed gw d script.events).bind
    · intro g' _ v' passed
      have consumed : Consumed d g g' v v' := by
        obtain ⟨same, seen, -, -, unmarked⟩ := passed
        rw [same]
        exact ⟨rfl, rfl, rfl, seen, .ok script, rfl, unmarked⟩
      cases script.ending with
      | some e => exact .throw consumed
      | none =>
        dsimp only
        split
        · exact .throw consumed
        · exact .pure consumed
    · rintro g' e v' ⟨same, seen, -, -, unmarked⟩
      rw [same]
      exact ⟨rfl, rfl, rfl, seen, .ok script, rfl, unmarked⟩
  · exact fun e _ => ⟨rfl, rfl, rfl, rfl, .error e, rfl, fun _ => by simp [Watch.see, sentFragments]⟩

/-- How a failed attempt goes on: to the next targets while the flag is not set, or to
an `error` event. -/
structure FailedOver (g g' : Watch) (v v' : StreamVars) (o : Except Raised Flow) : Prop where
  same : g' = { g with pending := g'.pending }
  again : o = .ok .again → v'.emitted = false ∧ v.emitted = false ∧ v'.seen = v.seen ∧
    g'.pending = (g.pending || g.content)
  left : o = .ok .left → g'.pending = false
  ends : o ≠ .ok .completed

theorem failAttempt_watched (chain : FallbackChain) (d : Deployment) (e : Raised) :
    Watched (failAttempt chain d e) g v fun g' o v' => FailedOver g g' v v' o := by
  unfold failAttempt
  apply Coro.Ends.modify_bind
  apply Coro.Ends.call_bind
  · intro _ _
    apply Coro.Ends.get_bind
    by_cases marked : v.emitted = true
    · rw [if_pos (by exact marked)]
      apply Coro.Ends.call_bind
      · intro _ _
        apply (unwatched releaseOnce_unwatched).bind
        · rintro _ _ v' rfl
          exact .pure ⟨rfl, by simp, fun _ => rfl, by simp⟩
        · rintro _ e' v' rfl
          exact ⟨rfl, by simp, by simp, by simp⟩
      · exact fun e' _ => ⟨rfl, by simp, by simp, by simp⟩
    · rw [if_neg (by exact marked)]
      have unmarked : v.emitted = false := by simpa using marked
      exact fun _ => ⟨rfl, fun _ => ⟨unmarked, unmarked, rfl, rfl⟩, by simp, by simp⟩
  · exact fun e' _ => ⟨rfl, by simp, by simp, by simp⟩

theorem onAttemptRaise_watched (chain : FallbackChain) (d : Deployment) (e : Raised) :
    Watched (onAttemptRaise chain d e) g v fun g' o v' => FailedOver g g' v v' o := by
  have aborted : Watched (abandon e : Coro Calls Raised StreamVars Flow) g v
      fun g' o v' => FailedOver g g' v v' o := by
    apply (abandon_watched e).mono
    rintro g' o v' ⟨rfl, e', rfl⟩
    exact ⟨rfl, by simp, by simp, by simp⟩
  cases e with
  | cancelled => exact aborted
  | generatorExit => exact aborted
  | outOfFuel => exact .throw ⟨rfl, by simp, by simp, by simp⟩
  | _ => exact failAttempt_watched chain d _

/-- How an attempt leaves its handlers. -/
structure AttemptEnds (d : Deployment) (g g' : Watch) (v v' : StreamVars) (o : Except Raised Flow) :
    Prop where
  current : g'.current = some d
  late : g'.late = (g.late || (g.content && g.current != some d))
  delivered : ∃ r, g'.deliveries = g.deliveries ++ [r] ∧ (o = .ok .again → v'.emitted = false ∧
    v'.seen = v.seen ∧ (g'.content = true ↔ g.content = true ∨ sentFragments r = true) ∧
    g'.pending = (g.pending || g'.content))
  completed : o = .ok .completed → g'.pending = g.pending
  left : o = .ok .left → g'.pending = false

theorem attemptStream_watched (chain : FallbackChain) (d : Deployment) :
    Watched (attemptStream gw request tenant chain d) g v
      fun g' o v' => AttemptEnds d g g' v v' o := by
  apply Coro.Ends.tryCatch (Q := fun g' o v' => Consumed d g g' v v' ∧ ∀ f, o = .ok f → f = .completed)
  · apply (consume_watched gw request tenant d).bind
    · exact fun g' _ v' consumed => .pure ⟨consumed, by simp⟩
    · exact fun g' e v' consumed => ⟨consumed, by simp⟩
  · rintro g' flow v' ⟨⟨current, late, pending, seen, r, is, -⟩, only⟩
    obtain rfl := only flow rfl
    exact ⟨current, late, ⟨r, is, by simp⟩, fun _ => pending, by simp⟩
  · rintro g₁ e v₁ ⟨⟨current, late, pending, seen, r, is, unmarked⟩, -⟩
    apply (onAttemptRaise_watched chain d e).mono
    rintro g' o v' ⟨same, again, left, ends⟩
    refine ⟨by rw [same]; exact current, by rw [same]; exact late, ⟨r, by rw [same]; exact is, ?_⟩,
      fun h => absurd h ends, left⟩
    intro failed
    obtain ⟨after, before, kept, waits⟩ := again failed
    rw [waits, pending, same]
    exact ⟨after, kept.trans seen, unmarked before, rfl⟩

/-! ## The loop -/

/-- Another deployment was called after content exactly where a stream that was not
the last sent fragments. -/
def Told (g : Watch) : Prop :=
  g.late = true ↔ ∃ r ∈ g.deliveries.dropLast, sentFragments r = true

/-- At the head of the loop. -/
structure Between (g : Watch) (v : StreamVars) : Prop where
  unmarked : v.emitted = false
  content : g.content = true ↔ ∃ r ∈ g.deliveries, sentFragments r = true
  told : Told g
  current : ∀ d, g.current = some d → d ∈ v.seen
  pending : g.pending = true → g.content = true

/-- How the body of the function leaves the observer, with `done` or not. -/
def Left (g : Watch) (done : Prop) : Prop := Told g ∧ (done → g.pending = true → g.late = true)

theorem told_next {g g' : Watch} {r : Except Raised Script}
    (content : g.content = true ↔ ∃ r ∈ g.deliveries, sentFragments r = true) (told : Told g)
    (late : g'.late = (g.late || g.content)) (is : g'.deliveries = g.deliveries ++ [r]) : Told g' := by
  unfold Told
  rw [late, is, List.dropLast_concat, Bool.or_eq_true, content]
  constructor
  · rintro (late | sent)
    · obtain ⟨r, mem, sent⟩ := told.mp late
      exact ⟨r, List.mem_of_mem_dropLast mem, sent⟩
    · exact sent
  · exact Or.inr

theorem streamRound_watched (chain : FallbackChain) (apiKey : String) (between : Between g v) :
    Watched (streamRound gw request tenant cfg chain apiKey) g v fun g' o v' =>
      match o with
      | .ok none => Between g' v'
      | .ok (some found) => Left g' (found = true)
      | .error _ => Told g' := by
  unfold streamRound
  apply Coro.Ends.get_bind
  cases targets : v.targets with
  | nil => exact .pure ⟨between.told, by simp⟩
  | cons d rest =>
    apply Coro.Ends.modify_bind
    apply Coro.Ends.get_bind
    by_cases again : d ∈ v.seen
    · rw [if_pos again]
      exact .pure ⟨between.unmarked, between.content, between.told, between.current, between.pending⟩
    · rw [if_neg again]
      apply Coro.Ends.modify_bind
      apply Coro.Ends.call_bind
      · intro _ _
        apply Coro.Ends.modify_bind
        have other : (g.current != some d) = true := by
          rw [bne_iff_ne]
          exact fun is => again (between.current d is)
        apply (attemptStream_watched gw request tenant chain d).bind
        · intro g' flow v' ⟨current, late, ⟨r, is, failed⟩, completed, left⟩
          have late : g'.late = (g.late || g.content) := by
            rw [late]
            change (g.late || (g.content && (g.current != some d))) = _
            rw [other, Bool.and_true]
          have told := told_next between.content between.told late is
          cases flow with
          | completed =>
            apply (unwatched (complete_unwatched gw request cfg d)).bind
            · rintro _ _ _ rfl
              refine .pure ⟨told, fun _ pending => ?_⟩
              have content := between.pending ((completed rfl).symm.trans pending)
              rw [late, content, Bool.or_true]
            · rintro _ _ _ rfl
              exact told
          | again =>
            obtain ⟨unmarked, seen, content, pending⟩ := failed rfl
            refine .pure ⟨unmarked, ?_, told, ?_, ?_⟩
            · rw [content, is]
              change g.content = true ∨ _ ↔ ∃ x ∈ g.deliveries ++ [r], _
              rw [between.content]
              simp only [List.mem_append, List.mem_singleton, or_and_right, exists_or, exists_eq_left]
            · intro x same
              obtain rfl := Option.some.inj (current.symm.trans same)
              rw [seen]
              exact List.mem_append_right _ (List.mem_singleton_self _)
            · intro waits
              rw [pending, Bool.or_eq_true] at waits
              exact waits.elim (fun before => content.mpr (.inl (between.pending before))) id
          | left => exact .pure ⟨told, fun _ pending => by rw [left rfl] at pending; cases pending⟩
        · rintro g' e v' ⟨-, late, ⟨r, is, -⟩, -, -⟩
          apply told_next between.content between.told _ is
          rw [late]
          change (g.late || (g.content && (g.current != some d))) = _
          rw [other, Bool.and_true]
      · exact fun _ _ => between.told

theorem streamLoop_watched (chain : FallbackChain) (apiKey : String) (n : Nat)
    (between : Between g v) :
    Watched (Coro.iterate (streamRound gw request tenant cfg chain apiKey) n) g v fun g' o _ =>
      match o with
      | .ok (some found) => Left g' (found = true)
      | _ => Told g' := by
  apply Coro.Ends.iterate Between
  · intro g v between
    apply (streamRound_watched gw request tenant cfg chain apiKey between).mono
    intro g' o v' ends
    cases o with
    | error e => exact ends
    | ok found => cases found <;> exact ends
  · exact fun g v between => between.told
  · exact between

theorem decide_watched (held_ : v.finalized = false) :
    Watched (decide gw request cfg) g v fun g' _ v' => g' = g ∧ v' = v := by
  apply (unwatched _).and
  · exact .of_all ((decide_silent gw request cfg held_).mono fun _ _ _ h => h.1)
  · exact (snapshot_unwatched _).bind fun _ => Coro.emits_pure _

theorem streamBody_watched :
    Watched (streamBody gw request tenant cfg) {} {} fun g' o _ => Left g' (o = .ok ()) := by
  have fresh : Told {} := by simp [Told]
  have raised {g : Watch} {e : Raised} (told : Told g) :
      Left g ((.error e : Except Raised Unit) = .ok ()) := ⟨told, by simp⟩
  unfold streamBody
  apply Coro.Ends.call_bind
  · intro reservation _
    apply Coro.Ends.modify_bind
    apply Coro.Ends.call_bind
    · intro apiKey _
      apply (decide_watched gw request cfg rfl).bind
      · rintro _ decision _ ⟨rfl, rfl⟩
        apply Coro.Ends.modify_bind
        apply (streamLoop_watched gw request tenant cfg _ apiKey _ _).bind
        · intro g' found v' ends
          cases found with
          | none => exact .throw (raised ends)
          | some found =>
            cases found with
            | true => exact .pure ⟨ends.1, fun _ => ends.2 rfl⟩
            | false =>
              apply (unwatched releaseOnce_unwatched).bind
              · rintro _ _ _ rfl
                exact .get_bind (.throw (raised ends.1))
              · rintro _ _ _ rfl
                exact raised ends.1
        · exact fun _ _ _ told => raised told
        · have start : Between {} { reservation, targets := [decision] } :=
            ⟨rfl, by simp, fresh, by simp, by simp⟩
          exact start
      · rintro _ _ _ ⟨rfl, -⟩
        exact raised fresh
    · exact fun _ _ => raised fresh
  · exact fun _ _ => raised fresh

theorem onStreamRaise_watched (e : Raised) (told : Told g) :
    Watched (onStreamRaise e) g v fun g' o _ => Left g' (o = .ok ()) := by
  have report (event : StreamEvent) (error : event.type = .error) (v : StreamVars) :
      Watched (Coro.call (I := Calls) (.emit event) : Coro Calls Raised StreamVars Unit) g v
        fun g' o _ => Left g' (o = .ok ()) := by
    apply Coro.Ends.call
    intro r _
    have sees : g.see ⟨.emit event, r⟩ = { g with pending := false } := by
      simp [Watch.see, StreamEvent.isContent, error]
    rw [sees]
    exact ⟨told, by simp⟩
  have reported (failureClass : String) :
      Watched (releaseAndReport e failureClass) g v fun g' o _ => Left g' (o = .ok ()) := by
    apply (unwatched releaseOnce_unwatched).bind
    · rintro _ _ v' rfl
      exact report _ rfl v'
    · rintro _ _ _ rfl
      exact ⟨told, by simp⟩
  have aborted : Watched (abandon e : Coro Calls Raised StreamVars Unit) g v
      fun g' o _ => Left g' (o = .ok ()) := by
    apply (abandon_watched e).mono
    rintro g' o v' ⟨rfl, e', rfl⟩
    exact ⟨told, by simp⟩
  cases e with
  | cancelled => exact aborted
  | generatorExit => exact aborted
  | outOfFuel => exact aborted
  | quotaExceeded => exact reported _
  | configuration => exact reported _
  | chainExhausted => exact report _ rfl v
  | _ => exact reported _

theorem streamImpl_watched :
    Watched (streamImpl gw request tenant cfg) {} {} fun g' o _ => Left g' (o = .ok ()) := by
  apply (streamBody_watched gw request tenant cfg).tryCatch
  · exact fun _ _ _ left => left
  · exact fun _ e _ left => onStreamRaise_watched e left.1

end

/-- For every request and whatever the adapters, the other collaborators and the consumer
do: the stream stays with one deployment exactly when no stream that it failed
over from had sent a `tool_use_delta` or a `tool_use_end`. -/
theorem oneDeployment_iff (gw : Service) (request : Request) (tenant : TenantConfig) (cfg : Cfg) :
    (streamImpl gw request tenant cfg).All {} fun t o _ =>
      OneDeployment t o ↔ ∀ r ∈ (deliveries t).dropLast, sentFragments r = false := by
  apply Coro.All.mono (streamImpl_watched gw request tenant cfg)
  intro t o v ends
  obtain ⟨told, waits⟩ := ends fun _ _ => trivial
  rw [Told, watched_deliveries, List.nil_append] at told
  have onTime : (t.foldl Watch.see {}).late = false ↔
      ∀ r ∈ (deliveries t).dropLast, sentFragments r = false := by
    rw [← Bool.not_eq_true, told]
    simp
  rw [← onTime, ← noOther_iff]
  constructor
  · exact fun one => one.noOther
  · intro noOther
    refine ⟨noOther, fun pre ev post pre' ev' post' => noOther.oneSource, ?_⟩
    intro done pre ev post split failed before
    by_contra none_
    have silent (e : Ev) (mem : e ∈ post) : errorYielded e = false := by
      by_contra error
      exact none_ ⟨e, mem, by simpa using error⟩
    have pending : ((pre.foldl Watch.see {}).see ev).pending = true := by
      rw [see_pending (failureRecorded_silent failed), failed, watched_content,
        List.any_eq_true.mpr before]
      simp
    have late : (t.foldl Watch.see {}).late = true := by
      apply waits done
      rw [split, List.foldl_append, List.foldl_cons]
      exact pending_stays pending silent
    rw [noOther_iff, late] at noOther
    cases noOther

/-- The adapter of `gpt-4o-mini` sends a fragment of a tool call and breaks off. -/
def breaksOff : (op : Op) → Except Raised (Calls.Ans op)
  | .openStream d messages timeout =>
    if d.2 = "gpt-4o-mini" then
      .ok {
        events := [{ type := .toolUseDelta, index := some 0, id := "call_1", arguments := "[1" }]
        ending := some (.exception "connection reset") }
    else answering (.openStream d messages timeout)
  | op => answering op

theorem content_from_two :
    let run := streamImpl oneModel { tenantId := "acme", messages := [], model := some "gpt-4o" }
      { id := "acme" } {}
    let t := run.traceWith breaksOff {}
    t.filterMap called = [("openai", "gpt-4o-mini"), ("openai", "gpt-4o")] ∧
      (t.filterMap yielded).map (·.type) = [.toolUseDelta, .delta, .usage, .done] ∧
      ¬ run.All {} fun t o _ => OneDeployment t o := by
  intro run t
  refine ⟨by decide +kernel, by decide +kernel, fun all => ?_⟩
  have one := Coro.all_iff.mp all t _ _ (run.runs_with breaksOff {})
  have late : (t.foldl Watch.see {}).late = true := by decide +kernel
  rw [noOther_iff.mp one.noOther] at late
  cases late

end AgentStudio.Gateway
