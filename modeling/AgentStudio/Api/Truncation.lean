import AgentStudio.Api.StreamRoute

/-!
# Where the route truncates a stream

What a run of the route has sent by the time of a retraction: the texts that the moderation let
through, each in a delta with an id above those before it, and then the redaction and the
retraction, which names the id of the last delta.
-/

namespace AgentStudio.Api
open Async Orchestration

/-! ## What is sent, and what the moderation let through -/

def sentFrame : Event Calls Raised → Option Frame
  | ⟨.yield frame, _⟩ => some frame
  | _ => none

/-- The frames of a run, in order. -/
def sent (t : Trace Calls Raised) : List Frame := t.filterMap sentFrame

/-- The text that an answer of the moderation lets through; it fails open. -/
def letThrough : Event Calls Raised → Option String
  | ⟨.moderate window, .ok result⟩ =>
    if result.allowed then some (result.redactedText.getD window) else none
  | ⟨.moderate window, .error e⟩ => if e.isException then some window else none
  | _ => none

/-- The texts that passed the moderation, in order. -/
def passed (t : Trace Calls Raised) : List String := t.filterMap letThrough

/-- The id and the text of a delta. -/
def Frame.delta? : Frame → Option (Nat × String)
  | .delta content eventId _ => some (eventId, content)
  | _ => none

def deltas (t : Trace Calls Raised) : List (Nat × String) := (sent t).filterMap Frame.delta?

def Frame.isRetraction : Frame → Bool
  | .retraction .. => true
  | _ => false

theorem sent_append (t t' : Trace Calls Raised) : sent (t ++ t') = sent t ++ sent t' :=
  List.filterMap_append

theorem passed_append (t t' : Trace Calls Raised) : passed (t ++ t') = passed t ++ passed t' :=
  List.filterMap_append

theorem deltas_append (t t' : Trace Calls Raised) : deltas (t ++ t') = deltas t ++ deltas t' := by
  rw [deltas, sent_append, List.filterMap_append]
  rfl

/-- The id of the last delta. -/
def lastId (ds : List (Nat × String)) : Option Nat := ds.getLast?.map Prod.fst

/-! ## The phases of a run -/

/-- Nothing is sent but deltas, and the variables know of them. -/
structure Open (route : Route) (t : Trace Calls Raised) (v : Vars) : Prop where
  frames : ∀ frame ∈ sent t, frame.delta?.isSome = true
  rising : ((deltas t).map Prod.fst).Pairwise (· < ·)
  ids : ∀ d ∈ deltas t, 0 < d.1 ∧ d.1 ≤ v.seq
  last : v.lastReleasedEventId = lastId (deltas t)
  passed : route.window.isSome = true → (deltas t).map Prod.snd = passed t
  unheld : route.window = none → v.pending = []

/-- The stream ended with a retraction. -/
structure Truncated (t : Trace Calls Raised) : Prop where
  frames : ∃ before violations, sent t = before ++
    [.redaction violations, .retraction violations (lastId (deltas t))] ∧
    ∀ frame ∈ before, frame.delta?.isSome = true
  rising : ((deltas t).map Prod.fst).Pairwise (· < ·)
  ids : ∀ d ∈ deltas t, 0 < d.1
  passed : (deltas t).map Prod.snd = passed t

/-- No retraction is sent, and each delta has an id. -/
structure Unretracted (t : Trace Calls Raised) : Prop where
  frames : ∀ frame ∈ sent t, frame.isRetraction = false
  ids : ∀ d ∈ deltas t, 0 < d.1

theorem Open.unretracted {route : Route} {t : Trace Calls Raised} {v : Vars}
    (h : Open route t v) : Unretracted t := by
  refine ⟨fun frame mem => ?_, fun d mem => (h.ids d mem).1⟩
  have delta := h.frames frame mem
  cases frame with
  | delta => rfl
  | _ => cases delta

theorem Unretracted.append {t t' : Trace Calls Raised} (h : Unretracted t) (h' : Unretracted t') :
    Unretracted (t ++ t') := by
  refine ⟨fun frame mem => ?_, fun d mem => ?_⟩
  · rw [sent_append] at mem
    rcases List.mem_append.mp mem with mem | mem
    · exact h.frames frame mem
    · exact h'.frames frame mem
  · rw [deltas_append] at mem
    rcases List.mem_append.mp mem with mem | mem
    · exact h.ids d mem
    · exact h'.ids d mem

theorem unretracted_of_sent {t : Trace Calls Raised} (frames : List Frame) (here : sent t = frames)
    (retracts : ∀ frame ∈ frames, frame.isRetraction = false)
    (ids : ∀ d ∈ frames.filterMap Frame.delta?, 0 < d.1) : Unretracted t := by
  subst here
  exact ⟨retracts, ids⟩

theorem Unretracted.quiet {t t' : Trace Calls Raised} (h : Unretracted t) (silent : sent t' = []) :
    Unretracted (t ++ t') := h.append (unretracted_of_sent [] silent (by simp) (by simp))

/-- Calls that send nothing and moderate nothing leave a run as it is. -/
theorem Open.quiet {route : Route} {t t' : Trace Calls Raised} {v v' : Vars} (h : Open route t v)
    (silent : sent t' = []) (unmoderated : route.window.isSome = true → Api.passed t' = [])
    (seq : v.seq ≤ v'.seq)
    (last : v'.lastReleasedEventId = v.lastReleasedEventId)
    (pending : route.window = none → v'.pending = v.pending) : Open route (t ++ t') v' := by
  have none_ : deltas t' = [] := by
    rw [deltas, silent]
    rfl
  have same : deltas (t ++ t') = deltas t := by rw [deltas_append, none_, List.append_nil]
  refine ⟨?_, ?_, ?_, ?_, ?_, ?_⟩
  · rw [sent_append, silent, List.append_nil]
    exact h.frames
  · rw [same]
    exact h.rising
  · rw [same]
    intro d mem
    obtain ⟨pos, le⟩ := h.ids d mem
    exact ⟨pos, le.trans seq⟩
  · rw [last, same]
    exact h.last
  · intro windowed
    rw [same, passed_append, unmoderated windowed, List.append_nil]
    exact h.passed windowed
  · intro off
    rw [pending off]
    exact h.unheld off

theorem Open.truncated {route : Route} {t t' : Trace Calls Raised} {v : Vars} (h : Open route t v)
    (windowed : route.window.isSome = true) (violations : List String)
    (frames : sent t' = [.redaction violations, .retraction violations v.lastReleasedEventId])
    (unmoderated : Api.passed t' = []) : Truncated (t ++ t') := by
  have none_ : deltas t' = [] := by
    rw [deltas, frames]
    rfl
  have same : deltas (t ++ t') = deltas t := by rw [deltas_append, none_, List.append_nil]
  refine ⟨⟨sent t, violations, ?_, h.frames⟩, ?_, ?_, ?_⟩
  · rw [sent_append, frames, same, h.last]
  · rw [same]
    exact h.rising
  · rw [same]
    exact fun d mem => (h.ids d mem).1
  · rw [same, passed_append, unmoderated, List.append_nil]
    exact h.passed windowed

/-! ## The calls -/

/-- Only what is not an exception is raised. -/
def Fatal {α : Type} (o : Except Raised α) : Prop := ∀ e, o = .error e → e.isException = false

theorem fatal_ok {α : Type} (a : α) : Fatal (.ok a) := nofun

theorem Fatal.raised {α β : Type} {e : Raised} (h : Fatal (.error e : Except Raised α)) :
    Fatal (.error e : Except Raised β) := by
  rintro e' ⟨⟩
  exact h e rfl

/-- An answer, or the default for an exception. -/
def caught {α : Type} (default : α) : Except Raised α → Except Raised α
  | .ok a => .ok a
  | .error e => if e.isException then .ok default else .error e

theorem caught_fatal {α : Type} (default : α) (r : Except Raised α) : Fatal (caught default r) := by
  intro e raised
  unfold caught at raised
  split at raised
  · cases raised
  · split at raised
    · cases raised
    · rename_i base
      cases raised
      simpa using base

theorem neverFatal_call (op : Op) (default : Calls.Ans op) (v : Vars) :
    (neverFatal (Coro.call (I := Calls) op) default).All v fun t o v' =>
      v' = v ∧ ∃ r, t = [⟨op, r⟩] ∧ o = caught default r := by
  unfold neverFatal
  rw [Coro.all_tryCatch, Coro.all_call]
  intro r
  cases r with
  | ok a => exact ⟨rfl, _, rfl, rfl⟩
  | error e =>
    dsimp only
    split
    · rename_i exception
      exact ⟨rfl, _, rfl, (if_pos exception).symm⟩
    · rename_i base
      exact ⟨rfl, _, rfl, (if_neg base).symm⟩

theorem send_spec (frame : Frame) (v : Vars) : (send frame).All v fun t o v' =>
    v' = v ∧ (∃ r, t = [⟨.yield frame, r⟩]) ∧ Fatal o := by
  refine (neverFatal_call (.yield frame) () v).mono ?_
  rintro t o v' ⟨same, r, rfl, rfl⟩
  exact ⟨same, ⟨r, rfl⟩, caught_fatal () r⟩

/-- An id is drawn that is above those before it. -/
theorem append_spec (type content : String) (v : Vars) : (append type content).All v fun t o v' =>
    sent t = [] ∧ passed t = [] ∧ Fatal o ∧ v' = { v with seq := v'.seq } ∧ v.seq ≤ v'.seq ∧
      ∀ id, o = .ok id → id = v'.seq ∧ v.seq < v'.seq := by
  unfold append
  refine Coro.All.bind (neverFatal_call (.append type content) (0 : Nat) v) ?_ ?_
  · rintro t others v' ⟨rfl, r, rfl, -⟩
    refine (Coro.all_modify_bind _ _).mpr ((Coro.all_get_bind _).mpr ((Coro.all_pure _).mpr ?_))
    refine ⟨rfl, rfl, fatal_ok _, rfl, ?_, ?_⟩
    · dsimp only
      omega
    · rintro id ⟨⟩
      refine ⟨rfl, ?_⟩
      dsimp only
      omega
  · rintro t e v' ⟨rfl, r, rfl, raised⟩
    refine ⟨rfl, rfl, ?_, rfl, Nat.le_refl _, by nofun⟩
    rintro e' ⟨⟩
    exact caught_fatal _ r e raised.symm

theorem markTerminal_spec (type content : String) (v : Vars) :
    (markTerminal type content).All v fun t o v' =>
      sent t = [] ∧ passed t = [] ∧ Fatal o ∧ v' = { v with seq := v'.seq } ∧ v.seq ≤ v'.seq := by
  unfold markTerminal
  refine Coro.All.bind (append_spec type content v) ?_ ?_
  · rintro t id v' ⟨silent, unmoderated, -, same, le, -⟩
    refine (Coro.all_pure _).mpr ?_
    rw [List.append_nil]
    exact ⟨silent, unmoderated, fatal_ok _, same, le⟩
  · rintro t e v' ⟨silent, unmoderated, fatal, same, le, -⟩
    exact ⟨silent, unmoderated, fatal.raised, same, le⟩

/-! ## The window -/

/-- A window that is validated passes, or ends the stream. -/
theorem validateWindow_spec (v : Vars) : validateWindow.All v fun t o v' =>
    sent t = [] ∧ Fatal o ∧ v'.seq = v.seq ∧ v'.lastReleasedEventId = v.lastReleasedEventId ∧
      ∀ release, o = .ok release →
        passed t = if release.truncated then [] else [release.text] := by
  unfold validateWindow
  refine (Coro.all_get_bind _).mpr ((Coro.all_modify_bind _ _).mpr ?_)
  unfold neverFatal
  rw [Coro.all_tryCatch, Coro.all_call_bind]
  constructor
  · intro result
    by_cases allowed : result.allowed = true
    · rw [if_pos allowed]
      refine (Coro.all_pure _).mpr ⟨rfl, fatal_ok _, rfl, rfl, ?_⟩
      rintro release ⟨⟩
      simp [passed, letThrough, allowed]
    · rw [if_neg allowed]
      refine (Coro.all_modify_bind _ _).mpr ((Coro.all_pure _).mpr ⟨rfl, fatal_ok _, rfl, rfl, ?_⟩)
      rintro release ⟨⟩
      simp [passed, letThrough, allowed]
  · intro e
    dsimp only
    by_cases exception : e.isException = true
    · rw [if_pos exception]
      refine (Coro.all_pure _).mpr ⟨rfl, fatal_ok _, rfl, rfl, ?_⟩
      rintro release ⟨⟩
      simp [passed, letThrough, exception]
    · rw [if_neg exception]
      refine (Coro.all_throw _).mpr ⟨rfl, ?_, rfl, rfl, nofun⟩
      rintro e' ⟨⟩
      simpa using exception

/-- What a window gives: nothing while it is held, or a release. -/
def Weighed (route : Route) (t : Trace Calls Raised) : Option WindowRelease → Prop
  | none => passed t = []
  | some release =>
    if release.truncated then route.window.isSome = true ∧ passed t = []
    else route.window.isSome = true → passed t = [release.text]

theorem weighed_validated {route : Route} {t : Trace Calls Raised} {release : WindowRelease}
    (windowed : route.window.isSome = true)
    (weighed : passed t = if release.truncated then [] else [release.text]) :
    Weighed route t (some release) := by
  unfold Weighed
  dsimp only
  split
  · rename_i truncated
    rw [if_pos truncated] at weighed
    exact ⟨windowed, weighed⟩
  · rename_i whole
    rw [if_neg whole] at weighed
    exact fun _ => weighed

theorem push_spec (route : Route) (chunk : Chunk) (v : Vars) :
    (push route chunk).All v fun t o v' =>
      sent t = [] ∧ Fatal o ∧ v'.seq = v.seq ∧
        v'.lastReleasedEventId = v.lastReleasedEventId ∧
        (route.window = none → v'.pending = v.pending) ∧
        ∀ release, o = .ok release → Weighed route t release := by
  unfold push
  refine (Coro.all_get_bind _).mpr ?_
  split
  · exact (Coro.all_pure _).mpr ⟨rfl, fatal_ok _, rfl, rfl, fun _ => rfl, by rintro _ ⟨⟩; rfl⟩
  · cases windowed : route.window with
    | none =>
      refine (Coro.all_pure _).mpr ⟨rfl, fatal_ok _, rfl, rfl, fun _ => rfl, ?_⟩
      rintro _ ⟨⟩
      simp [Weighed, windowed]
    | some size =>
      refine (Coro.all_modify_bind _ _).mpr ((Coro.all_get_bind _).mpr ?_)
      split
      · exact (Coro.all_pure _).mpr ⟨rfl, fatal_ok _, rfl, rfl, nofun, by rintro _ ⟨⟩; rfl⟩
      · refine Coro.All.map (validateWindow_spec _) ?_ ?_
        · rintro t release v' ⟨silent, -, seq, last, weighed⟩
          refine ⟨silent, fatal_ok _, seq, last, nofun, ?_⟩
          rintro _ ⟨⟩
          exact weighed_validated (by rw [windowed]; rfl) (weighed release rfl)
        · rintro t e v' ⟨silent, fatal, seq, last, -⟩
          exact ⟨silent, fatal.raised, seq, last, nofun, nofun⟩

theorem finish_spec (v : Vars) (route : Route) (unheld : route.window = none → v.pending = []) :
    finish.All v fun t o v' =>
      sent t = [] ∧ Fatal o ∧ v'.seq = v.seq ∧
        v'.lastReleasedEventId = v.lastReleasedEventId ∧
        (route.window = none → v'.pending = v.pending) ∧
        ∀ release, o = .ok release → Weighed route t release := by
  unfold finish
  refine (Coro.all_get_bind _).mpr ((Coro.all_get_bind _).mpr ?_)
  split
  · exact (Coro.all_pure _).mpr ⟨rfl, fatal_ok _, rfl, rfl, fun _ => rfl, by rintro _ ⟨⟩; rfl⟩
  · rename_i held
    have windowed : route.window.isSome = true := by
      cases window : route.window with
      | none => simp [unheld window, spelled] at held
      | some size => rfl
    refine Coro.All.map (validateWindow_spec _) ?_ ?_
    · rintro t release v' ⟨silent, -, seq, last, weighed⟩
      refine ⟨silent, fatal_ok _, seq, last, fun off => ?_, ?_⟩
      · rw [off] at windowed
        cases windowed
      · rintro _ ⟨⟩
        exact weighed_validated windowed (weighed release rfl)
    · rintro t e v' ⟨silent, fatal, seq, last, -⟩
      refine ⟨silent, fatal.raised, seq, last, fun off => ?_, nofun⟩
      rw [off] at windowed
      cases windowed

/-! ## The generator -/

/-- The redaction and the retraction, at the end of deltas. -/
theorem truncate_spec {route : Route} {t : Trace Calls Raised} {v : Vars} (open_ : Open route t v)
    (windowed : route.window.isSome = true) (release : WindowRelease) :
    (truncate release).All v fun t' o _ =>
      (o = .ok () → Truncated (t ++ t')) ∧ Fatal o ∧
        (Unretracted (t ++ t') ∨ Truncated (t ++ t')) := by
  unfold truncate
  refine Coro.All.bind (markTerminal_spec _ _ v) ?_ ?_
  · rintro t₁ - v₁ ⟨silent₁, unmoderated₁, -, same₁, -⟩
    have kept : v₁.lastReleasedEventId = v.lastReleasedEventId := by rw [same₁]
    refine Coro.All.bind (send_spec _ v₁) ?_ ?_
    · rintro t₂ - v₂ ⟨rfl, ⟨r₂, rfl⟩, -⟩
      refine (Coro.all_get_bind _).mpr (Coro.All.bind (send_spec _ v₂) ?_ ?_)
      · rintro t₃ - v₃ ⟨rfl, ⟨r₃, rfl⟩, -⟩
        refine (neverFatal_call (.chore (.publishWebhook "guardrail.blocked")) () v₃).mono ?_
        rintro t₄ o v₄ ⟨-, r₄, rfl, rfl⟩
        have ended : Truncated (t ++ (t₁ ++ ([⟨.yield (.redaction release.violations), r₂⟩] ++
            ([⟨.yield (.retraction release.violations v₃.lastReleasedEventId), r₃⟩] ++
              [⟨.chore (.publishWebhook "guardrail.blocked"), r₄⟩])))) := by
          refine open_.truncated windowed release.violations ?_ ?_
          · rw [sent_append, silent₁, ← kept]
            rfl
          · rw [passed_append, unmoderated₁]
            rfl
        exact ⟨fun _ => ended, caught_fatal () r₄, .inr ended⟩
      · rintro t₃ e v₃ ⟨rfl, ⟨r₃, rfl⟩, fatal⟩
        have ended : Truncated (t ++ (t₁ ++ ([⟨.yield (.redaction release.violations), r₂⟩] ++
            [⟨.yield (.retraction release.violations v₃.lastReleasedEventId), r₃⟩]))) := by
          refine open_.truncated windowed release.violations ?_ ?_
          · rw [sent_append, silent₁, ← kept]
            rfl
          · rw [passed_append, unmoderated₁]
            rfl
        exact ⟨nofun, fatal.raised, .inr ended⟩
    · rintro t₂ e v₂ ⟨rfl, ⟨r₂, rfl⟩, fatal⟩
      refine ⟨nofun, fatal.raised, .inl (open_.unretracted.append ?_)⟩
      refine unretracted_of_sent [.redaction release.violations] ?_ (by simp [Frame.isRetraction])
        (by simp [Frame.delta?])
      rw [sent_append, silent₁]
      rfl
  · rintro t₁ e v₁ ⟨silent₁, -, fatal, -⟩
    exact ⟨nofun, fatal.raised, .inl (open_.unretracted.quiet silent₁)⟩

/-- A delta with the next id. -/
theorem Open.released {route : Route} {t t₁ t₂ : Trace Calls Raised} {v v₂ : Vars}
    {release : WindowRelease} (h : Open route t v) (weighed : Weighed route t₁ (some release))
    (whole : release.truncated = false) (silent₁ : sent t₁ = []) (silent₂ : sent t₂ = [])
    (unmoderated : Api.passed t₂ = []) (next : v.seq < v₂.seq)
    (pending : route.window = none → v₂.pending = v.pending) (r : Except Raised Unit) :
    Open route (t ++ (t₁ ++ (t₂ ++ [⟨.yield (.delta release.text v₂.seq release.window), r⟩])))
      { v₂ with lastReleasedEventId := some v₂.seq } := by
  have frames : sent (t ++ (t₁ ++ (t₂ ++ [⟨.yield (.delta release.text v₂.seq release.window), r⟩]))) =
      sent t ++ [.delta release.text v₂.seq release.window] := by
    rw [sent_append, sent_append, sent_append, silent₁, silent₂]
    rfl
  have more : deltas (t ++ (t₁ ++ (t₂ ++ [⟨.yield (.delta release.text v₂.seq release.window), r⟩]))) =
      deltas t ++ [(v₂.seq, release.text)] := by
    rw [deltas, frames, List.filterMap_append]
    rfl
  refine ⟨?_, ?_, ?_, ?_, ?_, ?_⟩
  · intro frame mem
    rw [frames] at mem
    rcases List.mem_append.mp mem with mem | mem
    · exact h.frames frame mem
    · rw [List.mem_singleton.mp mem]
      rfl
  · rw [more, List.map_append]
    refine List.pairwise_append.mpr ⟨h.rising, List.pairwise_singleton _ _, ?_⟩
    intro id mem id' mem'
    obtain ⟨d, here, rfl⟩ := List.mem_map.mp mem
    rw [List.mem_singleton.mp mem']
    exact (h.ids d here).2.trans_lt next
  · intro d mem
    rw [more] at mem
    rcases List.mem_append.mp mem with mem | mem
    · obtain ⟨pos, le⟩ := h.ids d mem
      exact ⟨pos, le.trans next.le⟩
    · rw [List.mem_singleton.mp mem]
      exact ⟨by omega, Nat.le_refl _⟩
  · rw [more, lastId, List.getLast?_concat]
    rfl
  · intro windowed
    have here : Api.passed t₁ = [release.text] := by
      rw [Weighed, if_neg (by simp [whole])] at weighed
      exact weighed windowed
    rw [more, List.map_append, h.passed windowed, passed_append, passed_append, passed_append, here,
      unmoderated]
    rfl
  · intro off
    exact (pending off).trans (h.unheld off)

theorem releaseDeltas_spec (route : Route) (chunks : List Chunk) {t : Trace Calls Raised} {v : Vars}
    (open_ : Open route t v) : (releaseDeltas route chunks).All v fun t' o v' =>
      (o = .ok true → Open route (t ++ t') v') ∧ Fatal o ∧
        (Unretracted (t ++ t') ∨ Truncated (t ++ t')) := by
  induction chunks generalizing t v with
  | nil =>
    refine (Coro.all_pure _).mpr ?_
    rw [List.append_nil]
    exact ⟨fun _ => open_, fatal_ok _, .inl open_.unretracted⟩
  | cons chunk rest ih =>
    rw [releaseDeltas]
    refine Coro.All.bind (push_spec route chunk v) ?_ ?_
    · rintro t₁ held v₁ ⟨silent₁, -, seq₁, last₁, pending₁, weighs⟩
      have weighed := weighs held rfl
      cases held with
      | none =>
        refine (ih (open_.quiet silent₁ (fun _ => weighed) seq₁.ge last₁ pending₁)).mono ?_
        intro t' o v' step
        rwa [List.append_assoc] at step
      | some release =>
        dsimp only
        cases truncated : release.truncated with
        | true =>
          rw [if_pos rfl]
          rw [Weighed, if_pos truncated] at weighed
          obtain ⟨windowed, none_⟩ := weighed
          have open₁ := open_.quiet silent₁ (fun _ => none_) seq₁.ge last₁ pending₁
          refine Coro.All.bind (truncate_spec open₁ windowed release) ?_ ?_
          · rintro t₂ ⟨⟩ v₂ ⟨ended, -⟩
            refine (Coro.all_pure _).mpr ?_
            rw [List.append_nil, ← List.append_assoc]
            exact ⟨fun going => (by cases going), fatal_ok _, .inr (ended rfl)⟩
          · rintro t₂ e v₂ ⟨-, fatal, shape⟩
            rw [← List.append_assoc]
            exact ⟨fun going => (by cases going), fatal.raised, shape⟩
        | false =>
          rw [if_neg Bool.false_ne_true]
          refine Coro.All.bind (append_spec _ _ v₁) ?_ ?_
          · rintro t₂ id v₂ ⟨silent₂, none_, -, same₂, -, drawn⟩
            obtain ⟨rfl, next⟩ := drawn id rfl
            refine (Coro.all_modify_bind _ _).mpr (Coro.All.bind (send_spec _ _) ?_ ?_)
            · rintro t₃ - v₃ ⟨rfl, ⟨r, rfl⟩, -⟩
              have more := open_.released weighed truncated silent₁ silent₂ none_
                (seq₁ ▸ next) (fun off => by rw [same₂]; exact pending₁ off) r
              refine (ih more).mono ?_
              intro t' o v' step
              simpa only [List.append_assoc] using step
            · rintro t₃ e v₃ ⟨rfl, ⟨r, rfl⟩, fatal⟩
              have more := open_.released weighed truncated silent₁ silent₂ none_
                (seq₁ ▸ next) (fun off => by rw [same₂]; exact pending₁ off) r
              exact ⟨fun going => (by cases going), fatal.raised, .inl more.unretracted⟩
          · rintro t₂ e v₂ ⟨silent₂, -, fatal, -⟩
            refine ⟨fun going => (by cases going), fatal.raised, .inl (open_.unretracted.quiet ?_)⟩
            rw [sent_append, silent₁, silent₂]
            rfl
    · rintro t₁ e v₁ ⟨silent₁, fatal, -⟩
      exact ⟨fun going => (by cases going), fatal.raised, .inl (open_.unretracted.quiet silent₁)⟩

/-- A call that sends neither a retraction nor a delta. -/
def Op.unretracted : Op → Bool
  | .yield frame => !frame.isRetraction && frame.delta?.isNone
  | _ => true

abbrev Unretracting {α : Type} (c : Step α) : Prop := Coro.Emits (I := Calls) (fun op : Op => op.unretracted = true) c

theorem unretracted_of_emits {t : Trace Calls Raised} (made : ∀ ev ∈ t, ev.op.unretracted = true) :
    Unretracted t := by
  have each (frame : Frame) (mem : frame ∈ sent t) :
      frame.isRetraction = false ∧ frame.delta? = none := by
    obtain ⟨ev, here, is⟩ := List.mem_filterMap.mp mem
    have fine := made ev here
    obtain ⟨op, r⟩ := ev
    cases op with
    | yield sent =>
      cases is
      simpa [Op.unretracted] using fine
    | _ => cases is
  refine ⟨fun frame mem => (each frame mem).1, fun d mem => ?_⟩
  obtain ⟨frame, here, is⟩ := List.mem_filterMap.mp mem
  rw [(each frame here).2] at is
  cases is

theorem neverFatal_unretracting {α : Type} {c : Step α} (h : Unretracting c) (default : α) :
    Unretracting (neverFatal c default) := by
  refine h.tryCatch fun e => ?_
  split
  · exact Coro.emits_pure _
  · exact Coro.emits_throw _

theorem call_unretracting {op : Op} (h : op.unretracted = true) :
    Unretracting (Coro.call (I := Calls) op) := Coro.emits_call h

theorem send_unretracting {frame : Frame} (other : (Op.yield frame).unretracted = true) :
    Unretracting (send frame) := neverFatal_unretracting (call_unretracting other) _

theorem append_unretracting (type content : String) : Unretracting (append type content) :=
  (neverFatal_unretracting (call_unretracting rfl) _).bind fun _ =>
    (Coro.emits_modify _).bind fun _ => Coro.emits_get.bind fun _ => Coro.emits_pure _

theorem markTerminal_unretracting (type content : String) :
    Unretracting (markTerminal type content) :=
  (append_unretracting type content).bind fun _ => Coro.emits_pure _

theorem doChore_unretracting (chore : Chore) : Unretracting (doChore chore) :=
  neverFatal_unretracting (call_unretracting rfl) _

theorem storeAndClose_unretracting (route : Route) (response : String) (handoffRequired : Bool) :
    Unretracting (storeAndClose route response handoffRequired) := by
  have closing : Unretracting (closingText route response) := by
    unfold closingText
    split
    · exact (call_unretracting rfl).bind fun _ => Coro.emits_pure _
    · exact Coro.emits_pure _
  have ending (text : String) : Unretracting (do
      doChore (.publishWebhook "conversation.completed")
      markTerminal "result" text
      send (.result text handoffRequired)) :=
    (doChore_unretracting _).bind fun _ => (markTerminal_unretracting _ _).bind fun _ =>
      send_unretracting rfl
  unfold storeAndClose
  refine closing.bind fun text => (call_unretracting rfl).bind fun _ =>
    (call_unretracting rfl).bind fun _ => (doChore_unretracting _).bind fun _ =>
      (doChore_unretracting _).bind fun _ => (doChore_unretracting _).bind fun _ => ?_
  split
  · exact (call_unretracting rfl).bind fun _ => (doChore_unretracting _).bind fun _ => ending text
  · exact ending text

theorem sendError_unretracting (text : String) : Unretracting (sendError text) :=
  (markTerminal_unretracting _ _).bind fun _ => send_unretracting rfl

/-- From the result event on: an exception is raised only where nothing is retracted. -/
theorem closeStream_spec (route : Route) (response : String) (handoffRequired : Bool)
    {t : Trace Calls Raised} {v : Vars} (open_ : Open route t v) :
    (closeStream route response handoffRequired).All v fun t' o _ =>
      Unretracted (t ++ t') ∨ Fatal o ∧ Truncated (t ++ t') := by
  have stored {t₁ : Trace Calls Raised} (v₁ : Vars) (before : Unretracted (t ++ t₁)) :
      (storeAndClose route response handoffRequired).All v₁ fun t' o _ =>
        Unretracted (t ++ (t₁ ++ t')) ∨ Fatal o ∧ Truncated (t ++ (t₁ ++ t')) := by
    refine (storeAndClose_unretracting route response handoffRequired v₁).mono ?_
    intro t' o _ made
    rw [← List.append_assoc]
    exact .inl (before.append (unretracted_of_emits made))
  unfold closeStream
  refine Coro.All.bind (finish_spec v route open_.unheld) ?_ ?_
  · rintro t₁ held v₁ ⟨silent₁, -, seq₁, last₁, pending₁, weighs⟩
    have weighed := weighs held rfl
    cases held with
    | none => exact stored v₁ (open_.unretracted.quiet silent₁)
    | some tail =>
      dsimp only
      cases truncated : tail.truncated with
      | true =>
        rw [if_pos rfl]
        rw [Weighed, if_pos truncated] at weighed
        obtain ⟨windowed, none_⟩ := weighed
        have open₁ := open_.quiet silent₁ (fun _ => none_) seq₁.ge last₁ pending₁
        refine (truncate_spec open₁ windowed tail).mono ?_
        rintro t₂ o - ⟨-, fatal, shape⟩
        rw [← List.append_assoc]
        exact shape.imp id fun ended => ⟨fatal, ended⟩
      | false =>
        rw [if_neg Bool.false_ne_true]
        split
        · exact stored v₁ (open_.unretracted.quiet silent₁)
        · refine Coro.All.bind (append_spec _ _ v₁) ?_ ?_
          · rintro t₂ id v₂ ⟨silent₂, -, -, -, -, drawn⟩
            obtain ⟨rfl, next⟩ := drawn id rfl
            have sent_ (r : Except Raised Unit) : Unretracted
                (t ++ (t₁ ++ (t₂ ++ [⟨.yield (.delta tail.text v₂.seq tail.window), r⟩]))) := by
              refine open_.unretracted.append (unretracted_of_sent
                [.delta tail.text v₂.seq tail.window] ?_
                (by simp [Frame.isRetraction]) ?_)
              · rw [sent_append, sent_append, silent₁, silent₂]
                rfl
              · rintro d mem
                rw [List.mem_singleton.mp mem]
                dsimp only
                omega
            refine Coro.All.bind (send_spec _ _) ?_ ?_
            · rintro t₃ ⟨⟩ v₃ ⟨-, ⟨r, rfl⟩, -⟩
              simpa only [List.append_assoc] using stored v₃ (sent_ r)
            · rintro t₃ e v₃ ⟨-, ⟨r, rfl⟩, -⟩
              exact .inl (sent_ r)
          · rintro t₂ e v₂ ⟨silent₂, -⟩
            refine .inl (open_.unretracted.quiet ?_)
            rw [sent_append, silent₁, silent₂]
            rfl
  · rintro t₁ e v₁ ⟨silent₁, -⟩
    exact .inl (open_.unretracted.quiet silent₁)

/-- In every run of the route that retracts anything, the stream ends with the retraction. -/
theorem eventGenerator_truncated (route : Route) (chunks : List Chunk) (ending : StreamEnd)
    (seq : Nat) : (eventGenerator route chunks ending).All { seq := seq } fun t _ _ =>
      Unretracted t ∨ Truncated t := by
  have start : Open route [] { seq := seq } :=
    ⟨fun _ mem => absurd mem List.not_mem_nil, List.Pairwise.nil,
      fun _ mem => absurd mem List.not_mem_nil, rfl, fun _ => rfl, fun _ => rfl⟩
  refine Coro.All.tryCatch (Ψ := fun t o _ => Unretracted t ∨ Fatal o ∧ Truncated t) ?_ ?_ ?_
  · refine Coro.All.bind (releaseDeltas_spec route chunks start) ?_ ?_
    · rintro t going v ⟨on, -, shape⟩
      cases going with
      | false =>
        refine (Coro.all_pure _).mpr ?_
        rw [List.append_nil]
        exact shape.imp id fun ended => ⟨fatal_ok _, ended⟩
      | true =>
        have open_ := on rfl
        rw [if_pos rfl]
        cases ending with
        | error text =>
          refine (sendError_unretracting text v).mono ?_
          intro t' o _ made
          exact .inl (open_.unretracted.append (unretracted_of_emits made))
        | result response final => exact closeStream_spec route response _ open_
    · rintro t e v ⟨-, fatal, shape⟩
      exact shape.imp id fun ended => ⟨fatal.raised, ended⟩
  · rintro t a v shape
    exact shape.imp id fun ended => ended.2
  · rintro t e v shape
    split
    · rename_i exception
      have before : Unretracted t := shape.resolve_right fun ended => by
        rw [ended.1 e rfl] at exception
        cases exception
      refine (sendError_unretracting e.text v).mono ?_
      intro t' o _ made
      exact .inl (before.append (unretracted_of_emits made))
    · refine (Coro.all_throw _).mpr ?_
      rw [List.append_nil]
      exact shape.imp id fun ended => ended.2

end AgentStudio.Api
