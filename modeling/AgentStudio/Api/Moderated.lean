import AgentStudio.Api.Truncation

/-!
# What the rolling window lets through

A validator that rejects the texts with a forbidden substring sees the response in windows,
which are cut where the deltas happen to end. The deltas sent are the windows before the first
one that it rejects, and then the stream is truncated; no window is seen together with the next.
-/

namespace AgentStudio.Api
open Async Orchestration

/-! ## Windows -/

/-- The validator: a text is rejected that contains one of the substrings. -/
def rejects (forbidden : List String) (text : String) : Bool :=
  forbidden.any fun f => f.toList <:+: text.toList

/-- The windows of deltas, after what is pending, and what is held at the end. -/
def cut (size : Nat) : String → List String → List String × String
  | pending, [] => ([], pending)
  | pending, text :: texts =>
    if (pending ++ text).length < size then cut size (pending ++ text) texts
    else ((pending ++ text) :: (cut size "" texts).1, (cut size "" texts).2)

/-- What is held is flushed. -/
def flushed (rest : String) : List String := if rest = "" then [] else [rest]

/-- The windows of a response that comes in these deltas. -/
def windows (size : Nat) (texts : List String) : List String :=
  (cut size "" texts).1 ++ flushed (cut size "" texts).2

/-- The windows before the first that is rejected. -/
def clean (forbidden : List String) (ws : List String) : List String :=
  ws.takeWhile fun w => !rejects forbidden w

/-- Of the windows from the first on, as long as none of them is rejected, no forbidden
substring is in several together. -/
def Uncrossed (forbidden : List String) (ws : List String) : Prop :=
  ∀ first, first <+: ws → (∀ w ∈ first, rejects forbidden w = false) →
    rejects forbidden (String.join first) = false

/-! ## Runs -/

/-- The texts of the deltas that were sent. -/
def released (t : Trace Calls Raised) : List String := (deltas t).map Prod.snd

def retracted (t : Trace Calls Raised) : Bool := (sent t).any Frame.isRetraction

/-- The validator answers so, unless it is cancelled. -/
def Judged (forbidden : List String) (t : Trace Calls Raised) : Prop :=
  ∀ (window : String) (r : Except Raised Moderation), ⟨.moderate window, r⟩ ∈ t →
    (∃ violations, r = .ok { allowed := !rejects forbidden window, violations := violations }) ∨
      ∃ e, r = .error e ∧ e.isException = false

/-- The client stays connected, and nothing is cancelled. -/
def Unbroken (t : Trace Calls Raised) : Prop :=
  ∀ ev ∈ t, ∀ e, ev.reply = .error e → e.isException = true

/-- What is sent of these windows. -/
structure Shows (forbidden : List String) (t : Trace Calls Raised) (ws : List String) : Prop where
  released : released t <+: clean forbidden ws
  retracted : retracted t = true → clean forbidden ws ≠ ws
  whole : Unbroken t → Api.released t = clean forbidden ws ∧
    (clean forbidden ws ≠ ws → Api.retracted t = true)

/-- All of these windows are sent, and nothing is retracted. -/
structure Passes (forbidden : List String) (t : Trace Calls Raised) (ws : List String) : Prop where
  released : released t = ws
  retracted : retracted t = false
  clean : clean forbidden ws = ws

section
variable {forbidden : List String} {t t' : Trace Calls Raised} {ws ws' : List String} {w : String}

theorem released_append (t t' : Trace Calls Raised) :
    released (t ++ t') = released t ++ released t' := by
  rw [released, deltas_append, List.map_append]
  rfl

theorem retracted_append (t t' : Trace Calls Raised) :
    retracted (t ++ t') = (retracted t || retracted t') := by
  rw [retracted, sent_append, List.any_append]
  rfl

theorem Judged.left (h : Judged forbidden (t ++ t')) : Judged forbidden t :=
  fun window r mem => h window r (List.mem_append_left _ mem)

theorem Judged.right (h : Judged forbidden (t ++ t')) : Judged forbidden t' :=
  fun window r mem => h window r (List.mem_append_right _ mem)

theorem Unbroken.left (h : Unbroken (t ++ t')) : Unbroken t :=
  fun ev mem => h ev (List.mem_append_left _ mem)

theorem Unbroken.right (h : Unbroken (t ++ t')) : Unbroken t' :=
  fun ev mem => h ev (List.mem_append_right _ mem)

theorem accepted_of_clean (mem : w ∈ clean forbidden ws) : rejects forbidden w = false := by
  have is := @List.mem_takeWhile_imp String (fun w => !rejects forbidden w) ws w mem
  simpa using is

theorem clean_append (all : clean forbidden ws = ws) :
    clean forbidden (ws ++ ws') = ws ++ clean forbidden ws' := by
  refine List.takeWhile_append_of_pos fun w mem => ?_
  have mem' : w ∈ clean forbidden ws := by
    rw [all]
    exact mem
  rw [accepted_of_clean mem']
  rfl

theorem clean_rejected (is : rejects forbidden w = true) (ws : List String) :
    clean forbidden (w :: ws) = [] := List.takeWhile_cons_of_neg (by simp [is])

theorem Passes.nil (forbidden : List String) : Passes forbidden [] [] := ⟨rfl, rfl, rfl⟩

/-- What sends neither a delta nor a retraction passes nothing. -/
theorem passes_silent (released : Api.released t = []) (retracted : Api.retracted t = false) :
    Passes forbidden t [] := ⟨released, retracted, rfl⟩

theorem Passes.append (first : Passes forbidden t ws) (rest : Passes forbidden t' ws') :
    Passes forbidden (t ++ t') (ws ++ ws') := by
  refine ⟨?_, ?_, ?_⟩
  · rw [released_append, first.released, rest.released]
  · rw [retracted_append, first.retracted, rest.retracted]
    rfl
  · rw [clean_append first.clean, rest.clean]

theorem Passes.shows (h : Passes forbidden t ws) : Shows forbidden t ws := by
  refine ⟨?_, ?_, fun _ => ⟨?_, fun other => absurd h.clean other⟩⟩
  · rw [h.released, h.clean]
  · rw [h.retracted]
    exact fun is => by cases is
  · rw [h.released, h.clean]

theorem Passes.after (first : Passes forbidden t ws) (rest : Shows forbidden t' ws') :
    Shows forbidden (t ++ t') (ws ++ ws') := by
  have cleaned := @clean_append forbidden ws ws' first.clean
  refine ⟨?_, ?_, fun unbroken => ?_⟩
  · rw [released_append, first.released, cleaned]
    exact (List.prefix_append_right_inj ws).mpr rest.released
  · rw [retracted_append, first.retracted, cleaned]
    exact fun is same => rest.retracted is (List.append_cancel_left same)
  · obtain ⟨all, ends⟩ := rest.whole unbroken.right
    rw [released_append, retracted_append, first.released, first.retracted, cleaned, all]
    exact ⟨rfl, fun other => ends fun same => other (by rw [same])⟩

/-- A run that is broken off. -/
theorem Passes.broken (h : Passes forbidden t ws) (broken : ¬Unbroken t) (more : List String) :
    Shows forbidden t (ws ++ more) := by
  refine ⟨?_, ?_, fun unbroken => absurd unbroken broken⟩
  · rw [h.released, clean_append h.clean]
    exact List.prefix_append ws _
  · rw [h.retracted]
    exact fun is => by cases is

/-- A window that is rejected is not sent, and the stream is truncated. -/
theorem shows_rejected (is : rejects forbidden w = true) (silent : released t = [])
    (truncated : Unbroken t → retracted t = true) (ws : List String) :
    Shows forbidden t (w :: ws) := by
  rw [← List.nil_append (w :: ws)]
  refine ⟨?_, ?_, fun unbroken => ⟨?_, fun _ => truncated unbroken⟩⟩
  · rw [silent]
    exact List.nil_prefix
  · rw [List.nil_append, clean_rejected is]
    exact fun _ same => by cases same
  · rw [List.nil_append, clean_rejected is, silent]

/-- What follows a run and sends neither a delta nor a retraction. -/
theorem Shows.quiet (h : Shows forbidden t ws) (released : Api.released t' = [])
    (retracted : Api.retracted t' = false) : Shows forbidden (t ++ t') ws := by
  have same : Api.released (t ++ t') = Api.released t := by
    rw [released_append, released, List.append_nil]
  have same' : Api.retracted (t ++ t') = Api.retracted t := by
    rw [retracted_append, retracted, Bool.or_false]
  refine ⟨?_, ?_, fun unbroken => ?_⟩
  · rw [same]
    exact h.released
  · rw [same']
    exact h.retracted
  · rw [same, same']
    exact h.whole unbroken.left

/-! ## The calls -/

/-- A call that is never fatal raises only when the run is broken off. -/
theorem caught_broken {op : Op} {default : Calls.Ans op} {r : Except Raised (Calls.Ans op)}
    {e : Raised} (raised : caught default r = .error e) : ¬Unbroken [⟨op, r⟩] := by
  intro unbroken
  have fatal := caught_fatal default r e raised
  cases r with
  | ok a => cases raised
  | error e' =>
    have exception := unbroken _ (List.mem_singleton_self _) e' rfl
    rw [caught, if_pos exception] at raised
    cases raised

theorem append_judged (type content : String) (v : Vars) :
    (append type content).All v fun t o v' =>
      sent t = [] ∧ (∀ e, o = .error e → ¬Unbroken t) ∧ v'.pending = v.pending ∧
        v'.truncated = v.truncated := by
  unfold append
  refine Coro.All.bind (neverFatal_call (.append type content) (0 : Nat) v) ?_ ?_
  · rintro t others v' ⟨rfl, r, rfl, -⟩
    refine (Coro.all_modify_bind _ _).mpr ((Coro.all_get_bind _).mpr ((Coro.all_pure _).mpr ?_))
    exact ⟨rfl, (fun e is => by cases is), rfl, rfl⟩
  · rintro t e v' ⟨rfl, r, rfl, raised⟩
    refine ⟨rfl, fun e' is => ?_, rfl, rfl⟩
    exact caught_broken raised.symm

theorem send_judged (frame : Frame) (v : Vars) : (send frame).All v fun t o v' =>
    v' = v ∧ sent t = [frame] ∧ ∀ e, o = .error e → ¬Unbroken t := by
  refine (neverFatal_call (.yield frame) () v).mono ?_
  rintro t o v' ⟨same, r, rfl, raised⟩
  exact ⟨same, rfl, fun e is => caught_broken (raised.symm.trans is)⟩

theorem quiet_of_sent (silent : sent t = []) : released t = [] ∧ retracted t = false := by
  rw [released, deltas, retracted, silent]
  exact ⟨rfl, rfl⟩

/-- The release of a window that was judged. -/
structure Weighs (forbidden : List String) (window : String) (release : WindowRelease)
    (v : Vars) : Prop where
  truncated : release.truncated = rejects forbidden window
  whole : release.truncated = false → release.text = window ∧ v.pending = [] ∧ v.truncated = false

theorem Judged.accepts {window : String} {result : Moderation}
    (h : Judged forbidden [⟨.moderate window, .ok result⟩]) :
    result.allowed = (!rejects forbidden window) ∧ result.redactedText = none := by
  rcases h window (.ok result) (List.mem_singleton_self _) with ⟨violations, is⟩ | ⟨e, is, -⟩
  · cases is
    exact ⟨rfl, rfl⟩
  · cases is

theorem Judged.raises {window : String} {e : Raised}
    (h : Judged forbidden [⟨.moderate window, .error e⟩]) : e.isException = false := by
  rcases h window (.error e) (List.mem_singleton_self _) with ⟨violations, is⟩ | ⟨e', is, base⟩
  · cases is
  · cases is
    exact base

/-- A window that is validated is released if it is not rejected. -/
theorem validateWindow_judged (forbidden : List String) (v : Vars) (going : v.truncated = false) :
    validateWindow.All v fun t o v' => sent t = [] ∧ (Judged forbidden t →
      (∀ e, o = .error e → ¬Unbroken t) ∧
        ∀ release, o = .ok release → Weighs forbidden (spelled v.pending) release v') := by
  unfold validateWindow
  refine (Coro.all_get_bind _).mpr ((Coro.all_modify_bind _ _).mpr ?_)
  unfold neverFatal
  rw [Coro.all_tryCatch, Coro.all_call_bind]
  constructor
  · intro result
    by_cases allowed : result.allowed = true
    · rw [if_pos allowed]
      refine (Coro.all_pure _).mpr ⟨rfl, fun judged => ⟨(fun e is => by cases is), ?_⟩⟩
      rintro release ⟨⟩
      obtain ⟨verdict, raw⟩ := judged.accepts
      refine ⟨?_, fun _ => ⟨?_, rfl, going⟩⟩
      · rw [allowed] at verdict
        simpa using verdict
      · dsimp only
        rw [raw]
        rfl
    · rw [if_neg allowed]
      refine (Coro.all_modify_bind _ _).mpr ((Coro.all_pure _).mpr ⟨rfl, fun judged =>
        ⟨(fun e is => by cases is), ?_⟩⟩)
      rintro release ⟨⟩
      obtain ⟨verdict, -⟩ := judged.accepts
      refine ⟨?_, fun is => by cases is⟩
      rw [Bool.eq_false_iff.mpr allowed] at verdict
      simpa using verdict
  · intro e
    dsimp only
    by_cases exception : e.isException = true
    · rw [if_pos exception]
      refine (Coro.all_pure _).mpr ⟨rfl, fun judged => ?_⟩
      have base := judged.raises
      rw [exception] at base
      cases base
    · rw [if_neg exception]
      refine (Coro.all_throw _).mpr ⟨rfl, fun _ => ⟨?_, (fun release is => by cases is)⟩⟩
      intro _ _ unbroken
      exact exception (unbroken _ (List.mem_singleton_self _) e rfl)

/-- A delta is held as long as the window is not full. -/
theorem push_judged (forbidden : List String) (size : Nat) (chunk : Chunk) (v : Vars)
    (going : v.truncated = false) :
    (push ⟨some size⟩ chunk).All v fun t o v' => sent t = [] ∧ (Judged forbidden t →
      (∀ e, o = .error e → ¬Unbroken t) ∧
        (o = .ok none → (spelled v.pending ++ chunk.text).length < size ∧
          spelled v'.pending = spelled v.pending ++ chunk.text ∧ v'.truncated = false) ∧
        ∀ release, o = .ok (some release) → size ≤ (spelled v.pending ++ chunk.text).length ∧
          Weighs forbidden (spelled v.pending ++ chunk.text) release v') := by
  have held : spelled (v.pending ++ [chunk]) = spelled v.pending ++ chunk.text := by
    rw [spelled, List.map_append, String.join_append]
    simp [spelled]
  unfold push
  refine (Coro.all_get_bind _).mpr ?_
  rw [if_neg (by simp [going])]
  refine (Coro.all_modify_bind _ _).mpr ((Coro.all_get_bind _).mpr ?_)
  split
  · rename_i short
    refine (Coro.all_pure _).mpr ⟨rfl, fun _ => ⟨(fun e is => by cases is), fun _ => ?_,
      (fun release is => by cases is)⟩⟩
    dsimp only at short ⊢
    rw [held] at short ⊢
    exact ⟨short, rfl, going⟩
  · rename_i full
    dsimp only at full
    rw [held] at full
    refine Coro.All.map (validateWindow_judged forbidden _ going) ?_ ?_
    · rintro t release v' ⟨silent, judges⟩
      refine ⟨silent, fun judged => ⟨(fun e is => by cases is), (fun is => by cases is), ?_⟩⟩
      rintro _ ⟨⟩
      have weighs := (judges judged).2 release rfl
      dsimp only at weighs
      rw [held] at weighs
      exact ⟨Nat.le_of_not_lt full, weighs⟩
    · rintro t e v' ⟨silent, judges⟩
      refine ⟨silent, fun judged => ⟨?_, (fun is => by cases is), (fun release is => by cases is)⟩⟩
      intro _ _
      exact (judges judged).1 e rfl

/-- What is held is validated, unless it is empty. -/
theorem finish_judged (forbidden : List String) (v : Vars) (going : v.truncated = false) :
    finish.All v fun t o v' => sent t = [] ∧ (Judged forbidden t →
      (∀ e, o = .error e → ¬Unbroken t) ∧ (o = .ok none → spelled v.pending = "") ∧
        ∀ release, o = .ok (some release) → spelled v.pending ≠ "" ∧
          Weighs forbidden (spelled v.pending) release v') := by
  unfold finish
  refine (Coro.all_get_bind _).mpr ((Coro.all_get_bind _).mpr ?_)
  by_cases blank : spelled v.pending = ""
  · rw [if_pos (by simp [blank])]
    refine (Coro.all_pure _).mpr ⟨rfl, fun _ => ⟨(fun e is => by cases is), fun _ => blank,
      (fun release is => by cases is)⟩⟩
  · rw [if_neg (by simp [blank, going])]
    refine Coro.All.map (validateWindow_judged forbidden v going) ?_ ?_
    · rintro t release v' ⟨silent, judges⟩
      refine ⟨silent, fun judged => ⟨(fun e is => by cases is), (fun is => by cases is), ?_⟩⟩
      rintro _ ⟨⟩
      exact ⟨blank, (judges judged).2 release rfl⟩
    · rintro t e v' ⟨silent, judges⟩
      refine ⟨silent, fun judged => ⟨?_, (fun is => by cases is), (fun release is => by cases is)⟩⟩
      intro _ _
      exact (judges judged).1 e rfl

theorem quiet_of_emits (made : ∀ ev ∈ t, ev.op.unretracted = true) :
    released t = [] ∧ retracted t = false := by
  have each (frame : Frame) (mem : frame ∈ sent t) :
      frame.isRetraction = false ∧ frame.delta? = none := by
    obtain ⟨ev, here, is⟩ := List.mem_filterMap.mp mem
    have fine := made ev here
    obtain ⟨op, r⟩ := ev
    cases op with
    | yield sent =>
      cases is
      simpa [Op.unretracted] using fine
    | _ => cases is
  constructor
  · rw [released, deltas, List.filterMap_eq_nil_iff.mpr fun frame mem => (each frame mem).2]
    rfl
  · refine List.any_eq_false.mpr fun frame mem => ?_
    rw [(each frame mem).1]
    exact Bool.false_ne_true

/-- The stream is truncated, unless it is broken off. -/
theorem truncate_judged (release : WindowRelease) (v : Vars) : (truncate release).All v fun t _ _ =>
    released t = [] ∧ (Unbroken t → retracted t = true) := by
  have marked : (markTerminal "error" "output_moderation_redaction").All v fun t o _ =>
      sent t = [] ∧ ∀ e, o = .error e → ¬Unbroken t := by
    refine Coro.All.bind (append_judged _ _ v) ?_ ?_
    · rintro t id v' ⟨silent, -⟩
      refine (Coro.all_pure _).mpr ?_
      rw [List.append_nil]
      exact ⟨silent, fun e is => by cases is⟩
    · rintro t e v' ⟨silent, broken, -⟩
      exact ⟨silent, fun _ _ => broken e rfl⟩
  unfold truncate
  refine Coro.All.bind marked ?_ ?_
  · rintro t₁ - v₁ ⟨silent₁, -⟩
    have none₁ := (quiet_of_sent silent₁).1
    refine Coro.All.bind (send_judged _ v₁) ?_ ?_
    · rintro t₂ - v₂ ⟨-, sent₂, -⟩
      have none₂ : released t₂ = [] := by
        rw [released, deltas, sent₂]
        rfl
      refine (Coro.all_get_bind _).mpr (Coro.All.bind (send_judged _ v₂) ?_ ?_)
      · rintro t₃ - v₃ ⟨-, sent₃, -⟩
        have ends : retracted t₃ = true := by
          rw [retracted, sent₃]
          rfl
        refine (doChore_unretracting (.publishWebhook "guardrail.blocked") v₃).mono ?_
        intro t₄ o v₄ made
        constructor
        · rw [released_append, released_append, released_append, none₁, none₂,
            (quiet_of_emits made).1, released, deltas, sent₃]
          rfl
        · intro _
          rw [retracted_append, retracted_append, retracted_append, ends]
          simp
      · rintro t₃ e v₃ ⟨-, sent₃, -⟩
        have ends : retracted t₃ = true := by
          rw [retracted, sent₃]
          rfl
        constructor
        · rw [released_append, released_append, none₁, none₂, released, deltas, sent₃]
          rfl
        · intro _
          rw [retracted_append, retracted_append, ends]
          simp
    · rintro t₂ e v₂ ⟨-, sent₂, broken₂⟩
      refine ⟨?_, fun unbroken => absurd unbroken.right (broken₂ e rfl)⟩
      rw [released_append, none₁, released, deltas, sent₂]
      rfl
  · rintro t₁ e v₁ ⟨silent₁, broken⟩
    exact ⟨(quiet_of_sent silent₁).1, fun unbroken => absurd unbroken (broken e rfl)⟩

/-- A delta that is sent is one window more. -/
theorem passes_release {t₁ t₂ t₃ : Trace Calls Raised} {seq : Nat} {window : List Chunk}
    (accepted : rejects forbidden w = false) (silent₁ : sent t₁ = []) (silent₂ : sent t₂ = [])
    (sent₃ : sent t₃ = [.delta w seq window]) : Passes forbidden (t₁ ++ (t₂ ++ t₃)) [w] := by
  have here : sent (t₁ ++ (t₂ ++ t₃)) = [.delta w seq window] := by
    rw [sent_append, sent_append, silent₁, silent₂, sent₃]
    rfl
  refine ⟨?_, ?_, ?_⟩
  · rw [released, deltas, here]
    rfl
  · rw [retracted, here]
    rfl
  · rw [Api.clean, List.takeWhile_cons_of_pos (by simp [accepted])]
    rfl

/-- The windows of the deltas are sent, up to the first that is rejected. -/
theorem releaseDeltas_judged (forbidden : List String) (size : Nat) (chunks : List Chunk) (v : Vars)
    (going : v.truncated = false) :
    (releaseDeltas ⟨some size⟩ chunks).All v fun t o v' => Judged forbidden t →
      (o = .ok true → Passes forbidden t (cut size (spelled v.pending) (chunks.map Chunk.text)).1 ∧
        spelled v'.pending = (cut size (spelled v.pending) (chunks.map Chunk.text)).2 ∧
          v'.truncated = false) ∧
      (o ≠ .ok true → ∀ more,
        Shows forbidden t ((cut size (spelled v.pending) (chunks.map Chunk.text)).1 ++ more)) := by
  induction chunks generalizing v with
  | nil =>
    refine (Coro.all_pure _).mpr fun _ => ⟨fun _ => ⟨Passes.nil forbidden, rfl, going⟩, ?_⟩
    exact fun ended => absurd rfl ended
  | cons chunk rest ih =>
    rw [releaseDeltas, List.map_cons, cut]
    refine Coro.All.bind (push_judged forbidden size chunk v going) ?_ ?_
    · rintro t₁ held v₁ ⟨silent₁, judges⟩
      obtain ⟨none₁, unretracted₁⟩ := quiet_of_sent silent₁
      by_cases judged₁ : Judged forbidden t₁
      swap
      · exact Coro.all_iff.mpr fun t' o v' _ judged => absurd judged.left judged₁
      obtain ⟨-, holds, fills⟩ := judges judged₁
      cases held with
      | none =>
        obtain ⟨short, same, going₁⟩ := holds rfl
        rw [if_pos short, ← same]
        refine (ih v₁ going₁).mono fun t' o v' step judged => ?_
        obtain ⟨on, ended⟩ := step judged.right
        have before : Passes forbidden t₁ [] := passes_silent none₁ unretracted₁
        exact ⟨fun is => ⟨before.append (on is).1, (on is).2⟩,
          fun other more => before.after (ended other more)⟩
      | some release =>
        obtain ⟨full, weighs⟩ := fills release rfl
        rw [if_neg (Nat.not_lt.mpr full)]
        dsimp only
        cases truncated : release.truncated with
        | true =>
          have is : rejects forbidden (spelled v.pending ++ chunk.text) = true := by
            rw [← weighs.truncated, truncated]
          have ends (t₂ : Trace Calls Raised) (more : List String)
              (step : released t₂ = [] ∧ (Unbroken t₂ → retracted t₂ = true)) :
              Shows forbidden (t₁ ++ t₂) ((spelled v.pending ++ chunk.text) :: more) := by
            refine shows_rejected is ?_ ?_ more
            · rw [released_append, none₁, step.1]
              rfl
            · rw [retracted_append, unretracted₁]
              exact fun unbroken => step.2 unbroken.right
          rw [if_pos rfl]
          refine Coro.All.bind (truncate_judged release v₁) ?_ ?_
          · rintro t₂ - v₂ step
            refine (Coro.all_pure _).mpr ?_
            rw [List.append_nil]
            exact fun _ => ⟨(fun on => by cases on), fun _ more => ends t₂ _ step⟩
          · rintro t₂ e v₂ step _
            exact ⟨(fun on => by cases on), fun _ more => ends t₂ _ step⟩
        | false =>
          obtain ⟨same, empty, going₁⟩ := weighs.whole truncated
          have accepted : rejects forbidden (spelled v.pending ++ chunk.text) = false := by
            rw [← weighs.truncated, truncated]
          rw [if_neg Bool.false_ne_true, same]
          refine Coro.All.bind (append_judged _ _ v₁) ?_ ?_
          · rintro t₂ seq v₂ ⟨silent₂, -, kept, whole⟩
            refine (Coro.all_modify_bind _ _).mpr (Coro.All.bind (send_judged _ _) ?_ ?_)
            · rintro t₃ - v₃ ⟨rfl, sent₃, -⟩
              have here := passes_release accepted silent₁ silent₂ sent₃
              have next := ih { v₂ with lastReleasedEventId := some seq } (whole.trans going₁)
              have start : spelled v₂.pending = "" := by
                rw [kept, empty]
                rfl
              refine next.mono fun t' o v' step judged => ?_
              rw [← List.append_assoc, ← List.append_assoc, List.append_assoc t₁ t₂ t₃] at judged ⊢
              obtain ⟨on, ended⟩ := step judged.right
              dsimp only at on ended
              rw [start] at on ended
              exact ⟨fun is => ⟨here.append (on is).1, (on is).2⟩,
                fun other more => here.after (ended other more)⟩
            · rintro t₃ e v₃ ⟨rfl, sent₃, broken⟩ _
              have here := passes_release accepted silent₁ silent₂ sent₃
              refine ⟨(fun on => by cases on), fun _ more => ?_⟩
              exact here.broken (fun unbroken => broken e rfl unbroken.right.right) _
          · rintro t₂ e v₂ ⟨silent₂, broken, -⟩ _
            have silent : sent (t₁ ++ t₂) = [] := by
              rw [sent_append, silent₁, silent₂]
              rfl
            obtain ⟨none_, unretracted⟩ := quiet_of_sent silent
            refine ⟨(fun on => by cases on), fun _ more => ?_⟩
            exact (passes_silent none_ unretracted).broken
              (fun unbroken => broken e rfl unbroken.right) _
    · rintro t₁ e v₁ ⟨silent₁, judges⟩ judged
      refine ⟨(fun is => by cases is), fun _ more => ?_⟩
      have broken := (judges judged).1 e rfl
      exact (passes_silent (quiet_of_sent silent₁).1 (quiet_of_sent silent₁).2).broken broken _

theorem storeAndClose_quiet (route : Route) (response : String) (handoffRequired : Bool) (v : Vars) :
    (storeAndClose route response handoffRequired).All v fun t _ _ =>
      released t = [] ∧ retracted t = false :=
  (storeAndClose_unretracting route response handoffRequired v).mono fun _ _ _ made =>
    quiet_of_emits made

theorem sendError_quiet (text : String) (v : Vars) : (sendError text).All v fun t _ _ =>
    released t = [] ∧ retracted t = false :=
  (sendError_unretracting text v).mono fun _ _ _ made => quiet_of_emits made

/-- What is held at the end is the last window. -/
theorem closeStream_judged (forbidden : List String) (size : Nat) (response : String)
    (handoffRequired : Bool) (v : Vars) (going : v.truncated = false) :
    (closeStream ⟨some size⟩ response handoffRequired).All v fun t _ _ =>
      Judged forbidden t → Shows forbidden t (flushed (spelled v.pending)) := by
  unfold closeStream
  refine Coro.All.bind (finish_judged forbidden v going) ?_ ?_
  · rintro t₁ held v₁ ⟨silent₁, judges⟩
    obtain ⟨none₁, unretracted₁⟩ := quiet_of_sent silent₁
    have before : Passes forbidden t₁ [] := passes_silent none₁ unretracted₁
    by_cases judged₁ : Judged forbidden t₁
    swap
    · exact Coro.all_iff.mpr fun t' o v' _ judged => absurd judged.left judged₁
    obtain ⟨-, empty, fills⟩ := judges judged₁
    cases held with
    | none =>
      rw [flushed, if_pos (empty rfl)]
      exact (storeAndClose_quiet _ response handoffRequired v₁).mono fun t' _ _ quiet _ =>
        before.shows.quiet quiet.1 quiet.2
    | some tail =>
      obtain ⟨some_, weighs⟩ := fills tail rfl
      rw [flushed, if_neg some_]
      dsimp only
      cases truncated : tail.truncated with
      | true =>
        have is : rejects forbidden (spelled v.pending) = true := by
          rw [← weighs.truncated, truncated]
        rw [if_pos rfl]
        refine (truncate_judged tail v₁).mono ?_
        rintro t₂ - - ⟨none₂, ends⟩ _
        refine shows_rejected is ?_ ?_ []
        · rw [released_append, none₁, none₂]
          rfl
        · rw [retracted_append, unretracted₁]
          exact fun unbroken => ends unbroken.right
      | false =>
        obtain ⟨same, -, -⟩ := weighs.whole truncated
        have accepted : rejects forbidden (spelled v.pending) = false := by
          rw [← weighs.truncated, truncated]
        rw [if_neg Bool.false_ne_true, same, if_neg some_]
        refine Coro.All.bind (append_judged _ _ v₁) ?_ ?_
        · rintro t₂ seq v₂ ⟨silent₂, -⟩
          refine Coro.All.bind (send_judged _ v₂) ?_ ?_
          · rintro t₃ - v₃ ⟨-, sent₃, -⟩
            have here := passes_release accepted silent₁ silent₂ sent₃
            refine (storeAndClose_quiet _ response handoffRequired v₃).mono fun t' _ _ quiet _ => ?_
            rw [← List.append_assoc, ← List.append_assoc, List.append_assoc t₁ t₂ t₃]
            exact here.shows.quiet quiet.1 quiet.2
          · rintro t₃ e v₃ ⟨-, sent₃, -⟩ _
            exact (passes_release accepted silent₁ silent₂ sent₃).shows
        · rintro t₂ e v₂ ⟨silent₂, broken, -⟩ _
          have silent : sent (t₁ ++ t₂) = [] := by
            rw [sent_append, silent₁, silent₂]
            rfl
          obtain ⟨none_, unretracted⟩ := quiet_of_sent silent
          exact (passes_silent none_ unretracted).broken
            (fun unbroken => broken e rfl unbroken.right) _
  · rintro t₁ e v₁ ⟨silent₁, judges⟩ judged
    obtain ⟨none₁, unretracted₁⟩ := quiet_of_sent silent₁
    exact (passes_silent none₁ unretracted₁).broken ((judges judged).1 e rfl) _

/-- In every run the windows are sent, up to the first that is rejected. -/
theorem eventGenerator_judged (forbidden : List String) (size : Nat) (chunks : List Chunk)
    (response : String) (final : AgentState) (seq : Nat) :
    (eventGenerator ⟨some size⟩ chunks (.result response final)).All { seq := seq } fun t _ _ =>
      Judged forbidden t → Shows forbidden t (windows size (chunks.map Chunk.text)) := by
  have body : Coro.All (do
      if ← releaseDeltas ⟨some size⟩ chunks then
        closeStream ⟨some size⟩ response final.handoffRequired : Step Unit) { seq := seq }
      fun t _ _ => Judged forbidden t → Shows forbidden t (windows size (chunks.map Chunk.text)) := by
    have deltas := releaseDeltas_judged forbidden size chunks { seq := seq } rfl
    have start : spelled ({ seq := seq } : Vars).pending = "" := rfl
    rw [start] at deltas
    refine Coro.All.bind deltas ?_ ?_
    · intro t going v step
      by_cases judged : Judged forbidden t
      swap
      · exact Coro.all_iff.mpr fun t' o v' _ judged' => absurd judged'.left judged
      obtain ⟨on, ended⟩ := step judged
      cases going with
      | false =>
        refine (Coro.all_pure _).mpr fun _ => ?_
        rw [List.append_nil]
        exact ended (fun is => by cases is) _
      | true =>
        obtain ⟨passes, rest, going⟩ := on rfl
        refine (closeStream_judged forbidden size response final.handoffRequired v going).mono ?_
        intro t' _ _ shows judged'
        rw [windows, ← rest]
        exact passes.after (shows judged'.right)
    · intro t e v step judged
      exact (step judged).2 (fun is => by cases is) _
  refine Coro.All.tryCatch body (fun t a v shows => shows) ?_
  intro t e v shows
  split
  · refine (sendError_quiet e.text v).mono fun t' _ _ quiet judged => ?_
    exact (shows judged.left).quiet quiet.1 quiet.2
  · refine (Coro.all_throw _).mpr ?_
    rw [List.append_nil]
    exact shows

/-! ## Windows and the whole text -/

theorem flushed_join (rest : String) : String.join (flushed rest) = rest := by
  by_cases blank : rest = ""
  · rw [flushed, if_pos blank, blank]
    rfl
  · rw [flushed, if_neg blank]
    simp

theorem cut_join (size : Nat) (pending : String) (texts : List String) :
    String.join (cut size pending texts).1 ++ (cut size pending texts).2 =
      pending ++ String.join texts := by
  induction texts generalizing pending with
  | nil => simp [cut]
  | cons text texts ih =>
    rw [cut, String.join_cons, ← String.append_assoc]
    split
    · exact ih (pending ++ text)
    · rw [String.join_cons, String.append_assoc, ih ""]
      simp

/-- However the text comes in deltas, the windows are the text. -/
theorem windows_join (size : Nat) (texts : List String) :
    String.join (windows size texts) = String.join texts := by
  rw [windows, String.join_append, flushed_join, cut_join]
  simp

/-- A text is rejected with any part of it. -/
theorem rejects_part {parts ws : List String} (part : parts <:+: ws)
    (is : rejects forbidden (String.join parts) = true) :
    rejects forbidden (String.join ws) = true := by
  obtain ⟨before, after, rfl⟩ := part
  obtain ⟨f, mem, inside⟩ := List.any_eq_true.mp is
  refine List.any_eq_true.mpr ⟨f, mem, ?_⟩
  have inside' : f.toList <:+: (String.join parts).toList := by simpa using inside
  refine decide_eq_true (inside'.trans ?_)
  rw [String.join_append, String.join_append, String.toList_append, String.toList_append]
  exact ⟨_, _, rfl⟩

theorem clean_starts (forbidden : List String) (ws : List String) : clean forbidden ws <+: ws :=
  List.takeWhile_prefix _

/-- What is accepted at the start is before the first window that is rejected. -/
theorem within_clean {first : List String} (start : first <+: ws)
    (accepted : ∀ w ∈ first, rejects forbidden w = false) : first <+: clean forbidden ws := by
  obtain ⟨rest, rfl⟩ := start
  have all : clean forbidden first = first := by
    refine List.takeWhile_eq_self_iff.mpr fun w mem => ?_
    rw [accepted w mem]
    rfl
  rw [clean_append all]
  exact List.prefix_append first _

/-- A window is rejected, and the whole with it. -/
theorem rejected_of_unclean (unclean : clean forbidden ws ≠ ws) :
    rejects forbidden (String.join ws) = true := by
  have some_ : ∃ w ∈ ws, rejects forbidden w = true := by
    by_contra none_
    refine unclean (List.takeWhile_eq_self_iff.mpr fun w mem => ?_)
    have accepted : rejects forbidden w = false :=
      Bool.eq_false_iff.mpr fun is => none_ ⟨w, mem, is⟩
    rw [accepted]
    rfl
  obtain ⟨w, mem, is⟩ := some_
  obtain ⟨before, after, rfl⟩ := List.append_of_mem mem
  refine @rejects_part forbidden [w] _ ⟨before, after, by simp⟩ ?_
  simpa using is

/-! ## What the client has -/

/-- No forbidden substring is in what was sent, and the stream is truncated if and only if the
whole text is rejected. -/
structure Moderates (forbidden : List String) (text : String) (t : Trace Calls Raised) : Prop where
  released : rejects forbidden (String.join (released t)) = false
  retracted : Unbroken t → retracted t = rejects forbidden text

theorem Shows.moderates (h : Shows forbidden t ws) (uncrossed : Uncrossed forbidden ws) :
    Moderates forbidden (String.join ws) t := by
  constructor
  · refine uncrossed _ (h.released.trans (clean_starts forbidden ws)) fun w mem => ?_
    exact accepted_of_clean (h.released.subset mem)
  · intro unbroken
    by_cases all : clean forbidden ws = ws
    · have accepted : rejects forbidden (String.join ws) = false :=
        uncrossed ws (List.prefix_refl ws) fun w mem => accepted_of_clean (by rwa [all])
      rw [accepted]
      exact Bool.eq_false_iff.mpr fun is => h.retracted is all
    · rw [rejected_of_unclean all, (h.whole unbroken).2 all]

/-- The validator on windows, where nothing else fails. -/
def healthy (forbidden : List String) : (op : Calls.Op) → Except Raised (Calls.Ans op)
  | .moderate window => .ok { allowed := !rejects forbidden window }
  | .evaluateOutput _ => .ok {}
  | .append .. => .ok (0 : Nat)
  | .addMessage .. => .ok ()
  | .appendMessage .. => .ok ()
  | .markEscalated => .ok ()
  | .chore _ => .ok ()
  | .yield _ => .ok ()

theorem healthy_judged (healthily : ∀ ev ∈ t, ev.reply = healthy forbidden ev.op) :
    Judged forbidden t := by
  intro window r mem
  exact .inl ⟨[], healthily _ mem⟩

theorem healthy_unbroken (healthily : ∀ ev ∈ t, ev.reply = healthy forbidden ev.op) :
    Unbroken t := by
  intro ev mem e raised
  rw [healthily ev mem] at raised
  obtain ⟨op, r⟩ := ev
  cases op <;> cases raised

end

/-- The deltas are moderated as the whole text is, in every run, exactly if no forbidden substring
crosses from one window to the next before a window is rejected. -/
theorem eventGenerator_moderates_iff (forbidden : List String) (size : Nat) (chunks : List Chunk)
    (response : String) (final : AgentState) (seq : Nat) :
    (∀ t o v, (eventGenerator ⟨some size⟩ chunks (.result response final)).Runs { seq := seq }
        t o v → Judged forbidden t →
        Moderates forbidden (String.join (chunks.map Chunk.text)) t) ↔
      Uncrossed forbidden (windows size (chunks.map Chunk.text)) := by
  have runs := Coro.all_iff.mp
    (eventGenerator_judged forbidden size chunks response final seq)
  constructor
  · intro moderates first start accepted
    have run := Coro.runs_with (eventGenerator ⟨some size⟩ chunks (.result response final))
      (healthy forbidden) { seq := seq }
    have healthily (ev : Event Calls Raised) := @Coro.mem_traceWith _ _ _ _
      (eventGenerator ⟨some size⟩ chunks (.result response final)) (healthy forbidden)
      { seq := seq } ev
    have judged := healthy_judged healthily
    have shows := runs _ _ _ run judged
    have sent_ := (shows.whole (healthy_unbroken healthily)).1
    have fine := (moderates _ _ _ run judged).released
    rw [sent_] at fine
    refine Bool.eq_false_iff.mpr fun is => ?_
    rw [rejects_part (within_clean start accepted).isInfix is] at fine
    cases fine
  · intro uncrossed t o v run judged
    have shows := runs t o v run judged
    rw [← windows_join size]
    exact shows.moderates uncrossed

/-- A forbidden word that comes in two deltas, one window each, is sent. -/
theorem split_word_sent : ¬∀ (forbidden : List String) (size : Nat) (chunks : List Chunk)
    (response : String) (final : AgentState) (seq : Nat) (t : Trace Calls Raised)
    (o : Except Raised Unit) (v : Vars), 0 < size →
    (eventGenerator ⟨some size⟩ chunks (.result response final)).Runs { seq := seq } t o v →
    Judged forbidden t → Moderates forbidden (String.join (chunks.map Chunk.text)) t := by
  intro always
  have run := Coro.runs_with
    (eventGenerator ⟨some 1⟩ [⟨"a", true⟩, ⟨"b", true⟩] (.result "ab" {})) (healthy ["ab"]) {}
  have healthily (ev : Event Calls Raised) := @Coro.mem_traceWith _ _ _ _
    (eventGenerator ⟨some 1⟩ [⟨"a", true⟩, ⟨"b", true⟩] (.result "ab" {})) (healthy ["ab"]) {} ev
  have judged := healthy_judged healthily
  have shows := Coro.all_iff.mp
    (eventGenerator_judged ["ab"] 1 [⟨"a", true⟩, ⟨"b", true⟩] "ab" {} 0) _ _ _ run judged
  have fine := (always ["ab"] 1 _ "ab" {} 0 _ _ _ Nat.one_pos run judged).released
  rw [(shows.whole (healthy_unbroken healthily)).1] at fine
  exact absurd fine (by decide +kernel)

end AgentStudio.Api
