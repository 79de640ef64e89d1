import Mathlib.Data.List.Forall2
import Mathlib.Data.List.Induction

/-!
# The rolling window

`StreamingModerationWindow`, with a validator that may do anything with each text, over any
sequence of pushes and the `finish` after it:

* `validateWindow_sound`, `push_sound`, `finish_sound`: what one call adds to the texts that were
  judged and to the releases;
* `faithful`: nothing is lost or judged twice, and nothing follows a truncation.
-/

namespace AgentStudio.Validation

abbrev Text := List Char

/-- What the validator did with a text. -/
inductive Verdict (V : Type) where
  | allow
  | redact (redactedText : Text)
  | reject (violations : List V)
  /-- It rejects the text with `violations` that cannot be listed. -/
  | rejectUnlisted
  | raise
  /-- What it raises is no `Exception`. -/
  | cancel

structure WindowRelease (V : Type) where
  text : Text
  releasedRaw : Bool := true
  redacted : Bool := false
  truncated : Bool := false
  violations : List V := []

/-- What the window is made with; the constructor refuses a size of 0. -/
structure Setting where
  windowSize : Nat := 400
  positive : 0 < windowSize := by decide
  fallbackText : Text := "[content withheld]".toList

/-- A text that the validator was given, and what it did. -/
abbrev Judged (V : Type) := Text × Verdict V

/-- A validator may go by all that it was given before. -/
abbrev Validator (V : Type) := List (Judged V) → Text → Verdict V

/-- The window, what it gave to the validator and what it released. -/
structure StreamingModerationWindow (V : Type) where
  pending : Text := []
  truncated : Bool := false
  judged : List (Judged V) := []
  releases : List (WindowRelease V) := []

namespace StreamingModerationWindow

variable {V : Type} (setting : Setting) (validator : Option (Validator V))
  (w : StreamingModerationWindow V)

def release (release : WindowRelease V) : StreamingModerationWindow V :=
  { w with releases := w.releases ++ [release] }

/-- What `_validate_window` makes of the verdict on `pending`: `_truncated` is set before the
violations are listed, and a validator that raises fails open. -/
def settle (pending : Text) : Verdict V → StreamingModerationWindow V
  | .allow => w.release { text := pending, releasedRaw := true }
  | .redact redacted => w.release { text := redacted, releasedRaw := false, redacted := true }
  | .reject violations => { w with truncated := true }.release {
      text := setting.fallbackText, releasedRaw := false, truncated := true
      violations := violations }
  | .rejectUnlisted => { w with truncated := true }.release { text := pending, releasedRaw := true }
  | .raise => w.release { text := pending, releasedRaw := true }
  | .cancel => w

/-- `_validate_window`. -/
def validateWindow (validator : Validator V) : StreamingModerationWindow V :=
  let verdict := validator w.judged w.pending
  { w with pending := [], judged := w.judged ++ [(w.pending, verdict)] }.settle setting w.pending
    verdict

def push (chunk : Text) : StreamingModerationWindow V :=
  if w.truncated then w
  else
    match validator with
    | none => w.release { text := chunk, releasedRaw := true }
    | some validator =>
      let w := { w with pending := w.pending ++ chunk }
      if w.pending.length < setting.windowSize then w else w.validateWindow setting validator

/-- Without a validator nothing is ever pending. -/
def finish : StreamingModerationWindow V :=
  match validator with
  | none => w
  | some validator =>
    if w.truncated ∨ w.pending = [] then w else w.validateWindow setting validator

end StreamingModerationWindow

open StreamingModerationWindow

variable {V : Type} (setting : Setting) (validator : Validator V)

/-- The pushes of `chunks`. -/
def run (chunks : List Text) : StreamingModerationWindow V :=
  chunks.foldl (fun w chunk => w.push setting (some validator) chunk) {}

/-- The pushes of `chunks` and the `finish`. -/
def finished (chunks : List Text) : StreamingModerationWindow V :=
  (run setting validator chunks).finish setting (some validator)

/-- The texts that the validator was given, in order. -/
def StreamingModerationWindow.pieces (w : StreamingModerationWindow V) : List Text :=
  w.judged.map Prod.fst

/-- What is released of a text that was judged: the text, its redaction, or the fallback. -/
def Released (judged : Judged V) (release : WindowRelease V) : Prop :=
  match judged.2 with
  | .redact text => release.text = text ∧ release.truncated = false
  | .reject _ => release.text = setting.fallbackText ∧ release.truncated = true
  | _ => release.text = judged.1 ∧ release.truncated = false

def Verdict.isCancel : Verdict V → Bool
  | .cancel => true
  | _ => false

/-- What a sequence of pushes and the `finish` should do. -/
structure Faithful (chunks : List Text) : Prop where
  /-- Without a truncation by a push, the texts are the chunks in consecutive pieces. -/
  whole : (run setting validator chunks).truncated = false →
    (finished setting validator chunks).pieces.flatten = chunks.flatten
  /-- With one, they are the chunks up to it. -/
  cut : ∀ before chunk after, chunks = before ++ chunk :: after →
    (run setting validator before).truncated = false →
    (run setting validator (before ++ [chunk])).truncated = true →
    (finished setting validator chunks).pieces.flatten = (before ++ [chunk]).flatten
  long : ∀ piece ∈ (run setting validator chunks).pieces, setting.windowSize ≤ piece.length
  rest : ∃ last, last.length ≤ 1 ∧ (finished setting validator chunks).pieces =
    (run setting validator chunks).pieces ++ last
  /-- Each text that was judged has its own release, in order. -/
  released : List.Forall₂ (Released setting)
    ((finished setting validator chunks).judged.filter fun judged => !judged.2.isCancel)
    (finished setting validator chunks).releases
  /-- The fallback is the last release. -/
  last : ∀ before release after,
    (finished setting validator chunks).releases = before ++ release :: after →
      release.truncated = true → after = []
  /-- After a truncation nothing is judged or released. -/
  quiet : ∀ before after, chunks = before ++ after →
    (run setting validator before).truncated = true →
    (finished setting validator chunks).judged = (run setting validator before).judged ∧
      (finished setting validator chunks).releases = (run setting validator before).releases

/-! ## One call -/

variable {setting} {validator} {w : StreamingModerationWindow V}

theorem settle_judged (w : StreamingModerationWindow V) (pending : Text) (verdict : Verdict V) :
    (w.settle setting pending verdict).judged = w.judged ∧
      (w.settle setting pending verdict).pending = w.pending := by
  cases verdict <;> exact ⟨rfl, rfl⟩

theorem validateWindow_judged (w : StreamingModerationWindow V) :
    (w.validateWindow setting validator).judged =
      w.judged ++ [(w.pending, validator w.judged w.pending)] := (settle_judged ..).1

theorem validateWindow_pending (w : StreamingModerationWindow V) :
    (w.validateWindow setting validator).pending = [] := (settle_judged ..).2

/-- The text that was pending is the next piece. -/
theorem validateWindow_pieces (w : StreamingModerationWindow V) :
    (w.validateWindow setting validator).pieces = w.pieces ++ [w.pending] := by
  unfold StreamingModerationWindow.pieces
  rw [validateWindow_judged, List.map_append]
  rfl

/-- What is released of a text, at most once. -/
theorem settle_releases (w : StreamingModerationWindow V) (pending : Text) (verdict : Verdict V) :
    ∃ new, (w.settle setting pending verdict).releases = w.releases ++ new ∧
      List.Forall₂ (Released setting)
        ([(pending, verdict)].filter fun judged => !judged.2.isCancel) new ∧
      new.length ≤ 1 ∧
      ((w.settle setting pending verdict).truncated = false →
        ∀ release ∈ new, release.truncated = false) := by
  cases verdict with
  | cancel => exact ⟨[], (List.append_nil _).symm, .nil, Nat.zero_le _, fun _ _ => nofun⟩
  | reject violations =>
    exact ⟨_, rfl, .cons ⟨rfl, rfl⟩ .nil, Nat.le_refl _, fun running => nomatch running⟩
  | _ =>
    refine ⟨_, rfl, .cons ⟨rfl, rfl⟩ .nil, Nat.le_refl _, fun _ release new => ?_⟩
    rw [List.mem_singleton.mp new]

/-- Each piece has its release, and nothing follows the fallback. -/
structure Sound (setting : Setting) (w : StreamingModerationWindow V) : Prop where
  released : List.Forall₂ (Released setting)
    (w.judged.filter fun judged => !judged.2.isCancel) w.releases
  last : ∀ release ∈ w.releases.dropLast, release.truncated = false
  running : w.truncated = false → ∀ release ∈ w.releases, release.truncated = false

theorem validateWindow_sound (h : Sound setting w) (running : w.truncated = false) :
    Sound setting (w.validateWindow setting validator) := by
  obtain ⟨new, releases, released, one, open_⟩ :=
    @settle_releases _ setting
      { w with pending := [], judged := w.judged ++ [(w.pending, validator w.judged w.pending)] }
      w.pending (validator w.judged w.pending)
  have old := h.running running
  refine ⟨?_, ?_, ?_⟩
  · rw [validateWindow_judged, List.filter_append, StreamingModerationWindow.validateWindow,
      releases]
    exact List.rel_append h.released released
  · intro release release_in
    rw [StreamingModerationWindow.validateWindow, releases] at release_in
    cases new with
    | nil =>
      rw [List.append_nil] at release_in
      exact h.last release release_in
    | cons r new =>
      obtain rfl : new = [] := List.length_eq_zero_iff.mp (Nat.le_zero.mp (Nat.le_of_succ_le_succ one))
      rw [List.dropLast_concat] at release_in
      exact old release release_in
  · intro still release release_in
    rw [StreamingModerationWindow.validateWindow, releases] at release_in
    rcases List.mem_append.mp release_in with before | added
    · exact old release before
    · exact open_ still release added

theorem push_truncated (stopped : w.truncated = true) (chunk : Text) :
    w.push setting (some validator) chunk = w := if_pos stopped

/-- A push to a window that runs adds its chunk to what is judged or pending. -/
theorem push_text (running : w.truncated = false) (chunk : Text) :
    (w.push setting (some validator) chunk).pieces.flatten ++
        (w.push setting (some validator) chunk).pending =
      w.pieces.flatten ++ w.pending ++ chunk := by
  unfold StreamingModerationWindow.push
  rw [if_neg (by rw [running]; decide)]
  dsimp only
  split
  · exact (List.append_assoc ..).symm
  · rw [validateWindow_pieces, validateWindow_pending, List.flatten_append, List.flatten_singleton,
      List.append_nil, List.append_assoc]
    rfl

/-- A push that truncates the stream leaves nothing pending. -/
theorem push_stops (running : w.truncated = false) (chunk : Text)
    (stopped : (w.push setting (some validator) chunk).truncated = true) :
    (w.push setting (some validator) chunk).pending = [] := by
  unfold StreamingModerationWindow.push at stopped ⊢
  rw [if_neg (by rw [running]; decide)] at stopped ⊢
  dsimp only at stopped ⊢
  split
  · rename_i short
    rw [if_pos short, running] at stopped
    cases stopped
  · exact validateWindow_pending _

theorem push_sound (h : Sound setting w) (chunk : Text) :
    Sound setting (w.push setting (some validator) chunk) := by
  unfold StreamingModerationWindow.push
  by_cases stopped : w.truncated = true
  · rw [if_pos stopped]
    exact h
  · rw [if_neg stopped]
    have added : Sound setting { w with pending := w.pending ++ chunk } :=
      ⟨h.released, h.last, h.running⟩
    dsimp only
    split
    · exact added
    · exact validateWindow_sound added (Bool.not_eq_true _ ▸ stopped)

theorem push_long (long : ∀ piece ∈ w.pieces, setting.windowSize ≤ piece.length) (chunk : Text) :
    ∀ piece ∈ (w.push setting (some validator) chunk).pieces,
      setting.windowSize ≤ piece.length := by
  unfold StreamingModerationWindow.push
  split
  · exact long
  · dsimp only
    split
    · exact long
    · rename_i enough
      rw [validateWindow_pieces]
      intro piece piece_in
      rcases List.mem_append.mp piece_in with old | new
      · exact long piece old
      · rw [List.mem_singleton.mp new]
        exact Nat.le_of_not_lt enough

theorem finish_sound (h : Sound setting w) :
    Sound setting (w.finish setting (some validator)) := by
  unfold StreamingModerationWindow.finish
  dsimp only
  split
  · exact h
  · rename_i held
    exact validateWindow_sound h (Bool.not_eq_true _ ▸ fun stopped => held (Or.inl stopped))

/-! ## A sequence of calls -/

theorem run_snoc (chunks : List Text) (chunk : Text) :
    run setting validator (chunks ++ [chunk]) =
      (run setting validator chunks).push setting (some validator) chunk := by
  unfold run
  rw [List.foldl_append]
  rfl

theorem run_truncated {before : List Text} (stopped : (run setting validator before).truncated = true)
    (after : List Text) :
    run setting validator (before ++ after) = run setting validator before := by
  induction after using List.reverseRecOn with
  | nil => rw [List.append_nil]
  | append_singleton after chunk ih =>
    rw [← List.append_assoc, run_snoc, ih, push_truncated stopped]

theorem run_sound (setting : Setting) (validator : Validator V) (chunks : List Text) :
    Sound setting (run setting validator chunks) := by
  induction chunks using List.reverseRecOn with
  | nil => exact ⟨.nil, fun _ => nofun, fun _ _ => nofun⟩
  | append_singleton chunks chunk ih =>
    rw [run_snoc]
    exact push_sound ih chunk

theorem run_long (setting : Setting) (validator : Validator V) (chunks : List Text) :
    ∀ piece ∈ (run setting validator chunks).pieces, setting.windowSize ≤ piece.length := by
  induction chunks using List.reverseRecOn with
  | nil => exact fun _ => nofun
  | append_singleton chunks chunk ih =>
    rw [run_snoc]
    exact push_long ih chunk

theorem run_text {chunks : List Text} (running : (run setting validator chunks).truncated = false) :
    (run setting validator chunks).pieces.flatten ++ (run setting validator chunks).pending =
      chunks.flatten := by
  induction chunks using List.reverseRecOn with
  | nil => rfl
  | append_singleton chunks chunk ih =>
    cases before : (run setting validator chunks).truncated with
    | false =>
      rw [run_snoc, push_text before, ih before, List.flatten_append, List.flatten_singleton]
    | true =>
      rw [run_truncated before, before] at running
      cases running

theorem finish_pieces (w : StreamingModerationWindow V) :
    ∃ last, last.length ≤ 1 ∧ (w.finish setting (some validator)).pieces = w.pieces ++ last := by
  unfold StreamingModerationWindow.finish
  dsimp only
  split
  · exact ⟨[], Nat.zero_le _, (List.append_nil _).symm⟩
  · exact ⟨[w.pending], Nat.le_refl _, validateWindow_pieces w⟩

theorem finish_truncated (stopped : w.truncated = true) :
    w.finish setting (some validator) = w := if_pos (Or.inl stopped)

/-- `finish` gives what is pending to the validator. -/
theorem finish_text (running : w.truncated = false) :
    (w.finish setting (some validator)).pieces.flatten = w.pieces.flatten ++ w.pending := by
  unfold StreamingModerationWindow.finish
  dsimp only
  by_cases nothing : w.pending = []
  · rw [if_pos (Or.inr nothing), nothing, List.append_nil]
  · rw [if_neg, validateWindow_pieces, List.flatten_append, List.flatten_singleton]
    rintro (stopped | empty)
    · rw [running] at stopped
      cases stopped
    · exact nothing empty

/-- Every text is judged once and has its own release, in order, whatever the chunks, the size of
the window and the validator; and after a truncation nothing is judged or released. -/
theorem faithful (setting : Setting) (validator : Validator V) (chunks : List Text) :
    Faithful setting validator chunks where
  whole running := by rw [finished, finish_text running, run_text running]
  cut := by
    rintro before chunk after rfl running stopped
    have text := @push_text _ setting validator _ running chunk
    have none_left := push_stops running chunk (by rwa [← run_snoc])
    rw [none_left, ← run_snoc, run_text running, List.append_nil] at text
    rw [List.append_cons, finished, run_truncated stopped, finish_truncated stopped,
      List.flatten_append, List.flatten_singleton, text]
  long := run_long setting validator chunks
  rest := finish_pieces _
  released := (finish_sound (run_sound setting validator chunks)).released
  last := by
    intro before release after releases truncated
    have running := (@finish_sound _ _ validator _
      (run_sound setting validator chunks)).last release
    cases after with
    | nil => rfl
    | cons next after =>
      rw [finished] at releases
      rw [releases, List.dropLast_append_of_ne_nil (List.cons_ne_nil _ _),
        List.dropLast_cons_of_ne_nil (List.cons_ne_nil _ _), truncated] at running
      cases running (List.mem_append_right _ (List.mem_cons_self ..))
  quiet := by
    rintro before after rfl stopped
    rw [finished, run_truncated stopped, finish_truncated stopped]
    exact ⟨rfl, rfl⟩

end AgentStudio.Validation
