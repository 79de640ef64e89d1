import AgentStudio.Compaction.Generator

/-!
# The prompts of the summary generator

A chunk is packed by its contents alone, up to the window less a reserve of 4096 tokens, and
the prompt adds the template, and to each turn its role, a colon and a newline. It fits as long
as what it adds fits in the reserve and in what the contents leave of the window.
-/

namespace AgentStudio.Compaction.Generator

open Async
open Threads (Payload)

namespace Config

variable (config : Config)

/-- What the contents are estimated at. -/
def bare (turns : List Turn) : Nat := (turns.map fun turn => config.estimate turn.content).sum

/-- A chunk as `_chunk_turns` makes it of turns with content. -/
structure Packed (turns : List Turn) : Prop where
  some_ : turns ≠ []
  full : ∀ turn ∈ turns, turn.content ≠ ""
  fits : (config.bare turns : ℤ) ≤ config.summarizerWindow

/-- The characters that the prompt adds to the contents. -/
def overhead (turns : List Turn) : Nat :=
  config.prompt.before.length + config.prompt.after.length +
    (turns.map fun turn => turn.speaker.length + 2).sum + (turns.length - 1)

/-- What the prompt adds fits in what the contents leave of the window and its reserve. -/
def Roomy (turns : List Turn) : Prop :=
  config.charsPerToken ≤ 0 ∨
    config.overhead turns ≤ config.charsPerToken * (config.summarizerWindow + 4096) -
      (turns.map fun turn => turn.content.length).sum

/-- The call was not cancelled, and `json.loads` gives a value for the reply or raises a
`JSONDecodeError`. -/
def Read (ev : Event Calls Raised) : Prop :=
  match ev.reply with
  | .ok text => ∀ message, config.loads (unfenced text) ≠ .error (.other message)
  | .error e => e ≠ .cancelled

/-- What a run of `summarize` is to do. -/
structure Bounded (t : Trace Calls Raised) (o : Except Raised Payload) : Prop where
  fits : ∀ ev ∈ t, (config.estimate ev.op.prompt : ℤ) ≤ config.limit
  ends : (∃ payload, o = .ok payload ∧ validate payload = []) ∨
    (∃ message, o = .error (.aborted message)) ∨ ∃ message, o = .error (.invalid message)
  rounds : ∀ ev ∈ t, ev.op.depth ≤ config.maxMergeDepth

variable {config} {turns current : List Turn} {chunks : List (List Turn)} {acc : Nat}

/-! ## Chunks -/

/-- The chunks are the turns, cut up, and each fits the window. -/
theorem chunkFrom_ok {result : List (List Turn)}
    (is : config.chunkFrom turns chunks current acc = .ok result) (sum : acc = config.bare current)
    (fits : current ≠ [] → (acc : ℤ) ≤ config.summarizerWindow)
    (done : ∀ chunk ∈ chunks, chunk ≠ [] ∧ (config.bare chunk : ℤ) ≤ config.summarizerWindow) :
    result.flatten = chunks.flatten ++ current ++ turns ∧
      ∀ chunk ∈ result, chunk ≠ [] ∧ (config.bare chunk : ℤ) ≤ config.summarizerWindow := by
  induction turns generalizing chunks current acc with
  | nil =>
    rw [chunkFrom] at is
    obtain rfl := Except.ok.inj is
    by_cases empty : current = []
    · rw [if_pos empty, empty, List.append_nil, List.append_nil]
      exact ⟨rfl, done⟩
    · rw [if_neg empty, List.append_nil]
      refine ⟨by simp, fun chunk mem => ?_⟩
      rcases List.mem_append.mp mem with mem | mem
      · exact done chunk mem
      · rw [List.mem_singleton.mp mem]
        exact ⟨empty, sum ▸ fits empty⟩
  | cons turn turns ih =>
    rw [chunkFrom] at is
    by_cases big : config.summarizerWindow < config.estimate turn.content
    · rw [if_pos big] at is
      cases is
    · rw [if_neg big] at is
      by_cases full : current ≠ [] ∧
          config.summarizerWindow < (acc + config.estimate turn.content : Nat)
      · rw [if_pos full] at is
        obtain ⟨flat, each⟩ := ih is (by simp [bare]) (fun _ => not_lt.mp big) (by
          intro chunk mem
          rcases List.mem_append.mp mem with mem | mem
          · exact done chunk mem
          · rw [List.mem_singleton.mp mem]
            exact ⟨full.1, sum ▸ fits full.1⟩)
        refine ⟨?_, each⟩
        rw [flat]
        simp
      · rw [if_neg full] at is
        have more : acc + config.estimate turn.content = config.bare (current ++ [turn]) := by
          rw [sum, bare, bare, List.map_append, List.sum_append]
          rfl
        have room : ((acc + config.estimate turn.content : Nat) : ℤ) ≤ config.summarizerWindow := by
          by_cases empty : current = []
          · have none_ : acc = 0 := by rw [sum, empty]; rfl
            rw [none_, zero_add]
            exact not_lt.mp big
          · exact not_lt.mp fun above => full ⟨empty, above⟩
        obtain ⟨flat, each⟩ := ih is more (fun _ => room) done
        refine ⟨?_, each⟩
        rw [flat]
        simp

theorem chunkFrom_error {e : Raised} (is : config.chunkFrom turns chunks current acc = .error e) :
    ∃ message, e = .aborted message := by
  induction turns generalizing chunks current acc with
  | nil => cases is
  | cons turn turns ih =>
    rw [chunkFrom] at is
    by_cases big : config.summarizerWindow < config.estimate turn.content
    · rw [if_pos big] at is
      cases is
      exact ⟨_, rfl⟩
    · rw [if_neg big] at is
      split at is
      · exact ih is
      · exact ih is

/-- Turns that fit the window together are one chunk. -/
theorem chunkFrom_whole (fits : ((acc + config.bare turns : Nat) : ℤ) ≤ config.summarizerWindow)
    (some_ : current ++ turns ≠ []) :
    config.chunkFrom turns chunks current acc = .ok (chunks ++ [current ++ turns]) := by
  induction turns generalizing current acc with
  | nil =>
    rw [List.append_nil] at some_ ⊢
    rw [chunkFrom, if_neg some_]
  | cons turn turns ih =>
    have split : config.bare (turn :: turns) = config.estimate turn.content + config.bare turns := by
      rw [bare, List.map_cons, List.sum_cons, bare]
    rw [split] at fits
    have small : ¬config.summarizerWindow < config.estimate turn.content := by omega
    have room : ¬(current ≠ [] ∧
        config.summarizerWindow < (acc + config.estimate turn.content : Nat)) := by
      rintro ⟨-, above⟩
      omega
    have rest := @ih (current ++ [turn]) (acc + config.estimate turn.content)
      (by omega) (by simp)
    rw [chunkFrom, if_neg small, if_neg room, rest, List.append_assoc]
    rfl

theorem chunkTurns_packed (is : config.chunkTurns turns = .ok chunks)
    (full : ∀ turn ∈ turns, turn.content ≠ "") : ∀ chunk ∈ chunks, config.Packed chunk := by
  obtain ⟨flat, each⟩ := chunkFrom_ok is rfl (fun some_ => absurd rfl some_)
    fun chunk mem => by cases mem
  intro chunk mem
  refine ⟨(each chunk mem).1, fun turn here => full turn ?_, (each chunk mem).2⟩
  rw [← List.nil_append turns, ← List.append_nil ([] : List Turn)]
  exact flat ▸ List.mem_flatten_of_mem mem here

/-! ## Prompts -/

theorem length_join (sep : String) (hsep : sep.length = 1) (xs : List String) :
    (Py.join sep xs).length = (xs.map String.length).sum + (xs.length - 1) := by
  induction xs with
  | nil => rfl
  | cons x xs ih =>
    cases xs with
    | nil => simp [Py.join]
    | cons y ys =>
      rw [Py.join, String.length_append, String.length_append, ih, hsep]
      · simp only [List.map_cons, List.sum_cons, List.length_cons]
        omega
      · simp

/-- The prompt is as long as the contents and what it adds to them. -/
theorem length_promptOf (full : ∀ turn ∈ turns, turn.content ≠ "") :
    (config.promptOf turns).length =
      config.overhead turns + (turns.map fun turn => turn.content.length).sum := by
  have all : turns.filter (fun turn => turn.content ≠ "") = turns :=
    List.filter_eq_self.mpr fun turn mem => decide_eq_true (full turn mem)
  have sums : ((turns.map fun turn => turn.speaker ++ ": " ++ turn.content).map String.length).sum =
      (turns.map fun turn => turn.speaker.length + 2).sum +
        (turns.map fun turn => turn.content.length).sum := by
    rw [← List.sum_map_add, List.map_map]
    refine congrArg List.sum (List.map_congr_left fun turn _ => ?_)
    simp only [Function.comp_apply, String.length_append]
    rfl
  rw [promptOf, lines, all, String.length_append, String.length_append, length_join "\n" rfl, sums,
    overhead, List.length_map]
  omega

theorem estimate_le (text : String) {n : ℤ} (nonneg : 0 ≤ n) : (config.estimate text : ℤ) ≤ n ↔
    config.charsPerToken ≤ 0 ∨ (text.length : ℚ) ≤ config.charsPerToken * n := by
  obtain ⟨n, rfl⟩ := Int.eq_ofNat_of_zero_le nonneg
  by_cases free : config.charsPerToken ≤ 0
  · simp [estimate, free]
  have positive := not_le.mp free
  rw [or_iff_right free, estimate]
  by_cases empty : text = ""
  · have none_ : text.length = 0 := by rw [empty]; rfl
    rw [if_pos (.inl empty), none_]
    have room : (0 : ℚ) ≤ config.charsPerToken * n := by positivity
    simpa using room
  · have not_free : ¬(text = "" ∨ config.charsPerToken ≤ 0) := fun h => h.elim empty free
    rw [if_neg not_free, Nat.cast_le, Nat.ceil_le, div_le_iff₀' positive,
      Int.cast_natCast]

/-- The prompt of a chunk fits exactly when what it adds does. -/
theorem fits_iff (packed : config.Packed turns) :
    (config.estimate (config.promptOf turns) : ℤ) ≤ config.limit ↔ config.Roomy turns := by
  have window : config.limit = config.summarizerWindow + 4096 := by
    rw [summarizerWindow]
    omega
  have fits := packed.fits
  rw [estimate_le _ (by omega), Roomy, length_promptOf packed.full, window]
  push_cast
  rw [le_sub_iff_add_le]

/-- It does when it fits in the reserve alone. -/
theorem roomy_of_overhead (packed : config.Packed turns)
    (small : (config.overhead turns : ℚ) ≤ config.charsPerToken * 4096) : config.Roomy turns := by
  by_cases free : config.charsPerToken ≤ 0
  · exact .inl free
  have positive := not_le.mp free
  have contents : ((turns.map fun turn => turn.content.length).sum : ℕ) ≤
      config.charsPerToken * config.bare turns := by
    clear packed small
    rw [bare]
    induction turns with
    | nil => simp
    | cons turn turns ih =>
      have first := (estimate_le turn.content (Int.natCast_nonneg _)).mp
        (le_refl (config.estimate turn.content : ℤ))
      have first := first.resolve_left free
      simp only [List.map_cons, List.sum_cons, Nat.cast_add, mul_add]
      simp only [Int.cast_natCast] at first
      linarith
  have window : (config.bare turns : ℚ) ≤ config.summarizerWindow := by exact_mod_cast packed.fits
  have scaled := mul_le_mul_of_nonneg_left window positive.le
  refine .inr ?_
  rw [mul_add]
  linarith

/-! ## Runs -/

/-- The exceptions that `summarize` is to raise. -/
def Known : Raised → Prop
  | .aborted _ | .invalid _ => True
  | _ => False

/-- The calls are made for packed chunks; a result is of a kind; and no other exception is
raised exactly when all replies could be read. -/
def Judged {α : Type} (config : Config) (Q : α → Prop) (c : Action α) : Prop :=
  ∀ s, c.All s fun t o _ =>
    (∀ ev ∈ t, config.Packed ev.op.turns ∧ ev.op.prompt = config.promptOf ev.op.turns ∧
      ev.op.depth ≤ config.maxMergeDepth) ∧
    (∀ a, o = .ok a → Q a) ∧ ((∀ e, o = .error e → Known e) ↔ ∀ ev ∈ t, config.Read ev)

section
variable {α β : Type} {Q : α → Prop} {R : β → Prop}

theorem judged_pure {a : α} (is : Q a) : Judged config Q (pure a) := by
  intro s
  rw [Coro.all_pure]
  simp [is]

theorem judged_throw {e : Raised} (known : Known e) :
    Judged config Q (throw e) := by
  intro s
  rw [Coro.all_throw]
  simp [known]

theorem Judged.bind {c : Action α} {k : α → Action β} (first : Judged config Q c)
    (rest : ∀ a, Q a → Judged config R (k a)) : Judged config R (c >>= k) := by
  intro s
  rw [Coro.all_bind]
  refine (first s).mono ?_
  rintro t o s' ⟨calls, result, known⟩
  cases o with
  | error e =>
    refine ⟨calls, (fun b is => by cases is), ?_⟩
    rw [← known]
    simp
  | ok a =>
    refine (rest a (result a rfl) s').mono ?_
    rintro t' o s'' ⟨calls', result', known'⟩
    have read : ∀ ev ∈ t, config.Read ev := known.mp fun e is => by cases is
    refine ⟨List.forall_mem_append.mpr ⟨calls, calls'⟩, result', ?_⟩
    rw [known', List.forall_mem_append]
    exact (and_iff_right read).symm

theorem all_done {c : Action α} {s s' : Unit} {o : Except Raised α}
    {Φ : Trace Calls Raised → Except Raised α → Unit → Prop} (is : c s = .done (o, s')) :
    c.All s Φ ↔ Φ [] o s' := by
  unfold Coro.All
  rw [is]
  rfl

/-- What is made of a reply. -/
theorem parsed (text : String) : ∃ o : Except Raised Payload,
    (∀ s, (do
      let payload ← config.parseJson text
      match violations payload, payload with
      | [], some payload => pure payload
      | errors, _ => throw (.invalid (Py.join "; " errors)) : Action Payload) s = .done (o, s)) ∧
    (∀ payload, o = .ok payload → validate payload = []) ∧
    ((∀ e, o = .error e → Known e) ↔
      ∀ message, config.loads (unfenced text) ≠ .error (.other message)) := by
  unfold parseJson
  cases loaded : config.loads (unfenced text) with
  | error e =>
    cases e with
    | decode message => exact ⟨_, fun s => rfl, by simp, by simp [Known]⟩
    | other message => exact ⟨_, fun s => rfl, by simp, by simp [Known]⟩
  | ok payload =>
    cases payload with
    | none => exact ⟨_, fun s => rfl, by simp, by simp [Known]⟩
    | some payload =>
      cases valid : violations (some payload) with
      | nil =>
        refine ⟨.ok payload, fun s => ?_, ?_, by simp⟩
        · change (match violations (some payload), some payload with
            | [], some payload => pure payload
            | errors, _ => throw (.invalid (Py.join "; " errors)) : Action Payload) s = _
          rw [valid]
          rfl
        · rintro _ ⟨⟩
          exact valid
      | cons error errors =>
        refine ⟨.error (.invalid (Py.join "; " (error :: errors))), fun s => ?_, by simp,
          by simp [Known]⟩
        change (match violations (some payload), some payload with
          | [], some payload => pure payload
          | errors, _ => throw (.invalid (Py.join "; " errors)) : Action Payload) s = _
        rw [valid]
        rfl

/-- A call of the model, and what is made of the reply. -/
theorem summarizeTurns_judged {depth : Nat} (bounded : depth ≤ config.maxMergeDepth)
    (packed : config.Packed turns) :
    Judged config (fun payload => validate payload = []) (config.summarizeTurns depth turns) := by
  intro s
  rw [summarizeTurns, Coro.all_bind, Coro.all_tryCatch, Coro.all_call]
  intro r
  have sent : ∀ ev ∈ ([⟨⟨depth, turns, config.promptOf turns⟩, r⟩] : Trace Calls Raised),
      config.Packed ev.op.turns ∧ ev.op.prompt = config.promptOf ev.op.turns ∧
        ev.op.depth ≤ config.maxMergeDepth := by
    intro ev mem
    rw [List.mem_singleton.mp mem]
    exact ⟨packed, rfl, bounded⟩
  cases r with
  | error e =>
    cases e with
    | cancelled => exact ⟨sent, by simp, by simp [Known, Read]⟩
    | aborted message => exact ⟨sent, by simp, by simp [Known, Read]⟩
    | invalid message => exact ⟨sent, by simp, by simp [Known, Read]⟩
    | error message => exact ⟨sent, by simp, by simp [Known, Read]⟩
  | ok text =>
    obtain ⟨o, done, result, known⟩ := @parsed config text
    refine (all_done (done s)).mpr ⟨sent, result, ?_⟩
    rw [known]
    simp [Read]

/-- A summary begins with its objective. -/
theorem render_ne_empty (payload : Payload) : render payload ≠ "" := by
  intro empty
  have none_ := congrArg String.length empty
  unfold render at none_
  generalize summaryFields.flatMap _ = rest at none_
  cases rest with
  | nil =>
    rw [String.intercalate_singleton, String.length_append] at none_
    exact absurd none_ (by simp)
  | cons line rest =>
    rw [String.intercalate_cons_cons, String.length_append, String.length_append,
      String.length_append] at none_
    exact absurd none_ (by simp)

theorem summarizeAll_judged {depth : Nat} (bounded : depth ≤ config.maxMergeDepth)
    (packed : ∀ chunk ∈ chunks, config.Packed chunk) :
    Judged config (fun rendered => ∀ text ∈ rendered, text ≠ "")
      (config.summarizeAll depth chunks) := by
  induction chunks with
  | nil => exact judged_pure fun text mem => by cases mem
  | cons chunk chunks ih =>
    refine (summarizeTurns_judged bounded (packed chunk List.mem_cons_self)).bind ?_
    intro payload _
    refine (ih fun chunk mem => packed chunk (List.mem_cons_of_mem _ mem)).bind ?_
    intro rendered some_
    refine judged_pure fun text mem => ?_
    rcases List.mem_cons.mp mem with rfl | mem
    · exact render_ne_empty payload
    · exact some_ text mem

theorem merge_judged (rounds : Nat) (full : ∀ turn ∈ turns, turn.content ≠ "") :
    Judged config (fun payload => validate payload = []) (config.merge rounds turns) := by
  induction rounds generalizing turns with
  | zero =>
    have bounded : config.maxMergeDepth - 0 ≤ config.maxMergeDepth := Nat.sub_le _ _
    unfold merge
    cases is : config.chunkTurns turns with
    | error e =>
      obtain ⟨message, rfl⟩ := chunkFrom_error is
      exact judged_throw trivial
    | ok chunks =>
      have packed := chunkTurns_packed is full
      rcases chunks with _ | ⟨chunk, _ | ⟨next, chunks⟩⟩
      · exact judged_throw trivial
      · exact summarizeTurns_judged bounded (packed chunk List.mem_cons_self)
      · exact judged_throw trivial
  | succ rounds ih =>
    have bounded : config.maxMergeDepth - (rounds + 1) ≤ config.maxMergeDepth := Nat.sub_le _ _
    have again (chunks : List (List Turn)) (packed : ∀ chunk ∈ chunks, config.Packed chunk) :
        Judged config (fun payload => validate payload = []) (do
          let rendered ← config.summarizeAll (config.maxMergeDepth - (rounds + 1)) chunks
          config.merge rounds (rendered.map fun text => ⟨some "summary", some text⟩)) := by
      refine (summarizeAll_judged bounded packed).bind fun rendered some_ => ih ?_
      intro turn mem
      obtain ⟨text, here, rfl⟩ := List.mem_map.mp mem
      exact some_ text here
    unfold merge
    cases is : config.chunkTurns turns with
    | error e =>
      obtain ⟨message, rfl⟩ := chunkFrom_error is
      exact judged_throw trivial
    | ok chunks =>
      have packed := chunkTurns_packed is full
      rcases chunks with _ | ⟨chunk, _ | ⟨next, chunks⟩⟩
      · exact again [] packed
      · exact summarizeTurns_judged bounded (packed chunk List.mem_cons_self)
      · exact again (chunk :: next :: chunks) packed

theorem summarize_judged (headTurns : List Turn) :
    Judged config (fun payload => validate payload = []) (config.summarize headTurns) := by
  unfold summarize
  by_cases empty : (headTurns.filter fun turn => turn.content ≠ "") = []
  · rw [if_pos empty]
    exact judged_throw trivial
  · rw [if_neg empty]
    refine merge_judged _ fun turn mem => ?_
    exact of_decide_eq_true (List.mem_filter.mp mem).2

end

/-- Turns that fit the window take one call. -/
theorem run_whole (packed : config.Packed turns) (model : Nat → (op : Op) → Except Raised String) :
    ∃ r, ⟨⟨0, turns, config.promptOf turns⟩, r⟩ ∈ (config.run model turns).1 := by
  have all : turns.filter (fun turn => turn.content ≠ "") = turns :=
    List.filter_eq_self.mpr fun turn mem => decide_eq_true (packed.full turn mem)
  have whole : config.chunkTurns turns = .ok [turns] :=
    chunkFrom_whole (by simpa using packed.fits) packed.some_
  have is : config.summarize turns = config.summarizeTurns 0 turns := by
    rw [summarize, all, if_neg packed.some_]
    unfold merge
    rw [whole, Nat.sub_self]
  rw [run, is]
  exact ⟨_, List.mem_cons_self⟩

/-! ## Many short turns -/

/-- A model of 10192 tokens, which leave a window of 2000. -/
def small : Config where
  contextWindow := 10192
  loads := fun _ => .error (.decode "Expecting value: line 1 column 1 (char 0)")

def short : Turn := ⟨some "assistant", some "x"⟩

/-- A model that is not reached. -/
def unreachable (_ : Nat) (_ : Op) : Except Raised String := .error (.error "connection refused")

theorem short_estimate : small.estimate short.content = 1 := by
  have some_ : ¬(short.content = "" ∨ small.charsPerToken ≤ 0) := by
    rintro (empty | free)
    · exact absurd empty (by decide)
    · norm_num [small] at free
  rw [estimate, if_neg some_, Nat.ceil_eq_iff one_ne_zero]
  have length : short.content.length = 1 := rfl
  rw [length]
  norm_num [small]

theorem short_bare (n : Nat) : small.bare (List.replicate n short) = n := by
  rw [bare, List.map_replicate, short_estimate, List.sum_replicate, smul_eq_mul, mul_one]

theorem short_full (n : Nat) : ∀ turn ∈ List.replicate n short, turn.content ≠ "" := by
  intro turn mem
  rw [List.eq_of_mem_replicate mem]
  decide

/-- The roles alone come to twelve characters a turn. -/
theorem short_overhead (n : Nat) : 12 * n ≤ small.overhead (List.replicate n short) + 1 := by
  have speaker : short.speaker.length + 2 = 11 := rfl
  rw [overhead, List.map_replicate, speaker, List.sum_replicate, smul_eq_mul, List.length_replicate]
  omega

end Config

end AgentStudio.Compaction.Generator
