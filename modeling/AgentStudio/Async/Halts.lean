import AgentStudio.Async.Shared

/-!
# Runs that stop anywhere

A process may die between any two calls, and what it has done by then stays done.

* `Stops`: a run up to where it stopped, with the calls that were answered.
* `Halts`: what holds wherever a run stops, computed along the tree, with one rule for
  each way of composing coroutines.
-/

namespace Async

namespace Tree

variable {I : Interface} {ε ω ω' σ : Type}

/-- How a tree ended, if it has. -/
def ended : Tree I ε ω → Option ω
  | .done w => some w
  | .await _ _ => none

/-- A run up to where it stopped, while others move the store by `rely`. -/
inductive Stops (answers : Answers I ε σ) (rely : σ → σ → Prop) :
    Tree I ε ω → σ → Trace I ε → Tree I ε ω → σ → Prop
  | here (c : Tree I ε ω) (s : σ) : Stops answers rely c s [] c s
  | await {op : I.Op} {k : Except ε (I.Ans op) → Tree I ε ω} {s s₁ s₂ s' : σ}
      {r : Except ε (I.Ans op)} {t : Trace I ε} {c' : Tree I ε ω} (moved : rely s s₁)
      (answer : answers op s₁ r s₂) (rest : Stops answers rely (k r) s₂ t c' s') :
      Stops answers rely (.await op k) s (⟨op, r⟩ :: t) c' s'

/-- What holds of the calls, the end and the store wherever a run stops. -/
def Halts (answers : Answers I ε σ) (rely : σ → σ → Prop) :
    Tree I ε ω → (Trace I ε → Option ω → σ → Prop) → σ → Prop
  | .done w, Q, s => Q [] (some w) s
  | .await op k, Q, s => Q [] none s ∧ ∀ s₁, rely s s₁ → ∀ r s₂, answers op s₁ r s₂ →
      Halts answers rely (k r) (fun t => Q (⟨op, r⟩ :: t)) s₂

variable {answers : Answers I ε σ} {rely : σ → σ → Prop}

theorem Halts.stops {c c' : Tree I ε ω} {Q : Trace I ε → Option ω → σ → Prop} {s s' : σ}
    {t : Trace I ε} (h : c.Halts answers rely Q s) (stops : Stops answers rely c s t c' s') :
    Q t c'.ended s' := by
  induction stops generalizing Q with
  | here c s =>
    cases c with
    | done w => exact h
    | await op k => exact h.1
  | await moved answer rest ih => exact ih (h.2 _ moved _ _ answer)

theorem Halts.mono {c : Tree I ε ω} {Q Q' : Trace I ε → Option ω → σ → Prop} {s : σ}
    (h : c.Halts answers rely Q s) (imp : ∀ t o s, Q t o s → Q' t o s) :
    c.Halts answers rely Q' s := by
  induction c generalizing Q Q' s with
  | done w => exact imp _ _ _ h
  | await op k ih =>
    refine ⟨imp _ _ _ h.1, ?_⟩
    intro s₁ moved r s₂ answer
    exact ih r (h.2 s₁ moved r s₂ answer) fun t => imp (⟨op, r⟩ :: t)

theorem Halts.bind {c : Tree I ε ω} {k : ω → Tree I ε ω'} {Q : Trace I ε → Option ω' → σ → Prop}
    {P : Trace I ε → Option ω → σ → Prop} {s : σ} (h : c.Halts answers rely P s)
    (stopped : ∀ t s', P t none s' → Q t none s')
    (next : ∀ t w s', P t (some w) s' → (k w).Halts answers rely (fun t' => Q (t ++ t')) s') :
    (c.bind k).Halts answers rely Q s := by
  induction c generalizing P Q s with
  | done w => exact next [] w s h
  | await op c ih =>
    refine ⟨stopped [] s h.1, ?_⟩
    intro s₁ moved r s₂ answer
    refine ih r (h.2 s₁ moved r s₂ answer) ?_ ?_
    · intro t s'
      exact stopped (⟨op, r⟩ :: t) s'
    · intro t w s'
      exact next (⟨op, r⟩ :: t) w s'

/-- The calls of the run in which each gets the answer that `answer` gives it. -/
def told (answer : (op : I.Op) → σ → Except ε (I.Ans op) × σ) : Tree I ε ω → σ → Trace I ε
  | .done _, _ => []
  | .await op k, s => ⟨op, (answer op s).1⟩ :: told answer (k (answer op s).1) (answer op s).2

theorem drive_stops {answer : (op : I.Op) → σ → Except ε (I.Ans op) × σ} (refl : ∀ s, rely s s)
    (answered : ∀ op s, answers op s (answer op s).1 (answer op s).2) (c : Tree I ε ω) (s : σ) :
    Stops answers rely c s (told answer c s) (.done (drive answer c s).1) (drive answer c s).2 := by
  induction c generalizing s with
  | done w => exact .here _ _
  | await op k ih => exact .await (refl s) (answered op s) (ih _ _)

end Tree

namespace Coro

variable {I : Interface} {ε σ τ α β : Type}

/-- `Tree.Halts` for a coroutine with local variables `v`. -/
def Halts (answers : Answers I ε σ) (rely : σ → σ → Prop) (c : Coro I ε τ α) (v : τ)
    (Q : Trace I ε → Option (Except ε α × τ) → σ → Prop) (s : σ) : Prop :=
  (c v).Halts answers rely Q s

variable {answers : Answers I ε σ} {rely : σ → σ → Prop} {v : τ} {s : σ}

theorem halts_pure (a : α) {Q : Trace I ε → Option (Except ε α × τ) → σ → Prop}
    (h : Q [] (some (.ok a, v)) s) : (pure a : Coro I ε τ α).Halts answers rely v Q s := h

theorem halts_throw (e : ε) {Q : Trace I ε → Option (Except ε α × τ) → σ → Prop}
    (h : Q [] (some (.error e, v)) s) : (throw e : Coro I ε τ α).Halts answers rely v Q s := h

theorem Halts.mono {c : Coro I ε τ α} {Q Q' : Trace I ε → Option (Except ε α × τ) → σ → Prop}
    (h : c.Halts answers rely v Q s) (imp : ∀ t o s, Q t o s → Q' t o s) :
    c.Halts answers rely v Q' s :=
  Tree.Halts.mono h imp

/-- The rule for a sequence. -/
theorem Halts.bind {c : Coro I ε τ α} {k : α → Coro I ε τ β}
    {Q : Trace I ε → Option (Except ε β × τ) → σ → Prop}
    {P : Trace I ε → Option (Except ε α × τ) → σ → Prop} (h : c.Halts answers rely v P s)
    (stopped : ∀ t s', P t none s' → Q t none s')
    (ok : ∀ t a v' s', P t (some (.ok a, v')) s' →
      (k a).Halts answers rely v' (fun t' => Q (t ++ t')) s')
    (error : ∀ t e v' s', P t (some (.error e, v')) s' → Q t (some (.error e, v')) s') :
    (c >>= k).Halts answers rely v Q s := by
  refine Tree.Halts.bind h stopped ?_
  rintro t ⟨o, v'⟩ s' step
  cases o with
  | ok a => exact ok t a v' s' step
  | error e =>
    change Q (t ++ []) _ _
    rw [List.append_nil]
    exact error t e v' s' step

/-- A call and what follows it. -/
theorem halts_call_bind (op : I.Op) {k : I.Ans op → Coro I ε τ β}
    {Q : Trace I ε → Option (Except ε β × τ) → σ → Prop} (stopped : Q [] none s)
    (next : ∀ s₁, rely s s₁ → ∀ r s₂, answers op s₁ r s₂ →
      (∀ a, r = .ok a → (k a).Halts answers rely v (fun t => Q (⟨op, r⟩ :: t)) s₂) ∧
      ∀ e, r = .error e → Q [⟨op, r⟩] (some (.error e, v)) s₂) :
    ((call op : Coro I ε τ (I.Ans op)) >>= k).Halts answers rely v Q s := by
  refine ⟨stopped, ?_⟩
  intro s₁ moved r s₂ answer
  obtain ⟨ok, error⟩ := next s₁ moved r s₂ answer
  cases r with
  | ok a => exact ok a rfl
  | error e => exact error e rfl

end Coro

end Async
