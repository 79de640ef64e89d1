import Mathlib

/-!
# Coroutines

An `async` function with local variables is a function from the values of its
variables to a tree. The tree ends, or awaits a call whose answer (a value, or
an exception thrown at the await) selects the rest. A leaf carries how the
function ended and the variables as they then were, so that a handler sees the
assignments made before the exception.

* `Runs`: the finished runs of a tree, as a trace of answered calls and a leaf.
  "For every behaviour of the environment" is "for every run".
* `All`: what holds of every run, computed along the tree, with one rule for
  each way of composing coroutines.
* `run`: one run, against an environment given as a function.
* `iterate`: a loop with fuel, and the measure that makes the fuel enough.
-/

namespace Async

/-- The calls a program makes to the world around it, and what each answers. -/
structure Interface where
  Op : Type
  Ans : Op → Type

inductive Tree (I : Interface) (ε ω : Type) where
  | done (w : ω)
  | await (op : I.Op) (k : Except ε (I.Ans op) → Tree I ε ω)

/-- One answered call. -/
structure Event (I : Interface) (ε : Type) where
  op : I.Op
  reply : Except ε (I.Ans op)

abbrev Trace (I : Interface) (ε : Type) := List (Event I ε)

namespace Tree

variable {I : Interface} {ε ω ω' : Type}

def bind : Tree I ε ω → (ω → Tree I ε ω') → Tree I ε ω'
  | done w, k => k w
  | await op c, k => await op fun r => (c r).bind k

theorem bind_assoc {ω'' : Type} (c : Tree I ε ω) (f : ω → Tree I ε ω') (g : ω' → Tree I ε ω'') :
    (c.bind f).bind g = c.bind fun w => (f w).bind g := by
  induction c with
  | done w => rfl
  | await op k ih => exact congrArg (await op) (funext ih)

/-- A finished run: the calls made, each with its answer, and the leaf reached. -/
inductive Runs : Tree I ε ω → Trace I ε → ω → Prop
  | done (w : ω) : Runs (done w) [] w
  | await (op : I.Op) (k : Except ε (I.Ans op) → Tree I ε ω) (r : Except ε (I.Ans op))
      {t : Trace I ε} {w : ω} : Runs (k r) t w → Runs (await op k) (⟨op, r⟩ :: t) w

/-- What holds of every run, whatever the environment answers. -/
def All : Tree I ε ω → (Trace I ε → ω → Prop) → Prop
  | done w, Φ => Φ [] w
  | await op k, Φ => ∀ r, (k r).All fun t w => Φ (⟨op, r⟩ :: t) w

theorem all_iff (c : Tree I ε ω) (Φ : Trace I ε → ω → Prop) :
    c.All Φ ↔ ∀ t w, Runs c t w → Φ t w := by
  induction c generalizing Φ with
  | done w =>
    constructor
    · intro h t w' run
      cases run
      exact h
    · intro h
      exact h _ _ (.done w)
  | await op k ih =>
    constructor
    · intro h t w run
      cases run with
      | await _ _ r rest => exact (ih r _).mp (h r) _ _ rest
    · intro h r
      exact (ih r _).mpr fun t w rest => h _ _ (.await op k r rest)

theorem all_bind (c : Tree I ε ω) (k : ω → Tree I ε ω') (Φ : Trace I ε → ω' → Prop) :
    (c.bind k).All Φ ↔ c.All fun t w => (k w).All fun t' w' => Φ (t ++ t') w' := by
  induction c generalizing Φ with
  | done w => exact Iff.rfl
  | await op c ih => exact forall_congr' fun r => ih r _

/-- The run against an environment that answers the `n`-th call by `env n`. -/
def run (env : Nat → (op : I.Op) → Except ε (I.Ans op)) : Nat → Tree I ε ω → Trace I ε × ω
  | _, done w => ([], w)
  | n, await op k =>
    let rest := run env (n + 1) (k (env n op))
    (⟨op, env n op⟩ :: rest.1, rest.2)

theorem runs_run (env : Nat → (op : I.Op) → Except ε (I.Ans op)) (n : Nat) (c : Tree I ε ω) :
    Runs c (c.run env n).1 (c.run env n).2 := by
  induction c generalizing n with
  | done w => exact .done w
  | await op k ih => exact .await op k (env n op) (ih _ _)

theorem mem_run {env : (op : I.Op) → Except ε (I.Ans op)} {c : Tree I ε ω} {n : Nat}
    {ev : Event I ε} (mem : ev ∈ (c.run (fun _ => env) n).1) : ev.reply = env ev.op := by
  induction c generalizing n with
  | done w => simp [run] at mem
  | await op k ih =>
    rcases List.mem_cons.mp mem with rfl | mem
    · rfl
    · exact ih _ mem

/-- A run that is answered otherwise at one call goes on from there. -/
theorem Runs.otherwise {pre rest : Trace I ε} {op : I.Op} {r : Except ε (I.Ans op)}
    {c : Tree I ε ω} {w : ω} (h : Runs c (pre ++ ⟨op, r⟩ :: rest) w) (r' : Except ε (I.Ans op))
    (env : (op : I.Op) → Except ε (I.Ans op)) :
    ∃ rest' w', Runs c (pre ++ ⟨op, r'⟩ :: rest') w' ∧ ∀ ev ∈ rest', ev.reply = env ev.op := by
  induction pre generalizing c with
  | nil =>
    cases h with
    | await op k r h =>
      exact ⟨_, _, .await op k r' (runs_run (fun _ => env) 0 (k r')), fun ev mem => mem_run mem⟩
  | cons ev pre ih =>
    cases h with
    | await op k r h =>
      obtain ⟨rest', w', run, answered⟩ := ih h
      exact ⟨rest', w', .await op k r run, answered⟩

end Tree

/-- A coroutine with local variables `σ`, raising `ε`, returning `α`. -/
def Coro (I : Interface) (ε σ α : Type) := σ → Tree I ε (Except ε α × σ)

namespace Coro

variable {I : Interface} {ε σ τ α β : Type}

protected def pure (a : α) : Coro I ε σ α := fun s => .done (.ok a, s)

protected def throw (e : ε) : Coro I ε σ α := fun s => .done (.error e, s)

protected def bind (c : Coro I ε σ α) (k : α → Coro I ε σ β) : Coro I ε σ β := fun s =>
  (c s).bind fun w =>
    match w with
    | (.ok a, s') => k a s'
    | (.error e, s') => .done (.error e, s')

/-- `try: c except e: h e`. -/
protected def tryCatch (c : Coro I ε σ α) (h : ε → Coro I ε σ α) : Coro I ε σ α := fun s =>
  (c s).bind fun w =>
    match w with
    | (.ok a, s') => .done (.ok a, s')
    | (.error e, s') => h e s'

instance : Monad (Coro I ε σ) where
  pure := Coro.pure
  bind := Coro.bind

instance : MonadExceptOf ε (Coro I ε σ) where
  throw := Coro.throw
  tryCatch := Coro.tryCatch

instance : MonadStateOf σ (Coro I ε σ) where
  get := fun s => .done (.ok s, s)
  set := fun s _ => .done (.ok (), s)
  modifyGet := fun f s => .done (.ok (f s).1, (f s).2)

/-- Await one call; an exception thrown there is raised. -/
def call (op : I.Op) : Coro I ε σ (I.Ans op) := fun s => .await op fun r => .done (r, s)

/-- Pass a value on where that cannot fail and does not wait, as a put to an
unbounded queue. -/
def post (op : I.Op) : Coro I ε σ Unit := fun s => .await op fun _ => .done (.ok (), s)

/-- Call a coroutine that has local variables of its own. -/
def scope (c : Coro I ε τ α) (init : τ) : Coro I ε σ α := fun s =>
  (c init).bind fun w => .done (w.1, s)

/-- Call a coroutine that works on more variables than its caller sees. -/
def zoom (enter : σ → τ) (leave : τ → σ) (c : Coro I ε τ α) : Coro I ε σ α := fun s =>
  (c (enter s)).bind fun w => .done (w.1, leave w.2)

/-- A coroutine started as a task of its own: its variables die with it. -/
def tree (c : Coro I ε σ α) (init : σ) : Tree I ε (Except ε α) := (c init).bind fun w => .done w.1

/-- `try: c finally: cleanup`. -/
def ensure (c : Coro I ε σ α) (cleanup : Coro I ε σ Unit) : Coro I ε σ α := fun s =>
  (c s).bind fun w => (cleanup w.2).bind fun w' =>
    match w'.1 with
    | .ok _ => .done (w.1, w'.2)
    | .error e => .done (.error e, w'.2)

/-- `while True:` with fuel. The body goes round again or leaves with a value;
`none` is a loop that ran out of fuel. -/
def iterate (body : Coro I ε σ (Option α)) : Nat → Coro I ε σ (Option α)
  | 0 => pure none
  | n + 1 => do
    match ← body with
    | none => iterate body n
    | some a => pure (some a)

protected theorem bind_assoc {γ : Type} (c : Coro I ε σ α) (f : α → Coro I ε σ β)
    (g : β → Coro I ε σ γ) : (c >>= f) >>= g = c >>= fun a => f a >>= g := by
  funext s
  change (Tree.bind _ _).bind _ = Tree.bind _ _
  rw [Tree.bind_assoc]
  congr 1
  funext w
  obtain ⟨o, s'⟩ := w
  cases o <;> rfl

/-! ## What holds of every run -/

/-- `Φ` holds of every run from the local variables `s`. -/
def All (c : Coro I ε σ α) (s : σ) (Φ : Trace I ε → Except ε α → σ → Prop) : Prop :=
  (c s).All fun t w => Φ t w.1 w.2

/-- A run of `c` from `s`. -/
def Runs (c : Coro I ε σ α) (s : σ) (t : Trace I ε) (o : Except ε α) (s' : σ) : Prop :=
  Tree.Runs (c s) t (o, s')

/-- The calls made against an environment that answers each call in one way. -/
def traceWith (c : Coro I ε σ α) (env : (op : I.Op) → Except ε (I.Ans op)) (s : σ) : Trace I ε :=
  ((c s).run (fun _ => env) 0).1

/-- How that run ends, with the variables as they then are. -/
def outcomeWith (c : Coro I ε σ α) (env : (op : I.Op) → Except ε (I.Ans op)) (s : σ) :
    Except ε α × σ := ((c s).run (fun _ => env) 0).2

theorem runs_with (c : Coro I ε σ α) (env : (op : I.Op) → Except ε (I.Ans op)) (s : σ) :
    c.Runs s (c.traceWith env s) (c.outcomeWith env s).1 (c.outcomeWith env s).2 :=
  Tree.runs_run (fun _ => env) 0 (c s)

theorem mem_traceWith {c : Coro I ε σ α} {env : (op : I.Op) → Except ε (I.Ans op)} {s : σ}
    {ev : Event I ε} (mem : ev ∈ c.traceWith env s) : ev.reply = env ev.op := Tree.mem_run mem

theorem runs_traceWith (c : Coro I ε σ α) (env : (op : I.Op) → Except ε (I.Ans op)) (s : σ) :
    ∃ o s', c.Runs s (c.traceWith env s) o s' := ⟨_, _, c.runs_with env s⟩

theorem Runs.otherwise {c : Coro I ε σ α} {s s' : σ} {pre rest : Trace I ε} {op : I.Op}
    {r : Except ε (I.Ans op)} {o : Except ε α} (h : c.Runs s (pre ++ ⟨op, r⟩ :: rest) o s')
    (r' : Except ε (I.Ans op)) (env : (op : I.Op) → Except ε (I.Ans op)) :
    ∃ rest' o' s'', c.Runs s (pre ++ ⟨op, r'⟩ :: rest') o' s'' ∧
      ∀ ev ∈ rest', ev.reply = env ev.op := by
  obtain ⟨rest', ⟨o', s''⟩, run, answered⟩ := Tree.Runs.otherwise h r' env
  exact ⟨rest', o', s'', run, answered⟩

variable {c : Coro I ε σ α} {s : σ} {Φ Ψ : Trace I ε → Except ε α → σ → Prop}

theorem all_iff : c.All s Φ ↔ ∀ t o s', c.Runs s t o s' → Φ t o s' := by
  unfold All Runs
  rw [Tree.all_iff]
  exact ⟨fun h t o s' => h t (o, s'), fun h t w => h t w.1 w.2⟩

theorem All.mono (h : c.All s Φ) (imp : ∀ t o s', Φ t o s' → Ψ t o s') : c.All s Ψ := by
  rw [all_iff] at h ⊢
  exact fun t o s' run => imp t o s' (h t o s' run)

theorem All.and (h : c.All s Φ) (h' : c.All s Ψ) : c.All s fun t o s' => Φ t o s' ∧ Ψ t o s' := by
  rw [all_iff] at h h' ⊢
  exact fun t o s' run => ⟨h t o s' run, h' t o s' run⟩

theorem all_pure (a : α) : (pure a : Coro I ε σ α).All s Φ ↔ Φ [] (.ok a) s := Iff.rfl

theorem all_throw (e : ε) : (throw e : Coro I ε σ α).All s Φ ↔ Φ [] (.error e) s := Iff.rfl

theorem all_modify (f : σ → σ) {Φ : Trace I ε → Except ε PUnit → σ → Prop} :
    (modify f : Coro I ε σ PUnit).All s Φ ↔ Φ [] (.ok ()) (f s) := Iff.rfl

theorem all_call (op : I.Op) {Φ : Trace I ε → Except ε (I.Ans op) → σ → Prop} :
    (call op : Coro I ε σ (I.Ans op)).All s Φ ↔ ∀ r, Φ [⟨op, r⟩] r s := Iff.rfl

theorem all_post_bind (op : I.Op) (k : Unit → Coro I ε σ β)
    {Φ : Trace I ε → Except ε β → σ → Prop} :
    ((post op : Coro I ε σ Unit) >>= k).All s Φ ↔ ∀ r, (k ()).All s fun t => Φ (⟨op, r⟩ :: t) :=
  Iff.rfl

theorem all_bind (c : Coro I ε σ α) (k : α → Coro I ε σ β)
    {Φ : Trace I ε → Except ε β → σ → Prop} :
    (c >>= k).All s Φ ↔ c.All s fun t o s' =>
      match o with
      | .ok a => (k a).All s' fun t' => Φ (t ++ t')
      | .error e => Φ t (.error e) s' := by
  unfold All
  change (Tree.bind _ _).All _ ↔ _
  rw [Tree.all_bind, Tree.all_iff, Tree.all_iff]
  refine forall₃_congr fun t w _ => ?_
  obtain ⟨o, s'⟩ := w
  cases o with
  | ok a => exact Iff.rfl
  | error e => simp only [Tree.All, List.append_nil]

/-- The rule for a sequence, from a specification of its first part. -/
theorem All.bind {Ψ : Trace I ε → Except ε α → σ → Prop} {k : α → Coro I ε σ β}
    {Φ : Trace I ε → Except ε β → σ → Prop} (h : c.All s Ψ)
    (ok : ∀ t a s', Ψ t (.ok a) s' → (k a).All s' fun t' => Φ (t ++ t'))
    (error : ∀ t e s', Ψ t (.error e) s' → Φ t (.error e) s') : (c >>= k).All s Φ := by
  rw [all_bind]
  refine h.mono fun t o s' step => ?_
  cases o with
  | ok a => exact ok t a s' step
  | error e => exact error t e s' step

theorem All.map {Ψ : Trace I ε → Except ε α → σ → Prop} {f : α → β}
    {Φ : Trace I ε → Except ε β → σ → Prop} (h : c.All s Ψ)
    (ok : ∀ t a s', Ψ t (.ok a) s' → Φ t (.ok (f a)) s')
    (error : ∀ t e s', Ψ t (.error e) s' → Φ t (.error e) s') : (f <$> c).All s Φ := by
  refine All.bind h (fun t a s' step => ?_) error
  change Φ (t ++ []) _ _
  rw [List.append_nil]
  exact ok t a s' step

theorem all_get_bind (k : σ → Coro I ε σ β) {Φ : Trace I ε → Except ε β → σ → Prop} :
    (get >>= k).All s Φ ↔ (k s).All s Φ := Iff.rfl

theorem all_modify_bind (f : σ → σ) (k : PUnit → Coro I ε σ β)
    {Φ : Trace I ε → Except ε β → σ → Prop} :
    (modify f >>= k).All s Φ ↔ (k ()).All (f s) Φ := Iff.rfl

theorem all_pure_bind (a : α) (k : α → Coro I ε σ β) {Φ : Trace I ε → Except ε β → σ → Prop} :
    ((pure a : Coro I ε σ α) >>= k).All s Φ ↔ (k a).All s Φ := Iff.rfl

theorem all_call_bind (op : I.Op) (k : I.Ans op → Coro I ε σ β)
    {Φ : Trace I ε → Except ε β → σ → Prop} :
    ((call op : Coro I ε σ (I.Ans op)) >>= k).All s Φ ↔
      (∀ a, (k a).All s fun t => Φ (⟨op, .ok a⟩ :: t)) ∧ ∀ e, Φ [⟨op, .error e⟩] (.error e) s := by
  constructor
  · intro h
    exact ⟨fun a => h (.ok a), fun e => h (.error e)⟩
  · intro h r
    cases r with
    | ok a => exact h.1 a
    | error e => exact h.2 e

/-- The rule for a handler, from a specification of the guarded part. -/
theorem All.tryCatch {Ψ : Trace I ε → Except ε α → σ → Prop} {handler : ε → Coro I ε σ α}
    (h : c.All s Ψ) (ok : ∀ t a s', Ψ t (.ok a) s' → Φ t (.ok a) s')
    (error : ∀ t e s', Ψ t (.error e) s' → (handler e).All s' fun t' => Φ (t ++ t')) :
    (tryCatch c handler).All s Φ := by
  change (Tree.bind _ _).All _
  rw [Tree.all_bind, Tree.all_iff]
  intro t w run
  have step := all_iff.mp h t w.1 w.2 run
  obtain ⟨o, s'⟩ := w
  cases o with
  | ok a => simpa only [Tree.All, List.append_nil] using ok t a s' step
  | error e => exact error t e s' step

/-- The rule for `finally`, from a specification of the guarded part. -/
theorem All.ensure {Ψ : Trace I ε → Except ε α → σ → Prop} {cleanup : Coro I ε σ Unit}
    (h : c.All s Ψ) (last : ∀ t o s', Ψ t o s' → cleanup.All s' fun t' o' s'' =>
      Φ (t ++ t') (match o' with | .ok _ => o | .error e => .error e) s'') :
    (ensure c cleanup).All s Φ := by
  change (Tree.bind _ _).All _
  rw [Tree.all_bind, Tree.all_iff]
  intro t w run
  have after := last t w.1 w.2 (all_iff.mp h t w.1 w.2 run)
  rw [Tree.all_bind, Tree.all_iff]
  intro t' w' run'
  have ended := all_iff.mp after t' w'.1 w'.2 run'
  obtain ⟨o', s''⟩ := w'
  cases o' with
  | ok _ => simpa only [Tree.All, List.append_nil] using ended
  | error e => simpa only [Tree.All, List.append_nil] using ended

theorem all_tryCatch (c : Coro I ε σ α) (h : ε → Coro I ε σ α) :
    (tryCatch c h).All s Φ ↔ c.All s fun t o s' =>
      match o with
      | .ok a => Φ t (.ok a) s'
      | .error e => (h e).All s' fun t' => Φ (t ++ t') := by
  unfold All
  change (Tree.bind _ _).All _ ↔ _
  rw [Tree.all_bind, Tree.all_iff, Tree.all_iff]
  refine forall₃_congr fun t w _ => ?_
  obtain ⟨o, s'⟩ := w
  cases o with
  | ok a => simp only [Tree.All, List.append_nil]
  | error e => exact Iff.rfl

theorem all_scope (c : Coro I ε τ α) (init : τ) :
    (scope c init : Coro I ε σ α).All s Φ ↔ c.All init fun t o _ => Φ t o s := by
  unfold All
  change (Tree.bind _ _).All _ ↔ _
  rw [Tree.all_bind, Tree.all_iff, Tree.all_iff]
  refine forall₃_congr fun t w _ => ?_
  simp only [Tree.All, List.append_nil]

theorem all_zoom (enter : σ → τ) (leave : τ → σ) (c : Coro I ε τ α) :
    (zoom enter leave c).All s Φ ↔ c.All (enter s) fun t o s' => Φ t o (leave s') := by
  unfold All
  change (Tree.bind _ _).All _ ↔ _
  rw [Tree.all_bind, Tree.all_iff, Tree.all_iff]
  refine forall₃_congr fun t w _ => ?_
  simp only [Tree.All, List.append_nil]

/-! ## Loops -/

/-- What one round keeps, every number of rounds keeps. `inv` speaks of the
variables and of the trace so far. -/
theorem all_iterate (body : Coro I ε σ (Option α)) (inv : Trace I ε → σ → Prop)
    {Φ : Trace I ε → Except ε (Option α) → σ → Prop}
    (round : ∀ t s, inv t s → body.All s fun t' o s' =>
      match o with
      | .ok none => inv (t ++ t') s'
      | .ok (some a) => Φ (t ++ t') (.ok (some a)) s'
      | .error e => Φ (t ++ t') (.error e) s')
    (dry : ∀ t s, inv t s → Φ t (.ok none) s) (n : Nat) {t : Trace I ε} {s : σ} (h : inv t s) :
    (iterate body n).All s fun t' => Φ (t ++ t') := by
  induction n generalizing t s with
  | zero => simpa [iterate, all_pure] using dry t s h
  | succ n ih =>
    rw [iterate, all_bind]
    refine (round t s h).mono fun t' o s' step => ?_
    match o with
    | .ok none => simpa only [List.append_assoc] using ih step
    | .ok (some a) => simpa only [all_pure, List.append_nil] using step
    | .error e => exact step

/-- A measure that every further round lowers bounds the rounds: with that much
fuel the loop never runs dry. -/
theorem iterate_total (body : Coro I ε σ (Option α)) (inv : σ → Prop) (μ : σ → Nat)
    (round : ∀ s, inv s → body.All s fun _ o s' => o = .ok none → inv s' ∧ μ s' < μ s)
    (n : Nat) {s : σ} (start : inv s) (fuel : μ s < n) :
    (iterate body n).All s fun _ o _ => o ≠ .ok none := by
  induction n generalizing s with
  | zero => omega
  | succ n ih =>
    rw [iterate, all_bind]
    refine (round s start).mono fun t' o s' step => ?_
    match o with
    | .ok none =>
      obtain ⟨next, less⟩ := step rfl
      exact ih next (by omega)
    | .ok (some a) => simp [all_pure]
    | .error e => simp

/-! ## What a coroutine leaves behind -/

/-- A property of traces that a sequence has when its parts have it. -/
structure Additive (M : Trace I ε → Prop) : Prop where
  nil : M []
  append : ∀ {t t' : Trace I ε}, M t → M t' → M (t ++ t')

/-- Every run of `c` leaves a trace that satisfies `M`. -/
def Leaves (M : Trace I ε → Prop) (c : Coro I ε σ α) : Prop := ∀ s, c.All s fun t _ _ => M t

namespace Additive

variable {M : Trace I ε → Prop} (h : Additive M)

include h

theorem bind {c : Coro I ε σ α} {k : α → Coro I ε σ β} (first : Leaves M c)
    (rest : ∀ a, Leaves M (k a)) : Leaves M (c >>= k) := fun s =>
  (first s).bind (fun _ a s' left => (rest a s').mono fun _ _ _ left' => h.append left left')
    fun _ _ _ left => left

theorem tryCatch {c : Coro I ε σ α} {handler : ε → Coro I ε σ α} (body : Leaves M c)
    (handled : ∀ e, Leaves M (handler e)) : Leaves M (tryCatch c handler) := fun s =>
  (body s).tryCatch (fun _ _ _ left => left) fun _ e s' left =>
    (handled e s').mono fun _ _ _ left' => h.append left left'

theorem iterate {body : Coro I ε σ (Option α)} (round : Leaves M body) (n : Nat) :
    Leaves M (iterate body n) := by
  induction n with
  | zero => exact fun _ => h.nil
  | succ n ih =>
    refine h.bind round fun a => ?_
    cases a with
    | none => exact ih
    | some a => exact fun _ => h.nil

theorem map {c : Coro I ε σ α} (body : Leaves M c) (f : α → β) : Leaves M (f <$> c) :=
  h.bind body fun _ _ => h.nil

end Additive

theorem Leaves.zoom {M : Trace I ε → Prop} {enter : σ → τ} {leave : τ → σ} {c : Coro I ε τ α}
    (h : Leaves M c) : Leaves M (zoom enter leave c) :=
  fun s => (all_zoom enter leave c).mpr (h (enter s))

theorem Leaves.scope {M : Trace I ε → Prop} {c : Coro I ε τ α} (h : Leaves M c) (init : τ) :
    Leaves M (scope c init : Coro I ε σ α) := fun _ => (all_scope c init).mpr (h init)

/-- Every call that `c` makes, in every run, satisfies `P`. -/
def Emits (P : I.Op → Prop) (c : Coro I ε σ α) : Prop := Leaves (fun t => ∀ ev ∈ t, P ev.op) c

section
variable {P : I.Op → Prop}

theorem additive_calls (P : I.Op → Prop) :
    Additive (fun t : Trace I ε => ∀ ev ∈ t, P ev.op) where
  nil := fun _ mem => by simp at mem
  append := fun made made' ev mem => (List.mem_append.mp mem).elim (made ev) (made' ev)

theorem emits_pure (a : α) : Emits P (pure a : Coro I ε σ α) := fun _ => (additive_calls P).nil

theorem emits_throw (e : ε) : Emits P (throw e : Coro I ε σ α) := fun _ => (additive_calls P).nil

theorem emits_get : Emits P (get : Coro I ε σ σ) := fun _ => (additive_calls P).nil

theorem emits_modify (f : σ → σ) : Emits P (modify f : Coro I ε σ PUnit) :=
  fun _ => (additive_calls P).nil

theorem emits_call {op : I.Op} (h : P op) : Emits P (call op : Coro I ε σ (I.Ans op)) := by
  intro s
  rw [all_call]
  intro r ev mem
  rw [List.mem_singleton] at mem
  subst mem
  exact h

theorem emits_post {op : I.Op} (h : P op) : Emits P (post op : Coro I ε σ Unit) :=
  emits_call (ε := ε) (σ := σ) h

theorem Emits.mono {Q : I.Op → Prop} {c : Coro I ε σ α} (h : Emits P c) (imp : ∀ op, P op → Q op) :
    Emits Q c := fun s => (h s).mono fun _ _ _ made ev mem => imp ev.op (made ev mem)

theorem Emits.bind {c : Coro I ε σ α} {k : α → Coro I ε σ β} (first : Emits P c)
    (rest : ∀ a, Emits P (k a)) : Emits P (c >>= k) := (additive_calls P).bind first rest

theorem Emits.tryCatch {c : Coro I ε σ α} {h : ε → Coro I ε σ α} (body : Emits P c)
    (handler : ∀ e, Emits P (h e)) : Emits P (tryCatch c h) :=
  (additive_calls P).tryCatch body handler

theorem Emits.iterate {body : Coro I ε σ (Option α)} (round : Emits P body) (n : Nat) :
    Emits P (iterate body n) := (additive_calls P).iterate round n

theorem Emits.zoom {enter : σ → τ} {leave : τ → σ} {c : Coro I ε τ α} (h : Emits P c) :
    Emits P (zoom enter leave c) := Leaves.zoom h

theorem Emits.scope {c : Coro I ε τ α} (h : Emits P c) (init : τ) :
    Emits P (scope c init : Coro I ε σ α) := Leaves.scope h init

theorem Emits.map {c : Coro I ε σ α} (h : Emits P c) (f : α → β) : Emits P (f <$> c) :=
  (additive_calls P).map h f

end

/-! ## What one environment leads to -/

/-- The calls of `t` are answered by `env`. -/
def AnsweredBy (env : (op : I.Op) → Except ε (I.Ans op)) (t : Trace I ε) : Prop :=
  ∀ ev ∈ t, ev.reply = env ev.op

/-- Answered by `env`, `c` makes a call that satisfies `P`. -/
def Reaches (env : (op : I.Op) → Except ε (I.Ans op)) (P : I.Op → Prop) (c : Coro I ε σ α)
    (s : σ) : Prop := c.All s fun t _ _ => AnsweredBy env t → ∃ ev ∈ t, P ev.op

section
variable {env : (op : I.Op) → Except ε (I.Ans op)} {P : I.Op → Prop} {s : σ}

theorem Reaches.run {c : Coro I ε σ α} (h : Reaches env P c s) :
    ∃ t o s', c.Runs s t o s' ∧ AnsweredBy env t ∧ ∃ ev ∈ t, P ev.op := by
  have answered : AnsweredBy env (c.traceWith env s) := fun _ mem => mem_traceWith mem
  exact ⟨_, _, _, c.runs_with env s, answered, all_iff.mp h _ _ _ (c.runs_with env s) answered⟩

/-- A call that is made stays made. -/
theorem Reaches.kept {t : Trace I ε} {c : Coro I ε σ α}
    (h : AnsweredBy env t → ∃ ev ∈ t, P ev.op) :
    c.All s fun t' _ _ => AnsweredBy env (t ++ t') → ∃ ev ∈ t ++ t', P ev.op := by
  rw [all_iff]
  intro t' _ _ _ answered
  obtain ⟨ev, mem, here⟩ := h fun ev mem => answered ev (List.mem_append_left t' mem)
  exact ⟨ev, List.mem_append_left t' mem, here⟩

theorem Reaches.bind {c : Coro I ε σ α} (h : Reaches env P c s) (k : α → Coro I ε σ β) :
    Reaches env P (c >>= k) s :=
  All.bind h (fun _ _ _ reached => Reaches.kept reached) fun _ _ _ reached => reached

theorem Reaches.tryCatch {c : Coro I ε σ α} (h : Reaches env P c s) (handler : ε → Coro I ε σ α) :
    Reaches env P (tryCatch c handler) s :=
  All.tryCatch h (fun _ _ _ reached => reached) fun _ _ _ reached => Reaches.kept reached

theorem Reaches.scope {c : Coro I ε τ α} {init : τ} (h : Reaches env P c init) :
    Reaches env P (scope c init : Coro I ε σ α) s := (all_scope c init).mpr h

/-- Answered by `env`, `c` returns a value that satisfies `Q`, its variables as they
were. -/
def Passes (env : (op : I.Op) → Except ε (I.Ans op)) (Q : α → Prop) (c : Coro I ε σ α)
    (s : σ) : Prop := c.All s fun t o s' => AnsweredBy env t → s' = s ∧ ∃ a, o = .ok a ∧ Q a

/-- `c` passes, and what follows it reaches the call. -/
theorem Passes.reaches {Q : α → Prop} {c : Coro I ε σ α} {k : α → Coro I ε σ β}
    (first : Passes env Q c s) (rest : ∀ a, Q a → Reaches env P (k a) s) :
    Reaches env P (c >>= k) s := by
  refine All.bind first (fun t a s' step => ?_) fun t e s' step answered => ?_
  · rw [all_iff]
    intro t' o s'' run answered
    obtain ⟨rfl, a', returned, here⟩ := step fun ev mem => answered ev (List.mem_append_left t' mem)
    cases returned
    obtain ⟨ev, mem, made⟩ := all_iff.mp (rest a here) t' o s'' run
      fun ev mem => answered ev (List.mem_append_right t mem)
    exact ⟨ev, List.mem_append_right t mem, made⟩
  · obtain ⟨-, a, raised, -⟩ := step answered
    cases raised

theorem Passes.bind {Q : α → Prop} {Q' : β → Prop} {c : Coro I ε σ α} {k : α → Coro I ε σ β}
    (first : Passes env Q c s) (rest : ∀ a, Q a → Passes env Q' (k a) s) :
    Passes env Q' (c >>= k) s := by
  refine All.bind first (fun t a s' step => ?_) fun t e s' step answered => ?_
  · rw [all_iff]
    intro t' o s'' run answered
    obtain ⟨rfl, a', returned, here⟩ := step fun ev mem => answered ev (List.mem_append_left t' mem)
    cases returned
    exact all_iff.mp (rest a here) t' o s'' run fun ev mem => answered ev (List.mem_append_right t mem)
  · obtain ⟨-, a, raised, -⟩ := step answered
    cases raised

theorem passes_pure (a : α) : Passes env (· = a) (pure a : Coro I ε σ α) s :=
  fun _ => ⟨rfl, a, rfl, rfl⟩

theorem passes_call {op : I.Op} {a : I.Ans op} (answer : env op = .ok a) :
    Passes env (· = a) (call op : Coro I ε σ (I.Ans op)) s :=
  fun _ answered => ⟨rfl, a, (answered _ (List.mem_singleton_self _)).trans answer, rfl⟩

theorem reaches_get_bind (k : σ → Coro I ε σ β) :
    Reaches env P (get >>= k) s ↔ Reaches env P (k s) s := Iff.rfl

theorem reaches_modify_bind (f : σ → σ) (k : PUnit → Coro I ε σ β) :
    Reaches env P (modify f >>= k) s ↔ Reaches env P (k ()) (f s) := Iff.rfl

theorem reaches_call {op : I.Op} (h : P op) : Reaches env P (call op : Coro I ε σ (I.Ans op)) s :=
  fun _ _ => ⟨_, List.mem_singleton_self _, h⟩

end

/-! ## Where an exception comes from -/

/-- `e` leaves `c` only after a call that is to blame for it. -/
def Relays (blamed : Event I ε → Prop) (e : ε) (c : Coro I ε σ α) (s : σ) : Prop :=
  c.All s fun t o _ => o = .error e → ∃ ev ∈ t, blamed ev

section
variable {blamed : Event I ε → Prop} {e : ε} {s : σ}

theorem relays_pure (a : α) : Relays blamed e (pure a : Coro I ε σ α) s := fun h => by cases h

theorem relays_throw {e' : ε} (other : e' ≠ e) : Relays blamed e (throw e' : Coro I ε σ α) s :=
  fun h => by cases h; exact absurd rfl other

theorem relays_get : Relays blamed e (get : Coro I ε σ σ) s := fun h => by cases h

theorem relays_modify (f : σ → σ) : Relays blamed e (modify f : Coro I ε σ PUnit) s :=
  fun h => by cases h

theorem relays_post (op : I.Op) : Relays blamed e (post op : Coro I ε σ Unit) s :=
  fun _ h => by cases h

theorem relays_call {op : I.Op} (own : blamed ⟨op, .error e⟩) :
    Relays blamed e (call op : Coro I ε σ (I.Ans op)) s := by
  unfold Relays
  rw [all_call]
  rintro r rfl
  exact ⟨_, List.mem_singleton_self _, own⟩

theorem Relays.bind {c : Coro I ε σ α} {k : α → Coro I ε σ β} (first : Relays blamed e c s)
    (rest : ∀ a s', Relays blamed e (k a) s') : Relays blamed e (c >>= k) s := by
  refine All.bind first (fun t a s' _ => (rest a s').mono fun t' o _ step raised => ?_) ?_
  · obtain ⟨ev, mem, own⟩ := step raised
    exact ⟨ev, List.mem_append_right t mem, own⟩
  · intro t e' s' step raised
    exact step (by cases raised; rfl)

/-- A handler may raise again what it caught. -/
theorem Relays.tryCatch {c : Coro I ε σ α} {h : ε → Coro I ε σ α} (body : Relays blamed e c s)
    (handler : ∀ e' s', e' ≠ e → Relays blamed e (h e') s') : Relays blamed e (tryCatch c h) s := by
  classical
  refine All.tryCatch body (fun _ _ _ h => fun raised => by cases raised) fun t e' s' step => ?_
  by_cases same : e' = e
  · subst same
    obtain ⟨ev, mem, own⟩ := step rfl
    rw [all_iff]
    exact fun t' _ _ _ _ => ⟨ev, List.mem_append_left t' mem, own⟩
  · refine (handler e' s' same).mono fun t' o _ step' raised => ?_
    obtain ⟨ev, mem, own⟩ := step' raised
    exact ⟨ev, List.mem_append_right t mem, own⟩

theorem Relays.iterate {body : Coro I ε σ (Option α)} (round : ∀ s, Relays blamed e body s)
    (n : Nat) (s : σ) : Relays blamed e (iterate body n) s := by
  induction n generalizing s with
  | zero => exact relays_pure none
  | succ n ih =>
    refine (round s).bind fun a s' => ?_
    cases a with
    | none => exact ih s'
    | some a => exact relays_pure (some a)

theorem Relays.zoom {enter : σ → τ} {leave : τ → σ} {c : Coro I ε τ α}
    (h : Relays blamed e c (enter s)) : Relays blamed e (zoom enter leave c) s :=
  (all_zoom enter leave c).mpr h

theorem Relays.map {c : Coro I ε σ α} (h : Relays blamed e c s) (f : α → β) :
    Relays blamed e (f <$> c) s := h.bind fun a _ => relays_pure (f a)

end

/-! ## How a coroutine moves its variables -/

/-- Every run of `c`, however it ends, moves the variables along `R`. -/
def Moves (R : σ → σ → Prop) (c : Coro I ε σ α) : Prop := ∀ s, c.All s fun _ _ s' => R s s'

section
variable {R : σ → σ → Prop}

theorem moves_modify {f : σ → σ} (h : ∀ s, R s (f s)) : Moves R (modify f : Coro I ε σ PUnit) := h

variable [IsPreorder σ R]

theorem moves_pure (a : α) : Moves R (pure a : Coro I ε σ α) := fun s => refl_of R s

theorem moves_throw (e : ε) : Moves R (throw e : Coro I ε σ α) := fun s => refl_of R s

theorem moves_get : Moves R (get : Coro I ε σ σ) := fun s => refl_of R s

theorem moves_post (op : I.Op) : Moves R (post op : Coro I ε σ Unit) := fun s _ => refl_of R s

theorem moves_call (op : I.Op) : Moves R (call op : Coro I ε σ (I.Ans op)) := fun s => by
  rw [all_call]
  exact fun _ => refl_of R s

theorem Moves.bind {c : Coro I ε σ α} {k : α → Coro I ε σ β} (first : Moves R c)
    (rest : ∀ a, Moves R (k a)) : Moves R (c >>= k) := fun s =>
  (first s).bind (fun _ a s' step => (rest a s').mono fun _ _ _ step' => trans_of R step step')
    fun _ _ _ step => step

theorem Moves.tryCatch {c : Coro I ε σ α} {h : ε → Coro I ε σ α} (body : Moves R c)
    (handler : ∀ e, Moves R (h e)) : Moves R (tryCatch c h) := fun s =>
  (body s).tryCatch (fun _ _ _ step => step) fun _ e s' step =>
    (handler e s').mono fun _ _ _ step' => trans_of R step step'

theorem Moves.map {c : Coro I ε σ α} (h : Moves R c) (f : α → β) : Moves R (f <$> c) :=
  h.bind fun a => moves_pure (f a)

end

end Coro

end Async
