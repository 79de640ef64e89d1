import AgentStudio.Async.Observe

/-!
# What is kept

A property that the local variables keep from one call to the next, with what may be returned and
what may be raised meanwhile. There is one rule for each way of composing coroutines.
-/

namespace Async

namespace Coro

variable {I : Interface} {ε σ τ α β : Type} (fair : Event I ε → Prop) (P : σ → Prop) (E : ε → Prop)

/-- With its calls answered fairly a run upholds `P`, returns in `Q` or raises in `E`. -/
def Upholds (Q : α → Prop) (c : Coro I ε σ α) : Prop :=
  ∀ s, P s → c.Ends fair (fun (_ : Unit) _ => ()) () s fun _ o s' => P s' ∧
    match o with
    | .ok a => Q a
    | .error e => E e

namespace Upholds

variable {fair P E} {Q : α → Prop} {c : Coro I ε σ α}

protected theorem pure {a : α} (h : Q a) : Upholds fair P E Q (pure a) :=
  fun _ kept => .pure ⟨kept, h⟩

protected theorem throw {e : ε} (h : E e) : Upholds fair P E Q (throw e) :=
  fun _ kept => .throw ⟨kept, h⟩

protected theorem get : Upholds fair P E P (get : Coro I ε σ σ) := fun _ kept _ => ⟨kept, kept⟩

protected theorem modify {f : σ → σ} (h : ∀ s, P s → P (f s)) :
    Upholds fair P E (fun _ => True) (modify f : Coro I ε σ PUnit) :=
  fun s kept _ => ⟨h s kept, trivial⟩

protected theorem call {op : I.Op} {Q : I.Ans op → Prop} (ok : ∀ a, fair ⟨op, .ok a⟩ → Q a)
    (error : ∀ e, fair ⟨op, .error e⟩ → E e) : Upholds fair P E Q (call op) :=
  fun _ kept => .call fun r answered => by
    cases r with
    | ok a => exact ⟨kept, ok a answered⟩
    | error e => exact ⟨kept, error e answered⟩

protected theorem bind {Q' : β → Prop} {k : α → Coro I ε σ β} (h : Upholds fair P E Q c)
    (next : ∀ a, Q a → Upholds fair P E Q' (k a)) : Upholds fair P E Q' (c >>= k) :=
  fun s kept => (h s kept).bind (fun _ a s' step => next a step.2 s' step.1) fun _ _ _ step => step

theorem modify_bind {Q' : β → Prop} {f : σ → σ} {k : PUnit → Coro I ε σ β}
    (h : ∀ s, P s → P (f s)) (next : Upholds fair P E Q' (k ())) :
    Upholds fair P E Q' ((modify f : Coro I ε σ PUnit) >>= k) :=
  (Upholds.modify h).bind fun _ _ => next

protected theorem tryCatch {F : ε → Prop} {handler : ε → Coro I ε σ α} (h : Upholds fair P F Q c)
    (error : ∀ e, F e → Upholds fair P E Q (handler e)) : Upholds fair P E Q (tryCatch c handler) :=
  fun s kept => (h s kept).tryCatch (fun _ _ _ step => step) fun _ e s' step =>
    error e step.2 s' step.1

protected theorem iterate {body : Coro I ε σ (Option α)}
    (h : Upholds fair P E (fun found => ∀ a, found = some a → Q a) body) (n : Nat) :
    Upholds fair P E (fun found => ∀ a, found = some a → Q a) (iterate body n) := by
  induction n with
  | zero => exact .pure nofun
  | succ n ih =>
    refine h.bind fun found each => ?_
    cases found with
    | none => exact ih
    | some a => exact .pure each

protected theorem scope {P' : τ → Prop} {c : Coro I ε τ α} {init : τ} (start : P' init)
    (h : Upholds fair P' E Q c) : Upholds fair P E Q (scope c init : Coro I ε σ α) :=
  fun _ kept => .scope ((h init start).mono fun _ _ _ step => ⟨kept, step.2⟩)

theorem mono {Q' : α → Prop} (h : Upholds fair P E Q c) (imp : ∀ a, Q a → Q' a) :
    Upholds fair P E Q' c := fun s kept =>
  (h s kept).mono fun _ o _ step => ⟨step.1, by
    cases o with
    | ok a => exact imp a step.2
    | error e => exact step.2⟩

end Upholds

end Coro

end Async
