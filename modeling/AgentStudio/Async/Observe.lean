import AgentStudio.Async.Coro

/-!
# Observers

An observer reads the calls of a run one after the other into a state of its own.
What a run leaves in that state, and in the variables, is what a whole trace is
judged by; each part of a program is then specified by how it moves the two.
-/

namespace Async

namespace Coro

variable {I : Interface} {ε σ τ α β Γ : Type} (fair : Event I ε → Prop) (watch : Γ → Event I ε → Γ)

/-- From the observer's state `g` and the variables `s`, every run whose calls are
answered fairly ends as `Q` says. -/
def Ends (c : Coro I ε σ α) (g : Γ) (s : σ) (Q : Γ → Except ε α → σ → Prop) : Prop :=
  c.All s fun t o s' => (∀ ev ∈ t, fair ev) → Q (t.foldl watch g) o s'

namespace Ends

variable {fair watch} {c : Coro I ε σ α} {g : Γ} {s : σ} {Q Q' : Γ → Except ε α → σ → Prop}

theorem mono (h : c.Ends fair watch g s Q) (imp : ∀ g o s, Q g o s → Q' g o s) :
    c.Ends fair watch g s Q' :=
  All.mono h fun _ o s' step all => imp _ o s' (step all)

theorem and (h : c.Ends fair watch g s Q) (h' : c.Ends fair watch g s Q') :
    c.Ends fair watch g s fun g o s => Q g o s ∧ Q' g o s :=
  (All.and h h').mono fun _ _ _ both all => ⟨both.1 all, both.2 all⟩

/-- What holds of every run, whatever is observed. -/
theorem of_all {R : Except ε α → σ → Prop} (h : c.All s fun _ o s' => R o s') :
    c.Ends fair watch g s fun _ o s' => R o s' :=
  All.mono h fun _ _ _ holds _ => holds

protected theorem pure {a : α} (h : Q g (.ok a) s) : (pure a : Coro I ε σ α).Ends fair watch g s Q :=
  fun _ => h

protected theorem throw {e : ε} (h : Q g (.error e) s) :
    (throw e : Coro I ε σ α).Ends fair watch g s Q := fun _ => h

theorem get_bind {k : σ → Coro I ε σ α} (h : (k s).Ends fair watch g s Q) :
    (MonadState.get >>= k).Ends fair watch g s Q := h

theorem modify_bind {f : σ → σ} {k : PUnit → Coro I ε σ α}
    (h : (k ()).Ends fair watch g (f s) Q) :
    ((modify f : Coro I ε σ PUnit) >>= k).Ends fair watch g s Q := h

protected theorem call {op : I.Op} {Q : Γ → Except ε (I.Ans op) → σ → Prop}
    (h : ∀ r, fair ⟨op, r⟩ → Q (watch g ⟨op, r⟩) r s) :
    (call op : Coro I ε σ (I.Ans op)).Ends fair watch g s Q :=
  fun r all => h r (all _ (List.mem_singleton_self _))

protected theorem bind {k : α → Coro I ε σ β} {Q' : Γ → Except ε β → σ → Prop}
    (h : c.Ends fair watch g s Q)
    (ok : ∀ g' a s', Q g' (.ok a) s' → (k a).Ends fair watch g' s' Q')
    (error : ∀ g' e s', Q g' (.error e) s' → Q' g' (.error e) s') :
    (c >>= k).Ends fair watch g s Q' := by
  apply All.bind (Ψ := fun t o s' => (∀ ev ∈ t, fair ev) → Q (t.foldl watch g) o s') h
  · intro t a s' step
    rw [all_iff]
    intro t' o s'' run all
    rw [List.foldl_append]
    have first := step fun ev mem => all ev (List.mem_append_left t' mem)
    have next := all_iff.mp (ok _ a s' first) t' o s'' run
    exact next fun ev mem => all ev (List.mem_append_right t mem)
  · exact fun t e s' step all => error _ e s' (step all)

theorem call_bind {op : I.Op} {k : I.Ans op → Coro I ε σ α}
    (ok : ∀ a, fair ⟨op, .ok a⟩ → (k a).Ends fair watch (watch g ⟨op, .ok a⟩) s Q)
    (error : ∀ e, fair ⟨op, .error e⟩ → Q (watch g ⟨op, .error e⟩) (.error e) s) :
    ((call op : Coro I ε σ (I.Ans op)) >>= k).Ends fair watch g s Q := by
  apply Ends.bind (Q := fun g' r s' => fair ⟨op, r⟩ ∧ g' = watch g ⟨op, r⟩ ∧ s' = s)
  · exact .call fun r answered => ⟨answered, rfl, rfl⟩
  · rintro _ a _ ⟨answered, rfl, rfl⟩
    exact ok a answered
  · rintro _ e _ ⟨answered, rfl, rfl⟩
    exact error e answered

theorem post_bind {op : I.Op} {k : Unit → Coro I ε σ α}
    (next : ∀ r, fair ⟨op, r⟩ → (k ()).Ends fair watch (watch g ⟨op, r⟩) s Q) :
    ((post op : Coro I ε σ Unit) >>= k).Ends fair watch g s Q := by
  rw [Ends, all_post_bind]
  intro r
  rw [all_iff]
  intro t o s' run all
  have rest := all_iff.mp (next r (all _ List.mem_cons_self)) t o s' run
  exact rest fun ev mem => all ev (List.mem_cons_of_mem _ mem)

protected theorem tryCatch {handler : ε → Coro I ε σ α} (h : c.Ends fair watch g s Q)
    (ok : ∀ g' a s', Q g' (.ok a) s' → Q' g' (.ok a) s')
    (error : ∀ g' e s', Q g' (.error e) s' → (handler e).Ends fair watch g' s' Q') :
    (tryCatch c handler).Ends fair watch g s Q' := by
  apply All.tryCatch (Ψ := fun t o s' => (∀ ev ∈ t, fair ev) → Q (t.foldl watch g) o s') h
  · exact fun t a s' step all => ok _ a s' (step all)
  · intro t e s' step
    rw [all_iff]
    intro t' o s'' run all
    rw [List.foldl_append]
    have first := step fun ev mem => all ev (List.mem_append_left t' mem)
    have next := all_iff.mp (error _ e s' first) t' o s'' run
    exact next fun ev mem => all ev (List.mem_append_right t mem)

protected theorem scope {c : Coro I ε τ α} {init : τ}
    (h : c.Ends fair watch g init fun g' o _ => Q g' o s) :
    (scope c init : Coro I ε σ α).Ends fair watch g s Q := (all_scope c init).mpr h

protected theorem zoom {c : Coro I ε τ α} {enter : σ → τ} {leave : τ → σ}
    (h : c.Ends fair watch g (enter s) fun g' o v => Q g' o (leave v)) :
    (zoom enter leave c).Ends fair watch g s Q := (all_zoom enter leave c).mpr h

/-- Calls that each move the observer's state along `R` move it along `R` to the end. -/
theorem moves {R : Γ → Γ → Prop} [IsPreorder Γ R] {P : I.Op → Prop}
    (step : ∀ op, P op → ∀ g r, R g (watch g ⟨op, r⟩)) (calls : Emits P c) :
    c.Ends fair watch g s fun g' _ _ => R g g' := by
  apply All.mono (calls s)
  intro t o s' made all
  clear all
  induction t generalizing g with
  | nil => exact refl_of R g
  | cons ev t ih =>
    have first := step ev.op (made ev List.mem_cons_self) g ev.reply
    exact trans_of R first (ih fun ev' mem => made ev' (List.mem_cons_of_mem _ mem))

/-- Calls that leave what is viewed of the observer's state leave it to the end. -/
theorem view {δ : Type} (view : Γ → δ) {P : I.Op → Prop}
    (blind : ∀ op, P op → ∀ g r, view (watch g ⟨op, r⟩) = view g) (calls : Emits P c) :
    c.Ends fair watch g s fun g' _ _ => view g' = view g := by
  have same : IsPreorder Γ fun g g' => view g' = view g :=
    { refl := fun _ => rfl, trans := fun _ _ _ h h' => h'.trans h }
  exact moves (R := fun g g' => view g' = view g) blind calls

/-- Calls that the observer does not look at leave it as it was. -/
theorem unseen {P : I.Op → Prop} (blind : ∀ op, P op → ∀ g r, watch g ⟨op, r⟩ = g)
    (calls : Emits P c) : c.Ends fair watch g s fun g' _ _ => g' = g :=
  view id blind calls

/-- What a round keeps, the loop keeps. -/
theorem iterate {body : Coro I ε σ (Option α)} (inv : Γ → σ → Prop)
    {Q : Γ → Except ε (Option α) → σ → Prop}
    (round : ∀ g s, inv g s → body.Ends fair watch g s fun g' o s' =>
      match o with
      | .ok none => inv g' s'
      | .ok (some a) => Q g' (.ok (some a)) s'
      | .error e => Q g' (.error e) s')
    (dry : ∀ g s, inv g s → Q g (.ok none) s) (n : Nat) {g : Γ} {s : σ} (h : inv g s) :
    (Coro.iterate body n).Ends fair watch g s Q := by
  induction n generalizing g s with
  | zero => exact .pure (dry g s h)
  | succ n ih =>
    rw [Coro.iterate]
    apply Ends.bind (round g s h)
    · intro g' a s' step
      cases a with
      | none => exact ih step
      | some a => exact .pure step
    · exact fun g' e s' step => step

end Ends

end Coro

end Async
