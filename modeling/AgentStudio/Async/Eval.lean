import AgentStudio.Async.Coro

/-!
# One run, observed

Against an environment that answers each call in one way a coroutine has one
run. `Shows` says how it ends and what of its calls is seen through `sight`, with
one rule for each way of composing coroutines.
-/

namespace Async

namespace Tree

variable {I : Interface} {ε ω ω' : Type}

/-- With one answer for each call, it does not matter how many calls came before. -/
theorem run_const (env : (op : I.Op) → Except ε (I.Ans op)) (c : Tree I ε ω) (n m : Nat) :
    c.run (fun _ => env) n = c.run (fun _ => env) m := by
  induction c generalizing n m with
  | done w => rfl
  | await op k ih => simp only [run, ih (env op) (n + 1) (m + 1)]

theorem run_bind (env : (op : I.Op) → Except ε (I.Ans op)) (c : Tree I ε ω)
    (k : ω → Tree I ε ω') (n : Nat) :
    (c.bind k).run (fun _ => env) n =
      ((c.run (fun _ => env) n).1 ++ ((k (c.run (fun _ => env) n).2).run (fun _ => env) 0).1,
        ((k (c.run (fun _ => env) n).2).run (fun _ => env) 0).2) := by
  induction c generalizing n with
  | done w => exact run_const env (k w) n 0
  | await op c ih => simp only [bind, run, ih, List.cons_append]

end Tree

namespace Coro

variable {I : Interface} {ε σ τ α β ρ : Type}

/-- The run against `env` ends with `o` and the variables `s'`; of its calls, `l` is
seen. -/
def Shows (env : (op : I.Op) → Except ε (I.Ans op)) (sight : Event I ε → Option ρ)
    (c : Coro I ε σ α) (s : σ) (l : List ρ) (o : Except ε α) (s' : σ) : Prop :=
  (c.traceWith env s).filterMap sight = l ∧ c.outcomeWith env s = (o, s')

namespace Shows

variable {env : (op : I.Op) → Except ε (I.Ans op)} {sight : Event I ε → Option ρ} {s s' s'' : σ}
  {l l' : List ρ} {c : Coro I ε σ α} {a : α} {e : ε} {o : Except ε β}

/-- The rule all others come from: a tree, and what follows its leaf. -/
private theorem tree {k : Except ε α × σ → Tree I ε (Except ε β × σ)} {w : Except ε α}
    (first : c.Shows env sight s l w s')
    (next : ((k (w, s')).run (fun _ => env) 0).1.filterMap sight = l' ∧
      ((k (w, s')).run (fun _ => env) 0).2 = (o, s'')) :
    Shows env sight (fun s => (c s).bind k) s (l ++ l') o s'' := by
  obtain ⟨seen, ends⟩ := first
  unfold traceWith at seen
  unfold outcomeWith at ends
  unfold Shows traceWith outcomeWith
  rw [Tree.run_bind, ends, List.filterMap_append, seen, next.1]
  exact ⟨rfl, next.2⟩

protected theorem pure (a : α) : (pure a : Coro I ε σ α).Shows env sight s [] (.ok a) s :=
  ⟨rfl, rfl⟩

protected theorem throw (e : ε) : (throw e : Coro I ε σ α).Shows env sight s [] (.error e) s :=
  ⟨rfl, rfl⟩

protected theorem get : (get : Coro I ε σ σ).Shows env sight s [] (.ok s) s := ⟨rfl, rfl⟩

protected theorem modify (f : σ → σ) :
    (modify f : Coro I ε σ PUnit).Shows env sight s [] (.ok ()) (f s) := ⟨rfl, rfl⟩

protected theorem call {op : I.Op} {r : Except ε (I.Ans op)} (answer : env op = r) :
    (call op : Coro I ε σ (I.Ans op)).Shows env sight s (sight ⟨op, r⟩).toList r s := by
  subst answer
  refine ⟨?_, rfl⟩
  change [(⟨op, env op⟩ : Event I ε)].filterMap sight = _
  cases h : sight ⟨op, env op⟩ <;> simp [h]

protected theorem bind {k : α → Coro I ε σ β} (first : c.Shows env sight s l (.ok a) s')
    (next : (k a).Shows env sight s' l' o s'') : (c >>= k).Shows env sight s (l ++ l') o s'' :=
  first.tree next

theorem bind_error {k : α → Coro I ε σ β} (first : c.Shows env sight s l (.error e) s') :
    (c >>= k).Shows env sight s l (.error e) s' := by
  have whole : (c >>= k).Shows env sight s (l ++ []) (.error e) s' := first.tree ⟨rfl, rfl⟩
  rw [List.append_nil] at whole
  exact whole

theorem tryCatch_ok {handler : ε → Coro I ε σ α} (body : c.Shows env sight s l (.ok a) s') :
    (tryCatch c handler).Shows env sight s l (.ok a) s' := by
  have whole : (tryCatch c handler).Shows env sight s (l ++ []) (.ok a) s' := body.tree ⟨rfl, rfl⟩
  rw [List.append_nil] at whole
  exact whole

theorem tryCatch_error {handler : ε → Coro I ε σ α} {o : Except ε α}
    (body : c.Shows env sight s l (.error e) s')
    (handled : (handler e).Shows env sight s' l' o s'') :
    (tryCatch c handler).Shows env sight s (l ++ l') o s'' :=
  body.tree handled

theorem get_bind {k : σ → Coro I ε σ β} (next : (k s).Shows env sight s l o s') :
    (MonadState.get >>= k).Shows env sight s l o s' := Shows.get.bind next

theorem modify_bind {f : σ → σ} {k : PUnit → Coro I ε σ β}
    (next : (k ()).Shows env sight (f s) l o s') :
    ((modify f : Coro I ε σ PUnit) >>= k).Shows env sight s l o s' := (Shows.modify f).bind next

/-- Nothing was seen of the first part. -/
theorem quiet_bind {k : α → Coro I ε σ β} (first : c.Shows env sight s [] (.ok a) s')
    (next : (k a).Shows env sight s' l o s'') : (c >>= k).Shows env sight s l o s'' :=
  first.bind next

/-- Nothing is seen of the rest. -/
theorem bind_quiet {k : α → Coro I ε σ β} (first : c.Shows env sight s l (.ok a) s')
    (next : (k a).Shows env sight s' [] o s'') : (c >>= k).Shows env sight s l o s'' := by
  have whole := first.bind next
  rw [List.append_nil] at whole
  exact whole

/-- Nothing is seen of the handler. -/
theorem tryCatch_quiet {handler : ε → Coro I ε σ α} {o : Except ε α}
    (body : c.Shows env sight s l (.error e) s')
    (handled : (handler e).Shows env sight s' [] o s'') :
    (tryCatch c handler).Shows env sight s l o s'' := by
  have whole := body.tryCatch_error handled
  rw [List.append_nil] at whole
  exact whole

theorem scope {c : Coro I ε τ α} {init v : τ} {o : Except ε α}
    (body : c.Shows env sight init l o v) :
    (scope c init : Coro I ε σ α).Shows env sight s l o s := by
  obtain ⟨seen, ends⟩ := body
  unfold traceWith at seen
  unfold outcomeWith at ends
  unfold Shows traceWith outcomeWith Coro.scope
  rw [Tree.run_bind, ends]
  exact ⟨(congrArg _ (List.append_nil _)).trans seen, rfl⟩

theorem iterate_next {body : Coro I ε σ (Option α)} {n : Nat} {o : Except ε (Option α)}
    (round : body.Shows env sight s l (.ok none) s')
    (rest : (iterate body n).Shows env sight s' l' o s'') :
    (iterate body (n + 1)).Shows env sight s (l ++ l') o s'' := by
  rw [iterate]
  exact round.bind rest

theorem iterate_done {body : Coro I ε σ (Option α)} {n : Nat}
    (round : body.Shows env sight s l (.ok (some a)) s') :
    (iterate body (n + 1)).Shows env sight s l (.ok (some a)) s' := by
  rw [iterate, ← List.append_nil l]
  exact round.bind (.pure (some a))

theorem iterate_error {body : Coro I ε σ (Option α)} {n : Nat}
    (round : body.Shows env sight s l (.error e) s') :
    (iterate body (n + 1)).Shows env sight s l (.error e) s' := by
  rw [iterate]
  exact round.bind_error

theorem unseen {op : I.Op} {r : Except ε (I.Ans op)} (answer : env op = r)
    (hidden : sight ⟨op, r⟩ = none) :
    (call op : Coro I ε σ (I.Ans op)).Shows env sight s [] r s := by
  have shown : (call op : Coro I ε σ (I.Ans op)).Shows env sight s (sight ⟨op, r⟩).toList r s :=
    .call answer
  rw [hidden] at shown
  exact shown

end Shows

end Coro

end Async
