import AgentStudio.Async.Coro

/-!
# Interleaved coroutines on a shared store

Every call of every task is one atomic step on the store, and the tasks take
their steps in any order. A task keeps what was called and the calls it has
made, so what it owes or holds is read off its own trace.
-/

namespace Async

structure Task (κ : Type) (I : Interface) (ε ω : Type) where
  call : κ
  trace : Trace I ε
  rest : Tree I ε ω

structure Pool (κ : Type) (I : Interface) (ε ω σ : Type) where
  store : σ
  tasks : List (Task κ I ε ω)

theorem get_set_cases {α : Type} {l : List α} {i j : Nat} {x y : α}
    (h : (l.set i y)[j]? = some x) : (j = i ∧ x = y) ∨ (j ≠ i ∧ l[j]? = some x) := by
  by_cases eq : j = i
  · subst eq
    obtain ⟨bound, rfl⟩ := List.getElem?_eq_some_iff.mp h
    exact .inl ⟨rfl, by simp⟩
  · rw [List.getElem?_set_ne (Ne.symm eq)] at h
    exact .inr ⟨eq, h⟩

theorem get_snoc_cases {α : Type} {l : List α} {j : Nat} {x y : α}
    (h : (l ++ [y])[j]? = some x) : l[j]? = some x ∨ (j = l.length ∧ x = y) := by
  rcases Nat.lt_trichotomy j l.length with bound | rfl | bound
  · exact .inl (by rwa [List.getElem?_append_left bound] at h)
  · exact .inr ⟨rfl, by simpa [eq_comm] using h⟩
  · rw [List.getElem?_append_right bound.le] at h
    have := (List.getElem?_eq_some_iff.mp h).1
    simp at this
    omega

theorem get_snoc_old {α : Type} {l : List α} {j : Nat} {x y : α} (h : l[j]? = some x) :
    (l ++ [y])[j]? = some x := by
  rwa [List.getElem?_append_left (List.getElem?_eq_some_iff.mp h).1]

namespace Pool

variable {κ : Type} {I : Interface} {ε ω σ : Type}

/-- The pool after the task at `i`, waiting for `op`, got its answer. -/
def answer (exec : (op : I.Op) → σ → I.Ans op × σ) (p : Pool κ I ε ω σ) (i : Nat) (call : κ)
    (trace : Trace I ε) (op : I.Op) (k : Except ε (I.Ans op) → Tree I ε ω) : Pool κ I ε ω σ :=
  let r := exec op p.store
  ⟨r.2, p.tasks.set i ⟨call, trace ++ [⟨op, .ok r.1⟩], k (.ok r.1)⟩⟩

/-- One step: a call that may be made is started, or a waiting task advances. -/
inductive Step (exec : (op : I.Op) → σ → I.Ans op × σ)
    (mayStart : Pool κ I ε ω σ → κ → Tree I ε ω → Prop) : Pool κ I ε ω σ → Pool κ I ε ω σ → Prop
  | start (p : Pool κ I ε ω σ) (call : κ) (body : Tree I ε ω) (may : mayStart p call body) :
      Step exec mayStart p { p with tasks := p.tasks ++ [⟨call, [], body⟩] }
  | advance (p : Pool κ I ε ω σ) (i : Nat) (call : κ) (trace : Trace I ε) (op : I.Op)
      (k : Except ε (I.Ans op) → Tree I ε ω) (here : p.tasks[i]? = some ⟨call, trace, .await op k⟩) :
      Step exec mayStart p (p.answer exec i call trace op k)

/-- The states reached from `init` by any interleaving. -/
def Reachable (exec : (op : I.Op) → σ → I.Ans op × σ)
    (mayStart : Pool κ I ε ω σ → κ → Tree I ε ω → Prop) (init p : Pool κ I ε ω σ) : Prop :=
  Relation.ReflTransGen (Step exec mayStart) init p

variable {exec : (op : I.Op) → σ → I.Ans op × σ}
  {mayStart : Pool κ I ε ω σ → κ → Tree I ε ω → Prop} {p q init : Pool κ I ε ω σ}

/-- A step keeps every started call at its index. -/
theorem step_call (h : Step exec mayStart p q) {i : Nat} {task : Task κ I ε ω}
    (here : p.tasks[i]? = some task) :
    ∃ task', q.tasks[i]? = some task' ∧ task'.call = task.call := by
  have bound : i < p.tasks.length := (List.getElem?_eq_some_iff.mp here).1
  cases h with
  | start call body may =>
    exact ⟨task, by simpa [List.getElem?_append_left bound] using here, rfl⟩
  | advance j call trace op k waiting =>
    by_cases eq : j = i
    · subst eq
      rw [waiting] at here
      cases here
      exact ⟨_, List.getElem?_set_self bound, rfl⟩
    · exact ⟨task, by simp only [answer, List.getElem?_set_ne eq, here], rfl⟩

/-- Only an awaiting task changes; a finished one stays as it is. -/
theorem step_done (h : Step exec mayStart p q) {i : Nat} {task : Task κ I ε ω} {w : ω}
    (here : p.tasks[i]? = some task) (done : task.rest = .done w) : q.tasks[i]? = some task := by
  have bound : i < p.tasks.length := (List.getElem?_eq_some_iff.mp here).1
  cases h with
  | start call body may => simpa [List.getElem?_append_left bound] using here
  | advance j call trace op k waiting =>
    have ne : j ≠ i := by
      rintro rfl
      rw [waiting] at here
      cases here
      cases done
    simp only [answer, List.getElem?_set_ne ne, here]

/-- The pool after task `i` was scheduled; a finished task does not move. -/
def advance (exec : (op : I.Op) → σ → I.Ans op × σ) (p : Pool κ I ε ω σ) (i : Nat) :
    Pool κ I ε ω σ :=
  match p.tasks[i]? with
  | some ⟨call, trace, .await op k⟩ => p.answer exec i call trace op k
  | _ => p

theorem reachable_start (reach : Reachable exec mayStart init p) {call : κ} {body : Tree I ε ω}
    (may : mayStart p call body) :
    Reachable exec mayStart init { p with tasks := p.tasks ++ [⟨call, [], body⟩] } :=
  reach.tail (.start p call body may)

theorem reachable_advance (reach : Reachable exec mayStart init p) (i : Nat) :
    Reachable exec mayStart init (p.advance exec i) := by
  unfold advance
  split
  next call trace op k here => exact reach.tail (.advance p i call trace op k here)
  next => exact reach

end Pool

theorem sum_map_set {α M : Type} [AddCommGroup M] (f : α → M) {l : List α} {i : Nat} {x : α}
    (here : l[i]? = some x) (y : α) :
    ((l.set i y).map f).sum = (l.map f).sum + (f y - f x) := by
  induction l generalizing i with
  | nil => simp at here
  | cons a l ih =>
    cases i with
    | zero =>
      obtain rfl : a = x := by simpa using here
      simp only [List.set_cons_zero, List.map_cons, List.sum_cons]
      abel
    | succ i =>
      simp only [List.set_cons_succ, List.map_cons, List.sum_cons]
      rw [ih (by simpa using here)]
      abel

end Async
