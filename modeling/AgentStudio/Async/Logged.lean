import AgentStudio.Async.Shared

/-!
# Calls that carry their history

What a shared store does with a call may depend on who calls and on what the caller
has called before. `Tree.logged` hands both along with each call.

* `Following`: each call of a trace is judged by the calls before it.
* `After`: what remains of a tree after the calls of a trace.
* `Told`: a store that answers the calls of one trace in turn.
* `logged_run`: what every answer keeps holds of the store in every state.
-/

namespace Async

variable {κ : Type} {I : Interface} {ε ω σ : Type}

/-! ## Judged by the calls before -/

/-- Each call of the trace satisfies `P` of the calls before it. -/
def Following (P : Trace I ε → I.Op → Prop) (t : Trace I ε) : Prop :=
  ∀ pre ev post, t = pre ++ ev :: post → P pre ev.op

section
variable {P : Trace I ε → I.Op → Prop}

/-- A cut inside a sequence is a cut inside one of its parts. -/
theorem Following.append {t t' : Trace I ε} (first : Following P t)
    (next : ∀ pre ev post, t' = pre ++ ev :: post → P (t ++ pre) ev.op) :
    Following P (t ++ t') := by
  intro pre ev post split
  rcases List.append_eq_append_iff.mp split with ⟨more, rfl, rest⟩ | ⟨more, rfl, rest⟩
  · exact next more ev post rest
  · cases more with
    | nil =>
      have here := next [] ev post (by simpa using rest.symm)
      rwa [List.append_nil, List.append_nil] at here
    | cons x more =>
      obtain ⟨rfl, -⟩ := List.cons.inj (rest.symm)
      exact first pre x more rfl

theorem additive_following (grows : ∀ earlier pre op, P pre op → P (earlier ++ pre) op) :
    Coro.Additive (Following P) where
  nil := fun pre ev post split => by simp at split
  append := fun first next => first.append fun pre ev post split =>
    grows _ pre ev.op (next pre ev post split)

/-- Calls that satisfy `P` whatever came before. -/
theorem following_of_calls {Q : I.Op → Prop} {t : Trace I ε} (calls : ∀ ev ∈ t, Q ev.op)
    (imp : ∀ pre op, Q op → P pre op) : Following P t := by
  rintro pre ev post rfl
  exact imp pre ev.op (calls ev (by simp))

/-- Calls that satisfy `P` because of the first one. -/
theorem following_cons {Q : I.Op → Prop} {t : Trace I ε} {ev : Event I ε} (first : P [] ev.op)
    (calls : ∀ ev ∈ t, Q ev.op) (imp : ∀ pre op, ev ∈ pre → Q op → P pre op) :
    Following P (ev :: t) := by
  intro pre ev' post split
  cases pre with
  | nil =>
    obtain ⟨rfl, -⟩ := List.cons.inj split
    exact first
  | cons x pre =>
    obtain ⟨rfl, rfl⟩ := List.cons.inj split
    exact imp _ _ List.mem_cons_self (calls ev' (by simp))

/-- The rule for a call that is judged by itself. -/
theorem leaves_call {τ : Type} {op : I.Op} (h : P [] op) :
    Coro.Leaves (Following P) (Coro.call op : Coro I ε τ (I.Ans op)) := by
  intro s
  rw [Coro.all_call]
  intro r
  exact following_cons (Q := fun _ => False) h (by simp) fun _ _ _ => False.elim

end

/-! ## What remains of a tree -/

namespace Tree

inductive After (c : Tree I ε ω) : Trace I ε → Tree I ε ω → Prop
  | start : After c [] c
  | call {t : Trace I ε} {op : I.Op} {k : Except ε (I.Ans op) → Tree I ε ω}
      (h : After c t (.await op k)) (r : Except ε (I.Ans op)) : After c (t ++ [⟨op, r⟩]) (k r)

theorem After.runs {c c' : Tree I ε ω} {t t' : Trace I ε} {w : ω} (h : After c t c')
    (rest : c'.Runs t' w) : c.Runs (t ++ t') w := by
  induction h generalizing t' with
  | start => exact rest
  | call h r ih =>
    rw [List.append_assoc]
    exact ih (.await _ _ r rest)

theorem exists_runs [Nonempty ε] (c : Tree I ε ω) : ∃ t w, c.Runs t w :=
  ⟨_, _, c.runs_run (fun _ _ => .error (Classical.arbitrary ε)) 0⟩

/-- What was called is the beginning of a whole run. -/
theorem After.whole [Nonempty ε] {c c' : Tree I ε ω} {t : Trace I ε} (h : After c t c') :
    ∃ t' w, c.Runs (t ++ t') w := by
  obtain ⟨t', w, rest⟩ := c'.exists_runs
  exact ⟨t', w, h.runs rest⟩

/-- What is judged so in every run is judged so where a tree awaits its answer. -/
theorem After.judged [Nonempty ε] {c : Tree I ε ω} {t : Trace I ε} {op : I.Op}
    {k : Except ε (I.Ans op) → Tree I ε ω} {P : Trace I ε → I.Op → Prop}
    (h : c.After t (.await op k)) (all : ∀ t w, c.Runs t w → Following P t) : P t op := by
  obtain ⟨t', w, rest⟩ := (await op k).exists_runs
  cases rest with
  | await _ _ r rest => exact all _ w (h.runs (.await op k r rest)) t ⟨op, r⟩ _ rfl

end Tree

/-! ## Calls with their history -/

/-- A call, with its caller and the calls the caller made before. -/
abbrev Logged (κ : Type) (I : Interface) (ε : Type) : Interface where
  Op := κ × Trace I ε × I.Op
  Ans := fun call => I.Ans call.2.2

namespace Tree

def logged (who : κ) : Trace I ε → Tree I ε ω → Tree (Logged κ I ε) ε ω
  | _, .done w => .done w
  | t, .await op k => .await (who, t, op) fun r => logged who (t ++ [⟨op, r⟩]) (k r)

end Tree

/-- The store answers the calls of a trace in turn. -/
inductive Told (answers : Answers (Logged κ I ε) ε σ) (who : κ) :
    Trace I ε → Trace I ε → σ → σ → Prop
  | nil (t : Trace I ε) (s : σ) : Told answers who t [] s s
  | cons {t rest : Trace I ε} {op : I.Op} {r : Except ε (I.Ans op)} {s s₁ s₂ : σ}
      (first : answers (who, t, op) s r s₁) (next : Told answers who (t ++ [⟨op, r⟩]) rest s₁ s₂) :
      Told answers who t (⟨op, r⟩ :: rest) s s₂

section
variable {answers : Answers (Logged κ I ε) ε σ} {who : κ} {t rest rest' : Trace I ε} {s s₁ s₂ : σ}

theorem Told.append (first : Told answers who t rest s s₁)
    (next : Told answers who (t ++ rest) rest' s₁ s₂) : Told answers who t (rest ++ rest') s s₂ := by
  induction first with
  | nil => simpa using next
  | cons answer told ih => exact .cons answer (ih (by simpa using next))

/-- Calls that leave the store as it is. -/
theorem told_still (still : ∀ ev ∈ rest, ∀ t, answers (who, t, ev.op) s ev.reply s) :
    Told answers who t rest s s := by
  induction rest generalizing t with
  | nil => exact .nil t s
  | cons ev rest ih =>
    exact .cons (still ev List.mem_cons_self t) (ih fun ev mem => still ev (List.mem_cons_of_mem _ mem))

/-- A run whose calls the store answers so is a run on the store. -/
theorem Told.ends {c : Tree I ε ω} {w : ω} (told : Told answers who t rest s s₁)
    (run : c.Runs rest w) : Tree.Ends answers Eq (c.logged who t) s w s₁ := by
  induction told generalizing c with
  | nil t s =>
    cases run
    exact .done w s
  | cons answer told ih =>
    cases run with
    | await _ _ _ run => exact .await rfl answer (ih run)

end

namespace Shared

variable {answers : Answers (Logged κ I ε) ε σ} {env : σ → σ → Prop}
  {mayStart : Shared (Logged κ I ε) ε ω σ → Tree (Logged κ I ε) ε ω → Prop}
  {init s : Shared (Logged κ I ε) ε ω σ}

/-- The rule for logged tasks: what every answer keeps holds of the store in every state. -/
theorem logged_run (body : κ → Tree I ε ω)
    (starts : ∀ s c, mayStart s c → ∃ who, c = (body who).logged who [])
    (none_ : init.tasks = []) (J : σ → Prop) (base : J init.store)
    (moves : ∀ s s', env s s' → J s → J s')
    (keeps : ∀ who t op k r s s', (body who).After t (.await op k) →
      answers (who, t, op) s r s' → J s → J s')
    (reach : Relation.ReflTransGen (Step answers env mayStart) init s) :
    J s.store ∧ ∀ task ∈ s.tasks, ∃ who t c, (body who).After t c ∧ task = c.logged who t := by
  induction reach with
  | refl => exact ⟨base, by simp [none_]⟩
  | tail _ step ih =>
    obtain ⟨holds, tasks⟩ := ih
    cases step with
    | env store moved => exact ⟨moves _ _ moved holds, tasks⟩
    | start c may =>
      refine ⟨holds, fun task mem => ?_⟩
      rcases List.mem_append.mp mem with mem | mem
      · exact tasks task mem
      · obtain ⟨who, rfl⟩ := starts _ c may
        exact ⟨who, [], _, .start, List.mem_singleton.mp mem⟩
    | answer i op k here r store answer =>
      obtain ⟨who, t, c, after, is⟩ := tasks _ (List.mem_of_getElem? here)
      cases c with
      | done w => cases is
      | await op' k' =>
        cases is
        refine ⟨keeps who t op' k' r _ _ after answer holds, fun task mem => ?_⟩
        rcases List.mem_or_eq_of_mem_set mem with mem | rfl
        · exact tasks task mem
        · exact ⟨who, _, _, .call after r, rfl⟩
    | crash i => exact ⟨holds, fun task mem => tasks task (List.mem_of_mem_eraseIdx mem)⟩

end Shared

end Async
