import AgentStudio.Async.Pool
import AgentStudio.Async.Shared

/-!
# Numbered tasks

A pool whose calls may be answered in any way that a relation allows, by failures
too. The relation knows the number of the caller, so the store can keep who holds
what; a number that no task has yet holds nothing.
-/

namespace Async

namespace Pool

variable {κ : Type} {I : Interface} {ε ω σ : Type}

/-- How a call of the task with this number may be answered: the store before, the answer,
the store after. -/
abbrev Replies (κ : Type) (I : Interface) (ε σ : Type) :=
  Nat → κ → (op : I.Op) → σ → Except ε (I.Ans op) → σ → Prop

/-- The pool after task `i`, which waited for `op`, was answered `r`. -/
def resume (p : Pool κ I ε ω σ) (i : Nat) (call : κ) (trace : Trace I ε) (op : I.Op)
    (k : Except ε (I.Ans op) → Tree I ε ω) (r : Except ε (I.Ans op)) (store : σ) :
    Pool κ I ε ω σ :=
  ⟨store, p.tasks.set i ⟨call, trace ++ [⟨op, r⟩], k r⟩⟩

/-- One turn: the store moves by itself, a call is started, or a waiting task is answered. -/
inductive Turn (replies : Replies κ I ε σ) (env : σ → σ → Prop) (body : κ → Tree I ε ω) :
    Pool κ I ε ω σ → Pool κ I ε ω σ → Prop
  | env (p : Pool κ I ε ω σ) (store : σ) (moved : env p.store store) :
      Turn replies env body p { p with store := store }
  | start (p : Pool κ I ε ω σ) (call : κ) :
      Turn replies env body p { p with tasks := p.tasks ++ [⟨call, [], body call⟩] }
  | answer (p : Pool κ I ε ω σ) (i : Nat) (call : κ) (trace : Trace I ε) (op : I.Op)
      (k : Except ε (I.Ans op) → Tree I ε ω) (here : p.tasks[i]? = some ⟨call, trace, .await op k⟩)
      (r : Except ε (I.Ans op)) (store : σ) (reply : replies i call op p.store r store) :
      Turn replies env body p (p.resume i call trace op k r store)

/-- Any number of turns. -/
abbrev Turns (replies : Replies κ I ε σ) (env : σ → σ → Prop) (body : κ → Tree I ε ω) :
    Pool κ I ε ω σ → Pool κ I ε ω σ → Prop :=
  Relation.ReflTransGen (Turn replies env body)

/-- No task is under way. -/
def Idle (p : Pool κ I ε ω σ) : Prop := ∀ task ∈ p.tasks, ∃ w, task.rest = .done w

variable {replies replies' : Replies κ I ε σ} {env : σ → σ → Prop} {body : κ → Tree I ε ω}
  {p q : Pool κ I ε ω σ}

theorem Turns.mono (imp : ∀ i call op s r s', replies i call op s r s' → replies' i call op s r s')
    (run : Turns replies env body p q) : Turns replies' env body p q := by
  refine run.lift id fun p q turn => ?_
  cases turn with
  | env store moved => exact .env p store moved
  | start call => exact .start p call
  | answer i call trace op k here r store reply =>
    exact .answer p i call trace op k here r store (imp _ _ _ _ _ _ reply)

theorem resume_self {i : Nat} {call : κ} {trace : Trace I ε} {op : I.Op}
    {k : Except ε (I.Ans op) → Tree I ε ω} (here : p.tasks[i]? = some ⟨call, trace, .await op k⟩)
    (r : Except ε (I.Ans op)) (store : σ) :
    (p.resume i call trace op k r store).tasks[i]? = some ⟨call, trace ++ [⟨op, r⟩], k r⟩ :=
  List.getElem?_set_self (List.getElem?_eq_some_iff.mp here).1

theorem resume_other {i j : Nat} {call : κ} {trace : Trace I ε} {op : I.Op}
    {k : Except ε (I.Ans op) → Tree I ε ω} (other : j ≠ i) (r : Except ε (I.Ans op)) (store : σ) :
    (p.resume i call trace op k r store).tasks[j]? = p.tasks[j]? :=
  List.getElem?_set_ne (Ne.symm other)

/-- What a turn keeps of the store and of each number, with its task or with none yet. -/
structure Kept (replies : Replies κ I ε σ) (env : σ → σ → Prop) (body : κ → Tree I ε ω)
    (J : σ → Prop) (L : Nat → Option (Task κ I ε ω) → σ → Prop) : Prop where
  env : ∀ s s', env s s' → J s → J s' ∧ ∀ i task, L i task s → L i task s'
  start : ∀ i call s, L i none s → L i (some ⟨call, [], body call⟩) s
  own : ∀ i call trace op k s r s', replies i call op s r s' → J s →
    L i (some ⟨call, trace, .await op k⟩) s →
      J s' ∧ L i (some ⟨call, trace ++ [⟨op, r⟩], k r⟩) s'
  others : ∀ i call op s r s', replies i call op s r s' → ∀ j, j ≠ i → ∀ task,
    L j task s → L j task s'

variable {J : σ → Prop} {L : Nat → Option (Task κ I ε ω) → σ → Prop}

theorem turn_kept (kept : Kept replies env body J L) (turn : Turn replies env body p q)
    (store : J p.store) (tasks : ∀ i, L i p.tasks[i]? p.store) :
    J q.store ∧ ∀ i, L i q.tasks[i]? q.store := by
  cases turn with
  | env s moved =>
    obtain ⟨held, each⟩ := kept.env _ _ moved store
    exact ⟨held, fun i => each i _ (tasks i)⟩
  | start call =>
    refine ⟨store, fun i => ?_⟩
    by_cases here : i = p.tasks.length
    · have absent : p.tasks[i]? = none := by simp [here]
      have new := kept.start i call p.store (absent ▸ tasks i)
      simpa [here] using new
    · have same : (p.tasks ++ [⟨call, [], body call⟩])[i]? = p.tasks[i]? := by
        rcases Nat.lt_or_ge i p.tasks.length with bound | bound
        · exact List.getElem?_append_left bound
        · rw [List.getElem?_eq_none (by simp; omega), List.getElem?_eq_none bound]
      simpa only [same] using tasks i
  | answer i call trace op k here r s reply =>
    obtain ⟨held, mine⟩ := kept.own i call trace op k _ r s reply store (here ▸ tasks i)
    refine ⟨held, fun j => ?_⟩
    by_cases own : j = i
    · rw [own, resume_self here]
      exact mine
    · rw [resume_other own]
      exact kept.others i call op _ r s reply j own _ (tasks j)

/-- The rule for numbered tasks. -/
theorem turns_kept (kept : Kept replies env body J L) (run : Turns replies env body p q)
    (store : J p.store) (tasks : ∀ i, L i p.tasks[i]? p.store) :
    J q.store ∧ ∀ i, L i q.tasks[i]? q.store := by
  induction run with
  | refl => exact ⟨store, tasks⟩
  | tail _ turn ih => exact turn_kept kept turn ih.1 ih.2

/-! ### Rely and guarantee -/

/-- The others keep what holds of the store, and of it what is a number's own. -/
def Rely (J : σ → Prop) (frame : Nat → σ → σ → Prop) (i : Nat) (s s' : σ) : Prop :=
  J s' ∧ frame i s s'

/-- A step of a number keeps what holds of the store, and what is any other's own. -/
def Guar (J : σ → Prop) (frame : Nat → σ → σ → Prop) (own : σ → σ → Prop) (i : Nat) (s s' : σ) :
    Prop :=
  J s' ∧ own s s' ∧ ∀ j, j ≠ i → frame j s s'

/-- A task is safe where the store stands, and a number without a task is fresh. -/
def Stands (replies : Replies κ I ε σ) (J : σ → Prop) (frame : Nat → σ → σ → Prop)
    (own : Nat → κ → σ → σ → Prop) (Fresh : Nat → σ → Prop) (Q : Nat → κ → ω → σ → Prop)
    (i : Nat) : Option (Task κ I ε ω) → σ → Prop
  | none, s => Fresh i s
  | some task, s => task.rest.Safe (replies i task.call) (Rely J frame i)
      (Guar J frame (own i task.call) i) (Q i task.call) s

/-- What the rule for numbered tasks asks: `own` is what a call may do in its steps. -/
structure Framed (replies : Replies κ I ε σ) (env : σ → σ → Prop) (body : κ → Tree I ε ω)
    (J : σ → Prop) (frame : Nat → σ → σ → Prop) (own : Nat → κ → σ → σ → Prop)
    (Fresh : Nat → σ → Prop) (Q : Nat → κ → ω → σ → Prop) : Prop where
  refl : ∀ i s, frame i s s
  trans : ∀ i a b c, frame i a b → frame i b c → frame i a c
  env : ∀ s s', env s s' → J s → J s' ∧ ∀ i, frame i s s'
  fresh : ∀ i s s', Rely J frame i s s' → Fresh i s → Fresh i s'
  ended : ∀ i call w s s', Rely J frame i s s' → Q i call w s → Q i call w s'
  start : ∀ i call s, J s → Fresh i s → (body call).Safe (replies i call) (Rely J frame i)
    (Guar J frame (own i call) i) (Q i call) s

section
variable {frame : Nat → σ → σ → Prop} {own : Nat → κ → σ → σ → Prop} {Fresh : Nat → σ → Prop}
  {Q : Nat → κ → ω → σ → Prop}

theorem Framed.moved (framed : Framed replies env body J frame own Fresh Q) {i : Nat}
    {task : Option (Task κ I ε ω)} {s s' : σ} (moved : Rely J frame i s s')
    (stands : Stands replies J frame own Fresh Q i task s) :
    Stands replies J frame own Fresh Q i task s' := by
  cases task with
  | none => exact framed.fresh i s s' moved stands
  | some task =>
    obtain ⟨call, trace, rest⟩ := task
    cases rest with
    | done w => exact framed.ended i call w s s' moved stands
    | await op k =>
      refine Tree.Safe.moved ?_ moved stands
      intro a b c first next
      exact ⟨next.1, framed.trans i a b c first.2 next.2⟩

theorem turn_framed (framed : Framed replies env body J frame own Fresh Q)
    (turn : Turn replies env body p q) (store : J p.store)
    (tasks : ∀ i, Stands replies J frame own Fresh Q i p.tasks[i]? p.store) :
    J q.store ∧ ∀ i, Stands replies J frame own Fresh Q i q.tasks[i]? q.store := by
  cases turn with
  | env s moved =>
    obtain ⟨held, each⟩ := framed.env _ _ moved store
    exact ⟨held, fun i => framed.moved ⟨held, each i⟩ (tasks i)⟩
  | start call =>
    refine ⟨store, fun i => ?_⟩
    by_cases here : i = p.tasks.length
    · have absent : p.tasks[i]? = none := by simp [here]
      have fresh : Fresh i p.store := by
        have stands := tasks i
        rwa [absent] at stands
      have new : (p.tasks ++ [⟨call, [], body call⟩])[i]? = some ⟨call, [], body call⟩ := by
        simp [here]
      rw [new]
      exact framed.start i call p.store store fresh
    · have same : (p.tasks ++ [⟨call, [], body call⟩])[i]? = p.tasks[i]? := by
        rcases Nat.lt_or_ge i p.tasks.length with bound | bound
        · exact List.getElem?_append_left bound
        · rw [List.getElem?_eq_none (by simp; omega), List.getElem?_eq_none bound]
      simpa only [same] using tasks i
  | answer i call trace op k here r s reply =>
    have mine := tasks i
    rw [here] at mine
    obtain ⟨⟨held, -, others⟩, rest⟩ := mine p.store ⟨store, framed.refl i _⟩ r s reply
    refine ⟨held, fun j => ?_⟩
    by_cases its : j = i
    · rw [its, resume_self here]
      exact rest
    · rw [resume_other its]
      exact framed.moved ⟨held, others j its⟩ (tasks j)

/-- What a task does to the store in its next step. -/
theorem Framed.own_step (framed : Framed replies env body J frame own Fresh Q) {i : Nat} {call : κ}
    {trace : Trace I ε} {op : I.Op} {k : Except ε (I.Ans op) → Tree I ε ω} {s s' : σ}
    {r : Except ε (I.Ans op)} (store : J s)
    (stands : Stands replies J frame own Fresh Q i (some ⟨call, trace, .await op k⟩) s)
    (reply : replies i call op s r s') : own i call s s' :=
  (stands s ⟨store, framed.refl i s⟩ r s' reply).1.2.1

/-- The rule for numbered tasks that are each safe while the others keep what is its own. -/
theorem turns_framed (framed : Framed replies env body J frame own Fresh Q)
    (run : Turns replies env body p q) (store : J p.store)
    (tasks : ∀ i, Stands replies J frame own Fresh Q i p.tasks[i]? p.store) :
    J q.store ∧ ∀ i, Stands replies J frame own Fresh Q i q.tasks[i]? q.store := by
  induction run with
  | refl => exact ⟨store, tasks⟩
  | tail _ turn ih => exact turn_framed framed turn ih.1 ih.2

end

/-! ### Runs in which each call gets one answer -/

/-- The pool after task `i` was given its answer; a finished task does not move. -/
def serve (exec : Nat → κ → (op : I.Op) → σ → Except ε (I.Ans op) × σ) (p : Pool κ I ε ω σ)
    (i : Nat) : Pool κ I ε ω σ :=
  match p.tasks[i]? with
  | some ⟨call, trace, .await op k⟩ =>
    p.resume i call trace op k (exec i call op p.store).1 (exec i call op p.store).2
  | _ => p

theorem turns_serve {exec : Nat → κ → (op : I.Op) → σ → Except ε (I.Ans op) × σ}
    (allowed : ∀ i call op s, replies i call op s (exec i call op s).1 (exec i call op s).2)
    (p : Pool κ I ε ω σ) (schedule : List Nat) :
    Turns replies env body p (schedule.foldl (serve exec) p) := by
  induction schedule generalizing p with
  | nil => exact .refl
  | cons i schedule ih =>
    have step : Turns replies env body p (serve exec p i) := by
      unfold serve
      split
      next call trace op k here =>
        exact .single (.answer p i call trace op k here _ _ (allowed i call op _))
      next => exact .refl
    exact step.trans (ih _)

/-- Each answer of such a run passes a check. -/
def Checked (exec : Nat → κ → (op : I.Op) → σ → Except ε (I.Ans op) × σ)
    (check : Nat → κ → I.Op → σ → Bool) (p : Pool κ I ε ω σ) : List Nat → Bool
  | [] => true
  | i :: schedule =>
    (match p.tasks[i]? with
      | some ⟨call, _, .await op _⟩ => check i call op p.store
      | _ => true) && Checked exec check (serve exec p i) schedule

theorem turns_checked {exec : Nat → κ → (op : I.Op) → σ → Except ε (I.Ans op) × σ}
    {check : Nat → κ → I.Op → σ → Bool}
    (allowed : ∀ i call op s, check i call op s = true →
      replies i call op s (exec i call op s).1 (exec i call op s).2)
    (p : Pool κ I ε ω σ) (schedule : List Nat) (checked : Checked exec check p schedule = true) :
    Turns replies env body p (schedule.foldl (serve exec) p) := by
  induction schedule generalizing p with
  | nil => exact .refl
  | cons i schedule ih =>
    rw [Checked, Bool.and_eq_true] at checked
    have step : Turns replies env body p (serve exec p i) := by
      have first := checked.1
      unfold serve
      split
      next call trace op k here =>
        rw [here] at first
        exact .single (.answer p i call trace op k here _ _ (allowed i call op _ first))
      next => exact .refl
    exact step.trans (ih _ checked.2)

theorem idle_of_done (done : p.tasks.all fun task => task.rest.isDone) : p.Idle := by
  intro task mem
  have is := List.all_eq_true.mp done task mem
  cases ended : task.rest with
  | done w => exact ⟨w, rfl⟩
  | await op k => simp [ended, Tree.isDone] at is

end Pool

end Async
