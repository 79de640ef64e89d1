import AgentStudio.Async.Coro

/-!
# Coroutines on a shared store

A call is answered in one step that may change the store; how it may be
answered is a relation, so that failures and answers from outside are covered.

* `Ends`: a coroutine that runs to its end, from the store it finds to the one it leaves.
* `Safe`: what a coroutine does while others move the store by `rely`: each of its
  own steps moves it by `guar`, and it ends in `Q`. There is one rule for each way
  of composing coroutines.
* `Shared`: any number of coroutines on one store, one after the other
  (`sequential_run`) or together (`concurrent_run`): what `rely` and `guar` keep holds
  of the store in every state. What is in transit is with a task (`custody_run`).
-/

namespace Async

/-- How a call may be answered: the store before, the answer, the store after. -/
abbrev Answers (I : Interface) (ε σ : Type) := (op : I.Op) → σ → Except ε (I.Ans op) → σ → Prop

namespace Tree

variable {I : Interface} {ε ω ω' σ : Type}

/-- A run to the end, while others move the store by `rely`; alone, `rely` is equality. -/
inductive Ends (answers : Answers I ε σ) (rely : σ → σ → Prop) : Tree I ε ω → σ → ω → σ → Prop
  | done (w : ω) (s : σ) : Ends answers rely (.done w) s w s
  | await {op : I.Op} {k : Except ε (I.Ans op) → Tree I ε ω} {s s₁ s₂ s' : σ}
      {r : Except ε (I.Ans op)} {w : ω} (moved : rely s s₁) (answer : answers op s₁ r s₂)
      (rest : Ends answers rely (k r) s₂ w s') : Ends answers rely (.await op k) s w s'

def Safe (answers : Answers I ε σ) (rely guar : σ → σ → Prop) (Q : ω → σ → Prop) :
    Tree I ε ω → σ → Prop
  | .done w, s => Q w s
  | .await op k, s => ∀ s₁, rely s s₁ → ∀ r s₂, answers op s₁ r s₂ →
      guar s₁ s₂ ∧ Safe answers rely guar Q (k r) s₂

variable {answers : Answers I ε σ} {rely guar : σ → σ → Prop}

theorem safe_bind (c : Tree I ε ω) (k : ω → Tree I ε ω') (Q : ω' → σ → Prop) (s : σ) :
    (c.bind k).Safe answers rely guar Q s ↔
      c.Safe answers rely guar (fun w s' => (k w).Safe answers rely guar Q s') s := by
  induction c generalizing s with
  | done w => exact Iff.rfl
  | await op c ih =>
    refine forall₂_congr fun s₁ _ => forall₃_congr fun r s₂ _ => ?_
    exact and_congr_right fun _ => ih r s₂

theorem Safe.mono {c : Tree I ε ω} {Q Q' : ω → σ → Prop} {s : σ}
    (h : c.Safe answers rely guar Q s) (imp : ∀ w s, Q w s → Q' w s) :
    c.Safe answers rely guar Q' s := by
  induction c generalizing s with
  | done w => exact imp w s h
  | await op c ih =>
    intro s₁ moved r s₂ answer
    obtain ⟨own, rest⟩ := h s₁ moved r s₂ answer
    exact ⟨own, ih r rest⟩

/-- What is safe where it stands is safe after the others have moved. -/
theorem Safe.moved {op : I.Op} {k : Except ε (I.Ans op) → Tree I ε ω} {Q : ω → σ → Prop} {s s' : σ}
    (trans : ∀ a b c, rely a b → rely b c → rely a c) (moved : rely s s')
    (h : (await op k).Safe answers rely guar Q s) : (await op k).Safe answers rely guar Q s' :=
  fun s₁ moved' r s₂ answer => h s₁ (trans s s' s₁ moved moved') r s₂ answer

theorem Safe.ends {c : Tree I ε ω} {rely' : σ → σ → Prop} {Q : ω → σ → Prop} {s s' : σ} {w : ω}
    (h : c.Safe answers rely guar Q s) (others : ∀ s s', rely' s s' → rely s s')
    (ends : Ends answers rely' c s w s') : Q w s' := by
  induction ends with
  | done w s => exact h
  | await moved answer rest ih => exact ih (h _ (others _ _ moved) _ _ answer).2

/-- What the steps of a safe coroutine keep, and those of the others, its run keeps. -/
theorem Safe.keeps {c : Tree I ε ω} {rely' : σ → σ → Prop} {Q : ω → σ → Prop} {J : σ → Prop}
    {s s' : σ} {w : ω} (h : c.Safe answers rely guar Q s) (others : ∀ s s', rely' s s' → rely s s')
    (kept : ∀ s s', rely' s s' → J s → J s') (own : ∀ s s', guar s s' → J s → J s')
    (ends : Ends answers rely' c s w s') (j : J s) : J s' := by
  induction ends with
  | done w s => exact j
  | await moved answer rest ih =>
    obtain ⟨step, next⟩ := h _ (others _ _ moved) _ _ answer
    exact ih next (own _ _ step (kept _ _ moved j))

/-- What every step keeps, of others and its own, still holds at the end. -/
theorem Safe.frame {c : Tree I ε ω} {Q : ω → σ → Prop} {P : σ → Prop} {s : σ}
    (h : c.Safe answers rely guar Q s) (kept : ∀ s s', rely s s' → P s → P s')
    (own : ∀ s s', guar s s' → P s → P s') (p : P s) :
    c.Safe answers rely guar (fun w s' => Q w s' ∧ P s') s := by
  induction c generalizing s with
  | done w => exact ⟨h, p⟩
  | await op c ih =>
    intro s₁ moved r s₂ answer
    obtain ⟨step, rest⟩ := h s₁ moved r s₂ answer
    exact ⟨step, ih r rest (own _ _ step (kept _ _ moved p))⟩

theorem Ends.mono {answers' : Answers I ε σ} {rely' : σ → σ → Prop} {c : Tree I ε ω} {s s' : σ}
    {w : ω} (answered : ∀ op s r s', answers op s r s' → answers' op s r s')
    (others : ∀ s s', rely s s' → rely' s s') (ends : Ends answers rely c s w s') :
    Ends answers' rely' c s w s' := by
  induction ends with
  | done w s => exact .done w s
  | await moved answer rest ih => exact .await (others _ _ moved) (answered _ _ _ _ answer) ih

/-- The run in which each call gets the answer that `answer` gives it. -/
def drive (answer : (op : I.Op) → σ → Except ε (I.Ans op) × σ) : Tree I ε ω → σ → ω × σ
  | .done w, s => (w, s)
  | .await op k, s => drive answer (k (answer op s).1) (answer op s).2

theorem drive_ends {answer : (op : I.Op) → σ → Except ε (I.Ans op) × σ} (refl : ∀ s, rely s s)
    (answered : ∀ op s, answers op s (answer op s).1 (answer op s).2) (c : Tree I ε ω) (s : σ) :
    Ends answers rely c s (drive answer c s).1 (drive answer c s).2 := by
  induction c generalizing s with
  | done w => exact .done w s
  | await op k ih => exact .await (refl s) (answered op s) (ih _ _)

theorem drive_bind (answer : (op : I.Op) → σ → Except ε (I.Ans op) × σ) (c : Tree I ε ω)
    (k : ω → Tree I ε ω') (s : σ) :
    (c.bind k).drive answer s = (k (c.drive answer s).1).drive answer (c.drive answer s).2 := by
  induction c generalizing s with
  | done w => rfl
  | await op c ih => exact ih _ _

/-- The first `n` calls of the run in which each call gets the answer that `answer` gives it. -/
def advance (answer : (op : I.Op) → σ → Except ε (I.Ans op) × σ) :
    Nat → Tree I ε ω → σ → Tree I ε ω × σ
  | 0, c, s => (c, s)
  | _ + 1, .done w, s => (.done w, s)
  | n + 1, .await op k, s => advance answer n (k (answer op s).1) (answer op s).2

def isDone : Tree I ε ω → Bool
  | .done _ => true
  | .await _ _ => false

end Tree

namespace Coro

variable {I : Interface} {ε σ τ α β : Type}

/-- `Tree.Safe` for a coroutine with local variables `v`. -/
def Safe (answers : Answers I ε σ) (rely guar : σ → σ → Prop) (c : Coro I ε τ α) (v : τ)
    (Q : Except ε α → τ → σ → Prop) (s : σ) : Prop :=
  (c v).Safe answers rely guar (fun w s' => Q w.1 w.2 s') s

variable {answers : Answers I ε σ} {rely guar : σ → σ → Prop} {v : τ} {s : σ}

theorem safe_pure (a : α) {Q : Except ε α → τ → σ → Prop} (h : Q (.ok a) v s) :
    (pure a : Coro I ε τ α).Safe answers rely guar v Q s := h

theorem safe_throw (e : ε) {Q : Except ε α → τ → σ → Prop} (h : Q (.error e) v s) :
    (throw e : Coro I ε τ α).Safe answers rely guar v Q s := h

theorem Safe.mono {c : Coro I ε τ α} {Q Q' : Except ε α → τ → σ → Prop}
    (h : c.Safe answers rely guar v Q s) (imp : ∀ o v s, Q o v s → Q' o v s) :
    c.Safe answers rely guar v Q' s :=
  Tree.Safe.mono h fun w s => imp w.1 w.2 s

theorem Safe.frame {c : Coro I ε τ α} {Q : Except ε α → τ → σ → Prop} {P : σ → Prop}
    (h : c.Safe answers rely guar v Q s) (kept : ∀ s s', rely s s' → P s → P s')
    (own : ∀ s s', guar s s' → P s → P s') (p : P s) :
    c.Safe answers rely guar v (fun o v s' => Q o v s' ∧ P s') s :=
  Tree.Safe.frame h kept own p

theorem safe_get_bind {k : τ → Coro I ε τ β} {Q : Except ε β → τ → σ → Prop} :
    (get >>= k).Safe answers rely guar v Q s ↔ (k v).Safe answers rely guar v Q s := Iff.rfl

theorem safe_set_bind (v' : τ) {k : PUnit → Coro I ε τ β} {Q : Except ε β → τ → σ → Prop} :
    ((set v' : Coro I ε τ PUnit) >>= k).Safe answers rely guar v Q s ↔
      (k ()).Safe answers rely guar v' Q s := Iff.rfl

theorem safe_modify_bind (f : τ → τ) {k : PUnit → Coro I ε τ β} {Q : Except ε β → τ → σ → Prop} :
    ((modify f : Coro I ε τ PUnit) >>= k).Safe answers rely guar v Q s ↔
      (k ()).Safe answers rely guar (f v) Q s := Iff.rfl

/-- The rule for a sequence. -/
theorem Safe.bind {c : Coro I ε τ α} {k : α → Coro I ε τ β} {Q : Except ε β → τ → σ → Prop}
    {P : Except ε α → τ → σ → Prop} (h : c.Safe answers rely guar v P s)
    (ok : ∀ a v' s', P (.ok a) v' s' → (k a).Safe answers rely guar v' Q s')
    (error : ∀ e v' s', P (.error e) v' s' → Q (.error e) v' s') :
    (c >>= k).Safe answers rely guar v Q s := by
  change (Tree.bind _ _).Safe _ _ _ _ _
  rw [Tree.safe_bind]
  refine Tree.Safe.mono h ?_
  rintro ⟨o, v'⟩ s' step
  cases o with
  | ok a => exact ok a v' s' step
  | error e => exact error e v' s' step

/-- The rule for a handler. -/
theorem Safe.tryCatch {c : Coro I ε τ α} {handler : ε → Coro I ε τ α}
    {Q P : Except ε α → τ → σ → Prop} (h : c.Safe answers rely guar v P s)
    (ok : ∀ a v' s', P (.ok a) v' s' → Q (.ok a) v' s')
    (error : ∀ e v' s', P (.error e) v' s' → (handler e).Safe answers rely guar v' Q s') :
    (tryCatch c handler).Safe answers rely guar v Q s := by
  change (Tree.bind _ _).Safe _ _ _ _ _
  rw [Tree.safe_bind]
  refine Tree.Safe.mono h ?_
  rintro ⟨o, v'⟩ s' step
  cases o with
  | ok a => exact ok a v' s' step
  | error e => exact error e v' s' step

/-- The rule for a call: whatever the others did first, the answer moves the store by
`guar` into the postcondition. -/
theorem safe_call (op : I.Op) {Q : Except ε (I.Ans op) → τ → σ → Prop}
    (h : ∀ s₁, rely s s₁ → ∀ r s₂, answers op s₁ r s₂ → guar s₁ s₂ ∧ Q r v s₂) :
    (call op : Coro I ε τ (I.Ans op)).Safe answers rely guar v Q s := h

/-- A call and what follows it. -/
theorem safe_call_bind (op : I.Op) {k : I.Ans op → Coro I ε τ β} {Q : Except ε β → τ → σ → Prop}
    (h : ∀ s₁, rely s s₁ → ∀ r s₂, answers op s₁ r s₂ → guar s₁ s₂ ∧
      (∀ a, r = .ok a → (k a).Safe answers rely guar v Q s₂) ∧
      ∀ e, r = .error e → Q (.error e) v s₂) :
    ((call op : Coro I ε τ (I.Ans op)) >>= k).Safe answers rely guar v Q s := by
  refine Safe.bind (P := fun r v' s₂ => v' = v ∧
    (∀ a, r = .ok a → (k a).Safe answers rely guar v Q s₂) ∧
    ∀ e, r = .error e → Q (.error e) v s₂) (safe_call op ?_) ?_ ?_
  · intro s₁ moved r s₂ answer
    obtain ⟨own, ok, error⟩ := h s₁ moved r s₂ answer
    exact ⟨own, rfl, ok, error⟩
  · rintro a v' s' ⟨rfl, ok, -⟩
    exact ok a rfl
  · rintro e v' s' ⟨rfl, -, error⟩
    exact error e rfl

/-- The rule for a `finally`: the cleanup follows however the body ended. -/
theorem Safe.ensure {c : Coro I ε τ α} {cleanup : Coro I ε τ Unit}
    {Q P : Except ε α → τ → σ → Prop} (h : c.Safe answers rely guar v P s)
    (after : ∀ o v' s', P o v' s' → cleanup.Safe answers rely guar v' (fun o' v'' s'' =>
      Q (match o' with | .ok _ => o | .error e => .error e) v'' s'') s') :
    (ensure c cleanup).Safe answers rely guar v Q s := by
  change (Tree.bind _ _).Safe _ _ _ _ _
  rw [Tree.safe_bind]
  refine Tree.Safe.mono h ?_
  rintro ⟨o, v'⟩ s' step
  rw [Tree.safe_bind]
  refine Tree.Safe.mono (after o v' s' step) ?_
  rintro ⟨o', v''⟩ s'' done
  cases o' with
  | ok _ => exact done
  | error e => exact done

/-! ### The run in which each call gets the answer that `answer` gives it -/

/-- That run ends with `a`, and leaves the store `s'`. -/
def Gives (answer : (op : I.Op) → σ → Except ε (I.Ans op) × σ) (c : Coro I ε τ α) (v : τ) (s : σ)
    (a : α) (s' : σ) : Prop := (c v).drive answer s = ((.ok a, v), s')

namespace Gives

variable {answer : (op : I.Op) → σ → Except ε (I.Ans op) × σ} {c : Coro I ε τ α} {a : α} {s' : σ}

theorem unique {b : α} {s'' : σ} (h : c.Gives answer v s a s') (h' : c.Gives answer v s b s'') :
    a = b ∧ s' = s'' := by
  have same := h.symm.trans h'
  simp only [Prod.mk.injEq, Except.ok.injEq, and_true] at same
  exact same

protected theorem pure (a : α) : (Pure.pure a : Coro I ε τ α).Gives answer v s a s := rfl

protected theorem call {op : I.Op} {a : I.Ans op} (h : answer op s = (.ok a, s')) :
    (Coro.call op : Coro I ε τ (I.Ans op)).Gives answer v s a s' := by
  change (((answer op s).1, v), (answer op s).2) = _
  rw [h]

protected theorem bind {k : α → Coro I ε τ β} {b : β} {s'' : σ} (first : c.Gives answer v s a s')
    (next : (k a).Gives answer v s' b s'') : (c >>= k).Gives answer v s b s'' := by
  change (Tree.bind _ _).drive _ _ = _
  rw [Tree.drive_bind, first]
  exact next

protected theorem tryCatch {handler : ε → Coro I ε τ α} (body : c.Gives answer v s a s') :
    (MonadExcept.tryCatch c handler).Gives answer v s a s' := by
  change (Tree.bind _ _).drive _ _ = _
  rw [Tree.drive_bind, body]
  rfl

end Gives

/-- Each step keeps what `rely` says, whatever comes of it. -/
def Keeps (answers : Answers I ε σ) (rely : σ → σ → Prop) (c : Coro I ε τ α) : Prop :=
  ∀ v s, c.Safe answers rely rely v (fun _ _ _ => True) s

namespace Keeps

protected theorem pure (a : α) : Keeps answers rely (Pure.pure a : Coro I ε τ α) :=
  fun _ _ => trivial

protected theorem throw (e : ε) : Keeps answers rely (MonadExcept.throw e : Coro I ε τ α) :=
  fun _ _ => trivial

protected theorem get : Keeps answers rely (MonadState.get : Coro I ε τ τ) := fun _ _ => trivial

protected theorem modify (f : τ → τ) : Keeps answers rely (modify f : Coro I ε τ PUnit) :=
  fun _ _ => trivial

protected theorem bind {c : Coro I ε τ α} {k : α → Coro I ε τ β} (first : Keeps answers rely c)
    (next : ∀ a, Keeps answers rely (k a)) : Keeps answers rely (c >>= k) :=
  fun v s => Safe.bind (first v s) (fun a v' s' _ => next a v' s') fun _ _ _ _ => trivial

protected theorem tryCatch {c : Coro I ε τ α} {handler : ε → Coro I ε τ α}
    (body : Keeps answers rely c) (caught : ∀ e, Keeps answers rely (handler e)) :
    Keeps answers rely (MonadExcept.tryCatch c handler) :=
  fun v s => Safe.tryCatch (body v s) (fun _ _ _ _ => trivial) fun e v' s' _ => caught e v' s'

protected theorem ensure {c : Coro I ε τ α} {cleanup : Coro I ε τ Unit}
    (body : Keeps answers rely c) (after : Keeps answers rely cleanup) :
    Keeps answers rely (ensure c cleanup) :=
  fun v s => Safe.ensure (body v s) fun _ v' s' _ => after v' s'

protected theorem call {op : I.Op} (h : ∀ s r s', answers op s r s' → rely s s') :
    Keeps answers rely (Coro.call op : Coro I ε τ (I.Ans op)) :=
  fun _ _ => safe_call op fun s₁ _ r s₂ answer => ⟨h s₁ r s₂ answer, trivial⟩

protected theorem post {op : I.Op} (h : ∀ s r s', answers op s r s' → rely s s') :
    Keeps answers rely (Coro.post op : Coro I ε τ Unit) :=
  fun _ _ s₁ _ r s₂ answer => ⟨h s₁ r s₂ answer, trivial⟩

end Keeps

end Coro

/-- A store and the coroutines that work on it. -/
structure Shared (I : Interface) (ε ω σ : Type) where
  store : σ
  tasks : List (Tree I ε ω) := []

namespace Shared

variable {I : Interface} {ε ω σ : Type}

/-- No task is under way. -/
def idle (s : Shared I ε ω σ) : Prop := ∀ task ∈ s.tasks, task.isDone = true

inductive Step (answers : Answers I ε σ) (env : σ → σ → Prop)
    (mayStart : Shared I ε ω σ → Tree I ε ω → Prop) : Shared I ε ω σ → Shared I ε ω σ → Prop
  | env (s : Shared I ε ω σ) (store : σ) (moved : env s.store store) :
      Step answers env mayStart s { s with store := store }
  | start (s : Shared I ε ω σ) (body : Tree I ε ω) (may : mayStart s body) :
      Step answers env mayStart s { s with tasks := s.tasks ++ [body] }
  | answer (s : Shared I ε ω σ) (i : Nat) (op : I.Op) (k : Except ε (I.Ans op) → Tree I ε ω)
      (here : s.tasks[i]? = some (.await op k)) (r : Except ε (I.Ans op)) (store : σ)
      (answer : answers op s.store r store) :
      Step answers env mayStart s ⟨store, s.tasks.set i (k r)⟩
  /-- The process of a task dies. -/
  | crash (s : Shared I ε ω σ) (i : Nat) :
      Step answers env mayStart s { s with tasks := s.tasks.eraseIdx i }

/-- A step in which no task dies. -/
def Steady (answers : Answers I ε σ) (env : σ → σ → Prop)
    (mayStart : Shared I ε ω σ → Tree I ε ω → Prop) (s t : Shared I ε ω σ) : Prop :=
  Step answers env mayStart s t ∧ s.tasks.length ≤ t.tasks.length

variable {answers : Answers I ε σ} {env rely guar : σ → σ → Prop}
  {mayStart : Shared I ε ω σ → Tree I ε ω → Prop} {Q : ω → σ → Prop}

variable (env mayStart) in
/-- A task that runs to its end while the others wait. -/
theorem ends_steps {c : Tree I ε ω} {store store' : σ} {w : ω}
    (ends : Tree.Ends answers Eq c store w store') {tasks : List (Tree I ε ω)} {i : Nat}
    (here : tasks[i]? = some c) : Relation.ReflTransGen (Step answers env mayStart)
      ⟨store, tasks⟩ ⟨store', tasks.set i (.done w)⟩ := by
  have bound := (List.getElem?_eq_some_iff.mp here).1
  induction ends generalizing tasks with
  | done w s =>
    rw [List.getElem?_eq_getElem bound, Option.some.injEq] at here
    rw [← here, List.set_getElem_self]
  | @await op k s s₁ s₂ s' r w moved answer rest ih =>
    subst moved
    have next : (tasks.set i (k r))[i]? = some (k r) := List.getElem?_set_self bound
    have later := ih next (by rwa [List.length_set])
    rw [List.set_set] at later
    exact .head (.answer ⟨s, tasks⟩ i op k here r s₂ answer) later

variable (env mayStart) in
/-- A task that makes some calls while the others wait. -/
theorem advance_steady {answer : (op : I.Op) → σ → Except ε (I.Ans op) × σ}
    (answered : ∀ op s, answers op s (answer op s).1 (answer op s).2) (n : Nat) (c : Tree I ε ω)
    (store : σ) {tasks : List (Tree I ε ω)} {i : Nat} (here : tasks[i]? = some c) :
    Relation.ReflTransGen (Steady answers env mayStart) ⟨store, tasks⟩
      ⟨(c.advance answer n store).2, tasks.set i (c.advance answer n store).1⟩ := by
  have bound := (List.getElem?_eq_some_iff.mp here).1
  have still : tasks.set i c = tasks := by
    rw [List.getElem?_eq_getElem bound, Option.some.injEq] at here
    rw [← here, List.set_getElem_self]
  induction n generalizing c store tasks with
  | zero => simp only [Tree.advance, still, Relation.ReflTransGen.refl]
  | succ n ih =>
    cases c with
    | done w => simp only [Tree.advance, still, Relation.ReflTransGen.refl]
    | await op k =>
      have next : (tasks.set i (k (answer op store).1))[i]? = some (k (answer op store).1) :=
        List.getElem?_set_self bound
      have later := ih _ (answer op store).2 next (by rwa [List.length_set])
        (by rw [List.set_set])
      rw [List.set_set] at later
      have step : Steady answers env mayStart ⟨store, tasks⟩
          ⟨(answer op store).2, tasks.set i (k (answer op store).1)⟩ :=
        ⟨.answer ⟨store, tasks⟩ i op k here _ _ (answered op store), by simp⟩
      exact .head step later

variable (env mayStart) in
theorem advance_steps {answer : (op : I.Op) → σ → Except ε (I.Ans op) × σ}
    (answered : ∀ op s, answers op s (answer op s).1 (answer op s).2) (n : Nat) (c : Tree I ε ω)
    (store : σ) {tasks : List (Tree I ε ω)} {i : Nat} (here : tasks[i]? = some c) :
    Relation.ReflTransGen (Step answers env mayStart) ⟨store, tasks⟩
      ⟨(c.advance answer n store).2, tasks.set i (c.advance answer n store).1⟩ :=
  (advance_steady env mayStart answered n c store here).lift id fun _ _ step => step.1

/-- At most one task is under way, and it is safe where the store stands. -/
structure Sequential (answers : Answers I ε σ) (rely guar : σ → σ → Prop) (Q : ω → σ → Prop)
    (s : Shared I ε ω σ) : Prop where
  one : ∀ (i j : Nat) (a b : Tree I ε ω), s.tasks[i]? = some a → s.tasks[j]? = some b →
    a.isDone = false → b.isDone = false → i = j
  safe : ∀ task ∈ s.tasks, task.isDone = false → task.Safe answers rely guar Q s.store

theorem Sequential.crash {s : Shared I ε ω σ} (h : Sequential answers rely guar Q s) (n : Nat) :
    Sequential answers rely guar Q { s with tasks := s.tasks.eraseIdx n } := by
  refine ⟨?_, fun task mem => h.safe task (List.mem_of_mem_eraseIdx mem)⟩
  intro i j a b atI atJ busyA busyB
  simp only [List.getElem?_eraseIdx] at atI atJ
  split at atI <;> split at atJ <;>
    · have := h.one _ _ a b atI atJ busyA busyB
      omega

theorem Sequential.start {s : Shared I ε ω σ} (h : Sequential answers rely guar Q s) (idle : s.idle)
    {body : Tree I ε ω} (safe : body.Safe answers rely guar Q s.store) :
    Sequential answers rely guar Q { s with tasks := s.tasks ++ [body] } := by
  have new {i : Nat} {a : Tree I ε ω} (at_ : (s.tasks ++ [body])[i]? = some a)
      (busy : a.isDone = false) : i = s.tasks.length := by
    by_contra ne
    have bound := (List.getElem?_eq_some_iff.mp at_).1
    rw [List.length_append, List.length_singleton] at bound
    rw [List.getElem?_append_left (by omega)] at at_
    rw [idle a (List.mem_of_getElem? at_)] at busy
    cases busy
  constructor
  · intro i j a b atI atJ busyA busyB
    rw [new atI busyA, new atJ busyB]
  · intro task mem busy
    rcases List.mem_append.mp mem with old | fresh
    · exact h.safe task old busy
    · rw [List.mem_singleton.mp fresh]
      exact safe

theorem Sequential.answer {s : Shared I ε ω σ} (h : Sequential answers rely guar Q s) {n : Nat}
    {op : I.Op} {k : Except ε (I.Ans op) → Tree I ε ω} {r : Except ε (I.Ans op)} {store : σ}
    (here : s.tasks[n]? = some (.await op k))
    (next : (k r).Safe answers rely guar Q store) :
    Sequential answers rely guar Q ⟨store, s.tasks.set n (k r)⟩ := by
  -- whoever is still under way is the task that moved
  have only {i : Nat} {a : Tree I ε ω} (at_ : (s.tasks.set n (k r))[i]? = some a)
      (busy : a.isDone = false) : i = n := by
    by_contra ne
    rw [List.getElem?_set_ne (Ne.symm ne)] at at_
    exact ne (h.one i n a _ at_ here busy rfl)
  constructor
  · intro i j a b atI atJ busyA busyB
    rw [only atI busyA, only atJ busyB]
  · intro task mem busy
    obtain ⟨i, at_⟩ := List.mem_iff_getElem?.mp mem
    have same := only at_ busy
    subst same
    have bound := (List.getElem?_eq_some_iff.mp here).1
    rw [List.getElem?_set_self bound, Option.some.injEq] at at_
    exact at_ ▸ next

theorem Sequential.moved {s : Shared I ε ω σ} (h : Sequential answers rely guar Q s)
    (trans : ∀ a b c, rely a b → rely b c → rely a c) {store : σ} (moved : rely s.store store) :
    Sequential answers rely guar Q { s with store := store } := by
  refine ⟨h.one, fun task mem busy => ?_⟩
  have before := h.safe task mem busy
  cases task with
  | done w => cases busy
  | await op k => exact before.moved trans moved

/-- Each step is one the others may rely on, one of the task under way, or none of the
store's. -/
theorem Sequential.step {s t : Shared I ε ω σ} (h : Sequential answers rely guar Q s)
    (others : ∀ a b, env a b → rely a b) (step : Step answers env mayStart s t)
    (refl : ∀ a, rely a a) : rely s.store t.store ∨ guar s.store t.store := by
  cases step with
  | env store moved => exact .inl (others _ _ moved)
  | start body may => exact .inl (refl _)
  | answer i op k here r store answer =>
    have safe := h.safe _ (List.mem_of_getElem? here) rfl
    exact .inr (safe s.store (refl _) r store answer).1
  | crash i => exact .inl (refl _)

/-- Where each task starts only when the others have ended, a property of the store that
`rely` and `guar` keep and from which every task is safe holds in every state. -/
theorem sequential_run (J : σ → Prop) (others : ∀ a b, env a b → rely a b)
    (refl : ∀ a, rely a a) (trans : ∀ a b c, rely a b → rely b c → rely a c)
    (kept : ∀ a b, rely a b → J a → J b) (own : ∀ a b, guar a b → J a → J b)
    (starts : ∀ s body, mayStart s body →
      s.idle ∧ (J s.store → body.Safe answers rely guar Q s.store))
    {init s : Shared I ε ω σ} (empty : init.tasks = []) (valid : J init.store)
    (run : Relation.ReflTransGen (Step answers env mayStart) init s) :
    J s.store ∧ Sequential answers rely guar Q s := by
  induction run with
  | refl => exact ⟨valid, by simp [empty], by simp [empty]⟩
  | @tail s t _ step ih =>
    obtain ⟨j, sequential⟩ := ih
    have j' : J t.store := by
      rcases sequential.step others step refl with moved | moved
      · exact kept _ _ moved j
      · exact own _ _ moved j
    refine ⟨j', ?_⟩
    cases step with
    | env store moved => exact sequential.moved trans (others _ _ moved)
    | start body may =>
      obtain ⟨idle, safe⟩ := starts _ body may
      exact sequential.start idle (safe j)
    | answer i op k here r store answer =>
      have safe := sequential.safe _ (List.mem_of_getElem? here) rfl
      exact sequential.answer here (safe _ (refl _) r store answer).2
    | crash i => exact sequential.crash i

/-- Where the tasks run together and each moves the store only as the others rely on, a
property that these moves keep and from which every task is safe holds in every state. -/
theorem concurrent_run (J : σ → Prop) (others : ∀ a b, env a b → rely a b)
    (refl : ∀ a, rely a a) (trans : ∀ a b c, rely a b → rely b c → rely a c)
    (kept : ∀ a b, rely a b → J a → J b)
    (starts : ∀ s body, mayStart s body → J s.store → body.Safe answers rely rely Q s.store)
    {init s : Shared I ε ω σ} (empty : init.tasks = []) (valid : J init.store)
    (run : Relation.ReflTransGen (Step answers env mayStart) init s) :
    J s.store ∧
      ∀ task ∈ s.tasks, task.isDone = false → task.Safe answers rely rely Q s.store := by
  induction run with
  | refl => exact ⟨valid, by simp [empty]⟩
  | @tail s t _ step ih =>
    obtain ⟨j, safe⟩ := ih
    have after {store : σ} (moved : rely s.store store) (task : Tree I ε ω) (mem : task ∈ s.tasks)
        (busy : task.isDone = false) : task.Safe answers rely rely Q store := by
      have before := safe task mem busy
      cases task with
      | done w => cases busy
      | await op k => exact before.moved trans moved
    cases step with
    | env store moved => exact ⟨kept _ _ (others _ _ moved) j, after (others _ _ moved)⟩
    | start body may =>
      refine ⟨j, fun task mem busy => ?_⟩
      rcases List.mem_append.mp mem with old | fresh
      · exact safe task old busy
      · rw [List.mem_singleton.mp fresh]
        exact starts s body may j
    | answer i op k here r store answer =>
      obtain ⟨moved, next⟩ :=
        safe _ (List.mem_of_getElem? here) rfl s.store (refl _) r store answer
      refine ⟨kept _ _ moved j, fun task mem busy => ?_⟩
      rcases List.mem_or_eq_of_mem_set mem with old | rfl
      · exact after moved task old busy
      · exact next
    | crash i => exact ⟨j, fun task mem => safe task (List.mem_of_mem_eraseIdx mem)⟩

/-- `concurrent_run` for a postcondition that the moves keep: it holds of the tasks that ended. -/
theorem concurrent_ended (J : σ → Prop) (others : ∀ a b, env a b → rely a b)
    (refl : ∀ a, rely a a) (trans : ∀ a b c, rely a b → rely b c → rely a c)
    (kept : ∀ a b, rely a b → J a → J b)
    (stable : ∀ w a b, rely a b → J a → Q w a → Q w b)
    (starts : ∀ s body, mayStart s body → J s.store → body.Safe answers rely rely Q s.store)
    {init s : Shared I ε ω σ} (empty : init.tasks = []) (valid : J init.store)
    (run : Relation.ReflTransGen (Step answers env mayStart) init s) :
    J s.store ∧ ∀ w, Tree.done w ∈ s.tasks → Q w s.store := by
  have all : J s.store ∧ ∀ task ∈ s.tasks, task.Safe answers rely rely Q s.store := by
    induction run with
    | refl => exact ⟨valid, by simp [empty]⟩
    | @tail s t _ step ih =>
      obtain ⟨j, safe⟩ := ih
      have after {store : σ} (moved : rely s.store store) (task : Tree I ε ω)
          (mem : task ∈ s.tasks) : task.Safe answers rely rely Q store := by
        have before := safe task mem
        cases task with
        | done w => exact stable w _ _ moved j before
        | await op k => exact before.moved trans moved
      cases step with
      | env store moved => exact ⟨kept _ _ (others _ _ moved) j, after (others _ _ moved)⟩
      | start body may =>
        refine ⟨j, fun task mem => ?_⟩
        rcases List.mem_append.mp mem with old | fresh
        · exact safe task old
        · rw [List.mem_singleton.mp fresh]
          exact starts s body may j
      | answer i op k here r store answer =>
        obtain ⟨moved, next⟩ :=
          safe _ (List.mem_of_getElem? here) s.store (refl _) r store answer
        refine ⟨kept _ _ moved j, fun task mem => ?_⟩
        rcases List.mem_or_eq_of_mem_set mem with old | rfl
        · exact after moved task old
        · exact next
      | crash i => exact ⟨j, fun task mem => safe task (List.mem_of_mem_eraseIdx mem)⟩
  exact ⟨all.1, fun w mem => all.2 _ mem⟩

/-- Where each call hands what it puts in transit to the call that follows it, what is in
transit is with a task, as long as no task dies. -/
theorem custody_run {α : Type} (transit : σ → α → Prop) (carries : Tree I ε ω → α → Prop)
    (Fit : Tree I ε ω → Prop) (others : ∀ a b, env a b → ∀ x, transit b x → transit a x)
    (starts : ∀ s body, mayStart s body → Fit body)
    (hands : ∀ op k, Fit (.await op k) → ∀ s r s', answers op s r s' → Fit (k r) ∧
      ∀ x, transit s' x → transit s x ∧ ¬ carries (.await op k) x ∨ carries (k r) x)
    {init s : Shared I ε ω σ} (empty : init.tasks = []) (none_ : ∀ x, ¬ transit init.store x)
    (run : Relation.ReflTransGen (Steady answers env mayStart) init s) :
    (∀ task ∈ s.tasks, Fit task) ∧
      ∀ x, transit s.store x → ∃ task ∈ s.tasks, carries task x := by
  induction run with
  | refl => exact ⟨by simp [empty], fun x moving => absurd moving (none_ x)⟩
  | @tail s t _ steady ih =>
    obtain ⟨fit, held⟩ := ih
    obtain ⟨step, alive⟩ := steady
    cases step with
    | env store moved => exact ⟨fit, fun x moving => held x (others _ _ moved x moving)⟩
    | start body may =>
      constructor
      · intro task mem
        rcases List.mem_append.mp mem with old | fresh
        · exact fit task old
        · rw [List.mem_singleton.mp fresh]
          exact starts s body may
      · intro x moving
        obtain ⟨task, mem, carries⟩ := held x moving
        exact ⟨task, List.mem_append_left _ mem, carries⟩
    | answer i op k here r store answer =>
      have bound := (List.getElem?_eq_some_iff.mp here).1
      obtain ⟨next, handed⟩ := hands op k (fit _ (List.mem_of_getElem? here)) s.store r store answer
      constructor
      · intro task mem
        rcases List.mem_or_eq_of_mem_set mem with old | rfl
        · exact fit task old
        · exact next
      · intro x moving
        rcases handed x moving with ⟨before, elsewhere⟩ | own
        · obtain ⟨task, mem, carries⟩ := held x before
          obtain ⟨j, at_⟩ := List.mem_iff_getElem?.mp mem
          have apart : i ≠ j := by
            rintro rfl
            rw [here, Option.some.injEq] at at_
            exact elsewhere (at_ ▸ carries)
          have still : (s.tasks.set i (k r))[j]? = some task := by
            rw [List.getElem?_set_ne apart, at_]
          exact ⟨task, List.mem_of_getElem? still, carries⟩
        · exact ⟨k r, List.mem_of_getElem? (List.getElem?_set_self bound), own⟩
    | crash i =>
      -- nothing was erased
      have beyond : s.tasks.length ≤ i := by
        by_contra within
        simp only [List.length_eraseIdx] at alive
        split at alive <;> omega
      rw [List.eraseIdx_of_length_le beyond]
      exact ⟨fit, held⟩

end Shared

end Async
