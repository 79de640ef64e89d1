import AgentStudio.Async.Turns

/-!
# What a pool has in all

A quantity that calls move between the store and themselves: the store has some of it and
each task has some, and an answer changes nothing of the total.
-/

namespace Async

variable {κ : Type} {I : Interface} {ε ω σ M : Type} [AddCommGroup M]

/-- From a store in which `J` holds on, no answer changes what the store and the task have. -/
def Tree.Balances (replies : Answers I ε σ) (J : σ → Prop) (store : σ → M)
    (has : Tree I ε ω → M) : Tree I ε ω → Prop
  | .done _ => True
  | .await op k => ∀ s r s', J s → replies op s r s' →
      J s' ∧ store s' + has (k r) = store s + has (.await op k) ∧
        Balances replies J store has (k r)

namespace Pool

variable {replies : Replies κ I ε σ} {env : σ → σ → Prop} {body : κ → Tree I ε ω}
  {J : σ → Prop} {store : σ → M} {has : κ → Tree I ε ω → M} {p q : Pool κ I ε ω σ}

/-- What the store and the tasks have. -/
def total (store : σ → M) (has : κ → Tree I ε ω → M) (p : Pool κ I ε ω σ) : M :=
  store p.store + (p.tasks.map fun task => has task.call task.rest).sum

/-- A task that has come from its body balances. -/
def Balanced (replies : Replies κ I ε σ) (J : σ → Prop) (store : σ → M)
    (has : κ → Tree I ε ω → M) (p : Pool κ I ε ω σ) : Prop :=
  ∀ (i : Nat) (task : Task κ I ε ω), p.tasks[i]? = some task →
    task.rest.Balances (replies i task.call) J store (has task.call)

theorem turn_balanced (moves : ∀ s s', env s s' → J s → J s' ∧ store s' = store s)
    (bodies : ∀ i call, (body call).Balances (replies i call) J store (has call))
    (nothing : ∀ call, has call (body call) = 0) (turn : Turn replies env body p q)
    (sound : J p.store) (balanced : p.Balanced replies J store has) :
    J q.store ∧ q.Balanced replies J store has ∧ total store has q = total store has p := by
  cases turn with
  | env s moved =>
    obtain ⟨sound', same⟩ := moves _ _ moved sound
    refine ⟨sound', balanced, ?_⟩
    rw [total, total, same]
  | start call =>
    refine ⟨sound, ?_, ?_⟩
    · intro i task here
      rcases get_snoc_cases here with here | ⟨-, is⟩
      · exact balanced i task here
      · rw [is]
        exact bodies i call
    · simp [total, nothing]
  | answer i call trace op k here r s reply =>
    obtain ⟨sound', same, rest⟩ := balanced i _ here p.store r s sound reply
    refine ⟨sound', ?_, ?_⟩
    · intro j task there
      by_cases own : j = i
      · rw [own, resume_self here] at there
        cases there
        rw [own]
        exact rest
      · rw [resume_other own] at there
        exact balanced j task there
    · have sum := sum_map_set (fun task : Task κ I ε ω => has task.call task.rest) here
        ⟨call, trace ++ [⟨op, r⟩], k r⟩
      have moved : store s = store p.store + has call (.await op k) - has call (k r) :=
        eq_sub_of_add_eq same
      simp only [total, resume]
      rw [sum, moved]
      abel

/-- The rule for what a pool has in all. -/
theorem turns_balanced (moves : ∀ s s', env s s' → J s → J s' ∧ store s' = store s)
    (bodies : ∀ i call, (body call).Balances (replies i call) J store (has call))
    (nothing : ∀ call, has call (body call) = 0) (run : Turns replies env body p q)
    (sound : J p.store) (balanced : p.Balanced replies J store has) :
    J q.store ∧ q.Balanced replies J store has ∧ total store has q = total store has p := by
  induction run with
  | refl => exact ⟨sound, balanced, rfl⟩
  | tail _ turn ih =>
    obtain ⟨sound, balanced, same⟩ := ih
    obtain ⟨sound', balanced', same'⟩ := turn_balanced moves bodies nothing turn sound balanced
    exact ⟨sound', balanced', same'.trans same⟩

end Pool

end Async
