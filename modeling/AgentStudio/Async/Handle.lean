import AgentStudio.Async.Coro

/-!
# Calls that are coroutines themselves

A call of a program may be a program of its own, over calls further down. `handle`
puts the one into the other. A run of what comes out is a run of the program, with
a run of the handler for each of its calls.
-/

namespace Async

namespace Tree

variable {I J : Interface} {ε ω ω' : Type}

/-- A sequence runs as its first part and then its second. -/
theorem runs_bind {c : Tree I ε ω} {k : ω → Tree I ε ω'} {t : Trace I ε} {w' : ω'} :
    (c.bind k).Runs t w' ↔ ∃ t₁ w t₂, c.Runs t₁ w ∧ (k w).Runs t₂ w' ∧ t = t₁ ++ t₂ := by
  induction c generalizing t with
  | done w =>
    constructor
    · exact fun run => ⟨[], w, t, .done w, run, rfl⟩
    · rintro ⟨_, _, t₂, ⟨⟩, run, rfl⟩
      exact run
  | await op c ih =>
    constructor
    · intro run
      cases run with
      | await _ _ r rest =>
        obtain ⟨t₁, w, t₂, first, next, rfl⟩ := (ih r).mp rest
        exact ⟨⟨op, r⟩ :: t₁, w, t₂, .await op c r first, next, rfl⟩
    · rintro ⟨_, w, t₂, first, next, rfl⟩
      cases first with
      | await _ _ r rest => exact .await op _ r ((ih r).mpr ⟨_, w, t₂, rest, next, rfl⟩)

/-- Where every call may be answered in some way, there is a run answered so. -/
theorem exists_fair_run {fair : Event I ε → Prop} (some_ : ∀ op, ∃ r, fair ⟨op, r⟩)
    (c : Tree I ε ω) : ∃ t w, c.Runs t w ∧ ∀ ev ∈ t, fair ev := by
  induction c with
  | done w => exact ⟨[], w, .done w, fun _ mem => absurd mem List.not_mem_nil⟩
  | await op k ih =>
    obtain ⟨r, first⟩ := some_ op
    obtain ⟨t, w, run, rest⟩ := ih r
    refine ⟨⟨op, r⟩ :: t, w, .await op k r run, fun ev mem => ?_⟩
    rcases List.mem_cons.mp mem with rfl | mem
    · exact first
    · exact rest ev mem

section
variable (h : (op : I.Op) → Tree J ε (Except ε (I.Ans op)))

/-- `c` with each of its calls made by a coroutine. -/
def handle : Tree I ε ω → Tree J ε ω
  | done w => done w
  | await op k => (h op).bind fun r => (k r).handle

/-- What the calls of `t` are further down, call by call. -/
abbrev Handled (t : Trace I ε) (ds : List (Trace J ε)) : Prop :=
  List.Forall₂ (fun ev d => (h ev.op).Runs d ev.reply) t ds

theorem runs_handle {c : Tree I ε ω} {d : Trace J ε} {w : ω} :
    (c.handle h).Runs d w ↔ ∃ t ds, c.Runs t w ∧ Handled h t ds ∧ d = ds.flatten := by
  induction c generalizing d with
  | done w' =>
    constructor
    · rintro ⟨⟩
      exact ⟨[], [], .done _, .nil, rfl⟩
    · rintro ⟨_, _, ⟨⟩, ⟨⟩, rfl⟩
      exact .done _
  | await op k ih =>
    rw [handle, runs_bind]
    constructor
    · rintro ⟨d₁, r, d₂, first, next, rfl⟩
      obtain ⟨t, ds, run, handled, rfl⟩ := (ih r).mp next
      exact ⟨⟨op, r⟩ :: t, d₁ :: ds, .await op k r run, .cons first handled, rfl⟩
    · rintro ⟨_, ds, run, handled, rfl⟩
      cases run with
      | await _ _ r rest =>
        cases handled with
        | cons first handled =>
          exact ⟨_, r, _, first, (ih r).mpr ⟨_, _, rest, handled, rfl⟩, rfl⟩

/-- What ends every run below whose calls are answered fairly. -/
theorem all_handle_iff {c : Tree I ε ω} {fair : Event J ε → Prop} {Q : ω → Prop} :
    ((c.handle h).All fun d w => (∀ ev ∈ d, fair ev) → Q w) ↔ ∀ t w, c.Runs t w →
      (∀ ev ∈ t, ∃ d, (h ev.op).Runs d ev.reply ∧ ∀ ev' ∈ d, fair ev') → Q w := by
  rw [all_iff]
  constructor
  · intro all t w run below
    have handled : ∃ ds, Handled h t ds ∧ ∀ ev ∈ ds.flatten, fair ev := by
      clear run all
      induction t with
      | nil => exact ⟨[], .nil, fun _ mem => by cases mem⟩
      | cons ev t ih =>
        obtain ⟨d, first, fair_⟩ := below ev List.mem_cons_self
        obtain ⟨ds, rest, all_⟩ := ih fun ev mem => below ev (List.mem_cons_of_mem _ mem)
        refine ⟨d :: ds, .cons first rest, fun ev mem => ?_⟩
        rcases List.mem_append.mp mem with mem | mem
        · exact fair_ ev mem
        · exact all_ ev mem
    obtain ⟨ds, handled, fair_⟩ := handled
    exact all _ w ((runs_handle h).mpr ⟨t, ds, run, handled, rfl⟩) fair_
  · intro each d w run fair_
    obtain ⟨t, ds, above, handled, rfl⟩ := (runs_handle h).mp run
    apply each t w above
    clear run above
    induction handled with
    | nil => exact fun _ mem => by cases mem
    | @cons ev d t ds first rest ih =>
      intro ev' mem
      rcases List.mem_cons.mp mem with rfl | mem
      · exact ⟨d, first, fun ev mem => fair_ ev (List.mem_append_left _ mem)⟩
      · exact ih (fun ev mem => fair_ ev (List.mem_append_right _ mem)) ev' mem

end

end Tree

namespace Coro

variable {I : Interface} {ε σ α β : Type} {c : Coro I ε σ α} {s s' s'' : σ} {t t' : Trace I ε}

theorem all_runs (c : Coro I ε σ α) (s : σ) : c.All s (c.Runs s) :=
  all_iff.mpr fun _ _ _ run => run

theorem Runs.bind {k : α → Coro I ε σ β} {a : α} {o : Except ε β} (first : c.Runs s t (.ok a) s')
    (next : (k a).Runs s' t' o s'') : (c >>= k).Runs s (t ++ t') o s'' :=
  Tree.runs_bind.mpr ⟨t, (.ok a, s'), t', first, next, rfl⟩

theorem Runs.raise {e : ε} (first : c.Runs s t (.error e) s') (k : α → Coro I ε σ β) :
    (c >>= k).Runs s t (.error e) s' :=
  Tree.runs_bind.mpr ⟨t, (.error e, s'), [], first, .done _, by rw [List.append_nil]⟩

theorem Runs.passes {a : α} (body : c.Runs s t (.ok a) s') (handler : ε → Coro I ε σ α) :
    (tryCatch c handler).Runs s t (.ok a) s' :=
  Tree.runs_bind.mpr ⟨t, (.ok a, s'), [], body, .done _, by rw [List.append_nil]⟩

theorem Runs.caught {handler : ε → Coro I ε σ α} {e : ε} {o : Except ε α}
    (body : c.Runs s t (.error e) s') (handled : (handler e).Runs s' t' o s'') :
    (tryCatch c handler).Runs s (t ++ t') o s'' :=
  Tree.runs_bind.mpr ⟨t, (.error e, s'), t', body, handled, rfl⟩

theorem runs_tree {d : Trace I ε} {o : Except ε α} :
    (c.tree s).Runs d o ↔ ∃ s', c.Runs s d o s' := by
  constructor
  · intro run
    obtain ⟨d, w, _, first, ⟨⟩, rfl⟩ := Tree.runs_bind.mp run
    exact ⟨w.2, by rw [List.append_nil]; exact first⟩
  · rintro ⟨s', run⟩
    exact Tree.runs_bind.mpr ⟨d, (o, s'), [], run, .done _, (List.append_nil d).symm⟩

end Coro

end Async
