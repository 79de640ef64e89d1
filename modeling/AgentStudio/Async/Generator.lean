import Mathlib.Data.List.Basic

/-!
# Generators over what they read

A generator keeps variables, reads one thing after another and yields for each a number of things.
The rules say what is seen of what it yields, and what its variables come to, from what one step
does.
-/

namespace Async.Generator

variable {σ α β γ τ : Type}

/-- The variables at the end, and what was yielded meanwhile. -/
def run (step : σ → α → σ × List β) : σ → List α → σ × List β
  | s, [] => (s, [])
  | s, a :: rest => ((run step (step s a).1 rest).1, (step s a).2 ++ (run step (step s a).1 rest).2)

variable {step : σ → α → σ × List β}

/-- Where a step shows what it reads, whatever the variables are. -/
theorem run_shows {f : β → Option γ} {shown : α → List γ}
    (h : ∀ s a, (step s a).2.filterMap f = shown a) (s : σ) (l : List α) :
    (run step s l).2.filterMap f = l.flatMap shown := by
  induction l generalizing s with
  | nil => rfl
  | cons a l ih => rw [run, List.filterMap_append, h, ih, List.flatMap_cons]

/-- A variable that moves by what is read alone. -/
theorem run_foldl {get : σ → τ} {next : τ → α → τ} (h : ∀ s a, get (step s a).1 = next (get s) a)
    (s : σ) (l : List α) : get (run step s l).1 = l.foldl next (get s) := by
  induction l generalizing s with
  | nil => rfl
  | cons a l ih => rw [run, List.foldl_cons, ← h, ih]

/-- A variable that is set to what is read, where anything is. -/
theorem run_last {get : σ → τ} {sets : α → List τ}
    (h : ∀ s a, get (step s a).1 = (sets a).getLastD (get s)) (s : σ) (l : List α) :
    get (run step s l).1 = (l.flatMap sets).getLastD (get s) := by
  induction l generalizing s with
  | nil => rfl
  | cons a l ih =>
    rw [run, ih, h, List.flatMap_cons]
    simp only [List.getLastD_eq_getLast?, List.getLast?_append, Option.getD_or]

end Async.Generator
