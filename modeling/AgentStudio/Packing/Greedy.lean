import Mathlib.Data.List.Infix
import Mathlib.Algebra.BigOperators.Group.List.Basic
import Mathlib.Algebra.Order.Ring.Nat

/-!
# Taking what fits

A walk over a list with a budget: what fits is taken, what does not is passed over, and
the walk goes on. What is taken is a prefix only if nothing after the first misfit fits.
-/

namespace Packing

variable {α β : Type} (cost : α → Nat)

/-- What the walk takes. -/
def taken : Nat → List α → List α
  | _, [] => []
  | budget, x :: xs =>
    if budget < cost x then taken budget xs else x :: taken (budget - cost x) xs

/-- The longest start of the list that fits. -/
def fitting : Nat → List α → List α
  | _, [] => []
  | budget, x :: xs => if budget < cost x then [] else x :: fitting (budget - cost x) xs

/-- The costs together. -/
def total (xs : List α) : Nat := (xs.map cost).sum

/-- The list whole where it fits, or nothing of it. -/
def whole (budget : Nat) (xs : List α) : List α := if total cost xs ≤ budget then xs else []

variable {cost}

@[simp] theorem total_nil : total cost [] = 0 := rfl

@[simp] theorem total_cons (x : α) (xs : List α) : total cost (x :: xs) = cost x + total cost xs :=
  List.sum_cons

theorem total_single (x : α) : total cost [x] = cost x := by rw [total_cons, total_nil, add_zero]

theorem total_reverse (xs : List α) : total cost xs.reverse = total cost xs := by
  rw [total, List.map_reverse, List.sum_reverse, total]

@[simp] theorem taken_nil (budget : Nat) : taken cost budget [] = [] := rfl

theorem taken_misfit {budget : Nat} {x : α} (misfit : budget < cost x) (xs : List α) :
    taken cost budget (x :: xs) = taken cost budget xs := if_pos misfit

theorem taken_fit {budget : Nat} {x : α} (fits : cost x ≤ budget) (xs : List α) :
    taken cost budget (x :: xs) = x :: taken cost (budget - cost x) xs :=
  if_neg (Nat.not_lt.mpr fits)

variable (cost) in
theorem taken_sublist (budget : Nat) (xs : List α) : (taken cost budget xs).Sublist xs := by
  induction xs generalizing budget with
  | nil => exact List.Sublist.slnil
  | cons x xs ih =>
    by_cases misfit : budget < cost x
    · rw [taken_misfit misfit]
      exact (ih budget).cons x
    · rw [taken_fit (Nat.le_of_not_lt misfit)]
      exact (ih _).cons₂ x

variable (cost) in
theorem total_taken (budget : Nat) (xs : List α) : total cost (taken cost budget xs) ≤ budget := by
  induction xs generalizing budget with
  | nil => exact Nat.zero_le _
  | cons x xs ih =>
    by_cases misfit : budget < cost x
    · rw [taken_misfit misfit]
      exact ih budget
    · have rest := ih (budget - cost x)
      rw [taken_fit (Nat.le_of_not_lt misfit), total_cons]
      omega

theorem whole_fits {budget : Nat} {xs : List α} (fits : total cost xs ≤ budget) :
    whole cost budget xs = xs := if_pos fits

theorem whole_misfit {budget : Nat} {xs : List α} (misfit : ¬total cost xs ≤ budget) :
    whole cost budget xs = [] := if_neg misfit

@[simp] theorem whole_nil (budget : Nat) : whole cost budget [] = [] := whole_fits (Nat.zero_le _)

variable (cost) in
theorem whole_cases (budget : Nat) (xs : List α) :
    whole cost budget xs = [] ∨ whole cost budget xs = xs := by
  rw [whole]
  split
  · exact .inr rfl
  · exact .inl rfl

theorem fitting_misfit {budget : Nat} {x : α} (misfit : budget < cost x) (xs : List α) :
    fitting cost budget (x :: xs) = [] := if_pos misfit

theorem fitting_fit {budget : Nat} {x : α} (fits : cost x ≤ budget) (xs : List α) :
    fitting cost budget (x :: xs) = x :: fitting cost (budget - cost x) xs :=
  if_neg (Nat.not_lt.mpr fits)

variable (cost) in
theorem fitting_starts (budget : Nat) (xs : List α) : fitting cost budget xs <+: xs := by
  induction xs generalizing budget with
  | nil => exact List.prefix_rfl
  | cons x xs ih =>
    by_cases misfit : budget < cost x
    · rw [fitting_misfit misfit]
      exact List.nil_prefix
    · rw [fitting_fit (Nat.le_of_not_lt misfit)]
      exact List.cons_prefix_cons.mpr ⟨rfl, ih _⟩

/-- Nothing fits. -/
theorem taken_eq_nil_iff {budget : Nat} {xs : List α} :
    taken cost budget xs = [] ↔ ∀ x ∈ xs, budget < cost x := by
  induction xs with
  | nil => simp
  | cons x xs ih =>
    by_cases misfit : budget < cost x
    · rw [taken_misfit misfit, ih]
      simp [misfit]
    · rw [taken_fit (Nat.le_of_not_lt misfit)]
      simp [misfit]

/-- Where the first misfit is, nothing after it would fit in its place. -/
def NoGap (cost : α → Nat) (budget : Nat) (xs : List α) : Prop :=
  ∀ before x after, xs = before ++ x :: after → total cost before ≤ budget →
    budget < total cost before + cost x → ∀ y ∈ after, budget < total cost before + cost y

theorem noGap_misfit {budget : Nat} {x : α} {xs : List α} (misfit : budget < cost x) :
    NoGap cost budget (x :: xs) ↔ ∀ y ∈ xs, budget < cost y := by
  constructor
  · intro noGap y mem
    have small := noGap [] x xs rfl (Nat.zero_le _) (by simpa using misfit) y mem
    simpa using small
  · intro small before y after is fits large z mem
    cases before with
    | nil =>
      obtain ⟨rfl, rfl⟩ := List.cons.inj is
      simpa using small z mem
    | cons b before =>
      obtain ⟨rfl, -⟩ := List.cons.inj is
      rw [total_cons] at fits
      omega

theorem noGap_fit {budget : Nat} {x : α} {xs : List α} (fits : cost x ≤ budget) :
    NoGap cost budget (x :: xs) ↔ NoGap cost (budget - cost x) xs := by
  constructor
  · intro noGap before y after is within large z mem
    have small := noGap (x :: before) y after (by rw [is]; rfl) (by rw [total_cons]; omega)
      (by rw [total_cons]; omega) z mem
    rw [total_cons] at small
    omega
  · intro noGap before y after is within large z mem
    cases before with
    | nil =>
      obtain ⟨rfl, -⟩ := List.cons.inj is
      rw [total_nil, Nat.zero_add] at large
      omega
    | cons b before =>
      obtain ⟨rfl, tail⟩ := List.cons.inj is
      rw [total_cons] at within large ⊢
      have small := noGap before y after tail (by omega) (by omega) z mem
      omega

/-- What is taken is a prefix if and only if there is no gap. -/
theorem taken_prefix_iff {budget : Nat} {xs : List α} :
    taken cost budget xs <+: xs ↔ NoGap cost budget xs := by
  induction xs generalizing budget with
  | nil =>
    refine ⟨fun _ before x after is => ?_, fun _ => List.prefix_rfl⟩
    simp at is
  | cons x xs ih =>
    by_cases misfit : budget < cost x
    · rw [noGap_misfit misfit, taken_misfit misfit, ← taken_eq_nil_iff]
      constructor
      · intro is
        -- the first that is taken would be the misfit
        cases first : taken cost budget xs with
        | nil => rfl
        | cons y ys =>
          rw [first] at is
          obtain ⟨rfl, -⟩ := List.cons_prefix_cons.mp is
          have within := total_taken cost budget xs
          rw [first, total_cons] at within
          omega
      · intro none_
        rw [none_]
        exact List.nil_prefix
    · have fits := Nat.le_of_not_lt misfit
      rw [noGap_fit fits, taken_fit fits, List.cons_prefix_cons, ih]
      exact and_iff_right rfl

end Packing
