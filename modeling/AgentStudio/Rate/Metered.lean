import Mathlib.Algebra.Order.Field.Basic
import Mathlib.Algebra.BigOperators.Group.List.Basic
import Mathlib.Tactic.Linarith

/-!
# Metered spending

Something is spent from a level that is refilled at a constant rate and holds no more
than its capacity. What is spent in an interval was in it at the start or has flowed in
meanwhile: the level is the potential.
-/

namespace Metered

variable {K : Type} [Field K] [LinearOrder K]

/-- An attempt to spend, which may be refused. -/
structure Attempt (K : Type) where
  time : K
  cost : K
  granted : Bool

def Attempt.spent (a : Attempt K) : K := if a.granted = true then a.cost else 0

/-- What was left, and when. -/
structure Level (K : Type) where
  amount : K
  time : K

/-- What an attempt leaves, with what it spends, is within the capacity, and within what was
there and has flowed in since; only what was there is granted. -/
structure Draws (capacity rate : K) (before : Option (Level K)) (a : Attempt K)
    (after : Level K) : Prop where
  time : after.time = a.time
  capped : after.amount + a.spent ≤ capacity
  refilled : ∀ l, before = some l → after.amount + a.spent ≤ l.amount + rate * (a.time - l.time)
  covered : a.granted = true → 0 ≤ after.amount

/-- Attempts one after the other. -/
def Metered (capacity rate : K) : Option (Level K) → List (Attempt K) → Prop
  | _, [] => True
  | before, a :: rest => ∃ after, Draws capacity rate before a after ∧
      Metered capacity rate (some after) rest

/-- What is spent from `start` on, for `length`. -/
def spentIn (start length : K) (as : List (Attempt K)) : K :=
  ((as.filter fun a => start ≤ a.time ∧ a.time ≤ start + length).map Attempt.spent).sum

variable {capacity rate start length : K} {as : List (Attempt K)} {a : Attempt K}

@[simp] theorem spentIn_nil : spentIn start length ([] : List (Attempt K)) = 0 := rfl

theorem spentIn_inside (low : start ≤ a.time) (high : a.time ≤ start + length) :
    spentIn start length (a :: as) = a.spent + spentIn start length as := by
  simp [spentIn, low, high]

theorem spentIn_outside (out : ¬ (start ≤ a.time ∧ a.time ≤ start + length)) :
    spentIn start length (a :: as) = spentIn start length as := by
  simp [spentIn, out]

/-- After the interval. -/
theorem spentIn_after (late : ∀ a ∈ as, start + length < a.time) : spentIn start length as = 0 := by
  induction as with
  | nil => rfl
  | cons a as ih =>
    rw [spentIn_outside fun inside => absurd inside.2 (late a List.mem_cons_self).not_ge]
    exact ih fun b mem => late b (List.mem_cons_of_mem a mem)

/-- Within the bound as it is at `time`, or nothing at all. -/
def Bounded (capacity rate start time total : K) : Prop :=
  total = 0 ∨ total ≤ capacity + rate * (time - start)

variable [IsStrictOrderedRing K]

theorem Bounded.later {time time' total : K} (bounded : Bounded capacity rate start time total)
    (flows : 0 ≤ rate) (later : time ≤ time') : Bounded capacity rate start time' total := by
  refine bounded.imp_right fun within => ?_
  have more : rate * (time - start) ≤ rate * (time' - start) :=
    mul_le_mul_of_nonneg_left (by linarith) flows
  linarith

/-- What an attempt in the interval makes of the total. -/
theorem Bounded.spend {total : K} {l after : Level K}
    (bounded : Bounded capacity rate start l.time total) (flows : 0 ≤ rate)
    (level : total + l.amount ≤ capacity + rate * (l.time - start))
    (draws : Draws capacity rate (some l) a after) (later : l.time ≤ a.time) :
    Bounded capacity rate start after.time (total + a.spent) ∧
      total + a.spent + after.amount ≤ capacity + rate * (after.time - start) := by
  rw [draws.time]
  have refilled := draws.refilled l rfl
  have flow : rate * (l.time - start) + rate * (a.time - l.time) = rate * (a.time - start) := by
    rw [← mul_add]
    congr 1
    linarith
  have level' : total + a.spent + after.amount ≤ capacity + rate * (a.time - start) := by linarith
  refine ⟨?_, level'⟩
  by_cases granted : a.granted = true
  · have covered := draws.covered granted
    exact .inr (by linarith)
  · rw [Attempt.spent, if_neg granted, add_zero]
    exact bounded.later flows later

/-- From a level inside the interval, with what is spent so far. -/
theorem bounded_from (flows : 0 ≤ rate) {l : Level K} {total : K} (low : start ≤ l.time)
    (high : l.time ≤ start + length) (bounded : Bounded capacity rate start l.time total)
    (level : total + l.amount ≤ capacity + rate * (l.time - start))
    (later : ∀ a ∈ as, l.time ≤ a.time) (ordered : as.Pairwise fun a b => a.time ≤ b.time)
    (metered : Metered capacity rate (some l) as) :
    Bounded capacity rate start (start + length) (total + spentIn start length as) := by
  induction as generalizing l total with
  | nil =>
    rw [spentIn_nil, add_zero]
    exact bounded.later flows high
  | cons a as ih =>
    obtain ⟨after, draws, rest⟩ := metered
    obtain ⟨first, ordered⟩ := List.pairwise_cons.mp ordered
    have next := later a List.mem_cons_self
    by_cases inside : a.time ≤ start + length
    · obtain ⟨bounded', level'⟩ := bounded.spend flows level draws next
      rw [spentIn_inside (low.trans next) inside, ← add_assoc]
      refine ih ?_ ?_ bounded' level' ?_ ordered rest
      · rw [draws.time]
        exact low.trans next
      · rwa [draws.time]
      · rw [draws.time]
        exact first
    · have late : ∀ b ∈ a :: as, start + length < b.time := by
        intro b mem
        rcases List.mem_cons.mp mem with rfl | mem
        · exact not_le.mp inside
        · exact (not_le.mp inside).trans_le (first b mem)
      rw [spentIn_after late, add_zero]
      exact bounded.later flows high

/-- In any interval at most the capacity is spent and what flows in during it. -/
theorem spent_bounded (start length : K) (flows : 0 ≤ rate) {before : Option (Level K)}
    (ordered : as.Pairwise fun a b => a.time ≤ b.time)
    (metered : Metered capacity rate before as) :
    Bounded capacity rate start (start + length) (spentIn start length as) := by
  induction as generalizing before with
  | nil => exact .inl rfl
  | cons a as ih =>
    obtain ⟨after, draws, rest⟩ := metered
    obtain ⟨first, ordered⟩ := List.pairwise_cons.mp ordered
    by_cases inside : start ≤ a.time ∧ a.time ≤ start + length
    · -- the first in the interval, whose level is within the capacity
      have since : 0 ≤ rate * (a.time - start) := mul_nonneg flows (sub_nonneg.mpr inside.1)
      have capped := draws.capped
      have level : a.spent + after.amount ≤ capacity + rate * (after.time - start) := by
        rw [draws.time]
        linarith
      have bounded : Bounded capacity rate start after.time a.spent := by
        by_cases granted : a.granted = true
        · have covered := draws.covered granted
          exact .inr (by linarith)
        · exact .inl (if_neg granted)
      rw [spentIn_inside inside.1 inside.2]
      refine bounded_from flows ?_ ?_ bounded level ?_ ordered rest
      · rw [draws.time]
        exact inside.1
      · rw [draws.time]
        exact inside.2
      · rw [draws.time]
        exact first
    · rw [spentIn_outside inside]
      exact ih ordered rest

end Metered
