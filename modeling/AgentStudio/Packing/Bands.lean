import Mathlib

/-!
# Bands

Items with weights lie on the numbers one after another, each on as many as its weight.
-/

namespace Packing

variable {α : Type} (weight : α → Nat)

/-- Whose band a number is in. -/
def band : List α → Nat → Option α
  | [], _ => none
  | a :: rest, b => if b < weight a then some a else band rest (b - weight a)

variable {weight} {l l' : List α} {a : α} {b : Nat}

theorem mem_of_band (is : band weight l b = some a) : a ∈ l := by
  induction l generalizing b with
  | nil => cases is
  | cons x rest ih =>
    rw [band] at is
    split at is
    · exact Option.some.inj is ▸ List.mem_cons_self
    · exact List.mem_cons_of_mem x (ih is)

/-- What is before keeps its bands. -/
theorem band_append (is : band weight l b = some a) : band weight (l ++ l') b = some a := by
  induction l generalizing b with
  | nil => cases is
  | cons x rest ih =>
    rw [List.cons_append, band]
    rw [band] at is
    split at is
    · rename_i here
      rw [if_pos here, is]
    · rename_i later
      rw [if_neg later, ih is]

/-- The bands together are the numbers below the sum of the weights. -/
theorem band_none_iff : band weight l b = none ↔ (l.map weight).sum ≤ b := by
  induction l generalizing b with
  | nil => simp [band]
  | cons x rest ih =>
    rw [band, List.map_cons, List.sum_cons]
    split
    · exact iff_of_false nofun (by omega)
    · rw [ih]
      omega

variable (weight) in
/-- The band of an item is an interval as long as its weight. -/
theorem exists_band (nodup : l.Nodup) (mem : a ∈ l) :
    ∃ start, start + weight a ≤ (l.map weight).sum ∧
      ∀ b, band weight l b = some a ↔ start ≤ b ∧ b < start + weight a := by
  induction l with
  | nil => cases mem
  | cons x rest ih =>
    rw [List.nodup_cons] at nodup
    rw [List.map_cons, List.sum_cons]
    by_cases here : a = x
    · subst here
      refine ⟨0, by omega, fun b => ?_⟩
      rw [band]
      split
      · exact iff_of_true rfl (by omega)
      · exact iff_of_false (fun is => nodup.1 (mem_of_band is)) (by omega)
    · obtain ⟨start, within, each⟩ := ih nodup.2 ((List.mem_cons.mp mem).resolve_left here)
      refine ⟨weight x + start, by omega, fun b => ?_⟩
      rw [band]
      split
      · exact iff_of_false (fun is => here (Option.some.inj is).symm) (by omega)
      · rw [each]
        omega

theorem card_band [DecidableEq α] (nodup : l.Nodup) (mem : a ∈ l) {n : Nat}
    (fits : (l.map weight).sum ≤ n) :
    ((Finset.range n).filter fun b => band weight l b = some a).card = weight a := by
  obtain ⟨start, within, each⟩ := exists_band weight nodup mem
  have interval : ((Finset.range n).filter fun b => band weight l b = some a) =
      Finset.Ico start (start + weight a) := by
    ext b
    rw [Finset.mem_filter, Finset.mem_range, each, Finset.mem_Ico]
    omega
  rw [interval, Nat.card_Ico, Nat.add_sub_cancel_left]

end Packing
