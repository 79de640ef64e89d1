import Mathlib

/-!
# Texts that are put together from pieces

`"".join(pieces)`, where every piece comes from one part: two ways of reading the parts give the
same text where they read each part alike, and only there if one of them never reads more.
-/

namespace Py

variable {α : Type}

/-- Nothing is lost of a whole only where nothing is lost of any part. -/
theorem eq_of_sum_eq {m n : α → Nat} {l : List α} (h : ∀ a ∈ l, m a ≤ n a)
    (whole : (l.map m).sum = (l.map n).sum) : ∀ a ∈ l, m a = n a := by
  intro a mem
  by_contra differ
  have less : m a < n a := Nat.lt_of_le_of_ne (h a mem) differ
  exact Nat.ne_of_lt (List.sum_lt_sum m n h ⟨a, mem, less⟩) whole

variable {f g : α → String}

theorem join_map_congr {l : List α} (h : ∀ a ∈ l, f a = g a) :
    String.join (l.map f) = String.join (l.map g) := by
  rw [List.map_congr_left h]

theorem join_flatMap (pieces : α → List String) (l : List α) :
    String.join (l.flatMap pieces) = String.join (l.map fun a => String.join (pieces a)) := by
  induction l with
  | nil => rfl
  | cons a l ih =>
    rw [List.flatMap_cons, String.join_append, ih, List.map_cons, String.join_cons]

theorem length_eq_of_join {l : List α} (h : ∀ a ∈ l, (f a).length ≤ (g a).length)
    (whole : String.join (l.map f) = String.join (l.map g)) :
    ∀ a ∈ l, (f a).length = (g a).length := by
  have lengths := congrArg String.length whole
  rw [String.length_join, String.length_join, List.map_map, List.map_map] at lengths
  exact eq_of_sum_eq h lengths

theorem join_eq_empty {l : List String} (h : String.join l = "") : ∀ s ∈ l, s = "" := by
  induction l with
  | nil => nofun
  | cons s l ih =>
    rw [String.join_cons] at h
    obtain ⟨head, tail⟩ := String.append_eq_empty_iff.mp h
    rintro x mem
    rcases List.mem_cons.mp mem with rfl | mem
    · exact head
    · exact ih tail x mem

end Py
