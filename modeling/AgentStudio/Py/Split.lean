import AgentStudio.Py.Text

/-!
# Splitting at a character

`s.split(sep)` of one character. A text that is made of as many parts as it splits into is
split into these.
-/

namespace Py

/-- `s.split(sep)`. -/
def split (sep : Char) (s : String) : List String := (s.toList.splitOn sep).map String.ofList

variable {sep : Char} {a b c s : String}

theorem split_ne_nil (sep : Char) (s : String) : split sep s ≠ [] := by
  simp [split, List.splitOn_ne_nil]

theorem split_append (sep : Char) (a b : String) :
    split sep (a ++ String.singleton sep ++ b) = split sep a ++ split sep b := by
  simp only [split, String.toList_append, String.toList_singleton, List.append_assoc,
    List.singleton_append, List.splitOn_append_cons_self, List.map_append]

/-- What does not split is its own one part. -/
theorem eq_of_split (is : split sep s = [a]) : s = a := by
  obtain ⟨l, only, rfl⟩ := List.map_eq_singleton_iff.mp is
  have whole : [sep].intercalate (s.toList.splitOn sep) = s.toList := List.intercalate_splitOn sep
  rw [only, List.intercalate_singleton] at whole
  rw [whole, String.ofList_toList]

/-- Two seams, and three parts. -/
theorem split_three {x y z : String}
    (is : split sep (a ++ String.singleton sep ++ b ++ String.singleton sep ++ c) = [x, y, z]) :
    a = x ∧ b = y ∧ c = z := by
  rw [split_append, split_append] at is
  have lengths := congrArg List.length is
  simp only [List.length_append, List.length_cons, List.length_nil] at lengths
  have some_ (s : String) : 1 ≤ (split sep s).length := List.length_pos_iff.mpr (split_ne_nil sep s)
  have := some_ a
  have := some_ b
  have := some_ c
  obtain ⟨x', onlyA⟩ := List.length_eq_one_iff.mp (show (split sep a).length = 1 by omega)
  obtain ⟨y', onlyB⟩ := List.length_eq_one_iff.mp (show (split sep b).length = 1 by omega)
  obtain ⟨z', onlyC⟩ := List.length_eq_one_iff.mp (show (split sep c).length = 1 by omega)
  rw [onlyA, onlyB, onlyC] at is
  simp only [List.cons_append, List.nil_append, List.cons.injEq, and_true] at is
  obtain ⟨rfl, rfl, rfl⟩ := is
  exact ⟨eq_of_split onlyA, eq_of_split onlyB, eq_of_split onlyC⟩

end Py
