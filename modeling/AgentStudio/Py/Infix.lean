import AgentStudio.Py.Text

/-!
# What a text contains

`sub in s` for a text that is put together from parts: no occurrence of a word reaches from one part
into the next, where the parts meet in what is not in the word.
-/

namespace Py

section
variable {α : Type} {w x y : List α} {c : α}

/-- No end of `w` is a beginning of `y`. -/
def Apart (w y : List α) : Prop := ∀ v ∈ y.inits, v ≠ [] → ¬ v <:+ w

instance [DecidableEq α] : Decidable (Apart w y) :=
  inferInstanceAs (Decidable (∀ v ∈ y.inits, v ≠ [] → ¬ v <:+ w))

theorem infix_append_iff (apart : Apart w y) : w <:+: x ++ y ↔ w <:+: x ∨ w <:+: y := by
  rw [List.infix_append_iff_ne_nil]
  refine or_congr_right (or_iff_left ?_)
  rintro ⟨u, v, -, some_, rfl, -, first_⟩
  exact apart v ((List.mem_inits _ _).mpr first_) some_ (List.suffix_append u v)

theorem infix_append_cons_iff (some_ : w ≠ []) (absent : c ∉ w) :
    w <:+: x ++ c :: y ↔ w <:+: x ∨ w <:+: y := by
  have apart : Apart w (c :: y) := by
    intro v mem nonempty suffix
    obtain ⟨a, rest, rfl⟩ := List.exists_cons_of_ne_nil nonempty
    obtain ⟨rfl, -⟩ := List.cons_prefix_cons.mp ((List.mem_inits _ _).mp mem)
    exact absent (suffix.subset List.mem_cons_self)
  rw [infix_append_iff apart, List.infix_cons_iff]
  refine or_congr_right (or_iff_right fun first_ => ?_)
  obtain ⟨a, rest, rfl⟩ := List.exists_cons_of_ne_nil some_
  obtain ⟨rfl, -⟩ := List.cons_prefix_cons.mp first_
  exact absent List.mem_cons_self

end

theorem infixOf_iff {sub s : List Char} : infixOf sub s = true ↔ sub <:+: s := by
  induction s with
  | nil => simp [infixOf]
  | cons c cs ih =>
    rw [infixOf, Bool.or_eq_true, ih, List.isPrefixOf_iff_prefix, List.infix_cons_iff]

theorem contains_iff {s sub : String} : contains s sub = true ↔ sub.toList <:+: s.toList := infixOf_iff

theorem lower_append (s t : String) : lower (s ++ t) = lower s ++ lower t := by
  rw [lower, lower, lower, String.toList_append, List.flatMap_append, String.ofList_append]

end Py
