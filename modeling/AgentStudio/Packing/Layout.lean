import Mathlib

/-!
# Pieces laid out in a text

A text is blank characters and others. Its pieces stand in it one after another with blanks between
them; joining them again need not give the text back. What always agrees is the characters that are
not blank, and they say where a piece that is found again stands.
-/

namespace Packing

variable {α : Type} (blank : α → Bool)

def Blank (text : List α) : Prop := ∀ c ∈ text, blank c = true

instance (text : List α) : Decidable (Blank blank text) :=
  inferInstanceAs (Decidable (∀ c ∈ text, blank c = true))

/-- The characters that are not blank. -/
def solid (text : List α) : List α := text.filter fun c => !blank c

/-- The last character is not blank. -/
def EndsSolid (text : List α) : Prop := ∃ start c, text = start ++ [c] ∧ blank c = false

/-- Without the blanks at its two ends. -/
def strip (text : List α) : List α := ((text.dropWhile blank).reverse.dropWhile blank).reverse

/-- The pieces stand in the text one after another, with at least `n` blanks after each but the
last. Only blanks follow the last. -/
inductive Laid (n : Nat) : List (List α) → List α → Prop
  | last (p trail : List α) (blanks : Blank blank trail) : Laid n [p] (p ++ trail)
  | cons {p gap tail : List α} {ps : List (List α)} (ends : EndsSolid blank p)
      (blanks : Blank blank gap) (long : n ≤ gap.length) (rest : Laid n ps tail) :
      Laid n (p :: ps) (p ++ (gap ++ tail))

variable {blank}

/-! ## Solid characters -/

theorem solid_append (s t : List α) : solid blank (s ++ t) = solid blank s ++ solid blank t :=
  List.filter_append ..

theorem solid_eq_nil_iff {text : List α} : solid blank text = [] ↔ Blank blank text := by
  rw [solid, List.filter_eq_nil_iff]
  refine forall₂_congr fun c _ => ?_
  rw [Bool.not_eq_true, Bool.not_eq_false']

theorem Blank.append {s t : List α} (hs : Blank blank s) (ht : Blank blank t) :
    Blank blank (s ++ t) := fun c mem => (List.mem_append.mp mem).elim (hs c) (ht c)

theorem EndsSolid.append {t : List α} (h : EndsSolid blank t) (s : List α) :
    EndsSolid blank (s ++ t) := by
  obtain ⟨start, c, rfl, ends⟩ := h
  exact ⟨s ++ start, c, (List.append_assoc ..).symm, ends⟩

theorem EndsSolid.ne_nil {text : List α} (h : EndsSolid blank text) : text ≠ [] := by
  obtain ⟨start, c, rfl, -⟩ := h
  simp

/-- What ends in a blank after something else does not end solid. -/
theorem EndsSolid.eq_nil {s rest : List α} (h : EndsSolid blank (s ++ rest))
    (blanks : Blank blank rest) : rest = [] := by
  obtain ⟨start, c, same, ends⟩ := h
  rcases List.eq_nil_or_concat rest with rfl | ⟨init, d, rfl⟩
  · rfl
  · rw [List.concat_eq_append, ← List.append_assoc] at same
    have last := (List.append_inj' same rfl).2
    obtain rfl := List.singleton_injective last
    have := blanks d (by simp)
    rw [ends] at this
    cases this

variable (blank) in
/-- Two beginnings of a text that end solid and have the same solid characters are one. -/
theorem eq_of_solid {text s t : List α} (hs : s <+: text) (ht : t <+: text)
    (ends : EndsSolid blank s) (ends' : EndsSolid blank t) (same : solid blank s = solid blank t) :
    s = t := by
  have longer {s t : List α} (ends : EndsSolid blank t) (before : s <+: t)
      (same : solid blank s = solid blank t) : s = t := by
    obtain ⟨rest, rfl⟩ := before
    rw [solid_append, List.self_eq_append_right, solid_eq_nil_iff] at same
    rw [ends.eq_nil same, List.append_nil]
  rcases List.prefix_or_prefix_of_prefix hs ht with before | before
  · exact longer ends' before same
  · exact (longer ends before same.symm).symm

/-! ## Stripping -/

theorem strip_within (text : List α) : strip blank text <:+: text := by
  have back : strip blank text <+: text.dropWhile blank := by
    rw [strip, ← List.reverse_suffix, List.reverse_reverse]
    exact List.dropWhile_suffix _
  exact back.isInfix.trans (List.dropWhile_suffix _).isInfix

variable (blank) in
/-- What stripping takes away is blank. -/
theorem strip_split (text : List α) :
    ∃ lead trail, text = lead ++ (strip blank text ++ trail) ∧ Blank blank lead ∧
      Blank blank trail := by
  refine ⟨text.takeWhile blank, ((text.dropWhile blank).reverse.takeWhile blank).reverse, ?_,
    fun c mem => List.mem_takeWhile_imp mem,
    fun c mem => List.mem_takeWhile_imp (List.mem_reverse.mp mem)⟩
  rw [strip, ← List.reverse_append, List.takeWhile_append_dropWhile, List.reverse_reverse,
    List.takeWhile_append_dropWhile]

variable (blank) in
/-- A text that stripping does not shorten is as it was. -/
theorem strip_eq_of_length {text : List α} (h : (strip blank text).length = text.length) :
    strip blank text = text := (strip_within text).eq_of_length h

theorem solid_dropWhile (text : List α) : solid blank (text.dropWhile blank) = solid blank text := by
  have start : solid blank (text.takeWhile blank) = [] :=
    solid_eq_nil_iff.mpr fun c mem => List.mem_takeWhile_imp mem
  have parts : solid blank (text.takeWhile blank ++ text.dropWhile blank) = _ :=
    solid_append (text.takeWhile blank) (text.dropWhile blank)
  rw [List.takeWhile_append_dropWhile, start, List.nil_append] at parts
  exact parts.symm

theorem solid_reverse (text : List α) : solid blank text.reverse = (solid blank text).reverse :=
  List.filter_reverse ..

theorem solid_strip (text : List α) : solid blank (strip blank text) = solid blank text := by
  rw [strip, solid_reverse, solid_dropWhile, solid_reverse, solid_dropWhile, List.reverse_reverse]

variable (blank) in
theorem dropWhile_nil_or (text : List α) : text.dropWhile blank = [] ∨
    ∃ c rest, text.dropWhile blank = c :: rest ∧ blank c = false := by
  induction text with
  | nil => exact .inl rfl
  | cons c rest ih =>
    by_cases here : blank c = true
    · rw [List.dropWhile_cons_of_pos here]
      exact ih
    · rw [List.dropWhile_cons_of_neg here]
      exact .inr ⟨c, rest, rfl, by simpa using here⟩

variable (blank) in
/-- What is left ends solid. -/
theorem strip_endsSolid {text : List α} (some_ : strip blank text ≠ []) :
    EndsSolid blank (strip blank text) := by
  obtain none_ | ⟨c, rest, left, solid_⟩ := dropWhile_nil_or blank
    (text.dropWhile blank).reverse
  · exact absurd (by rw [strip, none_]; rfl) some_
  · exact ⟨rest.reverse, c, by rw [strip, left, List.reverse_cons], solid_⟩

variable (blank) in
/-- And it starts solid. -/
theorem strip_start {text : List α} {c : α} {rest : List α}
    (left : strip blank text = c :: rest) : blank c = false := by
  obtain none_ | ⟨d, more, first_, solid_⟩ := dropWhile_nil_or blank text
  · rw [strip, none_] at left
    cases left
  · have before : strip blank text <+: text.dropWhile blank := by
      rw [strip, ← List.reverse_suffix, List.reverse_reverse]
      exact List.dropWhile_suffix _
    rw [left, first_] at before
    rw [(List.cons_prefix_cons.mp before).1]
    exact solid_

/-- A text that neither starts nor ends blank is as it is stripped. -/
theorem strip_of_solid {c : α} {rest : List α} (start : blank c = false)
    (ends : EndsSolid blank (c :: rest)) : strip blank (c :: rest) = c :: rest := by
  obtain ⟨front, d, same, last⟩ := ends
  rw [strip, List.dropWhile_cons_of_neg (by simp [start]), same, List.reverse_append,
    List.reverse_singleton, List.singleton_append, List.dropWhile_cons_of_neg (by simp [last]),
    List.reverse_cons, List.reverse_reverse]

variable (blank) in
theorem strip_strip (text : List α) : strip blank (strip blank text) = strip blank text := by
  by_cases some_ : strip blank text = []
  · rw [some_]
    rfl
  · obtain ⟨c, rest, left⟩ := List.exists_cons_of_ne_nil some_
    have ends := strip_endsSolid blank some_
    rw [left] at ends ⊢
    exact strip_of_solid (strip_start blank left) ends

variable (blank) in
theorem strip_append {s t : List α} (hs : strip blank s = s) (ht : strip blank t = t) (some_ : s ≠ [])
    (some' : t ≠ []) (gap : List α) : strip blank (s ++ gap ++ t) = s ++ gap ++ t := by
  obtain ⟨c, rest, rfl⟩ := List.exists_cons_of_ne_nil some_
  have ends : EndsSolid blank t := ht ▸ strip_endsSolid blank (ht.symm ▸ some')
  have whole : EndsSolid blank (c :: rest ++ gap ++ t) := ends.append _
  exact strip_of_solid (strip_start blank hs) whole

/-! ## Joining -/

section
variable {sep text : List α} {pieces : List (List α)} {n : Nat}

theorem intercalate_append {before after : List (List α)} (some_ : before ≠ []) (some' : after ≠ []) :
    sep.intercalate (before ++ after) = sep.intercalate before ++ sep ++ sep.intercalate after := by
  induction before with
  | nil => exact absurd rfl some_
  | cons p before ih =>
    cases before with
    | nil =>
      rw [List.singleton_append, List.intercalate_cons_of_ne_nil some', List.intercalate_singleton]
    | cons q before =>
      rw [List.cons_append, List.intercalate_cons_of_ne_nil (by simp), ih (by simp),
        List.intercalate_cons_cons]
      simp only [List.append_assoc]

theorem solid_intercalate (blanks : Blank blank sep) (pieces : List (List α)) :
    solid blank (sep.intercalate pieces) = pieces.flatMap (solid blank) := by
  induction pieces with
  | nil => rfl
  | cons p rest ih =>
    by_cases some_ : rest = []
    · subst some_
      simp
    · rw [List.intercalate_cons_of_ne_nil some_, solid_append, solid_append, ih,
        solid_eq_nil_iff.mpr blanks, List.append_nil, List.flatMap_cons]

/-- A piece of several is shorter than what they are joined to. -/
theorem length_lt_intercalate (some_ : 0 < sep.length) (several : 2 ≤ pieces.length) {p : List α}
    (mem : p ∈ pieces) : p.length < (sep.intercalate pieces).length := by
  obtain ⟨before, after, rfl⟩ := List.append_of_mem mem
  by_cases none_ : before = []
  · subst none_
    have more : after ≠ [] := by rintro rfl; simp at several
    rw [List.nil_append, List.intercalate_cons_of_ne_nil more]
    simp only [List.length_append]
    omega
  · rw [intercalate_append none_ (by simp)]
    by_cases last : after = []
    · subst last
      simp only [List.intercalate_singleton, List.length_append]
      omega
    · rw [List.intercalate_cons_of_ne_nil last]
      simp only [List.length_append]
      omega

variable (sep) in
theorem Laid.length_le (h : Laid blank n pieces text) (short : sep.length ≤ n) :
    (sep.intercalate pieces).length ≤ text.length := by
  induction h with
  | last p trail =>
    rw [List.intercalate_singleton, List.length_append]
    omega
  | @cons p gap tail ps ends blanks long rest ih =>
    by_cases none_ : ps = []
    · subst none_
      cases rest
    · rw [List.intercalate_cons_of_ne_nil none_]
      simp only [List.length_append]
      omega

theorem Laid.ne_nil (h : Laid blank n pieces text) : pieces ≠ [] := by cases h <;> simp

/-- The solid characters of a text are those of its pieces. -/
theorem Laid.solid_eq (h : Laid blank n pieces text) :
    solid blank text = pieces.flatMap (solid blank) := by
  induction h with
  | last p trail blanks =>
    rw [solid_append, solid_eq_nil_iff.mpr blanks, List.append_nil, List.flatMap_singleton]
  | cons ends blanks long rest ih =>
    rw [solid_append, solid_append, solid_eq_nil_iff.mpr blanks, List.nil_append, ih,
      List.flatMap_cons]

variable (sep) in
/-- Where the first pieces end and the others begin. -/
theorem Laid.split {before after : List (List α)} (h : Laid blank n (before ++ after) text)
    (some_ : before ≠ []) (some' : after ≠ []) (short : sep.length ≤ n) :
    ∃ front gap tail, text = front ++ (gap ++ tail) ∧ EndsSolid blank front ∧ Blank blank gap ∧
      n ≤ gap.length ∧ solid blank front = before.flatMap (solid blank) ∧
      (sep.intercalate before).length ≤ front.length ∧ Laid blank n after tail := by
  induction before generalizing text with
  | nil => exact absurd rfl some_
  | cons p before ih =>
    rw [List.cons_append] at h
    generalize whole : before ++ after = pieces at h
    cases h with
    | last => exact absurd (List.append_eq_nil_iff.mp whole).2 some'
    | @cons _ gap tail _ ends blanks long rest =>
      subst whole
      by_cases none_ : before = []
      · subst none_
        exact ⟨p, gap, tail, rfl, ends, blanks, long, by simp, by simp, rest⟩
      · obtain ⟨front, gap', tail', rfl, ends', blanks', long', solid_, length_, rest'⟩ :=
          ih rest none_
        refine ⟨p ++ (gap ++ front), gap', tail', by simp only [List.append_assoc],
          (ends'.append gap).append p, blanks', long', ?_, ?_, rest'⟩
        · rw [solid_append, solid_append, solid_eq_nil_iff.mpr blanks, List.nil_append, solid_,
            List.flatMap_cons]
        · rw [List.intercalate_cons_of_ne_nil none_]
          simp only [List.length_append]
          omega

end

end Packing
