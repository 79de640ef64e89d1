import Mathlib

/-!
# Tables keyed by a number

A table is a list of rows, and `num` reads the key of a row. `put` replaces the
row that has the key of the new one, `putNew` keeps it. Rows that are put in the
order of their keys stand in that order, and reading the table back sorts nothing.
-/

namespace Log

variable {α : Type} (num : α → Nat)

/-- The rows stand in the order of their keys, each key once. -/
abbrev Increasing (l : List α) : Prop := l.Pairwise fun a b => num a < num b

def put (l : List α) (a : α) : List α :=
  if ∃ b ∈ l, num b = num a then l.map fun b => if num b = num a then a else b else l ++ [a]

def putNew (l : List α) (a : α) : List α :=
  if ∃ b ∈ l, num b = num a then l else l ++ [a]

def putAll (l rows : List α) : List α := rows.foldl (put num) l

def putAllNew (l rows : List α) : List α := rows.foldl (putNew num) l

def sorted (l : List α) : List α := l.insertionSort fun a b => num a ≤ num b

variable {num} {l m : List α} {a b : α}

theorem mem_sorted : a ∈ sorted num l ↔ a ∈ l := List.mem_insertionSort _

namespace Increasing

protected theorem sorted (h : Increasing num l) : sorted num l = l :=
  List.Pairwise.insertionSort_eq (h.imp Nat.le_of_lt)

protected theorem filter (h : Increasing num l) (p : α → Bool) : Increasing num (l.filter p) :=
  h.sublist List.filter_sublist

protected theorem nodup (h : Increasing num l) : l.Nodup :=
  h.imp fun less same => absurd (congrArg num same) (Nat.ne_of_lt less)

/-- A new row whose key is above all others goes last. -/
theorem snoc (h : Increasing num l) (above : ∀ b ∈ l, num b < num a) :
    Increasing num (l ++ [a]) := by
  refine List.pairwise_append.mpr ⟨h, List.pairwise_singleton _ _, ?_⟩
  intro b mem c last
  rw [List.mem_singleton.mp last]
  exact above b mem

/-- A key names its row. -/
theorem inj (h : Increasing num l) (memA : a ∈ l) (memB : b ∈ l) (same : num a = num b) :
    a = b := by
  induction l with
  | nil => simp at memA
  | cons c l ih =>
    obtain ⟨first, rest⟩ := List.pairwise_cons.mp h
    rcases List.mem_cons.mp memA with rfl | inA
    · rcases List.mem_cons.mp memB with rfl | inB
      · rfl
      · exact absurd same (Nat.ne_of_lt (first b inB))
    · rcases List.mem_cons.mp memB with rfl | inB
      · exact absurd same.symm (Nat.ne_of_lt (first a inA))
      · exact ih rest inA inB

end Increasing

theorem put_absent (absent : ∀ b ∈ l, num b ≠ num a) : put num l a = l ++ [a] :=
  if_neg fun ⟨b, mem, same⟩ => absent b mem same

theorem putNew_absent (absent : ∀ b ∈ l, num b ≠ num a) : putNew num l a = l ++ [a] :=
  if_neg fun ⟨b, mem, same⟩ => absent b mem same

/-- Rows that follow those of the table, in the order of their keys, are appended. -/
theorem foldl_append {insert : List α → α → List α} (h : Increasing num (l ++ m))
    (absent : ∀ l a, (∀ b ∈ l, num b ≠ num a) → insert l a = l ++ [a]) :
    m.foldl insert l = l ++ m := by
  induction m generalizing l with
  | nil => simp
  | cons a m ih =>
    have new : ∀ b ∈ l, num b ≠ num a := fun b mem =>
      Nat.ne_of_lt ((List.pairwise_append.mp h).2.2 b mem a List.mem_cons_self)
    have rest : Increasing num ((l ++ [a]) ++ m) := by simpa using h
    rw [List.foldl_cons, absent l a new, ih rest]
    simp

theorem putAll_append (h : Increasing num (l ++ m)) : putAll num l m = l ++ m :=
  foldl_append h fun _ _ => put_absent

theorem putAllNew_append (h : Increasing num (l ++ m)) : putAllNew num l m = l ++ m :=
  foldl_append h fun _ _ => putNew_absent

theorem mem_put : b ∈ put num l a ↔ b = a ∨ b ∈ l ∧ num b ≠ num a := by
  unfold put
  split
  next found =>
    simp only [List.mem_map]
    constructor
    · rintro ⟨c, mem, rfl⟩
      by_cases same : num c = num a
      · simp [same]
      · simp [same, mem]
    · rintro (rfl | ⟨mem, other⟩)
      · obtain ⟨c, mem, same⟩ := found
        exact ⟨c, mem, by simp [same]⟩
      · exact ⟨b, mem, by simp [other]⟩
  next absent =>
    simp only [not_exists, not_and] at absent
    rw [List.mem_append, List.mem_singleton]
    constructor
    · rintro (mem | rfl)
      · exact .inr ⟨mem, absent b mem⟩
      · exact .inl rfl
    · rintro (rfl | ⟨mem, -⟩)
      · exact .inr rfl
      · exact .inl mem

theorem mem_putNew : b ∈ putNew num l a ↔ b ∈ l ∨ b = a ∧ ∀ c ∈ l, num c ≠ num a := by
  unfold putNew
  split
  next found =>
    obtain ⟨c, mem, same⟩ := found
    exact ⟨.inl, fun h => h.elim id fun new => absurd same (new.2 c mem)⟩
  next absent =>
    simp only [not_exists, not_and] at absent
    rw [List.mem_append, List.mem_singleton]
    exact or_congr_right ⟨fun same => ⟨same, absent⟩, And.left⟩

/-- What is in the table or among the new rows is in the table afterwards, unless a new row
has its key. -/
theorem mem_putAll (here : b ∈ l ∨ b ∈ m) (only : ∀ a ∈ m, num a = num b → a = b) :
    b ∈ putAll num l m := by
  induction m generalizing l with
  | nil => simpa [putAll] using here
  | cons a m ih =>
    refine ih ?_ fun c mem => only c (List.mem_cons_of_mem a mem)
    rw [mem_put]
    by_cases same : num a = num b
    · exact .inl (.inl (only a List.mem_cons_self same).symm)
    · rcases here with old | new
      · exact .inl (.inr ⟨old, fun eq => same eq.symm⟩)
      · rcases List.mem_cons.mp new with rfl | later
        · exact absurd rfl same
        · exact .inr later

theorem of_mem_putAll (mem : b ∈ putAll num l m) : b ∈ l ∨ b ∈ m := by
  induction m generalizing l with
  | nil => exact .inl mem
  | cons a m ih =>
    rcases ih mem with old | new
    · rcases mem_put.mp old with rfl | ⟨old, -⟩
      · exact .inr List.mem_cons_self
      · exact .inl old
    · exact .inr (List.mem_cons_of_mem a new)

/-- What is in the table stays, and each new row has a row with its key. -/
theorem mem_putAllNew (here : b ∈ l ∨ b ∈ m) (only : ∀ a, a ∈ l ∨ a ∈ m → num a = num b → a = b) :
    b ∈ putAllNew num l m := by
  induction m generalizing l with
  | nil => simpa [putAllNew] using here
  | cons a m ih =>
    have subset (c : α) (mem : c ∈ putNew num l a ∨ c ∈ m) : c ∈ l ∨ c ∈ a :: m := by
      rcases mem with mem | later
      · refine (mem_putNew.mp mem).imp id ?_
        rintro ⟨rfl, -⟩
        exact List.mem_cons_self
      · exact .inr (List.mem_cons_of_mem a later)
    refine ih ?_ fun c mem => only c (subset c mem)
    rw [mem_putNew]
    rcases here with old | new
    · exact .inl (.inl old)
    · rcases List.mem_cons.mp new with rfl | later
      · by_cases found : ∃ c ∈ l, num c = num b
        · obtain ⟨c, mem, same⟩ := found
          exact .inl (.inl (only c (.inl mem) same ▸ mem))
        · exact .inl (.inr ⟨rfl, fun c mem same => found ⟨c, mem, same⟩⟩)
      · exact .inr later

end Log
