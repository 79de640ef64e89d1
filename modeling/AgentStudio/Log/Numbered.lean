import Mathlib

/-!
# Numbered logs

A log is a list of entries in the order they were added, and `num` reads the
number an entry carries. A log is numbered when its entries carry 1, 2, 3, …
in that order: then the greatest number is the length, the entries up to a
number are a prefix, and a reader who pages by the last number it has sees
every entry once.
-/

namespace Log

variable {α β : Type} (num : α → Nat)

def Numbered (l : List α) : Prop := l.map num = List.range' 1 l.length

/-- `max(num)` over the log, 0 when it is empty. -/
def top (l : List α) : Nat := (l.map num).foldr max 0

variable {num} {l : List α}

variable (num) in
theorem le_top {a : α} (mem : a ∈ l) : num a ≤ top num l := by
  induction l with
  | nil => simp at mem
  | cons b l ih =>
    simp only [top, List.map_cons, List.foldr_cons]
    rcases List.mem_cons.mp mem with rfl | mem
    · exact le_max_left _ _
    · exact le_trans (ih mem) (le_max_right _ _)

theorem top_append (l m : List α) : top num (l ++ m) = max (top num l) (top num m) := by
  induction l with
  | nil => simp [top]
  | cons a l ih =>
    simp only [top, List.cons_append, List.map_cons, List.foldr_cons] at ih ⊢
    rw [ih, max_assoc]

theorem top_range (m : List α) {k : Nat} (numbers : m.map num = List.range' (k + 1) m.length)
    (nonempty : m ≠ []) : top num m = k + m.length := by
  induction m generalizing k with
  | nil => exact absurd rfl nonempty
  | cons a m ih =>
    rw [List.map_cons, List.length_cons, List.range'_succ, List.cons.injEq] at numbers
    simp only [top, List.map_cons, List.foldr_cons, List.length_cons]
    rcases eq_or_ne m [] with rfl | more
    · simp [numbers.1]
    · have rest : top num m = k + 1 + m.length := ih numbers.2 more
      rw [top] at rest
      rw [rest, numbers.1]
      omega

theorem numbered_nil : Numbered num ([] : List α) := rfl

/-- A log stays numbered exactly when what is added counts on. -/
theorem numbered_append {m : List α} (numbered : Numbered num l) :
    Numbered num (l ++ m) ↔ m.map num = List.range' (l.length + 1) m.length := by
  unfold Numbered at numbered ⊢
  rw [List.map_append, List.length_append, numbered, ← List.range'_append_1,
    List.append_cancel_left_eq, Nat.add_comm 1]

theorem Numbered.snoc {a : α} (numbered : Numbered num l) (next : num a = l.length + 1) :
    Numbered num (l ++ [a]) := by
  rw [numbered_append numbered]
  simp [next]

theorem Numbered.top_eq (numbered : Numbered num l) : top num l = l.length := by
  rcases eq_or_ne l [] with rfl | nonempty
  · rfl
  · have := top_range (k := 0) l numbered nonempty
    omega

theorem Numbered.getElem {i : Nat} {a : α} (numbered : Numbered num l) (here : l[i]? = some a) :
    num a = i + 1 := by
  have bound := (List.getElem?_eq_some_iff.mp here).1
  have at_ : (l.map num)[i]? = some (num a) := by rw [List.getElem?_map, here, Option.map_some]
  rw [numbered, List.getElem?_range' bound, Option.some.injEq] at at_
  omega

/-- A number names its entry. -/
theorem Numbered.inj {a b : α} (numbered : Numbered num l) (memA : a ∈ l) (memB : b ∈ l)
    (same : num a = num b) : a = b := by
  obtain ⟨i, atI⟩ := List.mem_iff_getElem?.mp memA
  obtain ⟨j, atJ⟩ := List.mem_iff_getElem?.mp memB
  have numI := numbered.getElem atI
  have numJ := numbered.getElem atJ
  obtain rfl : i = j := by omega
  exact Option.some.inj (atI.symm.trans atJ)

theorem Numbered.num_le {a : α} (numbered : Numbered num l) (mem : a ∈ l) :
    0 < num a ∧ num a ≤ l.length := by
  obtain ⟨i, here⟩ := List.mem_iff_getElem?.mp mem
  have bound := (List.getElem?_eq_some_iff.mp here).1
  have := numbered.getElem here
  omega

theorem Numbered.left {m : List α} (numbered : Numbered num (l ++ m)) : Numbered num l := by
  have same := congrArg (List.take l.length) numbered
  rw [← List.map_take, List.take_left, List.length_append, ← List.range'_append_1,
    List.take_left' List.length_range'] at same
  exact same

theorem Numbered.take (numbered : Numbered num l) (k : Nat) : Numbered num (l.take k) :=
  Numbered.left (m := l.drop k) (by rwa [List.take_append_drop])

/-- A copy that keeps the numbers is numbered. -/
theorem Numbered.map {numβ : β → Nat} {f : α → β} (numbered : Numbered num l)
    (keeps : ∀ a, numβ (f a) = num a) : Numbered numβ (l.map f) := by
  unfold Numbered at numbered ⊢
  rw [List.map_map, List.length_map, ← numbered]
  exact List.map_congr_left fun a _ => keeps a

theorem Numbered.increasing (numbered : Numbered num l) :
    l.Pairwise fun a b => num a < num b := by
  have : (l.map num).Pairwise (· < ·) := numbered ▸ List.pairwise_lt_range' (s := 1)
  exact List.pairwise_map.mp this

theorem Numbered.nodup (numbered : Numbered num l) : l.Nodup :=
  numbered.increasing.imp fun less same => absurd (congrArg num same) (Nat.ne_of_lt less)

/-- Ordering a numbered log by its numbers changes nothing. -/
theorem Numbered.sorted (numbered : Numbered num l) :
    l.insertionSort (fun a b => num a ≤ num b) = l :=
  List.Pairwise.insertionSort_eq (numbered.increasing.imp Nat.le_of_lt)

/-- The entries above a number are what follows the prefix of that length. -/
theorem Numbered.filter_gt (numbered : Numbered num l) (k : Nat) :
    l.filter (fun a => k < num a) = l.drop k := by
  have split : l = l.take k ++ l.drop k := (List.take_append_drop k l).symm
  have low : (l.take k).filter (fun a => k < num a) = [] := by
    rw [List.filter_eq_nil_iff]
    intro a mem
    have := (numbered.take k).num_le mem
    rw [List.length_take] at this
    simp only [decide_eq_true_eq]
    omega
  have high : (l.drop k).filter (fun a => k < num a) = l.drop k := by
    rw [List.filter_eq_self]
    intro a mem
    obtain ⟨i, here⟩ := List.mem_iff_getElem?.mp mem
    rw [List.getElem?_drop] at here
    have := numbered.getElem here
    simp only [decide_eq_true_eq]
    omega
  calc l.filter (fun a => k < num a)
      = (l.take k ++ l.drop k).filter (fun a => k < num a) := by rw [← split]
    _ = l.drop k := by rw [List.filter_append, low, high, List.nil_append]

theorem Numbered.filter_le (numbered : Numbered num l) (k : Nat) :
    l.filter (fun a => num a ≤ k) = l.take k := by
  have split : l = l.take k ++ l.drop k := (List.take_append_drop k l).symm
  have low : (l.take k).filter (fun a => num a ≤ k) = l.take k := by
    rw [List.filter_eq_self]
    intro a mem
    have := (numbered.take k).num_le mem
    rw [List.length_take] at this
    simp only [decide_eq_true_eq]
    omega
  have high : (l.drop k).filter (fun a => num a ≤ k) = [] := by
    rw [List.filter_eq_nil_iff]
    intro a mem
    obtain ⟨i, here⟩ := List.mem_iff_getElem?.mp mem
    rw [List.getElem?_drop] at here
    have := numbered.getElem here
    simp only [decide_eq_true_eq]
    omega
  calc l.filter (fun a => num a ≤ k)
      = (l.take k ++ l.drop k).filter (fun a => num a ≤ k) := by rw [← split]
    _ = l.take k := by rw [List.filter_append, low, high, List.append_nil]

/-! ## Paging -/

/-- One page of a log, and whether entries follow it. -/
structure Page (α : Type) where
  rows : List α
  hasMore : Bool

variable (num) in
/-- The entries above `after` in the order of their numbers: `limit` of them, and
one more to see whether there are more. -/
def page (after limit : Nat) (l : List α) : Page α :=
  let rows := ((l.filter fun a => after < num a).insertionSort fun a b => num a ≤ num b).take
    (limit + 1)
  ⟨rows.take limit, limit < rows.length⟩

theorem Numbered.page_eq (numbered : Numbered num l) (after limit : Nat) :
    page num after limit l = ⟨(l.drop after).take limit, after + limit < l.length⟩ := by
  have above : (l.filter fun a => after < num a).insertionSort (fun a b => num a ≤ num b) =
      l.drop after := by
    rw [numbered.filter_gt]
    refine List.Pairwise.insertionSort_eq ?_
    exact (numbered.increasing.imp Nat.le_of_lt).sublist (List.drop_sublist _ _)
  simp only [page, above, List.take_take, Page.mk.injEq]
  refine ⟨by simp, ?_⟩
  simp only [List.length_take, List.length_drop]
  congr 1
  apply propext
  omega

variable (num) in
/-- A reader that takes one page from each of the logs it finds in turn, each from the
number of the last entry it has, until a page has none after it. -/
def walk (limit : Nat) : Nat → List (List α) → List α × Bool
  | _, [] => ([], true)
  | after, l :: later =>
    let p := page num after limit l
    if p.hasMore then
      let rest := walk limit ((p.rows.getLast?.map num).getD after) later
      (p.rows ++ rest.1, rest.2)
    else (p.rows, false)

theorem getLast?_take_drop (after limit : Nat) (numbered : Numbered num l) (some_ : 0 < limit)
    (more : after + limit < l.length) :
    (((l.drop after).take limit).getLast?.map num).getD after = after + limit := by
  have last : ((l.drop after).take limit).getLast? = l[after + (limit - 1)]? := by
    rw [List.getLast?_eq_getElem?, List.length_take, List.length_drop,
      min_eq_left (by omega), List.getElem?_take_of_lt (by omega), List.getElem?_drop]
  obtain ⟨a, here⟩ : ∃ a, l[after + (limit - 1)]? = some a :=
    ⟨_, List.getElem?_eq_getElem (by omega)⟩
  rw [last, here, Option.map_some, Option.getD_some, numbered.getElem here]
  omega

/-- Over logs that only grow, a reader that comes to the end has every entry above
where it began, once and in order, as the log stood when it stopped. -/
theorem walk_complete {limit : Nat} (some_ : 0 < limit) {logs : List (List α)}
    (numbered : ∀ l ∈ logs, Numbered num l) (grows : logs.Pairwise (· <+: ·)) (after : Nat)
    (ended : (walk num limit after logs).2 = false) :
    ∃ l ∈ logs, (walk num limit after logs).1 = l.drop after := by
  induction logs generalizing after with
  | nil => simp [walk] at ended
  | cons l later ih =>
    have page_ := (numbered l List.mem_cons_self).page_eq after limit
    by_cases more : after + limit < l.length
    · have next := getLast?_take_drop after limit (numbered l List.mem_cons_self) some_ more
      simp only [walk, page_, decide_eq_true more, if_true, next] at ended ⊢
      obtain ⟨l', mem, rest⟩ := ih (fun l mem => numbered l (List.mem_cons_of_mem _ mem))
        (List.pairwise_cons.mp grows).2 (after + limit) ended
      refine ⟨l', List.mem_cons_of_mem _ mem, ?_⟩
      -- the first page stands in the later log too
      obtain ⟨added, rfl⟩ := (List.pairwise_cons.mp grows).1 l' mem
      have first : (l.drop after).take limit = ((l ++ added).drop after).take limit := by
        rw [List.drop_append_of_le_length (by omega), List.take_append_of_le_length]
        rw [List.length_drop]
        omega
      rw [rest, first, ← List.drop_drop, List.take_append_drop]
    · refine ⟨l, List.mem_cons_self, ?_⟩
      simp only [walk, page_, decide_eq_false more]
      rw [if_neg Bool.false_ne_true]
      apply List.take_of_length_le
      rw [List.length_drop]
      omega

/-- A log that stands still is read to its end. -/
theorem walk_ends {limit : Nat} (some_ : 0 < limit) (numbered : Numbered num l) (after n : Nat)
    (enough : l.length ≤ after + n * limit) (positive : 0 < n) :
    (walk num limit after (List.replicate n l)).2 = false := by
  induction n generalizing after with
  | zero => omega
  | succ n ih =>
    have page_ := numbered.page_eq after limit
    by_cases more : after + limit < l.length
    · have next := getLast?_take_drop after limit numbered some_ more
      simp only [List.replicate_succ, walk, page_, decide_eq_true more, if_true, next]
      rw [Nat.succ_mul] at enough
      rcases Nat.eq_zero_or_pos n with rfl | positive
      · omega
      · exact ih (after + limit) (by omega) positive
    · simp [List.replicate_succ, walk, page_, more]

end Log
