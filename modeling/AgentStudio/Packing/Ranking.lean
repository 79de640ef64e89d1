import Mathlib.Data.List.Sort
import Mathlib.Order.Defs.LinearOrder

/-!
# Rankings

The elements of a list by decreasing score, and the newer first among equals; and when the best of a
part of the list are the best of the whole.
-/

namespace Ranking

variable {α β : Type} [LinearOrder β] (score : α → Nat) (time : α → β)

/-- By decreasing score; of equal scores as they were. -/
def rank (l : List α) : List α := l.mergeSort fun a b => decide (score b ≤ score a)

/-- Of a higher score, or of the same and no older. -/
def Precedes (a b : α) : Prop := score b < score a ∨ score a = score b ∧ time b ≤ time a

/-- Each of the rest has `n` in the window that score no less. -/
def Enough (n : Nat) (window rest : List α) : Prop :=
  ∀ r ∈ rest, n ≤ window.countP fun a => decide (score r ≤ score a)

variable {score time} {l window rest ranked : List α} {n : Nat}

variable (score) in
theorem rank_perm (l : List α) : (rank score l).Perm l := List.mergeSort_perm l _

theorem rank_sorted (l : List α) : (rank score l).Pairwise fun a b => score b ≤ score a :=
  (List.pairwise_mergeSort (by simp; omega) (by simp; omega) l).imp fun le => of_decide_eq_true le

theorem rank_filter (l : List α) (s : Nat) :
    (rank score l).filter (fun a => decide (score a = s)) = l.filter fun a => decide (score a = s) := by
  have equal : (l.filter fun a => decide (score a = s)).Pairwise fun a b =>
      decide (score b ≤ score a) = true := by
    refine List.pairwise_of_forall_mem_list fun a a_mem b b_mem => ?_
    have a_score := of_decide_eq_true (List.mem_filter.mp a_mem).2
    have b_score := of_decide_eq_true (List.mem_filter.mp b_mem).2
    exact decide_eq_true (by omega)
  have sublist : List.Sublist (l.filter fun a => decide (score a = s)) (rank score l) :=
    List.sublist_mergeSort (by simp; omega) (by simp; omega) equal List.filter_sublist
  have filtered := sublist.filter fun a => decide (score a = s)
  rw [List.filter_filter] at filtered
  simp only [Bool.and_self] at filtered
  exact (filtered.eq_of_length ((rank_perm score l).filter _).length_eq.symm).symm

/-- What is ranked of a list that is newest first has the newer first among equals. -/
theorem rank_precedes (newest : l.Pairwise fun a b => time b ≤ time a) :
    (rank score l).Pairwise (Precedes score time) := by
  rw [List.pairwise_iff_forall_sublist]
  intro a b sublist
  have sorted := List.pairwise_iff_forall_sublist.mp (rank_sorted l) sublist
  rcases sorted.lt_or_eq with less | equal
  · exact .inl less
  · have both := sublist.filter fun c => decide (score c = score a)
    rw [rank_filter, List.filter_cons_of_pos (by simp), List.filter_cons_of_pos (by simpa using equal)]
      at both
    exact .inr ⟨equal.symm,
      List.pairwise_iff_forall_sublist.mp newest (both.trans List.filter_sublist)⟩

theorem Precedes.le {a b : α} (precedes : Precedes score time a b) : score b ≤ score a := by
  rcases precedes with less | equal
  · exact less.le
  · exact equal.1.ge

/-- Of a sorted list the first are those that score most. -/
theorem countP_take (sorted : l.Pairwise fun a b => score b ≤ score a) (n s : Nat) :
    (l.take n).countP (fun a => decide (s ≤ score a)) =
      min n (l.countP fun a => decide (s ≤ score a)) := by
  induction l generalizing n with
  | nil => simp
  | cons a l ih =>
    rw [List.pairwise_cons] at sorted
    cases n with
    | zero => simp
    | succ n =>
      rw [List.take_succ_cons, List.countP_cons, List.countP_cons, ih sorted.2]
      by_cases high : s ≤ score a
      · simp [high]
      · have none_ : l.countP (fun a => decide (s ≤ score a)) = 0 := by
          rw [List.countP_eq_zero]
          intro b mem
          have := sorted.1 b mem
          exact fun le => high ((of_decide_eq_true le).trans this)
        simp [high, none_]

/-- With enough in the window, the best of the window score no less than the rest. -/
theorem Enough.le_of_mem_take (enough : Enough score n window rest) :
    ∀ r ∈ rest, ∀ a ∈ (rank score window).take n, score r ≤ score a := by
  intro r mem
  have all : ((rank score window).take n).countP (fun a => decide (score r ≤ score a)) =
      ((rank score window).take n).length := by
    refine le_antisymm List.countP_le_length ?_
    rw [countP_take (rank_sorted window), (rank_perm score window).countP_eq]
    exact le_min (List.length_take_le _ _) ((List.length_take_le _ _).trans (enough r mem))
  intro a a_mem
  exact of_decide_eq_true (List.countP_eq_length.mp all a a_mem)

/-- With enough in the window, the best of the window are the best of all. -/
theorem Enough.exists_ranked (enough : Enough score n window rest)
    (newest : (window ++ rest).Pairwise fun a b => time b ≤ time a) :
    ∃ ranked : List α, ranked.Perm (window ++ rest) ∧ ranked.Pairwise (Precedes score time) ∧
      ranked.take n = (rank score window).take n := by
  obtain ⟨window_newest, -, before⟩ := List.pairwise_append.mp newest
  have precedes : (rank score window).Pairwise (Precedes score time) := rank_precedes window_newest
  let best := (rank score window).take n
  let left := (rank score window).drop n
  let others := (left ++ rest).mergeSort fun a b => decide (time b ≤ time a)
  have others_newest : others.Pairwise fun a b => time b ≤ time a :=
    (List.pairwise_mergeSort (by simp; exact fun _ _ _ first_ second => second.trans first_)
      (by simp; exact fun a b => le_total (time b) (time a)) _).imp fun le => of_decide_eq_true le
  have others_perm : (rank score others).Perm (left ++ rest) :=
    (rank_perm score others).trans (List.mergeSort_perm _ _)
  have parts : best ++ left = rank score window := List.take_append_drop n _
  refine ⟨best ++ rank score others, ?_, ?_, ?_⟩
  · have perm := others_perm.append_left best
    rw [← List.append_assoc, parts] at perm
    exact perm.trans ((rank_perm score window).append_right rest)
  · rw [← parts, List.pairwise_append] at precedes
    rw [List.pairwise_append]
    refine ⟨precedes.1, rank_precedes others_newest, fun a a_mem b b_mem => ?_⟩
    rcases List.mem_append.mp (others_perm.mem_iff.mp b_mem) with in_left | in_rest
    · exact precedes.2.2 a a_mem b in_left
    · have le := enough.le_of_mem_take b in_rest a a_mem
      rcases le.lt_or_eq with less | equal
      · exact .inl less
      · exact .inr ⟨equal.symm,
          before a ((rank_perm score window).mem_iff.mp (List.mem_of_mem_take a_mem)) b in_rest⟩
  · rw [List.take_append, List.take_take, min_self]
    by_cases full : n ≤ best.length
    · rw [Nat.sub_eq_zero_of_le full, List.take_zero, List.append_nil]
    · have short : window.length < n := by
        rw [← (rank_perm score window).length_eq]
        simp only [best, List.length_take] at full
        omega
      have left_nil : left = [] := List.drop_eq_nil_of_le (by rw [(rank_perm score window).length_eq]; omega)
      have rest_nil : rest = [] := List.eq_nil_iff_forall_not_mem.mpr fun r mem =>
        absurd (enough r mem) (not_le.mpr (List.countP_le_length.trans_lt short))
      rw [left_nil, rest_nil, List.append_nil] at others_perm
      rw [others_perm.eq_nil, List.take_nil, List.append_nil]

/-- Where the best of the window score as the best of all, there are enough in the window. -/
theorem enough_of_ranked (perm : ranked.Perm (window ++ rest))
    (precedes : ranked.Pairwise (Precedes score time))
    (same : (ranked.take n).map score = ((rank score window).take n).map score) :
    Enough score n window rest := by
  intro r mem
  have counts := congrArg (List.countP fun m => decide (score r ≤ m)) same
  simp only [List.countP_map, Function.comp_def] at counts
  rw [countP_take (precedes.imp Precedes.le), countP_take (rank_sorted window), perm.countP_eq,
    (rank_perm score window).countP_eq, List.countP_append] at counts
  have itself : 0 < rest.countP fun a => decide (score r ≤ score a) :=
    List.countP_pos_iff.mpr ⟨r, mem, decide_eq_true le_rfl⟩
  omega

end Ranking
