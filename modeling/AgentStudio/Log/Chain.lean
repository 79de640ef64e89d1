import Mathlib

/-!
# Hash chains

Each entry of a log names the hash of the entry before it. The log is read in
the order of a key; an entry that is written with a smaller key than one already
there comes between two that were linked.
-/

namespace Log

variable {α κ ι : Type} (hash : α → κ) (link : α → Option κ)

/-- The first entry links to `before`, each later one to the entry before it. -/
def Linked : Option κ → List α → Prop
  | _, [] => True
  | before, a :: l => link a = before ∧ Linked (some (hash a)) l

def lastHash (before : Option κ) (l : List α) : Option κ := (l.getLast?.map hash).or before

variable {hash link} {before : Option κ} {l m : List α} {a b e r : α}

theorem linked_append :
    Linked hash link before (l ++ m) ↔
      Linked hash link before l ∧ Linked hash link (lastHash hash before l) m := by
  induction l generalizing before with
  | nil => simp [Linked, lastHash]
  | cons a l ih =>
    have last : lastHash hash before (a :: l) = lastHash hash (some (hash a)) l := by
      cases l with
      | nil => rfl
      | cons b l => simp [lastHash, List.getLast?_cons]
    rw [List.cons_append, Linked, Linked, ih, last, and_assoc]

theorem Linked.left (linked : Linked hash link before (l ++ m)) : Linked hash link before l :=
  (linked_append.mp linked).1

/-- The first part of a chain is a chain. -/
theorem Linked.filter {p : α → Bool} (linked : Linked hash link before l)
    (first : l.Pairwise fun a b => p b → p a) : Linked hash link before (l.filter p) := by
  induction l generalizing before with
  | nil => trivial
  | cons a l ih =>
    obtain ⟨above, rest⟩ := List.pairwise_cons.mp first
    by_cases its : p a
    · rw [List.filter_cons_of_pos its]
      exact ⟨linked.1, ih linked.2 rest⟩
    · have none_ : (a :: l).filter p = [] := by
        rw [List.filter_eq_nil_iff]
        intro b mem is
        rcases List.mem_cons.mp mem with rfl | later
        · exact its is
        · exact its (above b later is)
      rw [none_]
      trivial

/-- No other part is. -/
theorem Linked.first_of_filter {p : α → Bool} (linked : Linked hash link before l)
    (fresh : ∀ a ∈ l, before ≠ some (hash a)) (distinct : (l.map hash).Nodup)
    (part : Linked hash link before (l.filter p)) : l.Pairwise fun a b => p b → p a := by
  induction l generalizing before with
  | nil => exact List.Pairwise.nil
  | cons a l ih =>
    rw [List.map_cons, List.nodup_cons] at distinct
    have fresh' : ∀ b ∈ l, some (hash a) ≠ some (hash b) := by
      intro b mem same
      exact distinct.1 (Option.some.inj same ▸ List.mem_map_of_mem mem)
    by_cases its : p a
    · rw [List.filter_cons_of_pos its] at part
      refine List.pairwise_cons.mpr ⟨fun _ _ _ => its, ?_⟩
      exact ih linked.2 fresh' distinct.2 part.2
    · rw [List.filter_cons_of_neg its] at part
      -- what is kept next would link to `before` and to an entry after it
      have none_ : l.filter p = [] := by
        cases left : l.filter p with
        | nil => rfl
        | cons c more =>
          rw [left] at part
          obtain ⟨pre, post, rfl, -, -⟩ := List.filter_eq_cons_iff.mp left
          have linkC : link c = lastHash hash (some (hash a)) pre :=
            (linked_append.mp linked.2).2.1
          rw [part.1] at linkC
          cases last : pre.getLast? with
          | none =>
            simp only [lastHash, last, Option.map_none, Option.none_or] at linkC
            exact absurd linkC (fresh a List.mem_cons_self)
          | some b =>
            simp only [lastHash, last, Option.map_some, Option.some_or] at linkC
            have mem : b ∈ pre := List.mem_of_getLast? last
            exact absurd linkC (fresh b (by simp [mem]))
      have out := List.filter_eq_nil_iff.mp none_
      refine List.pairwise_cons.mpr ⟨fun b mem is => absurd is (out b mem), ?_⟩
      exact List.pairwise_of_forall_mem_list fun b _ c mem is => absurd is (out c mem)

/-! ## Written out of order -/

section Key

variable [LinearOrder ι] (key : α → ι)

/-- The entries in the order of their keys. -/
def inOrder (l : List α) : List α := l.insertionSort fun a b => key a ≤ key b

/-- The entry of the greatest key below `k`. -/
def predecessor (k : ι) (l : List α) : Option α :=
  (inOrder key (l.filter fun a => key a < k)).getLast?

/-- Every entry linked, when it was written, to the one before it in the order of keys. -/
def Recorded (hash : α → κ) (link : α → Option κ) (l : List α) : Prop :=
  ∀ pre a post, l = pre ++ a :: post → link a = (predecessor key (key a) pre).map hash

variable {key}

theorem mem_inOrder : a ∈ inOrder key l ↔ a ∈ l := List.mem_insertionSort _

theorem predecessor_mem {k : ι} (found : predecessor key k l = some a) : a ∈ l ∧ key a < k := by
  have mem := mem_inOrder.mp (List.mem_of_getLast? found)
  simpa using mem

/-- Entries replaced by others of the same key stand where they stood. -/
theorem predecessor_map {f : α → α} {k : ι} (keys : ∀ a ∈ l, key (f a) = key a) :
    predecessor key k (l.map f) = (predecessor key k l).map f := by
  have below : (l.map f).filter (fun a => key a < k) = (l.filter fun a => key a < k).map f := by
    rw [List.filter_map]
    congr 1
    refine List.filter_congr fun a mem => ?_
    simp only [Function.comp_apply, keys a mem]
  have order := List.map_insertionSort (fun a b : α => key a ≤ key b)
    (fun a b : α => key a ≤ key b) f (l.filter fun a => key a < k) (by
      intro a memA b memB
      rw [keys a (List.mem_filter.mp memA).1, keys b (List.mem_filter.mp memB).1])
  unfold predecessor inOrder
  rw [below, ← order, List.getLast?_map]

theorem inOrder_eq (increasing : l.Pairwise fun a b => key a < key b) : inOrder key l = l :=
  List.Pairwise.insertionSort_eq (increasing.imp le_of_lt)

theorem inOrder_increasing (distinct : (l.map key).Nodup) :
    (inOrder key l).Pairwise fun a b => key a < key b := by
  have sorted := List.pairwise_insertionSort (fun a b : α => key a ≤ key b) l
  have apart : (inOrder key l).Pairwise fun a b => key a ≠ key b :=
    List.pairwise_map.mp (((List.perm_insertionSort _ l).map key).nodup_iff.mpr distinct)
  exact (sorted.and apart).imp fun h => lt_of_le_of_ne h.1 h.2

theorem recorded_nil : Recorded key hash link ([] : List α) := by
  intro pre a post is
  simp at is

theorem Recorded.snoc (recorded : Recorded key hash link l)
    (next : link a = (predecessor key (key a) l).map hash) :
    Recorded key hash link (l ++ [a]) := by
  intro pre b post is
  rcases List.eq_nil_or_concat post with rfl | ⟨more, c, rfl⟩
  · obtain ⟨rfl, last⟩ := List.append_inj' is rfl
    obtain rfl := (List.cons.inj last).1
    exact next
  · have : l = pre ++ b :: more := by
      have same : l ++ [a] = (pre ++ b :: more) ++ [c] := by simpa using is
      exact (List.append_inj' same rfl).1
    exact recorded pre b more this

/-- Written in order, the log is a chain. -/
theorem Recorded.linked (recorded : Recorded key hash link l)
    (increasing : l.Pairwise fun a b => key a < key b) : Linked hash link none (inOrder key l) := by
  rw [inOrder_eq increasing]
  induction l using List.reverseRecOn with
  | nil => trivial
  | append_singleton l a ih =>
    obtain ⟨low, -, below⟩ := List.pairwise_append.mp increasing
    have before : Recorded key hash link l := by
      intro pre b post is
      exact recorded pre b (post ++ [a]) (by simp [is])
    refine linked_append.mpr ⟨ih before low, ?_, trivial⟩
    rw [recorded l a [] rfl]
    have all : l.filter (fun b => key b < key a) = l :=
      List.filter_eq_self.mpr fun b mem => by simpa using below b mem
    simp [predecessor, all, inOrder_eq low, lastHash]

/-- In a chain, an entry above `e` links to one that is not below it. -/
theorem Linked.between (linked : Linked hash link before l)
    (increasing : l.Pairwise fun a b => key a < key b) (memE : e ∈ l) (memR : r ∈ l)
    (less : key e < key r) : ∃ x ∈ l, link r = some (hash x) ∧ key e ≤ key x ∧ key x < key r := by
  induction l generalizing before e with
  | nil => cases memE
  | cons a l ih =>
    obtain ⟨first, low⟩ := List.pairwise_cons.mp increasing
    have later : r ∈ l := by
      rcases List.mem_cons.mp memR with rfl | later
      · rcases List.mem_cons.mp memE with rfl | later
        · exact absurd less (lt_irrefl _)
        · exact absurd less (lt_asymm (first e later))
      · exact later
    rcases List.mem_cons.mp memE with rfl | laterE
    · cases l with
      | nil => cases later
      | cons c l =>
        rcases List.mem_cons.mp later with rfl | after
        · exact ⟨e, List.mem_cons_self, linked.2.1, le_refl _, less⟩
        · have above := (List.pairwise_cons.mp low).1 r after
          obtain ⟨x, mem, is, le, lt⟩ := ih linked.2 low List.mem_cons_self later above
          exact ⟨x, List.mem_cons_of_mem _ mem, is,
            le_trans (le_of_lt (first c List.mem_cons_self)) le, lt⟩
    · obtain ⟨x, mem, is, le, lt⟩ := ih linked.2 low laterE later less
      exact ⟨x, List.mem_cons_of_mem _ mem, is, le, lt⟩

/-- A chain was written in order. -/
theorem Recorded.increasing (recorded : Recorded key hash link l) (distinct : (l.map key).Nodup)
    (collisionFree : ∀ a ∈ l, ∀ b ∈ l, hash a = hash b → a = b)
    (linked : Linked hash link none (inOrder key l)) : l.Pairwise fun a b => key a < key b := by
  have apart := List.pairwise_map.mp distinct
  have below (pre : List α) (e : α) (post : List α) (is : l = pre ++ e :: post) :
      ∀ r ∈ pre, key r < key e := by
    by_contra above
    push Not at above
    obtain ⟨r₀, mem₀, above₀⟩ := above
    have other (x : α) (mem : x ∈ pre) : key x ≠ key e :=
      (List.pairwise_append.mp (is ▸ apart)).2.2 x mem e List.mem_cons_self
    -- the lowest of the entries that `e` was put under
    obtain ⟨r, least⟩ : ∃ r, r ∈ (pre.filter fun x => key e < key x).argmin key := by
      have nonempty : r₀ ∈ pre.filter fun x => key e < key x := by
        simp [mem₀, lt_of_le_of_ne above₀ (other r₀ mem₀).symm]
      cases found : (pre.filter fun x => key e < key x).argmin key with
      | none => simp [List.argmin_eq_none.mp found] at nonempty
      | some r => exact ⟨r, rfl⟩
    have here := List.argmin_mem least
    simp only [List.mem_filter, decide_eq_true_eq] at here
    obtain ⟨memR, less⟩ := here
    have memL (x : α) (mem : x ∈ pre) : x ∈ l := by simp [is, mem]
    obtain ⟨x, memX, linkR, le, lt⟩ := linked.between (inOrder_increasing distinct)
      (mem_inOrder.mpr (by simp [is] : e ∈ l)) (mem_inOrder.mpr (memL r memR)) less
    obtain ⟨pre₁, pre₂, rfl⟩ := List.append_of_mem memR
    rw [recorded pre₁ r (pre₂ ++ e :: post) (by simp [is])] at linkR
    obtain ⟨p, found, same⟩ := Option.map_eq_some_iff.mp linkR
    have memP := List.mem_append_left (r :: pre₂) (predecessor_mem found).1
    obtain rfl := collisionFree p (memL p memP) x (mem_inOrder.mp memX) same
    have between : p ∈ (pre₁ ++ r :: pre₂).filter fun x => key e < key x := by
      simp only [List.mem_filter, decide_eq_true_eq]
      exact ⟨memP, lt_of_le_of_ne le (other p memP).symm⟩
    exact absurd lt (not_lt_of_ge (List.le_of_mem_argmin between least))
  clear recorded linked collisionFree distinct apart
  induction l using List.reverseRecOn with
  | nil => exact List.Pairwise.nil
  | append_singleton l a ih =>
    refine List.pairwise_append.mpr ⟨ih ?_, List.pairwise_singleton _ _, ?_⟩
    · intro pre e post is
      exact below pre e (post ++ [a]) (by simp [is])
    · intro r mem b last
      rw [List.mem_singleton.mp last]
      exact below l a [] rfl r mem

end Key

end Log
