import AgentStudio.Py.Dict

/-!
# Totals under keys

`d[k] = d.get(k, 0) + w` for one pair after another. What a key is at in the end is made
by its own pairs alone, in their order.
-/

namespace Py.Dict

variable {κ ν : Type}

/-- Entries are pairwise different. -/
theorem nodup_entries (d : Dict κ ν) : d.entries.Nodup := List.Nodup.of_map _ d.nodup

variable [DecidableEq κ]

/-- Dictionaries that read the same hold the same entries, in some order. -/
theorem entries_perm {d d' : Dict κ ν} (same : ∀ k, d.get? k = d'.get? k) :
    d.entries.Perm d'.entries := by
  rw [List.perm_ext_iff_of_nodup d.nodup_entries d'.nodup_entries]
  rintro ⟨k, v⟩
  rw [← get?_eq_some, ← get?_eq_some, same]

theorem size_congr {d d' : Dict κ ν} (same : ∀ k, d.get? k = d'.get? k) : d.size = d'.size :=
  (entries_perm same).length_eq

theorem total_congr {d d' : Dict κ ν} (same : ∀ k, d.get? k = d'.get? k) (weight : ν → Nat) :
    d.total weight = d'.total weight :=
  ((entries_perm same).map _).sum_eq

/-- A key has no more than its entry. -/
theorem filter_entries (d : Dict κ ν) (k : κ) :
    (d.entries.filter fun e => e.1 = k) = ((d.get? k).map (Prod.mk k)).toList := by
  have nodup := d.nodup
  unfold get?
  generalize d.entries = entries at nodup
  induction entries with
  | nil => rfl
  | cons e entries ih =>
    obtain ⟨apart, nodup⟩ := List.nodup_cons.mp nodup
    by_cases here : e.1 = k
    · have rest : (entries.filter fun e => e.1 = k) = [] := by
        rw [List.filter_eq_nil_iff]
        intro e' mem same
        apply apart
        rw [here, ← of_decide_eq_true same]
        exact List.mem_map_of_mem mem
      rw [List.filter_cons_of_pos (by simpa using here), rest,
        List.find?_cons_of_pos (by simpa using here)]
      simp [← here]
    · rw [List.filter_cons_of_neg (by simpa using here),
        List.find?_cons_of_neg (by simpa using here)]
      exact ih nodup

section Tally
variable {M : Type} [Zero M] [Add M]

def tally (d : Dict κ M) (pairs : List (κ × M)) : Dict κ M :=
  pairs.foldl (fun d e => d.set e.1 ((d.get? e.1).getD 0 + e.2)) d

theorem tally_append (d : Dict κ M) (pairs pairs' : List (κ × M)) :
    d.tally (pairs ++ pairs') = (d.tally pairs).tally pairs' := List.foldl_append

theorem get?_tally (d : Dict κ M) (pairs : List (κ × M)) (k : κ) :
    (d.tally pairs).get? k =
      (pairs.filter fun e => e.1 = k).foldl (fun total e => some (total.getD 0 + e.2))
        (d.get? k) := by
  induction pairs generalizing d with
  | nil => rfl
  | cons e pairs ih =>
    rw [tally, List.foldl_cons, ← tally, ih, get?_set]
    by_cases here : e.1 = k
    · rw [if_pos here.symm, List.filter_cons_of_pos (by simpa using here), List.foldl_cons, here]
    · rw [if_neg fun same => here same.symm, List.filter_cons_of_neg (by simpa using here)]

/-- Keys whose pairs are the same are at the same. -/
theorem tally_congr {d d' : Dict κ M} {pairs pairs' : List (κ × M)} {k : κ}
    (held : d.get? k = d'.get? k)
    (same : (pairs.filter fun e => e.1 = k) = pairs'.filter fun e => e.1 = k) :
    (d.tally pairs).get? k = (d'.tally pairs').get? k := by
  rw [get?_tally, get?_tally, held, same]

theorem mem_keys_tally {d : Dict κ M} {pairs : List (κ × M)} {k : κ} :
    k ∈ (d.tally pairs).keys ↔ k ∈ d.keys ∨ k ∈ pairs.map Prod.fst := by
  induction pairs generalizing d with
  | nil => simp [tally]
  | cons e pairs ih =>
    rw [tally, List.foldl_cons, ← tally, ih, mem_keys_set, List.map_cons, List.mem_cons]
    tauto

end Tally

end Py.Dict
