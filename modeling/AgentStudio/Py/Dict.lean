import Mathlib.Data.List.Nodup
import Mathlib.Tactic.Common
import Mathlib.Algebra.BigOperators.Group.List.Basic
import Mathlib.Algebra.Order.Ring.Nat

/-!
# Dictionaries in the order of insertion

A Python `dict` keeps its keys in the order in which they were first set; a key that
is set again keeps its place.
-/

namespace Py

structure Dict (κ ν : Type) where
  entries : List (κ × ν)
  nodup : (entries.map Prod.fst).Nodup

namespace Dict

variable {κ ν : Type}

def empty : Dict κ ν := ⟨[], .nil⟩

def keys (d : Dict κ ν) : List κ := d.entries.map Prod.fst

def size (d : Dict κ ν) : Nat := d.entries.length

/-- The dictionary without its first `n` entries. -/
def drop (d : Dict κ ν) (n : Nat) : Dict κ ν where
  entries := d.entries.drop n
  nodup := by
    rw [List.map_drop]
    exact d.nodup.sublist (List.drop_sublist _ _)

theorem entries_drop (d : Dict κ ν) (n : Nat) : (d.drop n).entries = d.entries.drop n := rfl

/-- The dictionary without the entries of some keys. -/
def filter (d : Dict κ ν) (p : κ → Bool) : Dict κ ν where
  entries := d.entries.filter fun e => p e.1
  nodup := d.nodup.sublist (List.filter_sublist.map Prod.fst)

/-- A key names its entry. -/
theorem unique (d : Dict κ ν) {k : κ} {v v' : ν} (here : (k, v) ∈ d.entries)
    (here' : (k, v') ∈ d.entries) : v = v' := by
  have same := List.inj_on_of_nodup_map d.nodup here here' rfl
  exact congrArg Prod.snd same

/-- What the entries add up to. -/
def total (d : Dict κ ν) (weight : ν → Nat) : Nat := (d.entries.map fun e => weight e.2).sum

theorem size_eq_total (d : Dict κ ν) : d.size = d.total fun _ => 1 := by
  simp [size, total]

variable [DecidableEq κ]

def get? (d : Dict κ ν) (k : κ) : Option ν := (d.entries.find? fun e => e.1 = k).map Prod.snd

theorem get?_eq_some {d : Dict κ ν} {k : κ} {v : ν} : d.get? k = some v ↔ (k, v) ∈ d.entries := by
  constructor
  · intro found
    obtain ⟨⟨k', v'⟩, here, rfl⟩ := Option.map_eq_some_iff.mp found
    have same : k' = k := by simpa using List.find?_some here
    exact same ▸ List.mem_of_find?_eq_some here
  · intro here
    cases found : d.entries.find? fun e => e.1 = k with
    | none =>
      have absent := List.find?_eq_none.mp found _ here
      simp at absent
    | some e =>
      have same : e.1 = k := by simpa using List.find?_some found
      have mem := List.mem_of_find?_eq_some found
      rw [get?, found, Option.map_some]
      congr 1
      exact d.unique (same ▸ mem) here

theorem get?_eq_none {d : Dict κ ν} {k : κ} : d.get? k = none ↔ k ∉ d.keys := by
  rw [get?, Option.map_eq_none_iff, List.find?_eq_none, keys, List.mem_map]
  constructor
  · rintro none_ ⟨e, mem, is⟩
    exact none_ e mem (by simp [is])
  · intro none_ e mem is
    exact none_ ⟨e, mem, by simpa using is⟩

/-- A key that is there keeps its place, a new one goes last. -/
def setEntries (k : κ) (v : ν) (entries : List (κ × ν)) : List (κ × ν) :=
  if k ∈ entries.map Prod.fst then entries.map fun e => if e.1 = k then (k, v) else e
  else entries ++ [(k, v)]

theorem keys_setEntries (k : κ) (v : ν) (entries : List (κ × ν)) :
    (setEntries k v entries).map Prod.fst =
      if k ∈ entries.map Prod.fst then entries.map Prod.fst
      else entries.map Prod.fst ++ [k] := by
  unfold setEntries
  split
  · rw [List.map_map]
    apply List.map_congr_left
    intro e _
    by_cases same : e.1 = k
    · simp [same]
    · simp [same]
  · simp

/-- `d[k] = v`. -/
def set (d : Dict κ ν) (k : κ) (v : ν) : Dict κ ν where
  entries := setEntries k v d.entries
  nodup := by
    rw [keys_setEntries]
    split
    · exact d.nodup
    · rename_i new
      exact List.Nodup.append d.nodup (List.nodup_singleton k) (by simpa using new)

theorem mem_set {d : Dict κ ν} {k : κ} {v : ν} {e : κ × ν} :
    e ∈ (d.set k v).entries ↔ e = (k, v) ∨ e.1 ≠ k ∧ e ∈ d.entries := by
  change e ∈ setEntries k v d.entries ↔ _
  unfold setEntries
  split
  · rename_i old
    rw [List.mem_map]
    constructor
    · rintro ⟨e', mem, rfl⟩
      by_cases same : e'.1 = k
      · exact .inl (if_pos same)
      · rw [if_neg same]
        exact .inr ⟨same, mem⟩
    · rintro (rfl | ⟨other, mem⟩)
      · obtain ⟨e', mem, same⟩ := List.mem_map.mp old
        exact ⟨e', mem, if_pos same⟩
      · exact ⟨e, mem, if_neg other⟩
  · rename_i new
    rw [List.mem_append, List.mem_singleton, or_comm]
    constructor
    · rintro (is | mem)
      · exact .inl is
      · refine .inr ⟨?_, mem⟩
        rintro rfl
        exact new (List.mem_map_of_mem mem)
    · rintro (is | ⟨-, mem⟩)
      · exact .inl is
      · exact .inr mem

theorem mem_keys_set {d : Dict κ ν} {k k' : κ} {v : ν} :
    k' ∈ (d.set k v).keys ↔ k' = k ∨ k' ∈ d.keys := by
  change k' ∈ (setEntries k v d.entries).map Prod.fst ↔ _
  rw [keys_setEntries]
  split
  · rename_i old
    constructor
    · exact .inr
    · rintro (rfl | there)
      · exact old
      · exact there
  · rw [List.mem_append, List.mem_singleton, or_comm]
    rfl

theorem get?_set_self (d : Dict κ ν) (k : κ) (v : ν) : (d.set k v).get? k = some v :=
  get?_eq_some.mpr (mem_set.mpr (.inl rfl))

theorem get?_set (d : Dict κ ν) (k k' : κ) (v : ν) :
    (d.set k v).get? k' = if k' = k then some v else d.get? k' := by
  apply Option.ext
  intro v'
  rw [get?_eq_some, mem_set]
  by_cases same : k' = k
  · simp [same, eq_comm]
  · simp [same, get?_eq_some]

theorem get?_set_other (d : Dict κ ν) {k k' : κ} (other : k' ≠ k) (v : ν) :
    (d.set k v).get? k' = d.get? k' := by
  rw [get?_set, if_neg other]

/-- `d.pop(k, None)`. -/
def erase (d : Dict κ ν) (k : κ) : Dict κ ν := d.filter fun k' => k' ≠ k

theorem mem_erase {d : Dict κ ν} {k : κ} {e : κ × ν} :
    e ∈ (d.erase k).entries ↔ e.1 ≠ k ∧ e ∈ d.entries := by
  simp [erase, filter, and_comm]

theorem get?_erase (d : Dict κ ν) (k k' : κ) :
    (d.erase k).get? k' = if k' = k then none else d.get? k' := by
  apply Option.ext
  intro v
  rw [get?_eq_some, mem_erase]
  by_cases same : k' = k
  · simp [same]
  · simp [same, get?_eq_some]

/-- The dictionary with its values replaced, or dropped. -/
def filterMap {ν' : Type} (d : Dict κ ν) (f : ν → Option ν') : Dict κ ν' where
  entries := d.entries.filterMap fun e => (f e.2).map (Prod.mk e.1)
  nodup := by
    refine d.nodup.sublist ?_
    generalize d.entries = entries
    induction entries with
    | nil => exact List.Sublist.slnil
    | cons e entries ih =>
      rw [List.filterMap_cons]
      cases f e.2 with
      | none => exact ih.cons _
      | some v => exact ih.cons_cons _

theorem get?_filterMap {ν' : Type} (d : Dict κ ν) (f : ν → Option ν') (k : κ) :
    (d.filterMap f).get? k = (d.get? k).bind f := by
  apply Option.ext
  intro v
  rw [get?_eq_some, Option.bind_eq_some_iff]
  change (k, v) ∈ d.entries.filterMap _ ↔ _
  rw [List.mem_filterMap]
  constructor
  · rintro ⟨⟨k', v'⟩, mem, made⟩
    obtain ⟨v'', is, same⟩ := Option.map_eq_some_iff.mp made
    obtain ⟨rfl, rfl⟩ := Prod.mk.inj same
    exact ⟨v', get?_eq_some.mpr mem, is⟩
  · rintro ⟨v', found, is⟩
    exact ⟨(k, v'), get?_eq_some.mp found, by simp [is]⟩

theorem total_erase {d : Dict κ ν} {k : κ} {v : ν} (weight : ν → Nat) (found : d.get? k = some v) :
    (d.erase k).total weight + weight v = d.total weight := by
  have mem := get?_eq_some.mp found
  have nodup := d.nodup
  unfold total erase filter
  dsimp only
  generalize d.entries = entries at mem nodup
  induction entries with
  | nil => cases mem
  | cons e entries ih =>
    obtain ⟨apart, nodup⟩ := List.nodup_cons.mp nodup
    by_cases here : e = (k, v)
    · have rest : entries.filter (fun e => decide (e.1 ≠ k)) = entries := by
        apply List.filter_eq_self.mpr
        intro e' mem'
        have other : e'.1 ≠ k := by
          intro same
          have listed : e'.1 ∈ entries.map Prod.fst := List.mem_map_of_mem mem'
          exact apart (by rwa [here, ← same])
        simpa using other
      rw [List.filter_cons_of_neg (by simp [here]), rest, List.map_cons, List.sum_cons, here,
        Nat.add_comm]
    · have mem := (List.mem_cons.mp mem).resolve_left fun same => here same.symm
      have other : e.1 ≠ k := by
        intro same
        have listed : k ∈ entries.map Prod.fst := List.mem_map_of_mem (f := Prod.fst) mem
        exact apart (same ▸ listed)
      have ih := ih mem nodup
      rw [List.filter_cons_of_pos (by simpa using other), List.map_cons, List.map_cons,
        List.sum_cons, List.sum_cons]
      omega

/-- A new key goes last. -/
theorem set_new {d : Dict κ ν} {k : κ} (new : k ∉ d.keys) (v : ν) :
    (d.set k v).entries = d.entries ++ [(k, v)] := if_neg new

theorem total_set {d : Dict κ ν} {k : κ} (new : d.get? k = none) (weight : ν → Nat) (v : ν) :
    (d.set k v).total weight = d.total weight + weight v := by
  rw [total, set_new (get?_eq_none.mp new)]
  simp [total]

end Dict

end Py
