import AgentStudio.Packing.Bands
import Mathlib.Data.List.Sort

/-!
# Prompt variants

`application/prompts/service.py`: the enabled variants of a prompt take shares of a hundred buckets,
in the order of their versions, and a session is in the bucket of its seed.
-/

namespace AgentStudio.Prompts

/-- What is read of a row; `none` for a key that is absent. -/
structure Variant where
  name : String
  content : String
  version : Option Int
  targetPercentage : Option Int
  deriving DecidableEq

namespace Variant

/-- `r.get("version", 0)`. -/
def order (row : Variant) : Int := row.version.getD 0

/-- `int(row.get("target_percentage") or 0)`. -/
def share (row : Variant) : Int := row.targetPercentage.getD 0

/-- A share below zero is none. -/
def weight (row : Variant) : Nat := row.share.toNat

end Variant

/-- `_bucket`; the digest is read as a number. -/
def bucket (sha256 : String → Nat) (seed : String) : Nat := sha256 seed % 100

/-- The loop of `resolve_prompt_variant`, with `cumulative`. -/
def pick (bucket : Nat) : Int → List Variant → Option Variant
  | _, [] => none
  | cumulative, row :: rest =>
    if row.share ≤ 0 then pick bucket cumulative rest
    else if bucket < cumulative + row.share then some row
    else pick bucket (cumulative + row.share) rest

def sortedRows (rows : List Variant) : List Variant :=
  rows.mergeSort fun a b => decide (a.order ≤ b.order)

/-- `resolve_prompt_variant`, of a bucket. -/
def variantAt (rows : List Variant) (bucket : Nat) : Option Variant :=
  if rows = [] then none else pick bucket 0 (sortedRows rows)

/-- `resolve_prompt_variant`. -/
def resolvePromptVariant (sha256 : String → Nat) (rows : List Variant) (seed : String) :
    Option Variant := variantAt rows (bucket sha256 seed)

variable {rows rows' : List Variant} {row : Variant} {b : Nat}

/-- The running sum passes over the bands before. -/
theorem pick_eq_band (before : Nat) (later : before ≤ b) (rows : List Variant) :
    pick b before rows = Packing.band Variant.weight rows (b - before) := by
  induction rows generalizing before with
  | nil => rfl
  | cons row rest ih =>
    rw [pick, Packing.band]
    by_cases none_ : row.share ≤ 0
    · have weightless : row.weight = 0 := Int.toNat_of_nonpos none_
      rw [if_pos none_, if_neg (by omega), weightless, Nat.sub_zero]
      exact ih before later
    · have weight : (row.weight : Int) = row.share := Int.toNat_of_nonneg (by omega)
      rw [if_neg none_, ← weight]
      split
      · rw [if_pos (by omega)]
      · rw [if_neg (by omega), ← Int.natCast_add, ih (before + row.weight) (by omega), Nat.sub_add_eq]

theorem variantAt_eq_band (rows : List Variant) (b : Nat) :
    variantAt rows b = Packing.band Variant.weight (sortedRows rows) b := by
  rw [variantAt]
  split
  · rename_i empty
    simp [empty, sortedRows, Packing.band]
  · exact pick_eq_band 0 (Nat.zero_le b) _

theorem sortedRows_perm (rows : List Variant) : (sortedRows rows).Perm rows :=
  List.mergeSort_perm rows _

theorem sortedRows_increasing (versions : (rows.map Variant.order).Nodup) :
    (sortedRows rows).Pairwise fun a b => a.order < b.order := by
  have sorted : (sortedRows rows).Pairwise fun a b => decide (a.order ≤ b.order) = true :=
    List.pairwise_mergeSort (by simp; omega) (by simp; omega) rows
  have distinct : ((sortedRows rows).map Variant.order).Nodup :=
    ((sortedRows_perm rows).map Variant.order).nodup_iff.mpr versions
  refine (sorted.and (List.pairwise_map.mp distinct)).imp fun both => ?_
  exact lt_of_le_of_ne (of_decide_eq_true both.1) both.2

/-- Of distinct versions there is one increasing order. -/
theorem sortedRows_eq (versions : (rows.map Variant.order).Nodup) {sorted : List Variant}
    (perm : sorted.Perm rows) (increasing : sorted.Pairwise fun a b => a.order < b.order) :
    sortedRows rows = sorted :=
  List.Perm.eq_of_pairwise (fun a b _ _ less more => absurd less (by omega))
    (sortedRows_increasing versions) increasing ((sortedRows_perm rows).trans perm.symm)

/-- The order of the rows does not matter. -/
theorem variantAt_perm (versions : (rows.map Variant.order).Nodup) (perm : rows'.Perm rows)
    (b : Nat) : variantAt rows' b = variantAt rows b := by
  have versions' := (perm.map Variant.order).nodup_iff.mpr versions
  rw [variantAt_eq_band, variantAt_eq_band, ← sortedRows_eq versions'
    ((sortedRows_perm rows).trans perm.symm) (sortedRows_increasing versions)]

/-- A variant with a higher version than all comes last. -/
theorem variantAt_add (versions : (rows.map Variant.order).Nodup) {new : Variant}
    (higher : ∀ row ∈ rows, row.order < new.order) (perm : rows'.Perm (new :: rows))
    (is : variantAt rows b = some row) : variantAt rows' b = some row := by
  have mem {row : Variant} : row ∈ sortedRows rows ↔ row ∈ rows := (sortedRows_perm rows).mem_iff
  have versions' : (rows'.map Variant.order).Nodup := by
    rw [(perm.map Variant.order).nodup_iff, List.map_cons, List.nodup_cons]
    refine ⟨fun there => ?_, versions⟩
    obtain ⟨row, mem, same⟩ := List.mem_map.mp there
    exact absurd (higher row mem) (by omega)
  have last : sortedRows rows' = sortedRows rows ++ [new] := by
    apply sortedRows_eq versions'
    · exact ((List.perm_append_singleton new _).trans ((sortedRows_perm rows).cons new)).trans
        perm.symm
    · rw [List.pairwise_append]
      refine ⟨sortedRows_increasing versions, List.pairwise_singleton _ _, ?_⟩
      intro a there b is
      rw [List.mem_singleton.mp is]
      exact higher a (mem.mp there)
  rw [variantAt_eq_band] at is ⊢
  rw [last]
  exact Packing.band_append is

theorem sum_weight (shares : ∀ row ∈ rows, 0 ≤ row.share) :
    ((rows.map Variant.weight).sum : Int) = (rows.map Variant.share).sum := by
  induction rows with
  | nil => rfl
  | cons row rest ih =>
    rw [List.forall_mem_cons] at shares
    simp only [List.map_cons, List.sum_cons, Int.natCast_add, ih shares.2]
    rw [Variant.weight, Int.toNat_of_nonneg shares.1]

/-- Of variants with distinct versions and shares of a hundred at most: a variant has as many of the
hundred buckets as its share, and what is left of the hundred has none; the order of the rows does
not matter; and a variant with a higher version takes no bucket from another. -/
theorem buckets (rows : List Variant) (versions : (rows.map Variant.order).Nodup)
    (shares : ∀ row ∈ rows, 0 ≤ row.share) (hundred : (rows.map Variant.share).sum ≤ 100) :
    (∀ row ∈ rows, (((Finset.range 100).filter fun b => variantAt rows b = some row).card : Int) =
      row.share) ∧
    (∀ b row, variantAt rows b = some row → row ∈ rows) ∧
    (((Finset.range 100).filter fun b => variantAt rows b = none).card : Int) =
      100 - (rows.map Variant.share).sum ∧
    (∀ rows' : List Variant, rows'.Perm rows → ∀ sha256 seed,
      resolvePromptVariant sha256 rows' seed = resolvePromptVariant sha256 rows seed) ∧
    ∀ (new : Variant) (rows' : List Variant), (∀ row ∈ rows, row.order < new.order) →
      rows'.Perm (new :: rows) → ∀ sha256 seed row,
        resolvePromptVariant sha256 rows seed = some row →
          resolvePromptVariant sha256 rows' seed = some row := by
  have perm := sortedRows_perm rows
  have nodup : (sortedRows rows).Nodup := perm.nodup_iff.mpr (List.Nodup.of_map _ versions)
  have sum : ((sortedRows rows).map Variant.weight).sum = (rows.map Variant.weight).sum :=
    (perm.map Variant.weight).sum_eq
  have total := sum_weight shares
  refine ⟨fun row mem => ?_, fun b row is => ?_, ?_, fun rows' same sha256 seed =>
    variantAt_perm versions same _, fun new rows' higher added sha256 seed row =>
    variantAt_add versions higher added⟩
  · simp only [variantAt_eq_band]
    rw [Packing.card_band nodup (perm.mem_iff.mpr mem) (by omega), Variant.weight,
      Int.toNat_of_nonneg (shares row mem)]
  · rw [variantAt_eq_band] at is
    exact perm.mem_iff.mp (Packing.mem_of_band is)
  · have left : ((Finset.range 100).filter fun b => variantAt rows b = none) =
        Finset.Ico (rows.map Variant.weight).sum 100 := by
      ext b
      rw [Finset.mem_filter, Finset.mem_range, variantAt_eq_band, Packing.band_none_iff, sum,
        Finset.mem_Ico, and_comm]
    rw [left, Nat.card_Ico, ← total]
    omega

def half : Variant := { name := "a", content := "A", version := some 1, targetPercentage := some 50 }

def other : Variant := { name := "b", content := "B", version := some 2, targetPercentage := none }

/-- Half of the sessions have the first variant. -/
theorem buckets_half :
    (((Finset.range 100).filter fun b => variantAt [other, half] b = some half).card : Int) =
      50 :=
  (buckets [other, half] (by decide) (by decide) (by decide)).1 half (by decide)

end AgentStudio.Prompts
