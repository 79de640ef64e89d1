import Mathlib.Data.Nat.Basic
import Mathlib.Tactic.Ring
import Mathlib.Tactic.Linarith
import Mathlib.Data.List.Induction

/-!
# Numerals of fixed width

`int.to_bytes` and `int.from_bytes` with the highest digit first, to any base. What is
written is read back.
-/

namespace Py

/-- `int.from_bytes(digits, "big")`. -/
def fromBytes (b : ℕ) (digits : List ℕ) : ℕ := digits.foldl (fun n d => n * b + d) 0

/-- `n.to_bytes(w, "big")`; what does not fit is cut off. -/
def toBytes (b : ℕ) : ℕ → ℕ → List ℕ
  | 0, _ => []
  | w + 1, n => toBytes b w (n / b) ++ [n % b]

variable {b : ℕ}

theorem fromBytes_snoc (digits : List ℕ) (d : ℕ) :
    fromBytes b (digits ++ [d]) = fromBytes b digits * b + d := by
  simp [fromBytes]

theorem length_toBytes (w n : ℕ) : (toBytes b w n).length = w := by
  induction w generalizing n with
  | zero => rfl
  | succ w ih => simp [toBytes, ih]

theorem lt_of_mem_toBytes (positive : 0 < b) {w n d : ℕ} (mem : d ∈ toBytes b w n) : d < b := by
  induction w generalizing n with
  | zero => simp [toBytes] at mem
  | succ w ih =>
    rcases List.mem_append.mp mem with mem | mem
    · exact ih mem
    · rw [List.mem_singleton.mp mem]
      exact Nat.mod_lt _ positive

theorem fromBytes_toBytes {w n : ℕ} (fits : n < b ^ w) : fromBytes b (toBytes b w n) = n := by
  induction w generalizing n with
  | zero =>
    have : n = 0 := by simpa using fits
    simp [toBytes, fromBytes, this]
  | succ w ih =>
    have quotient : n / b < b ^ w := by
      rw [pow_succ] at fits
      exact Nat.div_lt_of_lt_mul (by rwa [Nat.mul_comm] at fits)
    rw [toBytes, fromBytes_snoc, ih quotient]
    exact Nat.div_add_mod' n b

theorem fromBytes_lt {digits : List ℕ} (each : ∀ d ∈ digits, d < b) :
    fromBytes b digits < b ^ digits.length := by
  induction digits using List.reverseRecOn with
  | nil => simp [fromBytes]
  | append_singleton digits d ih =>
    have before := ih fun x mem => each x (List.mem_append_left _ mem)
    have last := each d (by simp)
    rw [fromBytes_snoc, List.length_append, List.length_singleton, pow_succ]
    calc fromBytes b digits * b + d < fromBytes b digits * b + b := by omega
      _ = (fromBytes b digits + 1) * b := by ring
      _ ≤ b ^ digits.length * b := Nat.mul_le_mul_right b before

end Py
