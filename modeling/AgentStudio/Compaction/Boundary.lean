import AgentStudio.Compaction.Service

/-!
# Where compaction divides a thread

`_split` keeps the longest suffix that fits `keep_tokens`, and `_snapshot` reads
the thread from its oldest message in whole pages until it has enough.
-/

namespace AgentStudio.Compaction

open Threads

/-- The tokens of a stretch of the thread. -/
def total (tokens : MessageRow → Nat) (messages : List MessageRow) : Nat :=
  (messages.map tokens).sum

/-- The messages from `k` on fit the budget, and no longer suffix does. -/
structure IsBoundary (tokens : MessageRow → Nat) (keep : Nat) (messages : List MessageRow)
    (k : Nat) : Prop where
  bound : k ≤ messages.length
  fits : total tokens (messages.drop k) ≤ keep
  least : ∀ j < k, keep < total tokens (messages.drop j)

variable {tokens : MessageRow → Nat} {keep : Nat} {messages : List MessageRow}

variable (tokens) in
theorem total_append (xs ys : List MessageRow) :
    total tokens (xs ++ ys) = total tokens xs + total tokens ys := by simp [total]

variable (tokens) in
theorem total_drop_le {j k : Nat} (le : j ≤ k) (messages : List MessageRow) :
    total tokens (messages.drop k) ≤ total tokens (messages.drop j) := by
  have split : messages.drop j = (messages.drop j).take (k - j) ++ messages.drop k := by
    have rest : (messages.drop j).drop (k - j) = messages.drop k := by
      rw [List.drop_drop, Nat.add_sub_cancel' le]
    rw [← rest, List.take_append_drop]
  rw [split, total_append]
  exact Nat.le_add_left _ _

theorem IsBoundary.unique {j k : Nat} (hj : IsBoundary tokens keep messages j)
    (hk : IsBoundary tokens keep messages k) : j = k := by
  rcases Nat.lt_trichotomy j k with lt | eq | lt
  · exact absurd hj.fits (Nat.not_le.mpr (hk.least j lt))
  · exact eq
  · exact absurd hk.fits (Nat.not_le.mpr (hj.least k lt))

variable (tokens) in
/-- The loop of `_split`, from the newest message down. -/
theorem tailIdx_boundary (newest : List MessageRow) (acc : Nat) (fits : acc ≤ keep) :
    tailIdx tokens keep newest acc ≤ newest.length ∧
    acc + total tokens (newest.reverse.drop (tailIdx tokens keep newest acc)) ≤ keep ∧
    ∀ j < tailIdx tokens keep newest acc,
      keep < acc + total tokens (newest.reverse.drop j) := by
  induction newest generalizing acc with
  | nil => simp [tailIdx, total, fits]
  | cons m older ih =>
    have last {j : Nat} (le : j ≤ older.length) : total tokens ((m :: older).reverse.drop j) =
        total tokens (older.reverse.drop j) + tokens m := by
      rw [List.reverse_cons, List.drop_append_of_le_length (by simpa using le), total_append]
      simp [total]
    by_cases full : keep < acc + tokens m
    · simp only [tailIdx, if_pos full]
      refine ⟨by simp, ?_, ?_⟩
      · rw [List.drop_of_length_le (by simp)]
        simpa [total] using fits
      · intro j lt
        rw [last (by omega)]
        omega
    · simp only [tailIdx, if_neg full]
      obtain ⟨bound, fit, least⟩ := ih (acc + tokens m) (by omega)
      refine ⟨by simp only [List.length_cons]; omega, ?_, ?_⟩
      · rw [last bound]
        omega
      · intro j lt
        have := least j lt
        rw [last (by omega)]
        omega

/-- Where `_split` divides. -/
def Service.boundary (svc : Service) (messages : List MessageRow) : Nat :=
  tailIdx svc.tokens svc.config.keepTokens messages.reverse 0

variable {svc : Service}

theorem boundary_isBoundary (svc : Service) (messages : List MessageRow) :
    IsBoundary svc.tokens svc.config.keepTokens messages (svc.boundary messages) := by
  obtain ⟨bound, fits, least⟩ :=
    tailIdx_boundary svc.tokens messages.reverse 0 (Nat.zero_le svc.config.keepTokens)
  simp only [List.length_reverse, List.reverse_reverse, Nat.zero_add] at bound fits least
  exact ⟨bound, fits, least⟩

theorem split_head (svc : Service) (messages : List MessageRow) :
    (svc.split messages).1 = messages.take (svc.boundary messages) := rfl

theorem length_head (svc : Service) (messages : List MessageRow) :
    (svc.split messages).1.length = svc.boundary messages := by
  rw [split_head, List.length_take, min_eq_left (boundary_isBoundary svc messages).bound]

/-- What reads at least the boundary's message and what follows it up to the budget
divides where the whole thread does. -/
theorem boundary_take_iff {n k : Nat} (whole : IsBoundary svc.tokens svc.config.keepTokens messages k)
    (positive : 0 < k) : svc.boundary (messages.take n) = k ↔
      svc.config.keepTokens < total svc.tokens ((messages.take n).drop (k - 1)) := by
  have read := boundary_isBoundary svc (messages.take n)
  constructor
  · intro same
    exact read.least (k - 1) (by omega)
  · intro full
    refine read.unique ⟨?_, ?_, ?_⟩
    · by_contra short
      rw [List.drop_of_length_le (by omega)] at full
      simp [total] at full
    · have part : total svc.tokens ((messages.take n).drop k) ≤ total svc.tokens (messages.drop k) := by
        rw [List.drop_take]
        have := total_append svc.tokens ((messages.drop k).take (n - k))
          ((messages.drop k).drop (n - k))
        rw [List.take_append_drop] at this
        omega
      exact le_trans part whole.fits
    · intro j lt
      exact lt_of_lt_of_le full (total_drop_le svc.tokens (by omega) _)

/-- As many messages as whole pages of 200 give before there are `max_snapshot_messages`. -/
def Service.cap (svc : Service) : Nat := 200 * ((svc.config.maxSnapshotMessages + 199) / 200)

end AgentStudio.Compaction
