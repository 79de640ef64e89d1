import AgentStudio.Compaction.Coverage

/-!
# How far a compaction gets

A compaction divides what it read, the oldest messages up to a cap. It comes to
where the whole thread divides exactly when what it read from there on is
already more than the live tail may hold.
-/

namespace AgentStudio.Compaction

open Async Threads

variable {svc : Service} {tenantId threadId : Uuid} {requestId : Option String} {s s' : Scene}

/-- The breaker closed and nobody else writing, a compaction ends where it divides what it
read, or stays where it was. -/
theorem closed_position {fails : Prop} {result : Result} (valid : s.Valid)
    (ends : Tree.Ends (Answer closed fails) Eq
      (compact svc tenantId threadId requestId ()) s (.ok result, ()) s') :
    s'.position = max s.position (svc.boundary (s.log.take svc.cap)) := by
  obtain ⟨-, -, ⟨-, position⟩ | ⟨opened, -⟩⟩ := compact_left valid ends
  · exact position
  · cases opened

/-- The messages above the stored position reach further back than the live tail. -/
theorem position_lt_boundary {k : Nat} (valid : s.Valid)
    (boundary : IsBoundary svc.tokens svc.config.keepTokens s.log k)
    (full : svc.config.keepTokens < total svc.tokens (s.log.filter fun m => s.position < m.seq)) :
    s.position < k := by
  rw [valid.numbered.filter_gt] at full
  by_contra reached
  have := total_drop_le svc.tokens (Nat.not_lt.mp reached) s.log
  have := boundary.fits
  omega

variable (svc tenantId threadId requestId) in
/-- Where the messages above the summary position exceed `keep_tokens`, every compaction that
returns moves the position to where the whole thread divides, exactly when the messages that
were read from the last summarized one on exceed `keep_tokens`. -/
theorem boundary_reached_iff {k : Nat} (valid : s.Valid)
    (boundary : IsBoundary svc.tokens svc.config.keepTokens s.log k)
    (full : svc.config.keepTokens < total svc.tokens (s.log.filter fun m => s.position < m.seq)) :
    (∀ (result : Result) (s' : Scene), Tree.Ends (Answer closed True)
        Eq (compact svc tenantId threadId requestId ()) s (.ok result, ()) s' → s'.position = k) ↔
      svc.config.keepTokens < total svc.tokens ((s.log.take svc.cap).drop (k - 1)) := by
  have below := position_lt_boundary valid boundary full
  rw [← boundary_take_iff boundary (by omega)]
  constructor
  · intro reached
    obtain ⟨result, s', ends⟩ := compact_returns svc closed tenantId threadId requestId
      (fun _ _ => rfl) valid
    have position := closed_position valid ends
    rw [reached result s' (ends.mono (answer_mono (fun _ _ _ => id) False.elim)
      (fun _ _ => id))] at position
    omega
  · intro same result s' ends
    rw [closed_position valid ends, same]
    omega

theorem boundary_reached_iff_elevenLong :
    (∀ (result : Result) (s' : Scene), Tree.Ends (Answer closed True) Eq
        (compact {} 0 0 none ()) elevenLong (.ok result, ()) s' → s'.position = 11) ↔
      8000 < total ({} : Service).tokens ((elevenLong.log.take ({} : Service).cap).drop (11 - 1)) := by
  have valid : elevenLong.Valid := (sample_unlayered _ _).valid
  have boundary := boundary_isBoundary {} elevenLong.log
  rw [elevenLong_boundary] at boundary
  refine boundary_reached_iff {} 0 0 none valid boundary ?_
  rw [valid.numbered.filter_gt]
  exact boundary.least 0 (by decide)

/-! ## A thread longer than the cap -/

/-- Two thousand and one messages of ten tokens. -/
def tenEach : Scene := sample (textOf 10) 2001

theorem tenEach_total (k : Nat) :
    total ({} : Service).tokens (tenEach.log.drop k) = (2001 - k) * 10 := by
  rw [tenEach, total_sample]
  exact congrArg ((2001 - k) * ·) (estimate_textOf 10)

theorem tenEach_boundary : IsBoundary ({} : Service).tokens 8000 tenEach.log 1201 := by
  refine ⟨?_, ?_, ?_⟩
  · rw [tenEach, length_sample]
    decide
  · rw [tenEach_total]
  · intro j lt
    rw [tenEach_total]
    omega

/-- What is read of it divides after 200 messages. -/
theorem tenEach_read : ({} : Service).boundary (tenEach.log.take ({} : Service).cap) = 200 := by
  have oldest : tenEach.log.take ({} : Service).cap = (sample (textOf 10) 1000).log := by
    have cap : ({} : Service).cap = 1000 := rfl
    rw [cap, tenEach, sample, sample, ← List.map_take, List.take_range, min_eq_left (by omega)]
  have tokens (k : Nat) : total ({} : Service).tokens ((sample (textOf 10) 1000).log.drop k) =
      (1000 - k) * 10 := by
    rw [total_sample]
    exact congrArg ((1000 - k) * ·) (estimate_textOf 10)
  rw [oldest]
  apply (boundary_isBoundary _ _).unique
  refine ⟨?_, ?_, ?_⟩
  · rw [length_sample]
    decide
  · rw [tokens]
  · intro j lt
    rw [tokens]
    change 8000 < _
    omega

/-- The first compaction moves to 200 of 1201, and those after it stay there, with 18 010
tokens above it. -/
theorem boundary_not_reached : ∃ (result : Result) (s' : Scene),
    IsBoundary ({} : Service).tokens 8000 tenEach.log 1201 ∧
    Tree.Ends (Answer closed True) Eq (compact {} 0 0 none ()) tenEach (.ok result, ()) s' ∧
    s'.position = 200 ∧
    total ({} : Service).tokens (s'.log.filter fun m => s'.position < m.seq) = 18010 ∧
    ∀ (result' : Result) (s'' : Scene), Tree.Ends (Answer closed True) Eq
      (compact {} 0 0 none ()) s' (.ok result', ()) s'' → s''.position = 200 := by
  have valid : tenEach.Valid := (sample_unlayered _ _).valid
  obtain ⟨result, s', ends⟩ := compact_returns {} closed 0 0 none
    (fun _ _ => rfl) valid
  have left := compact_left valid ends
  have log : s'.log = tenEach.log := left.log
  have position : s'.position = 200 := by
    rw [closed_position valid ends]
    change max 0 (({} : Service).boundary (tenEach.log.take _)) = 200
    rw [tenEach_read]
    rfl
  refine ⟨result, s', tenEach_boundary,
    ends.mono (answer_mono (fun _ _ _ => id) False.elim) (fun _ _ => id), position, ?_, ?_⟩
  · rw [left.valid.numbered.filter_gt, position, log, tenEach_total]
  · intro result' s'' again
    rw [closed_position left.valid again, log, tenEach_read, position]
    rfl

end AgentStudio.Compaction
