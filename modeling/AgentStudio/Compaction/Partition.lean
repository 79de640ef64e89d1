import AgentStudio.Compaction.Boundary
import AgentStudio.Compaction.Prompts

/-!
# Both partitions are greedy

`_split` gives the tail all that fits, and `_chunk_turns` gives each chunk all that fits after the
chunks before it.
-/

namespace AgentStudio.Compaction

open Threads (MessageRow)
open Generator.Config (small short short_estimate)

/-! ## The tail -/

/-- A suffix within the budget is part of the tail. -/
theorem suffix_split {svc : Service} {messages part : List MessageRow} (suffix : part <:+ messages)
    (fits : total svc.tokens part ≤ svc.config.keepTokens) : part <:+ (svc.split messages).2 := by
  have boundary := boundary_isBoundary svc messages
  change part <:+ messages.drop (svc.boundary messages)
  have drop := List.suffix_iff_eq_drop.mp suffix
  rw [drop] at fits ⊢
  have after_ : svc.boundary messages ≤ messages.length - part.length := by
    by_contra before
    exact absurd (boundary.least _ (not_le.mp before)) (not_lt.mpr fits)
  exact List.drop_suffix_drop_left messages after_

namespace Generator

variable {config : Config} {turns current : List Turn} {chunks result : List (List Turn)} {acc : Nat}

/-! ## The chunks -/

/-- With the first turn of the other chunk this one would not fit the window. -/
def Full (config : Config) (chunk next : List Turn) : Prop :=
  ∃ turn rest, next = turn :: rest ∧ config.summarizerWindow < (config.bare (chunk ++ [turn]) : ℤ)

theorem chunkFrom_returns
    (small : ∀ turn ∈ turns, (config.estimate turn.content : ℤ) ≤ config.summarizerWindow)
    (chunks : List (List Turn)) (current : List Turn) (acc : Nat) :
    ∃ result, config.chunkFrom turns chunks current acc = .ok result := by
  induction turns generalizing chunks current acc with
  | nil => exact ⟨_, rfl⟩
  | cons turn turns ih =>
    rw [List.forall_mem_cons] at small
    rw [Config.chunkFrom, if_neg (not_lt.mpr small.1)]
    split
    · exact ih small.2 _ _ _
    · exact ih small.2 _ _ _

/-- Every chunk is full when the next is begun. -/
theorem chunkFrom_full (is : config.chunkFrom turns chunks current acc = .ok result)
    (sum : acc = config.bare current) (begun : current = [] → chunks = [])
    (full : (chunks ++ [current]).IsChain (Full config)) : result.IsChain (Full config) := by
  induction turns generalizing chunks current acc with
  | nil =>
    rw [Config.chunkFrom] at is
    obtain rfl := Except.ok.inj is
    split
    · exact full.left_of_append
    · exact full
  | cons turn turns ih =>
    rw [Config.chunkFrom] at is
    have more : acc + config.estimate turn.content = config.bare (current ++ [turn]) := by
      rw [sum, Config.bare, Config.bare, List.map_append, List.sum_append]
      rfl
    split at is
    · cases is
    · split at is
      · rename_i above
        refine ih is (by simp [Config.bare]) (fun empty => by simp at empty) ?_
        rw [List.append_assoc, List.singleton_append, List.isChain_append_cons_cons]
        exact ⟨full, ⟨turn, [], rfl, more ▸ above.2⟩, .singleton _⟩
      · refine ih is more (fun empty => by simp at empty) ?_
        rw [List.isChain_append] at full ⊢
        refine ⟨full.1, .singleton _, fun chunk last next first_ => ?_⟩
        obtain rfl := Option.some.inj first_
        obtain ⟨turn', rest, rfl, over_⟩ := full.2.2 chunk last current rfl
        exact ⟨turn', rest ++ [turn], rfl, over_⟩

end Generator

/-- The parts of `_split` are the messages, and its tail is the longest suffix within the budget;
of turns that each fit the window `_chunk_turns` makes chunks that are not empty, fit the window and
are full, and are the turns. -/
theorem greedy (svc : Service) (messages : List MessageRow) (config : Generator.Config)
    (turns : List Generator.Turn) :
    ((svc.split messages).1 ++ (svc.split messages).2 = messages ∧
      total svc.tokens (svc.split messages).2 ≤ svc.config.keepTokens ∧
      ∀ part, part <:+ messages → total svc.tokens part ≤ svc.config.keepTokens →
        part <:+ (svc.split messages).2) ∧
    ((∀ turn ∈ turns, (config.estimate turn.content : ℤ) ≤ config.summarizerWindow) →
      ∃ chunks, config.chunkTurns turns = .ok chunks ∧ chunks.flatten = turns ∧
        (∀ chunk ∈ chunks, chunk ≠ [] ∧ (config.bare chunk : ℤ) ≤ config.summarizerWindow) ∧
        chunks.IsChain (Generator.Full config)) := by
  refine ⟨⟨List.take_append_drop _ _, (boundary_isBoundary svc messages).fits,
    fun part => suffix_split⟩, fun small => ?_⟩
  obtain ⟨chunks, returned⟩ := Generator.chunkFrom_returns small [] [] 0
  obtain ⟨flat, each⟩ := Generator.Config.chunkFrom_ok returned rfl (fun some_ => absurd rfl some_) nofun
  exact ⟨chunks, returned, flat, each, Generator.chunkFrom_full returned rfl (fun _ => rfl)
    (.singleton _)⟩

/-- Three turns of one token. -/
theorem greedy_three : ∃ chunks,
    small.chunkTurns (List.replicate 3 short) = .ok chunks ∧
      chunks.flatten = List.replicate 3 short ∧
      (∀ chunk ∈ chunks, chunk ≠ [] ∧ (small.bare chunk : ℤ) ≤ small.summarizerWindow) ∧
      chunks.IsChain (Generator.Full small) :=
  (greedy {} [] small (List.replicate 3 short)).2 fun turn mem => by
    rw [List.eq_of_mem_replicate mem, short_estimate]
    decide

end AgentStudio.Compaction
