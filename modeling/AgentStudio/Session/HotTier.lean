import AgentStudio.Threads.Store

/-!
# The hot tier

`session/hot_tier.py`: one Redis key for each thread, with its last messages and
a copy of its summary, which expires. While Redis is up, what is kept there is
what was last written.
-/

namespace AgentStudio.Session

open Threads

/-- The summary as a compaction reports it. -/
structure HotSummary where
  content : String
  position : Nat
  layers : Option (List Layer) := none
  deriving DecidableEq, Repr

structure Tail where
  tail : List MessageRow := []
  summary : Option HotSummary := none
  deriving DecidableEq, Repr

def tailSize : Nat := 10

/-- `cache_tail`: without a summary, the one that is there stays. -/
def cacheTail (existing : Option Tail) (tail : List MessageRow) (summary : Option HotSummary) :
    Tail where
  tail := tail.drop (tail.length - tailSize)
  summary := summary.or (existing.bind Tail.summary)

/-- The rows that `_refresh_hot_tail` writes: redacted only. -/
def redactedRows (rows : List MessageRow) : List MessageRow :=
  rows.map fun row => { row with content := row.redactedContent }

/-- `_refresh_hot_tail`. -/
def refreshHotTail (db : Store) (tenantId threadId : Uuid) (existing : Option Tail)
    (summary : Option HotSummary) : Tail :=
  cacheTail existing (redactedRows (db.readTail tenantId threadId 10)) summary

/-- The summary of a copy, when it says something. -/
def Tail.spoken (t : Tail) : Option HotSummary := t.summary.filter (·.content != "")

/-- `_load_thread_summary`: the content, the position and the layers, first from the hot
tier, then from the thread row. -/
def loadThreadSummary (cached : Option Tail) (row : Option ThreadRow) :
    Option String × Option Nat × Option (List Layer) :=
  match cached.bind Tail.spoken with
  | some block => (some block.content, some block.position, block.layers.filter (· != []))
  | none =>
    match row with
    | none => (none, none, none)
    | some row =>
      match row.summaryBlock with
      | some block => (some block.content, row.summaryPosition, block.layers.filter (· != []))
      | none => (none, row.summaryPosition, none)

theorem loadThreadSummary_hot {cached : Option Tail} {block : HotSummary}
    (spoken : cached.bind Tail.spoken = some block) (row : Option ThreadRow) :
    loadThreadSummary cached row =
      (some block.content, some block.position, block.layers.filter (· != [])) := by
  simp only [loadThreadSummary, spoken]

theorem loadThreadSummary_cold {cached : Option Tail} (silent : cached.bind Tail.spoken = none)
    (row : Option ThreadRow) : loadThreadSummary cached row = loadThreadSummary none row := by
  simp only [loadThreadSummary, silent, Option.bind_none]

theorem loadThreadSummary_row {row : ThreadRow} {block : SummaryBlock}
    (stored : row.summaryBlock = some block) : loadThreadSummary none (some row) =
      (some block.content, row.summaryPosition, block.layers.filter (· != [])) := by
  simp only [loadThreadSummary, Option.bind_none, stored]

/-- The row counts only by its block and its position. -/
theorem loadThreadSummary_congr {row row' : ThreadRow}
    (block : row'.summaryBlock = row.summaryBlock)
    (position : row'.summaryPosition = row.summaryPosition) :
    loadThreadSummary none (some row') = loadThreadSummary none (some row) := by
  simp only [loadThreadSummary, Option.bind_none, block, position]

/-- Up to where a thread is summarized: by the copy in the hot tier, or else by its row. -/
def summarizedUpTo (cached : Option Tail) (row : Option ThreadRow) : Option Nat :=
  (cached.bind Tail.spoken).elim (row.bind ThreadRow.summaryPosition) fun block => block.position

theorem loadThreadSummary_position (cached : Option Tail) (row : Option ThreadRow) :
    (loadThreadSummary cached row).2.1 = summarizedUpTo cached row := by
  unfold loadThreadSummary summarizedUpTo
  cases cached.bind Tail.spoken with
  | some block => rfl
  | none =>
    cases row with
    | none => rfl
    | some row =>
      obtain ⟨id, tenantId, conversationId, surfaceId, endUserId, block, position⟩ := row
      cases block <;> rfl

end AgentStudio.Session
