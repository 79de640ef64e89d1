import Mathlib.Data.NNRat.Defs
import Mathlib.Algebra.Order.Ring.Rat
import AgentStudio.Threads.Store

/-!
# The rows of memory

`infrastructure/db/memory.py`: facts that were extracted from a thread, each under the seq of
the newest message of its batch. How far a thread has been extracted is read off them.
-/

namespace AgentStudio.Memory

open Threads

/-- `MemoryModel`; times are in seconds. -/
structure MemoryRow where
  tenantId : Uuid
  endUserId : Option String
  threadId : Uuid
  sourceSeq : Nat
  content : String
  expiresAt : Option ℚ
  erased : Bool := false
  deriving DecidableEq

/-- `max_source_seq`: erased rows count. -/
def maxSourceSeq (rows : List MemoryRow) (tenantId threadId : Uuid) : Nat :=
  Log.top MemoryRow.sourceSeq
    (rows.filter fun row => row.tenantId == tenantId && row.threadId == threadId)

/-- The facts of a user that are not erased yet. -/
def MemoryRow.live (row : MemoryRow) (tenantId : Uuid) (endUserId : String) : Bool :=
  row.tenantId == tenantId && row.endUserId == some endUserId && !row.erased

/-- `erase_by_user`: the rows stay, and how many it erased. -/
def eraseByUser (rows : List MemoryRow) (tenantId : Uuid) (endUserId : String) :
    List MemoryRow × Nat :=
  (rows.map fun row => if row.live tenantId endUserId then { row with erased := true } else row,
    (rows.filter fun row => row.live tenantId endUserId).length)

end AgentStudio.Memory
