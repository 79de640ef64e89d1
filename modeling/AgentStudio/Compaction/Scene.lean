import AgentStudio.Compaction.Boundary

/-!
# A compaction among other writers

What compaction reads of a thread and writes to it: the row, the messages, and,
for the record, the messages a layer was made from or a truncation dropped. The
calls of `compact` are answered from it. One lemma for each part of `compact`
says what it does while others append to the thread.
-/

namespace AgentStudio.Compaction

open Async Threads

structure Scene where
  row : ThreadRow
  log : List MessageRow
  /-- The messages a summary layer or a truncation marker has accounted for. -/
  covered : List MessageRow := []

namespace Scene

variable (s : Scene)

def position : Nat := s.row.summaryPosition.getD 0

def layers : List Layer := currentLayers s.row

/-- What `set_summary` leaves of a thread. -/
def commit (args : SummaryArgs) (turns : List MessageRow) : Scene where
  row := { s.row with
    summaryBlock := some args.summaryBlock, summaryPosition := some args.summaryPosition,
    summaryVersion := s.row.summaryVersion + 1 }
  log := s.log
  covered := s.covered ++
    if args.degraded then s.log.filter fun m => m.seq ≤ args.summaryPosition else turns

/-- The messages are numbered, and the last layer ends at `summary_position`. -/
structure Valid : Prop where
  numbered : Log.Numbered MessageRow.seq s.log
  linked : prevPosition s.layers = s.position

end Scene

/-- A call that raised and left the thread as it was. -/
def Failed {α : Type} (fails : Prop) (r : Except Raised α) : Prop := fails ∧ ∃ e, r = .error e

/-- How the calls are answered: `opens` says when the breaker may be found open, given the
stored position and what was read, and `fails` whether a call may raise. -/
def Answer (opens : Nat → List MessageRow → Bool → Prop) (fails : Prop) :
    Answers Calls Raised Scene
  | .listMessages afterSeq limit, s, r, s' => s' = s ∧
    (r = .ok (Log.page MessageRow.seq afterSeq limit s.log) ∨ Failed fails r)
  | .isTripped snapshot, s, r, s' => s' = s ∧
    ((∃ tripped, r = .ok tripped ∧ opens s.position snapshot tripped) ∨ Failed fails r)
  | .getThread, s, r, s' => s' = s ∧ (r = .ok (some s.row) ∨ Failed fails r)
  | .summarize _, s, r, s' => s' = s ∧
    ((∃ payload, r = .ok (some payload) ∧ (validate payload = [] ∨ fails)) ∨
      r = .ok none ∧ fails ∨ Failed fails r)
  | .qualityCheck _ _, s, r, s' => s' = s ∧ (r = .ok () ∨ Failed fails r)
  | .setSummary args turns, s, r, s' => s' = s ∧ Failed fails r ∨
    s' = s.commit args turns ∧
      (r = .ok (s.row.summaryVersion + 1, args.summaryPosition) ∨ Failed fails r)
  | .recordFailure, s, r, s' => s' = s ∧ (r = .ok () ∨ Failed fails r)
  | .recordSuccess, s, r, s' => s' = s ∧ (r = .ok () ∨ Failed fails r)

/-- The breaker is found closed. -/
def closed (_position : Nat) (_snapshot : List MessageRow) (tripped : Bool) : Prop := tripped = false

/-- What the other writers do to a thread: they append. -/
structure Grown (s s' : Scene) : Prop where
  block : s'.row.summaryBlock = s.row.summaryBlock
  position : s'.row.summaryPosition = s.row.summaryPosition
  version : s'.row.summaryVersion = s.row.summaryVersion
  covered : s'.covered = s.covered
  log : s.log <+: s'.log
  numbered : Log.Numbered MessageRow.seq s.log → Log.Numbered MessageRow.seq s'.log

/-- What one step of a compaction does to a thread. -/
inductive Swap (svc : Service) (opens : Nat → List MessageRow → Bool → Prop) : Scene → Scene → Prop
  | quiet (s : Scene) : Swap svc opens s s
  | layer (s : Scene) (args : SummaryArgs) (turns : List MessageRow) (layer : Layer)
      (plain : args.degraded = false)
      (layers : args.summaryBlock.layers = some (newLayers svc s.layers layer))
      (ends : layer.position = args.summaryPosition)
      (advances : s.position < args.summaryPosition)
      (within : args.summaryPosition ≤ s.log.length)
      (made : ∀ m ∈ s.log, s.position < m.seq → m.seq ≤ args.summaryPosition → m ∈ turns) :
      Swap svc opens s (s.commit args turns)
  | truncate (s : Scene) (args : SummaryArgs) (turns snapshot : List MessageRow)
      (degraded : args.degraded = true) (dropped : args.summaryBlock.layers = some [])
      (marked : args.summaryBlock.content = degradedSummaryContent)
      (read : snapshot <+: s.log) (longer : svc.config.truncationKeepTurns < snapshot.length)
      (position : args.summaryPosition + svc.config.truncationKeepTurns = snapshot.length)
      (opened : opens s.position snapshot true) : Swap svc opens s (s.commit args turns)

/-- What a compaction that returned, its breaker being open or closed, reports of the
checkpoint that it left. -/
inductive Reported (svc : Service) (s : Scene) (result : Result) (s' : Scene) : Bool → Prop
  | nothing (tripped : Bool) (idle : result.compacted = false)
      (block : s'.row.summaryBlock = s.row.summaryBlock)
      (position : s'.row.summaryPosition = s.row.summaryPosition) :
      Reported svc s result s' tripped
  | layered (layer : Layer) (block : SummaryBlock) (compacted : result.compacted = true)
      (newer : s.row.summaryVersion < s'.row.summaryVersion)
      (stored : s'.row.summaryBlock = some block)
      (layers : block.layers = some (newLayers svc s.layers layer))
      (content : block.content =
        "\n\n".intercalate ((newLayers svc s.layers layer).map Layer.content))
      (summary : result.summary = some layer.content)
      (position : s'.row.summaryPosition = some layer.position)
      (reported : result.summaryPosition = some layer.position)
      (same : result.layers = block.layers) : Reported svc s result s' false
  | truncated (position : Nat) (block : SummaryBlock) (compacted : result.compacted = true)
      (stored : s'.row.summaryBlock = some block) (dropped : block.layers = some [])
      (content : block.content = degradedSummaryContent)
      (summary : result.summary = some degradedSummaryContent)
      (at_ : s'.row.summaryPosition = some position)
      (reported : result.summaryPosition = some position) (none_ : result.layers = none) :
      Reported svc s result s' true

/-! ## Steps of the thread -/

namespace Grown

variable {s s' s'' : Scene}

theorem refl (s : Scene) : Grown s s := ⟨rfl, rfl, rfl, rfl, List.prefix_refl _, id⟩

theorem trans (h : Grown s s') (h' : Grown s' s'') : Grown s s'' :=
  ⟨h'.block.trans h.block, h'.position.trans h.position, h'.version.trans h.version,
    h'.covered.trans h.covered, h.log.trans h'.log, fun numbered => h'.numbered (h.numbered numbered)⟩

theorem position_eq (h : Grown s s') : s'.position = s.position := by
  rw [Scene.position, h.position, Scene.position]

theorem layers_eq (h : Grown s s') : s'.layers = s.layers := by
  simp only [Scene.layers, currentLayers, h.block, h.position]

theorem valid (h : Grown s s') (valid : s.Valid) : s'.Valid where
  numbered := h.numbered valid.numbered
  linked := by rw [h.layers_eq, h.position_eq, valid.linked]

end Grown

theorem position_commit (s : Scene) (args : SummaryArgs) (turns : List MessageRow) :
    (s.commit args turns).position = args.summaryPosition := rfl

theorem newLayers_ne_nil (svc : Service) (old : List Layer) (layer : Layer) :
    newLayers svc old layer ≠ [] := by
  unfold newLayers
  split <;> simp

theorem getLast?_newLayers (svc : Service) (old : List Layer) (layer : Layer) :
    (newLayers svc old layer).getLast? = some layer := by
  unfold newLayers
  split <;> simp

/-- Stored layers are read back as they were. -/
theorem layers_stored {s : Scene} {block : SummaryBlock} {layers : List Layer}
    (stored : s.row.summaryBlock = some block) (here : block.layers = some layers)
    (nonempty : layers ≠ []) : s.layers = layers := by
  cases layers with
  | nil => exact absurd rfl nonempty
  | cons layer rest => simp only [Scene.layers, currentLayers, stored, here]

theorem layers_commit (s : Scene) {args : SummaryArgs} (turns : List MessageRow)
    {layers : List Layer} (stored : args.summaryBlock.layers = some layers)
    (nonempty : layers ≠ []) : (s.commit args turns).layers = layers :=
  layers_stored rfl stored nonempty

/-- A truncation marker is read back as one layer up to where it dropped. -/
theorem layers_truncated {s : Scene} {args : SummaryArgs} {turns : List MessageRow}
    (dropped : args.summaryBlock.layers = some [])
    (marked : args.summaryBlock.content = degradedSummaryContent) :
    (s.commit args turns).layers =
      [⟨args.summaryPosition, degradedSummaryContent, args.summaryBlock.payload⟩] := by
  have text : degradedSummaryContent ≠ "" := by decide
  simp only [Scene.layers, Scene.commit, currentLayers, dropped, marked, if_neg text,
    Option.getD_some]

theorem Swap.valid {svc : Service} {opens : Nat → List MessageRow → Bool → Prop} {s s' : Scene}
    (h : Swap svc opens s s') (valid : s.Valid) : s'.Valid := by
  cases h with
  | quiet => exact valid
  | layer args turns layer plain layers ends advances within made =>
    refine ⟨valid.numbered, ?_⟩
    rw [layers_commit s turns layers (newLayers_ne_nil _ _ _), position_commit, prevPosition,
      getLast?_newLayers]
    exact ends
  | truncate args turns snapshot degraded dropped marked read longer position opened =>
    refine ⟨valid.numbered, ?_⟩
    rw [layers_truncated dropped marked, position_commit]
    rfl

end AgentStudio.Compaction
