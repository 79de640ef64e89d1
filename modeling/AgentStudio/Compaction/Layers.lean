import AgentStudio.Compaction.Coverage

/-!
# The summary layers

Over compactions of one thread that come one after the other, none of which
finds the breaker open: the layers are only ever appended to, until there are
`max_summary_layers` of them and one takes the place of all.
-/

namespace AgentStudio.Compaction

open Async Threads

/-- The threads that appends and compactions in turn leave. A compaction may raise. -/
inductive Compacted (svc : Service) : Scene → Prop
  | unlayered (s : Scene) (unlayered : s.Unlayered) : Compacted svc s
  | appended (s s' : Scene) (before : Compacted svc s) (grown : Grown s s') : Compacted svc s'
  | compacted (s s' : Scene) (tenantId threadId : Uuid) (requestId : Option String)
      (w : Except Raised Result × Unit) (before : Compacted svc s)
      (ends : Tree.Ends (Answer closed True) Grown (compact svc tenantId threadId requestId ())
        s w s') : Compacted svc s'

/-- The layers as `_current_layers` reads them back. -/
structure Layered (svc : Service) (s : Scene) : Prop where
  increasing : s.layers.Pairwise fun a b => a.position < b.position
  last : ∀ layer, s.layers.getLast? = some layer → layer.position = s.position
  bounded : s.layers.length ≤ svc.config.maxSummaryLayers

/-- What `Layered` needs to go on. -/
structure Stacked (svc : Service) (s : Scene) : Prop where
  valid : s.Valid
  increasing : s.layers.Pairwise fun a b => a.position < b.position
  bounded : s.layers.length ≤ svc.config.maxSummaryLayers

variable {svc : Service}

theorem Stacked.layered {s : Scene} (h : Stacked svc s) : Layered svc s := by
  refine ⟨h.increasing, ?_, h.bounded⟩
  intro layer last
  rw [← h.valid.linked, prevPosition, last]
  rfl

/-- No layer reaches above the last one. -/
theorem le_prevPosition {layers : List Layer}
    (increasing : layers.Pairwise fun a b => a.position < b.position) {layer : Layer}
    (mem : layer ∈ layers) : layer.position ≤ prevPosition layers := by
  induction layers using List.reverseRecOn with
  | nil => cases mem
  | append_singleton layers last ih =>
    simp only [prevPosition, List.getLast?_append, List.getLast?_singleton, Option.some_or,
      Option.map_some, Option.getD_some]
    rcases List.mem_append.mp mem with earlier | here
    · exact Nat.le_of_lt ((List.pairwise_append.mp increasing).2.2 _ earlier last (by simp))
    · rw [List.mem_singleton.mp here]

theorem increasing_newLayers {old : List Layer} {layer : Layer}
    (increasing : old.Pairwise fun a b => a.position < b.position)
    (above : prevPosition old < layer.position) :
    (newLayers svc old layer).Pairwise fun a b => a.position < b.position := by
  unfold newLayers
  split
  · exact List.pairwise_singleton _ _
  · refine List.pairwise_append.mpr ⟨increasing, List.pairwise_singleton _ _, ?_⟩
    intro a mem b new
    rw [List.mem_singleton.mp new]
    exact lt_of_le_of_lt (le_prevPosition increasing mem) above

theorem length_newLayers (cap : 0 < svc.config.maxSummaryLayers) (old : List Layer)
    (layer : Layer) : (newLayers svc old layer).length ≤ svc.config.maxSummaryLayers := by
  unfold newLayers
  split
  · exact cap
  · rw [List.length_append, List.length_singleton]
    omega

/-! ## Steps -/

theorem Grown.stacked {s s' : Scene} (h : Grown s s') (stacked : Stacked svc s) :
    Stacked svc s' where
  valid := h.valid stacked.valid
  increasing := h.layers_eq ▸ stacked.increasing
  bounded := h.layers_eq ▸ stacked.bounded

theorem Swap.stacked (cap : 0 < svc.config.maxSummaryLayers) {s s' : Scene}
    (h : Swap svc closed s s') (stacked : Stacked svc s) : Stacked svc s' := by
  have valid := h.valid stacked.valid
  cases h with
  | quiet => exact stacked
  | layer args turns layer plain layers ends advances within made =>
    have read := layers_commit s turns layers (newLayers_ne_nil svc _ layer)
    refine ⟨valid, ?_, ?_⟩
    · rw [read]
      apply increasing_newLayers stacked.increasing
      rw [stacked.valid.linked, ends]
      exact advances
    · rw [read]
      exact length_newLayers cap _ _
  | truncate args turns snapshot degraded dropped marked read longer position opened => cases opened

theorem Scene.Unlayered.stacked (cap : 0 < svc.config.maxSummaryLayers) {s : Scene}
    (h : s.Unlayered) : Stacked svc s := by
  refine ⟨h.valid, ?_, ?_⟩
  · rcases h.layers with ⟨layers, -⟩ | ⟨layer, layers, -⟩
    · rw [layers]
      exact .nil
    · rw [layers]
      exact List.pairwise_singleton _ _
  · rcases h.layers with ⟨layers, -⟩ | ⟨layer, layers, -⟩
    · rw [layers]
      exact Nat.zero_le _
    · rw [layers]
      exact cap

/-! ## Runs -/

theorem compacted_stacked (cap : 0 < svc.config.maxSummaryLayers) {s : Scene}
    (h : Compacted svc s) : Stacked svc s := by
  induction h with
  | unlayered s unlayered => exact unlayered.stacked cap
  | appended s s' before grown ih => exact grown.stacked ih
  | compacted s s' tenantId threadId requestId w before ends ih =>
    exact Tree.Safe.keeps (compact_does svc closed True tenantId threadId requestId ih.valid) (fun _ _ => id) (fun _ _ => Grown.stacked)
      (fun _ _ => Swap.stacked cap) ends ih

/-- The layers of a thread rise to its summary position and are at most `max_summary_layers`,
and a compaction that returns appends one of them, or puts one for all when there are so many,
or found nothing to compact. -/
theorem layers_append_only (cap : 0 < svc.config.maxSummaryLayers) {s : Scene}
    (h : Compacted svc s) : Layered svc s ∧
      ∀ (tenantId threadId : Uuid) (requestId : Option String) (result : Result) (s' : Scene),
        Tree.Ends (Answer closed True) Grown (compact svc tenantId threadId requestId ())
          s (.ok result, ()) s' →
        if result.compacted then ∃ layer,
          s.layers.length < svc.config.maxSummaryLayers ∧ s'.layers = s.layers ++ [layer] ∨
          s.layers.length = svc.config.maxSummaryLayers ∧ s'.layers = [layer]
        else s'.layers = s.layers := by
  have stacked := compacted_stacked cap h
  refine ⟨stacked.layered, ?_⟩
  intro tenantId threadId requestId result s' ends
  have outcome : Outcome svc closed s result s' := by
    have done := Tree.Safe.ends (compact_does svc closed True tenantId threadId requestId stacked.valid) (fun _ _ => id) ends
    exact done
  have reported : Reported svc s result s' false := by
    obtain ⟨snapshot, -, ⟨-, -, reported⟩ | ⟨-, -, reported⟩ | ⟨opened, -⟩⟩ := outcome.moved
    · exact reported false
    · exact reported
    · cases opened
  cases reported with
  | nothing _ idle block position =>
    rw [if_neg (Bool.eq_false_iff.mp idle)]
    simp only [Scene.layers, currentLayers, block, position]
  | layered layer block compacted newer stored layers content summary position reported same =>
    rw [if_pos compacted]
    refine ⟨layer, ?_⟩
    rw [layers_stored stored layers (newLayers_ne_nil _ _ _)]
    unfold newLayers
    split
    next full => exact .inr ⟨le_antisymm stacked.bounded full, rfl⟩
    next room => exact .inl ⟨Nat.not_le.mp room, rfl⟩

theorem layers_append_only_elevenLong :
    ∃ s, Compacted {} s ∧ s.position = 11 ∧ Layered {} s := by
  obtain ⟨result, s', position, -, -, ends⟩ := elevenLong_compacted
  have run : Compacted {} s' :=
    .compacted elevenLong s' 0 0 none _ (.unlayered _ (sample_unlayered _ _))
      (ends.mono (answer_mono (fun _ _ _ => id) False.elim) alone_grown)
  exact ⟨s', run, position, (layers_append_only (by decide) run).1⟩

end AgentStudio.Compaction
