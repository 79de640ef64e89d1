import AgentStudio.Compaction.Coverage
import AgentStudio.Session.HotTier

/-!
# Two copies of the summary

A checkpoint lives in the thread row and, after an inline compaction, in the hot
tier, which is read first. Compactions, refreshes, turns and the expiry of the
key come one after the other. The copy is the checkpoint unless a refresh moves
the row under it, or a compaction reports one layer of several.
-/

namespace AgentStudio.Session

open Async Threads Compaction

structure Tier where
  scene : Scene
  hot : Option Tail := none

/-- What the next turn loads is the checkpoint of the thread row. -/
def Tier.Current (t : Tier) : Prop :=
  loadThreadSummary t.hot (some t.scene.row) = loadThreadSummary none (some t.scene.row)

/-- The copy holds no summary that says something. -/
def Tier.Cold (t : Tier) : Prop := t.hot.bind Tail.spoken = none

/-- The summary that the compaction callback hands to `_refresh_hot_tail`; a result with
`compacted` has a summary and a position. -/
def hotSummary (result : Result) : HotSummary where
  content := result.summary.getD ""
  position := result.summaryPosition.getD 0
  layers := result.layers

/-- `min_growth_turns` of the refresh. -/
def minGrowthTurns : Nat := 10

inductive Event where
  | appended
  | expired
  | turnCompleted
  /-- An inline compaction that returned, its breaker being open or closed. -/
  | compacted (tripped : Bool)
  /-- An inline compaction that raised; the callback returns nothing. -/
  | raised
  | refreshed
  deriving DecidableEq

inductive Step (svc : Service) : Tier → Event → Tier → Prop
  | appended (t : Tier) (scene : Scene) (grown : Grown t.scene scene) :
      Step svc t .appended { t with scene := scene }
  | expired (t : Tier) : Step svc t .expired { t with hot := none }
  | turnCompleted (t : Tier) (rows : List MessageRow) :
      Step svc t .turnCompleted { t with hot := some (cacheTail t.hot (redactedRows rows) none) }
  | compacted (t : Tier) (tripped : Bool) (tenantId threadId : Uuid) (requestId : Option String)
      (result : Result) (scene : Scene) (rows : List MessageRow)
      (ends : Tree.Ends (Answer (fun _ _ b => b = tripped) True) Grown
        (compact svc tenantId threadId requestId ()) t.scene (.ok result, ()) scene) :
      Step svc t (.compacted tripped) {
        scene := scene
        hot :=
          if result.compacted then some (cacheTail t.hot (redactedRows rows) (hotSummary result))
          else t.hot }
  | raised (t : Tier) (tenantId threadId : Uuid) (requestId : Option String) (e : Raised)
      (scene : Scene)
      (ends : Tree.Ends (Answer (fun _ _ _ => True) True) Grown
        (compact svc tenantId threadId requestId ()) t.scene (.error e, ()) scene) :
      Step svc t .raised { t with scene := scene }
  | refreshed (t : Tier) (tenantId threadId : Uuid) (requestId : Option String)
      (w : Except Raised Result × Unit) (scene : Scene)
      (grew : minGrowthTurns ≤ (t.scene.log.filter fun m => t.scene.position < m.seq).length)
      (ends : Tree.Ends (Answer (fun _ _ _ => True) True) Grown
        (compact svc tenantId threadId requestId ()) t.scene w scene) :
      Step svc t .refreshed { t with scene := scene }

/-- Where a checkpoint is committed, the copy will be the same: a compaction leaves one layer
or a truncation marker, and what does not write the copy finds none. -/
def Careful (svc : Service) (t : Tier) (e : Event) (t' : Tier) : Prop :=
  t'.scene.row.summaryVersion = t.scene.row.summaryVersion ∨
    match e with
    | .compacted false =>
      t.scene.layers = [] ∨ svc.config.maxSummaryLayers ≤ t.scene.layers.length
    | .raised | .refreshed => t.Cold
    | _ => True

/-- One careful step after the other. -/
def CarefulRun (svc : Service) : Tier → Tier → Prop :=
  Relation.ReflTransGen fun t t' => ∃ e, Step svc t e t' ∧ Careful svc t e t'

variable {svc : Service}

/-! ## What is loaded -/

theorem cold_current {t : Tier} (cold : t.Cold) : t.Current := loadThreadSummary_cold cold _

/-- The same copy over the same checkpoint. -/
theorem Tier.Current.still {t t' : Tier} (current : t.Current)
    (hot : t'.hot.bind Tail.spoken = t.hot.bind Tail.spoken)
    (block : t'.scene.row.summaryBlock = t.scene.row.summaryBlock)
    (position : t'.scene.row.summaryPosition = t.scene.row.summaryPosition) : t'.Current := by
  unfold Tier.Current at current ⊢
  rw [loadThreadSummary_congr block position, ← current]
  cases spoken : t.hot.bind Tail.spoken with
  | none => rw [loadThreadSummary_cold spoken, loadThreadSummary_cold (hot.trans spoken),
      loadThreadSummary_congr block position]
  | some copy => rw [loadThreadSummary_hot spoken, loadThreadSummary_hot (hot.trans spoken)]

theorem spoken_kept (hot : Option Tail) (rows : List MessageRow) :
    (some (cacheTail hot rows none)).bind Tail.spoken = hot.bind Tail.spoken := by
  cases hot with
  | none => rfl
  | some tail => rfl

/-- A copy that was just written says what it was given, or nothing. -/
theorem spoken_written (hot : Option Tail) (rows : List MessageRow) (summary : HotSummary) :
    (some (cacheTail hot rows (some summary))).bind Tail.spoken =
      if summary.content = "" then none else some summary := by
  simp [cacheTail, Tail.spoken, Option.filter]

/-! ## Steps -/

/-- Where no checkpoint was committed, the summary of the row is as it was. -/
def Same (before after : Scene) : Prop :=
  before.row.summaryVersion ≤ after.row.summaryVersion ∧
    (after.row.summaryVersion = before.row.summaryVersion →
      after.row.summaryBlock = before.row.summaryBlock ∧
      after.row.summaryPosition = before.row.summaryPosition)

theorem Grown.same {s₀ s s' : Scene} (h : Grown s s') (same : Same s₀ s) : Same s₀ s' := by
  refine ⟨h.version ▸ same.1, ?_⟩
  intro version
  rw [h.version] at version
  rw [h.block, h.position]
  exact same.2 version

theorem Swap.same {opens : Nat → List MessageRow → Bool → Prop} {s₀ s s' : Scene}
    (h : Swap svc opens s s') (same : Same s₀ s) : Same s₀ s' := by
  have committed (args : SummaryArgs) (turns : List MessageRow) :
      Same s₀ (s.commit args turns) := by
    have := same.1
    constructor
    · show s₀.row.summaryVersion ≤ s.row.summaryVersion + 1
      omega
    · intro (version : s.row.summaryVersion + 1 = s₀.row.summaryVersion)
      omega
  cases h with
  | quiet => exact same
  | layer args turns => exact committed args turns
  | truncate args turns => exact committed args turns

theorem ends_valid {opens : Nat → List MessageRow → Bool → Prop} {tenantId threadId : Uuid}
    {requestId : Option String} {s s' : Scene} {w : Except Raised Result × Unit} (valid : s.Valid)
    (ends : Tree.Ends (Answer opens True) Grown (compact svc tenantId threadId requestId ())
      s w s') : s'.Valid ∧ Same s s' := by
  have safe := compact_does svc opens True tenantId threadId requestId valid
  have others (a b : Scene) (grown : Grown a b) : Grown a b := grown
  constructor
  · exact Tree.Safe.keeps safe others (fun _ _ => Grown.valid) (fun _ _ => Swap.valid) ends valid
  · exact Tree.Safe.keeps (J := Same s) safe others (fun _ _ => Grown.same) (fun _ _ => Swap.same)
      ends ⟨Nat.le_refl _, fun _ => ⟨rfl, rfl⟩⟩

/-- What a compaction that returned reports, whichever way its breaker was found. -/
theorem ends_reported {tripped : Bool} {tenantId threadId : Uuid} {requestId : Option String}
    {s s' : Scene} {result : Result} (valid : s.Valid)
    (ends : Tree.Ends (Answer (fun _ _ b => b = tripped) True) Grown
      (compact svc tenantId threadId requestId ()) s (.ok result, ()) s') :
    Reported svc s result s' tripped := by
  have outcome : Outcome svc (fun _ _ b => b = tripped) s result s' := by
    have done := Tree.Safe.ends (compact_does svc _ True tenantId threadId requestId valid)
      (fun _ _ => id) ends
    exact done
  obtain ⟨snapshot, -, ⟨-, -, reported⟩ | ⟨opened, -, reported⟩ | ⟨opened, -, reported⟩⟩ :=
    outcome.moved
  · exact reported tripped
  · exact opened ▸ reported
  · exact opened ▸ reported

/-- A copy that says what the row says. -/
theorem written_current {scene : Scene} {rows : List MessageRow} {hot : Option Tail}
    {summary : HotSummary} {block : SummaryBlock} (stored : scene.row.summaryBlock = some block)
    (content : summary.content = block.content)
    (position : some summary.position = scene.row.summaryPosition)
    (layers : summary.layers.filter (· != []) = block.layers.filter (· != [])) :
    Tier.Current ⟨scene, some (cacheTail hot rows (some summary))⟩ := by
  by_cases silent : summary.content = ""
  · apply cold_current
    unfold Tier.Cold
    rw [spoken_written, if_pos silent]
  · have spoken := spoken_written hot rows summary
    rw [if_neg silent] at spoken
    unfold Tier.Current
    rw [loadThreadSummary_hot spoken, loadThreadSummary_row stored, content, position, layers]

theorem newLayers_alone {old : List Layer} {layer : Layer}
    (few : old = [] ∨ svc.config.maxSummaryLayers ≤ old.length) : newLayers svc old layer = [layer] := by
  unfold newLayers
  split
  · rfl
  · rcases few with rfl | full
    · rfl
    · contradiction

theorem step_current {t t' : Tier} {e : Event} (step : Step svc t e t')
    (careful : Careful svc t e t') (valid : t.scene.Valid) (current : t.Current) : t'.Current := by
  cases step with
  | appended scene grown => exact current.still rfl grown.block grown.position
  | expired => exact cold_current rfl
  | turnCompleted rows => exact current.still (spoken_kept _ _) rfl rfl
  | compacted tripped tenantId threadId requestId result scene rows ends =>
    cases ends_reported valid ends with
    | nothing _ idle block position =>
      rw [if_neg (Bool.eq_false_iff.mp idle)]
      exact current.still rfl block position
    | layered layer block compacted newer stored layers content summary position reported same_ =>
      rw [if_pos compacted]
      rcases careful with unmoved | few
      · exact absurd unmoved (Nat.ne_of_gt newer)
      · have alone : newLayers svc t.scene.layers layer = [layer] := newLayers_alone few
        rw [alone] at layers content
        refine written_current stored ?_ ?_ ?_
        · simp [hotSummary, summary, content]
        · simp [hotSummary, reported, position]
        · simp [hotSummary, same_]
    | truncated position block compacted stored dropped content summary at_ reported none_ =>
      rw [if_pos compacted]
      refine written_current stored ?_ ?_ ?_
      · simp [hotSummary, summary, content]
      · simp [hotSummary, reported, at_]
      · rw [hotSummary, none_, dropped]
        rfl
  | raised tenantId threadId requestId e scene ends =>
    have same := (ends_valid valid ends).2
    rcases careful with unmoved | cold
    · exact current.still rfl (same.2 unmoved).1 (same.2 unmoved).2
    · exact cold_current cold
  | refreshed tenantId threadId requestId w scene grew ends =>
    have same := (ends_valid valid ends).2
    rcases careful with unmoved | cold
    · exact current.still rfl (same.2 unmoved).1 (same.2 unmoved).2
    · exact cold_current cold

/-! ## Runs -/

theorem step_scene_valid {t t' : Tier} {e : Event} (step : Step svc t e t')
    (valid : t.scene.Valid) : t'.scene.Valid := by
  cases step with
  | appended scene grown => exact grown.valid valid
  | expired => exact valid
  | turnCompleted rows => exact valid
  | compacted tripped tenantId threadId requestId result scene rows ends =>
    exact (ends_valid valid (ends.mono (answer_mono (fun _ _ _ _ => trivial) id)
      (fun _ _ => id))).1
  | raised tenantId threadId requestId e scene ends => exact (ends_valid valid ends).1
  | refreshed tenantId threadId requestId w scene grew ends => exact (ends_valid valid ends).1

/-- With its breaker open, an inline compaction of the eleven messages drops the first. -/
theorem elevenLong_truncated : ∃ (scene : Scene) (hot : Tail),
    Step {} ⟨elevenLong, none⟩ (.compacted true) ⟨scene, some hot⟩ ∧ scene.Valid ∧
      scene.log = elevenLong.log ∧ scene.position = 1 ∧
      hot.spoken = some ⟨degradedSummaryContent, 1, none⟩ := by
  have valid : elevenLong.Valid := (sample_unlayered _ _).valid
  obtain ⟨result, scene, ends⟩ := compact_returns {} (fun _ _ b => b = true) 0 0 none
    (fun _ _ => rfl) valid
  have left := compact_left valid ends
  have ends' : Tree.Ends (Answer (fun _ _ b => b = true) True) Grown (compact {} 0 0 none ())
      elevenLong (.ok result, ()) scene := ends.mono (answer_mono (fun _ _ _ => id) False.elim)
    alone_grown
  have position : scene.position = 1 := by
    obtain ⟨none_ | opened, -⟩ | ⟨-, position⟩ := left.moved
    · rw [elevenLong_read, elevenLong_boundary] at none_
      cases none_
    · cases opened
    · rw [elevenLong_read, elevenLong, length_sample] at position
      exact position
  have step := Step.compacted ⟨elevenLong, none⟩ true 0 0 none result scene [] ends'
  cases ends_reported valid ends' with
  | nothing _ idle block still =>
    rw [Scene.position, still] at position
    cases position
  | truncated seq block compacted stored dropped content summary at_ reported none_ =>
    rw [Scene.position, at_, Option.getD_some] at position
    rw [if_pos compacted] at step
    refine ⟨scene, _, step, left.valid, left.log, ?_, ?_⟩
    · rw [Scene.position, at_, position]
      rfl
    · have spoken := spoken_written none (redactedRows []) (hotSummary result)
      rw [hotSummary, summary, reported, none_, position, Option.getD_some, if_neg (by decide)]
        at spoken
      rw [hotSummary, summary, reported, none_, position]
      exact spoken

end AgentStudio.Session
