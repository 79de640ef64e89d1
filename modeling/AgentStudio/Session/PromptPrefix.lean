import AgentStudio.Compaction.Stack
import AgentStudio.Context.Head
import AgentStudio.Session.HotTier

/-!
# The stable prefix of a thread's prompts

A prompt that reads its summary from the thread row has one message for each stored
layer. Compaction decides from the stored stack whether it appends, and the
assembler marks the first layer only, so a prompt after appends starts as one
before them did.
-/

namespace AgentStudio.Session

open Threads (ThreadRow Layer)
open Async Compaction Context

variable {svc : Service} {loader : Loader} {request request' : Request} {row : ThreadRow}
  {s s' : Scene} {kinds : List Kind}

/-- The request has the summary as `_load_thread_summary` reads it from the thread row. -/
structure Reads (request : Request) (row : ThreadRow) : Prop where
  summary : request.summary = (loadThreadSummary none (some row)).1
  position : request.summaryPosition = (loadThreadSummary none (some row)).2.1.map Nat.cast
  layers : request.summaryLayers =
    (loadThreadSummary none (some row)).2.2.map fun layers => layers.map Layer.content

/-- What the assembler renders of a row is the stack that compaction finds. -/
theorem Reads.layers_eq (h : Reads request row) :
    Context.layers request = (currentLayers row).map Layer.content := by
  rw [Context.layers, h.layers, h.summary]
  cases stored : row.summaryBlock with
  | none => simp [loadThreadSummary, currentLayers, stored, normalizeLayers]
  | some block =>
    rw [loadThreadSummary_row stored]
    simp only [currentLayers, stored]
    rcases block.layers with _ | _ | ⟨layer, layers⟩
    · by_cases text : block.content = ""
      · simp [normalizeLayers, text]
      · simp [normalizeLayers, text]
    · by_cases text : block.content = ""
      · simp [normalizeLayers, text, Option.filter]
      · simp [normalizeLayers, text, Option.filter]
    · simp [normalizeLayers, Option.filter]

/-- Layers that were appended leave the messages of those before them as they were. -/
theorem summaryMessages_prefix (layers : Context.layers request <+: Context.layers request')
    (markers : loader.markers request' = loader.markers request) :
    summaryMessages loader request <+: summaryMessages loader request' := by
  obtain ⟨added, joined⟩ := layers
  rw [summaryMessages, summaryMessages, ← joined, List.mapIdx_append, markers]
  exact List.prefix_append _ _

theorem head_prefix {ctx ctx' : AssembledContext}
    (layers : Context.layers request <+: Context.layers request')
    (prompt : request'.systemPrompt = request.systemPrompt)
    (markers : loader.markers request' = loader.markers request)
    (fits' : summaryTokens loader request' ≤ loader.afterSystem request')
    (ok : loader.assemble request = .ok ctx) (ok' : loader.assemble request' = .ok ctx') :
    ctx.head <+: ctx'.messages := by
  obtain ⟨later, messages, -⟩ := assemble_follows ok'
  have system : systemMessage loader request' = systemMessage loader request := by
    rw [systemMessage, systemMessage, prompt, markers]
  have summary := summaryMessages_prefix layers markers
  rw [assemble_head ok, messages, headMessages, headMessages, if_pos fits', system]
  refine List.IsPrefix.trans ?_ (List.prefix_append _ _)
  apply List.cons_prefix_cons.mpr ⟨rfl, ?_⟩
  split
  · exact summary
  · exact List.nil_prefix

variable (loader) in
/-- Over compactions in turn none of which truncates: without a consolidation, the system and
summary messages before them start the prompt after them, wherever its summary fits; and between two consolidations that
follow on each other there are at least `max_summary_layers - 1` that append. -/
theorem prompt_prefix_kept (turns : Turns svc s kinds s') (plain : Kind.degrade ∉ kinds) :
    (Kind.consolidate ∉ kinds → ∀ (request request' : Request) (ctx ctx' : AssembledContext),
      Reads request s.row → Reads request' s'.row →
      request'.systemPrompt = request.systemPrompt →
      loader.markers request' = loader.markers request →
      summaryTokens loader request' ≤ loader.afterSystem request' →
      loader.assemble request = .ok ctx → loader.assemble request' = .ok ctx' →
      ctx.head <+: ctx'.messages) ∧
    ∀ before between after : List Kind,
      kinds = before ++ .consolidate :: (between ++ .consolidate :: after) →
      Kind.consolidate ∉ between → svc.config.maxSummaryLayers - 1 ≤ between.count .append := by
  constructor
  · intro kept request request' ctx ctx' reads reads' prompt markers fits' ok ok'
    obtain ⟨grown, -⟩ := turns.grows plain kept
    refine head_prefix ?_ prompt markers fits' ok ok'
    rw [reads.layers_eq, reads'.layers_eq]
    exact grown.map Layer.content
  · rintro before between after rfl kept
    refine turns.refills ?_ kept
    intro degraded
    exact plain (by simp [degraded])

/-! ## A prompt before and after a compaction -/

/-- Every text fits. -/
def roomyLoader : Loader where
  estimate := fun _ _ _ => 0
  outputReserveTokens := 0
  cacheMarkers := true

/-- The request of a turn without history on a thread row. -/
def rowRequest (row : ThreadRow) : Request where
  provider := "openai"
  model := "gpt-4o-mini"
  systemPrompt := "You are a helpful assistant."
  currentMessage := "And the refund?"
  summary := (loadThreadSummary none (some row)).1
  summaryPosition := (loadThreadSummary none (some row)).2.1.map Nat.cast
  summaryLayers := (loadThreadSummary none (some row)).2.2.map fun layers =>
    layers.map Layer.content
  contextWindowOverride := some 1000

theorem rowRequest_fits (row : ThreadRow) : summaryTokens roomyLoader (rowRequest row) = 0 := by
  rw [summaryTokens, List.sum_eq_zero]
  simp [Loader.tokens, roomyLoader]

theorem rowRequest_assembles (row : ThreadRow) :
    ∃ ctx, roomyLoader.assemble (rowRequest row) = .ok ctx := by
  have free (text : String) : roomyLoader.tokens (rowRequest row) text = 0 := rfl
  have window : roomyLoader.window (rowRequest row) = 1000 := rfl
  have reserve : roomyLoader.outputReserveTokens = 0 := rfl
  unfold Loader.assemble
  simp only [free, window, reserve]
  rw [if_neg (by decide), if_neg (Nat.not_lt_zero _)]
  generalize addMemory roomyLoader (rowRequest row) _ = draft
  have tail : addTail roomyLoader (rowRequest row) draft =
      .ok { draft with ctx := { draft.ctx with omittedTurns := [] } } := rfl
  have current (draft : Draft) :
      ∃ ctx, addCurrent roomyLoader (rowRequest row) draft = .ok ctx := by
    unfold addCurrent
    simp only [free, Nat.not_lt_zero, if_false]
    exact ⟨_, rfl⟩
  rw [tail]
  exact current _

/-- The eleven messages go into a layer: one compaction, and it appends. -/
theorem elevenLong_appended : ∃ s', Turns {} elevenLong [.append] s' := by
  obtain ⟨result, s', position, -, valid, ends⟩ := elevenLong_compacted
  have advanced : Advanced {} closed elevenLong s' := by
    have done := Tree.Safe.ends (compact_advances {} closed False 0 0 none elevenLong)
      alone_grown ends
    exact done
  have appended : kind {} elevenLong s' = .append := by
    cases advanced with
    | still still =>
      -- a thread without layers has none at position 11
      have linked := valid.linked
      rw [still.layers, position] at linked
      cases linked
    | layered layer layers plain newer =>
      rw [kind, if_neg newer.ne', if_neg (Bool.eq_false_iff.mp plain)]
      rfl
    | truncated opened =>
      obtain ⟨_, _, opened⟩ := opened
      cases opened
  refine ⟨s', ?_⟩
  rw [← appended]
  exact .compacted 0 0 none _
    (ends.mono (answer_mono (fun _ _ _ _ => trivial) False.elim) alone_grown) (.done s')

theorem prompt_prefix_kept_elevenLong : ∃ (s' : Scene) (ctx ctx' : AssembledContext),
    Turns {} elevenLong [.append] s' ∧
    roomyLoader.assemble (rowRequest elevenLong.row) = .ok ctx ∧
    roomyLoader.assemble (rowRequest s'.row) = .ok ctx' ∧ ctx.head <+: ctx'.messages := by
  obtain ⟨s', turns⟩ := elevenLong_appended
  obtain ⟨ctx, ok⟩ := rowRequest_assembles elevenLong.row
  obtain ⟨ctx', ok'⟩ := rowRequest_assembles s'.row
  refine ⟨s', ctx, ctx', turns, ok, ok', ?_⟩
  refine (prompt_prefix_kept roomyLoader turns (by decide)).1 (by decide)
    (rowRequest elevenLong.row) (rowRequest s'.row) ctx ctx' ⟨rfl, rfl, rfl⟩ ⟨rfl, rfl, rfl⟩
    rfl rfl ?_ ok ok'
  rw [rowRequest_fits]
  exact Nat.zero_le _

end AgentStudio.Session
