import AgentStudio.Threads.Store

/-!
# Clearing tool results

`clear_tool_results` replaces the content of the tool results that are old enough and not
cleared yet. What it replaces is no longer such, so a second call finds nothing.
-/

namespace AgentStudio.Threads

variable {a : ClearArgs} {db : Store} {p q : PartRow}

/-- The unique index of the parts: a message has one part of an index. -/
def Store.Keyed (db : Store) : Prop := db.parts.Pairwise fun p q => p.samePart q = false

instance (db : Store) : Decidable db.Keyed := inferInstanceAs (Decidable (List.Pairwise _ _))

/-- A tool result of the thread that is not cleared, of a message that is not among the recent
ones. -/
structure ClearArgs.Stale (a : ClearArgs) (db : Store) (p : PartRow) : Prop where
  tenant : p.tenantId = a.tenantId
  thread : p.threadId = a.threadId
  result : p.partType = "tool_result"
  live : p.content.cleared = false
  old : ∃ m ∈ db.messages, m.id = p.messageId ∧
    (m.seq : Int) ≤ db.maxMessageSeq a.threadId - a.keepRecentTurns

theorem mem_eligible : p ∈ a.eligible db ↔ p ∈ db.parts ∧ a.Stale db p := by
  simp only [ClearArgs.eligible, List.mem_filter, Bool.and_eq_true, beq_iff_eq, List.any_eq_true,
    decide_eq_true_eq, Bool.not_eq_true', and_congr_right_iff]
  intro _
  constructor
  · rintro ⟨⟨⟨⟨tenant, thread⟩, result⟩, old⟩, live⟩
    exact ⟨tenant, thread, result, live, old⟩
  · rintro ⟨tenant, thread, result, live, old⟩
    exact ⟨⟨⟨⟨tenant, thread⟩, result⟩, old⟩, live⟩

instance : Decidable (a.Stale db p) :=
  decidable_of_iff (p.tenantId = a.tenantId ∧ p.threadId = a.threadId ∧
      p.partType = "tool_result" ∧ p.content.cleared = false ∧ ∃ m ∈ db.messages,
        m.id = p.messageId ∧ (m.seq : Int) ≤ db.maxMessageSeq a.threadId - a.keepRecentTurns)
    ⟨fun h => ⟨h.1, h.2.1, h.2.2.1, h.2.2.2.1, h.2.2.2.2⟩,
      fun h => ⟨h.tenant, h.thread, h.result, h.live, h.old⟩⟩

/-- What a call makes of a part. -/
def ClearArgs.sweep (a : ClearArgs) (db : Store) (p : PartRow) : PartRow :=
  if a.Stale db p then a.clear p else p

theorem samePart_iff :
    p.samePart q = true ↔ p.messageId = q.messageId ∧ p.partIndex = q.partIndex := by
  rw [PartRow.samePart, Bool.and_eq_true, beq_iff_eq, beq_iff_eq]

theorem samePart_symm (apart : p.samePart q = false) : q.samePart p = false := by
  rw [← Bool.not_eq_true, samePart_iff] at apart ⊢
  exact fun same => apart ⟨same.1.symm, same.2.symm⟩

theorem Store.Keyed.eq (keyed : db.Keyed) (mem : p ∈ db.parts) (mem' : q ∈ db.parts)
    (same : p.samePart q = true) : p = q := by
  by_contra differ
  have symm : Std.Symm fun p q : PartRow => p.samePart q = false :=
    ⟨fun p q apart => samePart_symm apart⟩
  exact absurd same (by simp [List.Pairwise.forall keyed mem mem' differ])

/-- Of the rows with an update, each becomes its own. -/
theorem updated_part (keyed : db.Keyed) (mem : p ∈ db.parts) :
    (((a.eligible db).map a.clear).find? (·.samePart p)).getD p = a.sweep db p := by
  rw [ClearArgs.sweep]
  by_cases stale : a.Stale db p
  · rw [if_pos stale]
    have some_ : (((a.eligible db).map a.clear).find? (·.samePart p)).isSome := by
      rw [List.find?_isSome]
      exact ⟨a.clear p, List.mem_map_of_mem (mem_eligible.mpr ⟨mem, stale⟩),
        samePart_iff.mpr ⟨rfl, rfl⟩⟩
    obtain ⟨update, found⟩ := Option.isSome_iff_exists.mp some_
    obtain ⟨q, eligible, rfl⟩ := List.mem_map.mp (List.mem_of_find?_eq_some found)
    have same := samePart_iff.mp
      (List.find?_some (p := fun update : PartRow => update.samePart p) found)
    rw [found, Option.getD_some,
      keyed.eq (mem_eligible.mp eligible).1 mem (samePart_iff.mpr same)]
  · rw [if_neg stale]
    have none_ : ((a.eligible db).map a.clear).find? (·.samePart p) = none := by
      rw [List.find?_eq_none]
      intro update there same
      obtain ⟨q, eligible, rfl⟩ := List.mem_map.mp there
      obtain ⟨here, old⟩ := mem_eligible.mp eligible
      have one := keyed.eq here mem (samePart_iff.mpr (samePart_iff.mp same))
      exact stale (one ▸ old)
    rw [none_, Option.getD_none]

/-- What was swept is not to be cleared again. -/
theorem sweep_fresh {db' : Store} (messages : db'.messages = db.messages) :
    ¬a.Stale db' (a.sweep db p) := by
  intro again
  rw [ClearArgs.sweep] at again
  split at again
  · have live := again.live
    simp [ClearArgs.clear] at live
  · rename_i fresh
    refine fresh ⟨again.tenant, again.thread, again.result, again.live, ?_⟩
    have old := again.old
    rw [Store.maxMessageSeq, Store.messagesOf, messages] at old
    exact old

/-- What a call that keeps more clears, one that keeps less clears too. -/
theorem Stale.fewer {keep : Int} (less : a.keepRecentTurns ≤ keep)
    (stale : ({ a with keepRecentTurns := keep } : ClearArgs).Stale db p) : a.Stale db p := by
  refine ⟨stale.tenant, stale.thread, stale.result, stale.live, ?_⟩
  obtain ⟨m, mem, id_, old⟩ := stale.old
  refine ⟨m, mem, id_, ?_⟩
  dsimp only at old
  omega

theorem clearToolResults_writes {row : ThreadRow}
    (found : db.getThread a.tenantId a.threadId = some row) : ∃ w reply,
      clearToolResults a db = .ok (w, reply) ∧ w.updatedParts = (a.eligible db).map a.clear ∧
      w.parts = [] ∧ w.messages = [] ∧ w.created = none ∧ w.updated = none ∧
      (w.events = [] ↔ a.eligible db = []) := by
  unfold clearToolResults
  rw [found]
  dsimp only
  split
  · rename_i none_
    exact ⟨_, _, rfl, by rw [none_]; rfl, rfl, rfl, rfl, rfl, by simp [none_]⟩
  · rename_i some_
    exact ⟨_, _, rfl, rfl, rfl, rfl, rfl, rfl, by simp [some_]⟩

theorem clearToolResults_none {row : ThreadRow}
    (found : db.getThread a.tenantId a.threadId = some row) (none_ : a.eligible db = []) :
    clearToolResults a db = .ok ({}, .cleared 0 0 none) := by
  unfold clearToolResults
  rw [found]
  exact if_pos none_

/-- A call clears the parts that are stale, each under its `tool_use_id`, and changes no other
part, message or thread; it writes an event if and only if it clears one. A second call changes
nothing, and one that keeps more clears no other part. -/
theorem clears_exactly {row : ThreadRow} (keyed : db.Keyed)
    (found : db.getThread a.tenantId a.threadId = some row) : ∃ w reply,
      clearToolResults a db = .ok (w, reply) ∧
      (db.apply w).parts = db.parts.map (a.sweep db) ∧
      (∀ p, a.Stale db p → a.sweep db p ≠ p ∧
        (a.sweep db p).content.toolUseId = p.content.toolUseId ∧
        (a.sweep db p).redactedContent.toolUseId = p.content.toolUseId ∧
        (a.sweep db p).content.cleared = true) ∧
      (∀ p, ¬a.Stale db p → a.sweep db p = p) ∧
      (db.apply w).messages = db.messages ∧ (db.apply w).threads = db.threads ∧
      ((db.apply w).events = db.events ↔ ∀ p ∈ db.parts, ¬a.Stale db p) ∧
      clearToolResults a (db.apply w) = .ok ({}, .cleared 0 0 none) ∧
      ∀ keep, a.keepRecentTurns ≤ keep →
        ∀ p, ({ a with keepRecentTurns := keep } : ClearArgs).Stale db p → a.Stale db p := by
  obtain ⟨w, reply, ok, updated, parts, messages, created, unchanged, events⟩ :=
    clearToolResults_writes found
  have swept : (db.apply w).parts = db.parts.map (a.sweep db) := by
    rw [Store.apply, updated, parts, List.append_nil]
    exact List.map_congr_left fun p mem => updated_part keyed mem
  have same : (db.apply w).messages = db.messages := by
    rw [Store.apply, messages, List.append_nil]
  have threads : (db.apply w).threads = db.threads := by
    simp [Store.apply, created, unchanged]
  refine ⟨w, reply, ok, swept, ?_, ?_, same, threads, ?_, ?_, fun keep less p => Stale.fewer less⟩
  · intro p stale
    rw [ClearArgs.sweep, if_pos stale]
    refine ⟨fun is => ?_, rfl, rfl, rfl⟩
    have live := stale.live
    rw [← is] at live
    cases live
  · intro p fresh
    rw [ClearArgs.sweep, if_neg fresh]
  · rw [Store.apply]
    simp [events, List.eq_nil_iff_forall_not_mem, mem_eligible]
  · refine @clearToolResults_none _ _ row ?_ ?_
    · rw [Store.getThread, threads]
      exact found
    · rw [List.eq_nil_iff_forall_not_mem]
      intro p mem
      obtain ⟨there, stale⟩ := mem_eligible.mp mem
      rw [swept] at there
      obtain ⟨q, -, rfl⟩ := List.mem_map.mp there
      exact sweep_fresh same stale

/-- The result of a tool, as a message of its own. -/
def toolMessage (id seq : Nat) : MessageRow where
  id := id
  conversationId := 9
  tenantId := 7
  threadId := 0
  seq := seq
  role := "assistant"
  content := ""
  redactedContent := ""

def toolPart (id : Uuid) (toolUseId : String) (cleared : Bool) : PartRow where
  messageId := id
  threadId := 0
  tenantId := 7
  partType := "tool_result"
  partIndex := 1
  content := { toolUseId := some toolUseId, cleared := cleared, rest := "order 12" }
  redactedContent := { toolUseId := some toolUseId, rest := "order 12" }

/-- Three results, the first of which is cleared. -/
def toolStore : Store where
  threads := [{ id := 0, tenantId := 7, conversationId := 9 }]
  messages := [toolMessage 1 1, toolMessage 2 2, toolMessage 3 3]
  parts := [toolPart 1 "t1" true, toolPart 2 "t2" false, toolPart 3 "t3" false]

/-- The second is cleared, the third is kept. -/
theorem clears_exactly_second : ∃ w reply,
    clearToolResults { tenantId := 7, threadId := 0, keepRecentTurns := 1 } toolStore =
      .ok (w, reply) ∧
    (toolStore.apply w).parts = toolStore.parts.map
      (ClearArgs.sweep { tenantId := 7, threadId := 0, keepRecentTurns := 1 } toolStore) ∧
    (toolStore.apply w).parts.map (fun p => p.content.cleared) = [true, true, false] := by
  obtain ⟨w, reply, ok, swept, -⟩ :=
    @clears_exactly { tenantId := 7, threadId := 0, keepRecentTurns := 1 } toolStore _ (by decide)
      rfl
  refine ⟨w, reply, ok, swept, ?_⟩
  rw [swept]
  decide

end AgentStudio.Threads
