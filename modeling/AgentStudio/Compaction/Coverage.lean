import AgentStudio.Compaction.Compact

/-!
# Where the summary position can go

Compactions of one thread that come one after the other, among any number of
other writers. Each swap moves the position forward and accounts for what it
passes. A truncation counts back from the end of its snapshot and compares
with nothing: it moves the position forward only where the stored one does not
already reach into the newest turns.
-/

namespace AgentStudio.Compaction

open Async Threads

/-- A thread and its compactions. -/
abbrev Thread := Shared Calls Raised (Except Raised Result × Unit) Scene

/-- A compaction starts when none is under way. -/
def Alone (svc : Service) (s : Thread) (body : Tree Calls Raised (Except Raised Result × Unit)) :
    Prop :=
  s.idle ∧ ∃ tenantId threadId requestId, body = compact svc tenantId threadId requestId ()

/-- The newest turns of what was read lie above the stored position wherever the breaker is
found open. -/
def Spares (svc : Service) (position : Nat) (snapshot : List MessageRow) (tripped : Bool) : Prop :=
  tripped = true → snapshot.length ≤ svc.config.truncationKeepTurns ∨
    position + svc.config.truncationKeepTurns ≤ snapshot.length

/-- A thread without layers: it has no summary, or one from before layering, or a truncation
marker. -/
structure Scene.Unlayered (s : Scene) : Prop where
  numbered : Log.Numbered MessageRow.seq s.log
  summary : s.row.summaryBlock = none ∧ s.row.summaryPosition = none ∨
    ∃ block, s.row.summaryBlock = some block ∧ (block.layers = none ∨ block.layers = some []) ∧
      block.content ≠ ""
  within : s.position ≤ s.log.length
  covered : ∀ m ∈ s.log, m.seq ≤ s.position → m ∈ s.covered

/-- Every message up to the position is accounted for. -/
structure Covered (s : Scene) : Prop where
  valid : s.Valid
  within : s.position ≤ s.log.length
  covered : ∀ m ∈ s.log, m.seq ≤ s.position → m ∈ s.covered

theorem Scene.Unlayered.layers {s : Scene} (h : s.Unlayered) :
    s.layers = [] ∧ s.position = 0 ∨ ∃ layer, s.layers = [layer] ∧ layer.position = s.position := by
  rcases h.summary with ⟨block, position⟩ | ⟨block, here, plain, text⟩
  · refine .inl ⟨?_, ?_⟩
    · simp only [Scene.layers, currentLayers, block]
    · rw [Scene.position, position, Option.getD_none]
  · refine .inr ⟨⟨s.position, block.content, block.payload⟩, ?_, rfl⟩
    rcases plain with legacy | dropped
    · simp only [Scene.layers, currentLayers, here, legacy, if_neg text, Scene.position]
    · simp only [Scene.layers, currentLayers, here, dropped, if_neg text, Scene.position]

theorem Scene.Unlayered.valid {s : Scene} (h : s.Unlayered) : s.Valid := by
  refine ⟨h.numbered, ?_⟩
  rcases h.layers with ⟨layers, position⟩ | ⟨layer, layers, position⟩
  · rw [layers, position]
    rfl
  · rw [layers, ← position]
    rfl

theorem Scene.Unlayered.covers {s : Scene} (h : s.Unlayered) : Covered s :=
  ⟨h.valid, h.within, h.covered⟩

/-! ## Steps -/

theorem Grown.covers {s s' : Scene} (h : Grown s s') (covered : Covered s) : Covered s' where
  valid := h.valid covered.valid
  within := by
    rw [h.position_eq]
    exact covered.within.trans h.log.length_le
  covered := by
    intro m mem upto
    rw [h.position_eq] at upto
    rw [h.covered]
    refine covered.covered m ?_ upto
    -- what was appended is numbered above the position
    obtain ⟨added, joined⟩ := h.log
    obtain ⟨i, here⟩ := List.mem_iff_getElem?.mp mem
    have at_ := (h.numbered covered.valid.numbered).getElem here
    have within := covered.within
    rw [← joined, List.getElem?_append_left (by omega)] at here
    exact List.mem_of_getElem? here

theorem Swap.covers {svc : Service} {opens : Nat → List MessageRow → Bool → Prop} {s s' : Scene}
    (h : Swap svc opens s s') (covered : Covered s) : Covered s' := by
  have valid := h.valid covered.valid
  cases h with
  | quiet => exact covered
  | layer args turns layer plain layers ends advances within made =>
    refine ⟨valid, within, ?_⟩
    intro m mem upto
    simp only [Scene.commit, plain]
    rw [if_neg Bool.false_ne_true, List.mem_append]
    by_cases old : m.seq ≤ s.position
    · exact .inl (covered.covered m mem old)
    · exact .inr (made m mem (by omega) upto)
  | truncate args turns snapshot degraded dropped marked read longer position opened =>
    refine ⟨valid, ?_, ?_⟩
    · have := read.length_le
      rw [position_commit]
      change _ ≤ s.log.length
      omega
    · intro m mem upto
      simp only [Scene.commit, degraded, if_true, List.mem_append, List.mem_filter,
        decide_eq_true_eq]
      exact .inr ⟨mem, upto⟩

theorem Swap.forward {svc : Service} {s s' : Scene} (h : Swap svc (Spares svc) s s') :
    s.position ≤ s'.position := by
  cases h with
  | quiet => exact Nat.le_refl _
  | layer args turns layer plain layers ends advances within made => exact Nat.le_of_lt advances
  | truncate args turns snapshot degraded dropped marked read longer position opened =>
    rw [position_commit]
    rcases opened rfl with short | above
    · omega
    · omega

/-! ## Runs -/

/-- While compactions of the thread come one after the other, and a breaker is found open
only above the newest turns, no step moves the position back, and every message up to it is
accounted for. -/
theorem position_kept {svc : Service} {init s t : Thread} (unlayered : init.store.Unlayered)
    (empty : init.tasks = [])
    (run : Relation.ReflTransGen (Shared.Step (Answer (Spares svc) True) Grown (Alone svc)) init s)
    (step : Shared.Step (Answer (Spares svc) True) Grown (Alone svc) s t) :
    s.store.position ≤ t.store.position ∧
      ∀ m ∈ t.store.log, m.seq ≤ t.store.position → m ∈ t.store.covered := by
  have starts (s : Thread) (body : Tree Calls Raised (Except Raised Result × Unit))
      (may : Alone svc s body) : s.idle ∧ (Covered s.store →
        body.Safe (Answer (Spares svc) True) Grown (Swap svc (Spares svc))
          (fun _ _ => True) s.store) := by
    obtain ⟨idle, tenantId, threadId, requestId, rfl⟩ := may
    refine ⟨idle, fun covered => ?_⟩
    have does := compact_does svc (Spares svc) True tenantId threadId requestId covered.valid
    exact Tree.Safe.mono does fun _ _ _ => trivial
  have reached {s : Thread} (run : Relation.ReflTransGen
      (Shared.Step (Answer (Spares svc) True) Grown (Alone svc)) init s) :=
    Shared.sequential_run Covered (fun _ _ => id) Grown.refl (fun _ _ _ => Grown.trans)
      (fun _ _ => Grown.covers) (fun _ _ => Swap.covers) starts empty unlayered.covers run
  obtain ⟨-, sequential⟩ := reached run
  obtain ⟨covered, -⟩ := reached (run.tail step)
  refine ⟨?_, covered.covered⟩
  rcases sequential.step (fun _ _ => id) step Grown.refl with grown | swap
  · rw [grown.position_eq]
  · exact swap.forward

/-! ## Compactions in turn -/

theorem Failed.mono {α : Type} {fails fails' : Prop} {r : Except Raised α} (raise : fails → fails')
    (h : Failed fails r) : Failed fails' r := ⟨raise h.1, h.2⟩

theorem answer_mono {opens opens' : Nat → List MessageRow → Bool → Prop} {fails fails' : Prop}
    (open_ : ∀ position snapshot tripped, opens position snapshot tripped →
      opens' position snapshot tripped) (raise : fails → fails') (op : Op) (s : Scene)
    (r : Except Raised op.Answer) (s' : Scene) (h : Answer opens fails op s r s') :
    Answer opens' fails' op s r s' := by
  cases op with
  | isTripped snapshot =>
    rcases h with ⟨same, ⟨tripped, ok, opened⟩ | failed⟩
    · exact ⟨same, .inl ⟨tripped, ok, open_ _ _ _ opened⟩⟩
    · exact ⟨same, .inr (failed.mono raise)⟩
  | summarize turns =>
    rcases h with ⟨same, ⟨payload, ok, clean⟩ | ⟨ok, failed⟩ | failed⟩
    · exact ⟨same, .inl ⟨payload, ok, clean.imp_right raise⟩⟩
    · exact ⟨same, .inr (.inl ⟨ok, raise failed⟩)⟩
    · exact ⟨same, .inr (.inr (failed.mono raise))⟩
  | setSummary args turns =>
    rcases h with ⟨same, failed⟩ | ⟨committed, ok | failed⟩
    · exact .inl ⟨same, failed.mono raise⟩
    · exact .inr ⟨committed, .inl ok⟩
    · exact .inr ⟨committed, .inr (failed.mono raise)⟩
  | listMessages | getThread | qualityCheck | recordFailure | recordSuccess =>
    exact ⟨h.1, h.2.imp_right (Failed.mono raise)⟩

/-- A compaction that runs alone is a run of the thread. -/
theorem alone_steps {svc : Service} {opens opens' : Nat → List MessageRow → Bool → Prop}
    {tenantId threadId : Uuid} {requestId : Option String} {s s' : Scene}
    {w : Except Raised Result × Unit}
    (open_ : ∀ position snapshot tripped, opens position snapshot tripped →
      opens' position snapshot tripped)
    (ends : Tree.Ends (Answer opens False) Eq (compact svc tenantId threadId requestId ()) s w s')
    (tasks : List (Tree Calls Raised (Except Raised Result × Unit)))
    (idle : ∀ task ∈ tasks, task.isDone = true) :
    Relation.ReflTransGen (Shared.Step (Answer opens' True) Grown (Alone svc))
      ⟨s, tasks⟩ ⟨s', tasks ++ [.done w]⟩ := by
  have ends' : Tree.Ends (Answer opens' True) Eq (compact svc tenantId threadId requestId ())
      s w s' := ends.mono (answer_mono open_ False.elim) (fun _ _ => id)
  have last : (tasks ++ [compact svc tenantId threadId requestId ()])[tasks.length]? =
      some (compact svc tenantId threadId requestId ()) := by simp
  have rest := Shared.ends_steps Grown (Alone svc) ends' last
  rw [List.set_append_right _ _ (Nat.le_refl _), Nat.sub_self, List.set_cons_zero] at rest
  exact .head (.start ⟨s, tasks⟩ _ ⟨idle, tenantId, threadId, requestId, rfl⟩) rest

/-! ## A truncation after a compaction -/

/-- A thread without a summary whose `n` messages all read the same. -/
def sample (text : String) (n : Nat) : Scene where
  row := { id := 0, tenantId := 0, conversationId := 0 }
  log := (List.range n).map fun i => {
    id := i, conversationId := 0, tenantId := 0, threadId := 0, seq := i + 1, role := "user",
    content := text, redactedContent := text }

/-- Text of `n` tokens. -/
def textOf (n : Nat) : String := String.ofList (List.replicate (4 * n) 'a')

theorem estimate_textOf (n : Nat) : estimate (textOf n) = n := by
  simp only [estimate, textOf, String.length_ofList, List.length_replicate]
  omega

theorem length_sample (text : String) (n : Nat) : (sample text n).log.length = n := by
  simp [sample]

theorem sample_unlayered (text : String) (n : Nat) : (sample text n).Unlayered := by
  refine ⟨?_, .inl ⟨rfl, rfl⟩, Nat.zero_le _, ?_⟩
  · rw [Log.Numbered, length_sample, sample, List.map_map, List.range'_eq_map_range]
    exact List.map_congr_left fun i _ => Nat.add_comm i 1
  · intro m mem upto
    obtain ⟨i, -, rfl⟩ := List.mem_map.mp mem
    exact absurd upto (Nat.not_succ_le_zero i)

theorem total_sample (svc : Service) (text : String) (n k : Nat) :
    total svc.tokens ((sample text n).log.drop k) = (n - k) * svc.estimate text := by
  simp [total, sample, List.map_drop, Service.tokens, Function.comp_def, List.map_const']

/-- Eleven messages, each longer than the budget. -/
def elevenLong : Scene := sample (textOf 8001) 11

theorem elevenLong_boundary : ({} : Service).boundary elevenLong.log = 11 := by
  apply (boundary_isBoundary _ _).unique
  have tokens (k : Nat) : total ({} : Service).tokens (elevenLong.log.drop k) = (11 - k) * 8001 := by
    rw [elevenLong, total_sample]
    exact congrArg ((11 - k) * ·) (estimate_textOf 8001)
  refine ⟨(length_sample _ _).ge, ?_, ?_⟩
  · rw [tokens]
    exact Nat.zero_le _
  · intro j lt
    rw [tokens]
    change 8000 < _
    omega

theorem elevenLong_read : elevenLong.log.take ({} : Service).cap = elevenLong.log := by
  apply List.take_of_length_le
  rw [elevenLong, length_sample]
  decide

/-- A compaction with the breaker closed takes the eleven messages into a layer. -/
theorem elevenLong_compacted : ∃ result s', s'.position = 11 ∧ s'.log = elevenLong.log ∧
    s'.Valid ∧ Tree.Ends (Answer closed False) Eq
      (compact {} 0 0 none ()) elevenLong (.ok result, ()) s' := by
  have valid := (sample_unlayered (textOf 8001) 11).valid
  obtain ⟨result, s', ends⟩ := compact_returns {} closed 0 0 none
    (fun _ _ => rfl) valid
  obtain ⟨log, valid', ⟨-, position⟩ | ⟨opened, -⟩⟩ := compact_left valid ends
  · refine ⟨result, s', ?_, log, valid', ends⟩
    change s'.position = max 0 (({} : Service).boundary (elevenLong.log.take _)) at position
    rw [position, elevenLong_read, elevenLong_boundary]
    rfl
  · cases opened

theorem position_kept_elevenLong : ∃ s t : Thread,
    Shared.Step (Answer (Spares {}) True) Grown (Alone {}) s t ∧ s.store.position = 11 ∧
      s.store.position ≤ t.store.position ∧
      ∀ m ∈ t.store.log, m.seq ≤ t.store.position → m ∈ t.store.covered := by
  obtain ⟨result, s', position, -, -, ends⟩ := elevenLong_compacted
  have spared (position : Nat) (snapshot : List MessageRow) (tripped : Bool)
      (shut : closed position snapshot tripped) : Spares {} position snapshot tripped :=
    fun opened => absurd (shut.symm.trans opened) Bool.false_ne_true
  have run := alone_steps spared ends [] (by simp)
  have step : Shared.Step (Answer (Spares {}) True) Grown (Alone {})
      (⟨s', [.done (.ok result, ())]⟩ : Thread) _ :=
    .start _ _ ⟨by simp [Shared.idle, Tree.isDone], 0, 0, none, rfl⟩
  exact ⟨_, _, step, position,
    position_kept (sample_unlayered (textOf 8001) 11) rfl run step⟩

/-- A compaction reads all of a thread; then its breaker opens, and the truncation that
follows keeps ten messages that the layer already covers. -/
theorem position_moves_back : ∃ s t : Thread,
    Relation.ReflTransGen (Shared.Step (Answer (fun _ _ _ => True) True) Grown (Alone {}))
      ⟨elevenLong, []⟩ s ∧
    Relation.ReflTransGen (Shared.Step (Answer (fun _ _ _ => True) True) Grown (Alone {}))
      s t ∧
    elevenLong.Unlayered ∧ s.store.position = 11 ∧ t.store.position = 1 := by
  obtain ⟨result, s₁, position, log, valid, first⟩ := elevenLong_compacted
  obtain ⟨result', s₂, second⟩ := compact_returns {} (fun _ _ tripped => tripped = true) 0 0
    none (fun _ _ => rfl) valid
  obtain ⟨-, -, ⟨none_ | opened, -⟩ | ⟨-, position'⟩⟩ := compact_left valid second
  · rw [log, elevenLong_read, elevenLong_boundary] at none_
    cases none_
  · cases opened
  · rw [log, elevenLong_read] at position'
    refine ⟨⟨s₁, _⟩, ⟨s₂, _⟩, alone_steps (fun _ _ _ _ => trivial) first [] (by simp),
      alone_steps (fun _ _ _ _ => trivial) second _ (by simp [Tree.isDone]),
      sample_unlayered _ _, position, ?_⟩
    rw [position', elevenLong, length_sample]
    rfl

end AgentStudio.Compaction
