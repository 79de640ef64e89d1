import AgentStudio.Compaction.Coverage

/-!
# The stack of layers over compactions in turn

What `compact` does to the stored layers, whatever it finds and however it ends:
nothing, one layer put on the stack or in its place, or a truncation. From one
consolidation to the next the stack is filled again layer by layer.
-/

namespace AgentStudio.Compaction

open Async Threads

variable {svc : Service} {opens : Nat → List MessageRow → Bool → Prop} {fails : Prop}
  {tenantId threadId : Uuid} {requestId : Option String} {α β : Type}

/-- The row tells that the last checkpoint was a truncation. -/
def Scene.degraded (s : Scene) : Bool := s.row.summaryBlock.any SummaryBlock.degraded

/-- No checkpoint was committed. -/
structure Still (s s' : Scene) : Prop where
  layers : s'.layers = s.layers
  version : s'.row.summaryVersion = s.row.summaryVersion

/-- What a compaction may have done to the stack. -/
inductive Advanced (svc : Service) (opens : Nat → List MessageRow → Bool → Prop) (s s' : Scene) :
    Prop
  | still (still : Still s s')
  | layered (layer : Layer) (layers : s'.layers = newLayers svc s.layers layer)
      (plain : s'.degraded = false) (newer : s.row.summaryVersion < s'.row.summaryVersion)
  | truncated (opened : ∃ position snapshot, opens position snapshot true)
      (marked : s'.degraded = true) (newer : s.row.summaryVersion < s'.row.summaryVersion)

theorem Still.grown {s₀ s s' : Scene} (grown : Grown s s') (still : Still s₀ s) : Still s₀ s' :=
  ⟨grown.layers_eq.trans still.layers, grown.version.trans still.version⟩

theorem Advanced.grown {s₀ s s' : Scene} (grown : Grown s s') (h : Advanced svc opens s₀ s) :
    Advanced svc opens s₀ s' := by
  have degraded : s'.degraded = s.degraded := by rw [Scene.degraded, grown.block, Scene.degraded]
  cases h with
  | still still => exact .still (still.grown grown)
  | layered layer layers plain newer =>
    exact .layered layer (grown.layers_eq.trans layers) (degraded.trans plain)
      (grown.version ▸ newer)
  | truncated opened marked newer =>
    exact .truncated opened (degraded.trans marked) (grown.version ▸ newer)

/-! ## One compaction -/

/-- However the action ends, the stack of `s₀` has advanced. -/
abbrev Advances (svc : Service) (opens : Nat → List MessageRow → Bool → Prop) (fails : Prop)
    (s₀ : Scene) (action : Action α) (s : Scene) : Prop :=
  action.Safe (Answer opens fails) Grown (fun _ _ => True) () (fun _ _ => Advanced svc opens s₀) s

variable {s₀ s : Scene}

/-- A call that only reads: where nothing is committed, nothing was committed before what
follows it. -/
theorem advances_read {op : Op} {k : op.Answer → Action β} {P : Scene → Prop}
    (reads : op.writes = false) (kept : ∀ s s', Grown s s' → P s → P s')
    (fine : ∀ s, P s → Advanced svc opens s₀ s) (now : P s)
    (next : ∀ a s₁, P s₁ → Answer opens fails op s₁ (.ok a) s₁ →
      Advances svc opens fails s₀ (k a) s₁) :
    Advances svc opens fails s₀ ((Coro.call (I := Calls) op : Action op.Answer) >>= k) s := by
  apply Coro.safe_call_bind (I := Calls)
  intro s₁ grown r s₂ answer
  obtain rfl := answer_reads answer reads
  have now₁ := kept _ _ grown now
  refine ⟨trivial, ?_, ?_⟩
  · rintro a rfl
    exact next a s₂ now₁ answer
  · rintro e rfl
    exact fine s₂ now₁

/-- A call that only reads, before anything is committed. -/
theorem advances_still {op : Op} {k : op.Answer → Action β} (reads : op.writes = false)
    (now : Still s₀ s)
    (next : ∀ a s₁, Still s₀ s₁ → Answer opens fails op s₁ (.ok a) s₁ →
      Advances svc opens fails s₀ (k a) s₁) :
    Advances svc opens fails s₀ ((Coro.call (I := Calls) op : Action op.Answer) >>= k) s :=
  advances_read reads (fun _ _ => Still.grown) (fun _ => .still) now next

/-- The call of `set_summary`, with nothing but the answer to come. -/
theorem advances_commit {args : SummaryArgs} {turns : List MessageRow} {k : Nat × Nat → Action β}
    (now : Still s₀ s)
    (commits : ∀ s₁, Still s₀ s₁ → Advanced svc opens s₀ (s₁.commit args turns))
    (next : ∀ a s₁, Advanced svc opens s₀ s₁ → Advances svc opens fails s₀ (k a) s₁) :
    Advances svc opens fails s₀
      ((Coro.call (I := Calls) (.setSummary args turns) : Action (Nat × Nat)) >>= k) s := by
  apply Coro.safe_call_bind (I := Calls)
  intro s₁ grown r s₂ answer
  have now₁ := now.grown grown
  have after : Advanced svc opens s₀ s₂ := by
    rcases answer with ⟨rfl, -⟩ | ⟨rfl, -⟩
    · exact .still now₁
    · exact commits s₁ now₁
  refine ⟨trivial, ?_, fun _ _ => after⟩
  intro a _
  exact next a s₂ after

theorem snapshotFrom_still (rounds : Nat) (messages : List MessageRow) (afterSeq : Nat)
    (now : Still s₀ s) :
    (snapshotFrom svc rounds messages afterSeq).Safe (Answer opens fails) Grown (fun _ _ => True)
      () (fun _ _ => Still s₀) s := by
  induction rounds generalizing messages afterSeq s with
  | zero => exact Coro.safe_pure messages now
  | succ rounds ih =>
    simp only [snapshotFrom]
    split
    · apply Coro.safe_call_bind (I := Calls)
      intro s₁ grown r s₂ answer
      obtain rfl := answer_reads answer rfl
      have now₁ := now.grown grown
      refine ⟨trivial, ?_, fun _ _ => now₁⟩
      intro page _
      split
      · exact Coro.safe_pure messages now₁
      · split
        · exact ih _ _ now₁
        · exact Coro.safe_pure _ now₁
    · exact Coro.safe_pure messages now

theorem truncateFallback_advances (snapshot : List MessageRow)
    (opened : ∃ position snapshot, opens position snapshot true) (now : Still s₀ s) :
    Advances svc opens fails s₀ (truncateFallback svc tenantId threadId requestId snapshot) s := by
  unfold truncateFallback
  simp only
  split
  · exact Coro.safe_pure _ (.still now)
  · split
    · exact Coro.safe_pure _ (.still now)
    · apply advances_commit now
      · intro s₁ now₁
        exact .truncated opened rfl (Nat.lt_succ_of_le now₁.version.ge)
      · intro a s₁ after
        exact Coro.safe_pure _ after

theorem swap_advances {turns : List MessageRow} {boundary : MessageRow} (now : Still s₀ s) :
    Advances svc opens fails s₀ (swap svc tenantId threadId requestId s₀.layers turns boundary)
      s := by
  have stored (payload : Payload) {s₁ : Scene} (now₁ : Still s₀ s₁) :
      Advances svc opens fails s₀
        (checkpoint tenantId threadId requestId
          (newLayers svc s₀.layers ⟨boundary.seq, render payload, payload⟩) payload turns boundary)
        s₁ := by
    apply advances_commit now₁
    · intro s₂ now₂
      exact .layered _ (layers_commit s₂ turns rfl (newLayers_ne_nil _ _ _)) rfl
        (Nat.lt_succ_of_le now₂.version.ge)
    · intro a s₂ after
      exact Coro.safe_pure _ after
  unfold swap
  apply advances_still rfl now
  intro answered s₁ now₁ _
  cases answered with
  | none => exact Coro.safe_throw _ (.still now₁)
  | some payload =>
    simp only
    split
    · split
      · apply advances_still rfl now₁
        intro _ s₂ now₂ _
        exact stored payload now₂
      · exact stored payload now₁
    · exact Coro.safe_throw _ (.still now₁)

theorem compactHead_advances (head : List MessageRow) (now : Still s₀ s) :
    Advances svc opens fails s₀ (compactHead svc tenantId threadId requestId head) s := by
  unfold compactHead
  apply advances_still rfl now
  intro row s₁ now₁ answer
  obtain rfl : row = some s₁.row := by
    rcases answer.2 with ok | ⟨-, e, error⟩
    · exact Except.ok.inj ok
    · cases error
  have layers : ((some s₁.row).map currentLayers).getD [] = s₀.layers := now₁.layers
  simp only [layers]
  split
  · exact Coro.safe_pure _ (.still now₁)
  · refine Coro.Safe.bind (P := fun _ _ => Advanced svc opens s₀) ?_ ?_ (fun _ _ _ => id)
    · refine Coro.Safe.tryCatch (P := fun _ _ => Advanced svc opens s₀) (swap_advances now₁)
        (fun _ _ _ => id) ?_
      intro e _ s₂ after
      split
      · apply advances_read rfl (fun _ _ => Advanced.grown) (fun _ => id) after
        intro _ s₃ after₃ _
        exact Coro.safe_throw e after₃
      · exact Coro.safe_throw e after
    · intro result _ s₂ after
      apply advances_read rfl (fun _ _ => Advanced.grown) (fun _ => id) after
      intro _ s₃ after₃ _
      exact Coro.safe_pure result after₃

variable (svc opens fails tenantId threadId requestId) in
theorem compact_advances (s : Scene) :
    Advances svc opens fails s (compact svc tenantId threadId requestId) s := by
  unfold compact
  refine Coro.Safe.bind (snapshotFrom_still _ _ _ ⟨rfl, rfl⟩) ?_ (fun _ _ _ => .still)
  intro snapshot _ s₁ now
  simp only
  split
  · exact Coro.safe_pure _ (.still now)
  · apply advances_still rfl now
    intro tripped s₂ now₂ answer
    split
    next open_ =>
      refine truncateFallback_advances snapshot ?_ now₂
      rcases answer.2 with ⟨tripped', ok, opened⟩ | ⟨-, e, error⟩
      · refine ⟨s₂.position, snapshot, ?_⟩
        rwa [← Except.ok.inj ok, open_] at opened
      · cases error
    next => exact compactHead_advances _ now₂

/-! ## Compactions in turn -/

/-- What came of a compaction. -/
inductive Kind where
  | idle | append | consolidate | degrade
  deriving DecidableEq, Repr

/-- The row's version tells whether a compaction committed a checkpoint, and the stack that it
found whether it consolidated. -/
def kind (svc : Service) (s s' : Scene) : Kind :=
  if s'.row.summaryVersion = s.row.summaryVersion then .idle
  else if s'.degraded then .degrade
  else if svc.config.maxSummaryLayers ≤ s.layers.length then .consolidate
  else .append

/-- Compactions of a thread one after the other, among appends, and what came of each. A call
may raise, and the breaker may be found open. -/
inductive Turns (svc : Service) : Scene → List Kind → Scene → Prop
  | done (s : Scene) : Turns svc s [] s
  | appended {s s₁ s' : Scene} {kinds : List Kind} (grown : Grown s s₁)
      (rest : Turns svc s₁ kinds s') : Turns svc s kinds s'
  | compacted {s s₁ s' : Scene} {kinds : List Kind} (tenantId threadId : Uuid)
      (requestId : Option String) (w : Except Raised Result × Unit)
      (ends : Tree.Ends (Answer (fun _ _ _ => True) True) Grown
        (compact svc tenantId threadId requestId ()) s w s₁)
      (rest : Turns svc s₁ kinds s') : Turns svc s (kind svc s s₁ :: kinds) s'

/-- What each kind of compaction does to the stack. -/
def Kind.does (svc : Service) (s s' : Scene) : Kind → Prop
  | .idle => s'.layers = s.layers
  | .append =>
    s.layers.length < svc.config.maxSummaryLayers ∧ ∃ layer, s'.layers = s.layers ++ [layer]
  | .consolidate => svc.config.maxSummaryLayers ≤ s.layers.length ∧ ∃ layer, s'.layers = [layer]
  | .degrade => True

theorem Advanced.does {s s' : Scene} (h : Advanced svc opens s s') : (kind svc s s').does svc s s' := by
  cases h with
  | still still =>
    rw [kind, if_pos still.version]
    exact still.layers
  | layered layer layers plain newer =>
    rw [kind, if_neg newer.ne', if_neg (Bool.eq_false_iff.mp plain)]
    unfold newLayers at layers
    by_cases full : svc.config.maxSummaryLayers ≤ s.layers.length
    · rw [if_pos full] at layers ⊢
      exact ⟨full, layer, layers⟩
    · rw [if_neg full] at layers ⊢
      exact ⟨Nat.not_le.mp full, layer, layers⟩
  | truncated opened marked newer =>
    rw [kind, if_neg newer.ne', if_pos marked]
    trivial

namespace Turns

variable {s s' : Scene} {kinds before after : List Kind}

/-- The first compaction, and the rest. -/
theorem cons {k : Kind} (h : Turns svc s (k :: kinds) s') :
    ∃ s₁ s₂, s₁.layers = s.layers ∧ k.does svc s₁ s₂ ∧ Turns svc s₂ kinds s' := by
  generalize same : k :: kinds = whole at h
  induction h with
  | done s => cases same
  | appended grown rest ih =>
    obtain ⟨s₁, s₂, layers, does, rest'⟩ := ih same
    exact ⟨s₁, s₂, layers.trans grown.layers_eq, does, rest'⟩
  | compacted tenantId threadId requestId w ends rest _ =>
    cases same
    refine ⟨_, _, rfl, ?_, rest⟩
    have advanced := Tree.Safe.ends
      (compact_advances svc (fun _ _ _ => True) True tenantId threadId requestId _)
      (fun _ _ => id) ends
    exact Advanced.does advanced

theorem nil (h : Turns svc s [] s') : s'.layers = s.layers := by
  generalize same : [] = whole at h
  induction h with
  | done s => rfl
  | appended grown rest ih => exact (ih same).trans grown.layers_eq
  | compacted => cases same

theorem append (h : Turns svc s (before ++ after) s') :
    ∃ s₁, Turns svc s before s₁ ∧ Turns svc s₁ after s' := by
  generalize same : before ++ after = whole at h
  induction h generalizing before with
  | done s =>
    obtain ⟨rfl, rfl⟩ := List.append_eq_nil_iff.mp same
    exact ⟨s, .done s, .done s⟩
  | appended grown rest ih =>
    obtain ⟨s₁, first, second⟩ := ih same
    exact ⟨s₁, .appended grown first, second⟩
  | compacted tenantId threadId requestId w ends rest ih =>
    cases before with
    | nil =>
      obtain rfl : after = _ := same
      exact ⟨_, .done _, .compacted tenantId threadId requestId w ends rest⟩
    | cons k before =>
      obtain ⟨rfl, same'⟩ := List.cons.inj same
      obtain ⟨s₁, first, second⟩ := ih same'
      exact ⟨s₁, .compacted tenantId threadId requestId w ends first, second⟩

/-- Without a consolidation the stack only grows, by one layer for each compaction that
appends. -/
theorem grows (h : Turns svc s kinds s') (plain : Kind.degrade ∉ kinds)
    (kept : Kind.consolidate ∉ kinds) :
    s.layers <+: s'.layers ∧ s'.layers.length = s.layers.length + kinds.count .append := by
  induction kinds generalizing s with
  | nil => simp [h.nil]
  | cons k kinds ih =>
    obtain ⟨s₁, s₂, same, does, rest⟩ := h.cons
    rw [List.mem_cons, not_or] at plain kept
    obtain ⟨grown, length_⟩ := ih rest plain.2 kept.2
    rw [← same]
    cases k with
    | idle =>
      have still : s₂.layers = s₁.layers := does
      rw [still] at grown length_
      exact ⟨grown, by simpa using length_⟩
    | append =>
      obtain ⟨-, layer, layers⟩ := does
      rw [layers] at grown length_
      refine ⟨(List.prefix_append _ _).trans grown, ?_⟩
      rw [List.length_append, List.length_singleton] at length_
      rw [List.count_cons_self]
      omega
    | consolidate => exact absurd rfl kept.1
    | degrade => exact absurd rfl plain.1

/-- From one consolidation to the next, the stack is filled again. -/
theorem refills (h : Turns svc s
      (before ++ Kind.consolidate :: (kinds ++ Kind.consolidate :: after)) s')
    (plain : Kind.degrade ∉ kinds) (kept : Kind.consolidate ∉ kinds) :
    svc.config.maxSummaryLayers - 1 ≤ kinds.count .append := by
  obtain ⟨_, -, h⟩ := h.append
  obtain ⟨s₁, s₂, -, ⟨-, layer, one⟩, h⟩ := h.cons
  obtain ⟨s₃, between, h⟩ := h.append
  obtain ⟨s₄, s₅, same, ⟨full, -⟩, -⟩ := h.cons
  obtain ⟨-, length_⟩ := between.grows plain kept
  rw [same, length_, one, List.length_singleton] at full
  omega

end Turns

end AgentStudio.Compaction
