import AgentStudio.Compaction.Scene

/-!
# What `compact` does to its thread

Part by part: the snapshot is a prefix of the thread, a swap moves the
position to the end of the head, and a truncation to where the newest turns of
the snapshot begin. Others append meanwhile.
-/

namespace AgentStudio.Compaction

open Async Threads

variable {svc : Service} {opens : Nat → List MessageRow → Bool → Prop} {fails : Prop}
  {tenantId threadId : Uuid} {requestId : Option String} {α β : Type}

/-- What an action of the service does on a thread that grows. -/
abbrev Does (svc : Service) (opens : Nat → List MessageRow → Bool → Prop) (fails : Prop)
    (action : Action α) (Q : Except Raised α → Scene → Prop) (s : Scene) : Prop :=
  action.Safe (Answer opens fails) Grown (Swap svc opens) () (fun r _ s' => Q r s') s

/-- An error comes of a call that raised. -/
def OrFails (fails : Prop) (Q : α → Scene → Prop) (r : Except Raised α) (s : Scene) : Prop :=
  match r with
  | .error _ => fails
  | .ok a => Q a s

/-! ## Calls -/

theorem answer_error {op : Op} {s s' : Scene} {e : Raised}
    (h : Answer opens fails op s (.error e) s') : fails := by
  cases op with
  | setSummary args turns =>
    rcases h with ⟨-, failed⟩ | ⟨-, ok | failed⟩
    · exact failed.1
    · cases ok
    · exact failed.1
  | isTripped snapshot =>
    rcases h.2 with ⟨tripped, ok, -⟩ | failed
    · cases ok
    · exact failed.1
  | summarize turns =>
    rcases h.2 with ⟨payload, ok, -⟩ | ⟨ok, -⟩ | failed
    · cases ok
    · cases ok
    · exact failed.1
  | listMessages | getThread | qualityCheck | recordFailure | recordSuccess =>
    rcases h.2 with ok | failed
    · cases ok
    · exact failed.1

def Op.writes : Op → Bool
  | .setSummary .. => true
  | _ => false

theorem answer_reads {op : Op} {s s' : Scene} {r : Except Raised op.Answer}
    (h : Answer opens fails op s r s') (reads : op.writes = false) : s' = s := by
  cases op with
  | setSummary => cases reads
  | listMessages | isTripped | getThread | summarize | qualityCheck | recordFailure
  | recordSuccess => exact h.1

/-- A call that only reads, and what follows it. -/
theorem does_read {op : Op} {k : op.Answer → Action β} {Q : β → Scene → Prop} {s : Scene}
    (reads : op.writes = false)
    (next : ∀ a s₁, Grown s s₁ → Answer opens fails op s₁ (.ok a) s₁ →
      Does svc opens fails (k a) (OrFails fails Q) s₁) :
    Does svc opens fails ((Coro.call (I := Calls) op : Action op.Answer) >>= k)
      (OrFails fails Q) s := by
  apply Coro.safe_call_bind (I := Calls)
  intro s₁ grown r s₂ answer
  obtain rfl := answer_reads answer reads
  refine ⟨.quiet s₂, ?_, ?_⟩
  · rintro a rfl
    exact next a s₂ grown answer
  · rintro e rfl
    exact answer_error answer

/-! ## The snapshot -/

/-- What `_snapshot` read of a thread: it is all there was at first, unless it is the cap. -/
structure Read (svc : Service) (before snapshot after : List MessageRow) : Prop where
  read : snapshot <+: after
  bound : snapshot.length ≤ svc.cap
  whole : before.length ≤ snapshot.length ∨ snapshot.length = svc.cap

theorem page_of_prefix {log messages : List MessageRow}
    (numbered : Log.Numbered MessageRow.seq log) (read : messages <+: log) :
    messages ++ (Log.page MessageRow.seq messages.length 200 log).rows =
      log.take (messages.length + 200) := by
  rw [numbered.page_eq, List.take_add]
  congr 1
  exact List.prefix_iff_eq_take.mp read

theorem getLast?_seq {log messages : List MessageRow} (numbered : Log.Numbered MessageRow.seq log)
    (read : messages <+: log) {last : MessageRow} (here : messages.getLast? = some last) :
    last.seq = messages.length := by
  obtain ⟨rest, rfl⟩ := read
  rw [List.getLast?_eq_getElem?] at here
  have bound := (List.getElem?_eq_some_iff.mp here).1
  have := numbered.left.getElem here
  omega

theorem snapshotFrom_does (rounds n : Nat) (messages : List MessageRow) {s₀ s : Scene}
    (grown : Grown s₀ s) (numbered : Log.Numbered MessageRow.seq s.log) (read : messages <+: s.log)
    (pages : messages.length = 200 * n) (below : messages.length ≤ svc.cap)
    (enough : svc.config.maxSnapshotMessages ≤ 200 * n + 200 * rounds) :
    Does svc opens fails (snapshotFrom svc rounds messages messages.length)
      (OrFails fails fun snapshot s' => Grown s₀ s' ∧ Read svc s₀.log snapshot s'.log) s := by
  induction rounds generalizing n messages s with
  | zero =>
    refine Coro.safe_pure messages ⟨grown, read, below, .inr ?_⟩
    unfold Service.cap at below ⊢
    omega
  | succ rounds ih =>
    simp only [snapshotFrom]
    by_cases more : messages.length < svc.config.maxSnapshotMessages
    · rw [if_pos more]
      apply does_read rfl
      intro page s₁ step answer
      have grown₁ := grown.trans step
      have numbered₁ := step.numbered numbered
      have read₁ := read.trans step.log
      obtain rfl : page = Log.page MessageRow.seq messages.length 200 s₁.log := by
        rcases answer.2 with ok | ⟨-, e, error⟩
        · exact Except.ok.inj ok
        · cases error
      have joined := page_of_prefix numbered₁ read₁
      have page_ := numbered₁.page_eq messages.length 200
      have cap : messages.length + 200 ≤ svc.cap := by
        unfold Service.cap
        omega
      have before := grown₁.log.length_le
      split
      next none_ =>
        refine Coro.safe_pure messages ⟨grown₁, read₁, below, .inl ?_⟩
        rw [List.getLast?_eq_none_iff] at none_
        rw [none_, List.append_nil] at joined
        have := congrArg List.length joined
        rw [List.length_take] at this
        omega
      next last here =>
        have prefix_ : messages ++ (Log.page MessageRow.seq messages.length 200 s₁.log).rows <+:
            s₁.log := joined ▸ List.take_prefix _ _
        have length_ := congrArg List.length joined
        rw [List.length_take] at length_
        split
        next hasMore =>
          rw [page_] at hasMore
          have more_ : messages.length + 200 < s₁.log.length := of_decide_eq_true hasMore
          have end_ := getLast?_seq numbered₁ prefix_ (by
            rw [List.getLast?_append, here, Option.some_or])
          rw [end_]
          refine ih (n + 1) _ grown₁ numbered₁ prefix_ ?_ ?_ ?_
          all_goals omega
        next hasMore =>
          rw [page_] at hasMore
          have ended : ¬messages.length + 200 < s₁.log.length := fun h => hasMore (decide_eq_true h)
          exact Coro.safe_pure _ ⟨grown₁, prefix_, by omega, .inl (by omega)⟩
    · rw [if_neg more]
      refine Coro.safe_pure messages ⟨grown, read, below, .inr ?_⟩
      unfold Service.cap at below ⊢
      omega

variable (svc opens fails) in
theorem snapshot_does {s : Scene} (valid : s.Valid) :
    Does svc opens fails (snapshot svc)
      (OrFails fails fun snapshot s' => Grown s s' ∧ Read svc s.log snapshot s'.log) s :=
  snapshotFrom_does svc.config.maxSnapshotMessages 0 [] (.refl s) valid.numbered List.nil_prefix
    rfl (Nat.zero_le _) (by omega)

/-! ## The swap -/

/-- The position a swap or a truncation leaves, on a thread that may have grown. -/
structure Moved (s : Scene) (position : Nat) (s' : Scene) : Prop where
  position : s'.position = position
  log : s.log <+: s'.log

theorem Grown.moved {s s' : Scene} (h : Grown s s') : Moved s s.position s' :=
  ⟨h.position_eq, h.log⟩

theorem Reported.grown {s s₁ s₂ s' : Scene} {result : Result} {tripped : Bool}
    (h : Reported svc s₁ result s₂ tripped) (before : Grown s s₁) (after : Grown s₂ s') :
    Reported svc s result s' tripped := by
  cases h with
  | nothing tripped idle block position =>
    exact .nothing tripped idle (after.block.trans (block.trans before.block))
      (after.position.trans (position.trans before.position))
  | layered layer block compacted newer stored layers content summary position reported same =>
    rw [before.layers_eq] at layers content
    rw [before.version, ← after.version] at newer
    exact .layered layer block compacted newer (after.block.trans stored) layers content summary
      (after.position.trans position) reported same
  | truncated position block compacted stored dropped content summary at_ reported none_ =>
    exact .truncated position block compacted (after.block.trans stored) dropped content summary
      (after.position.trans at_) reported none_

/-- The call of `set_summary`, and what follows it. -/
theorem does_commit {args : SummaryArgs} {turns : List MessageRow} {k : Nat × Nat → Action β}
    {Q : β → Scene → Prop} {s : Scene}
    (may : ∀ s₁, Grown s s₁ → Swap svc opens s₁ (s₁.commit args turns))
    (next : ∀ s₁, Grown s s₁ →
      Does svc opens fails (k (s₁.row.summaryVersion + 1, args.summaryPosition)) (OrFails fails Q)
        (s₁.commit args turns)) :
    Does svc opens fails
      ((Coro.call (I := Calls) (.setSummary args turns) : Action (Nat × Nat)) >>= k)
      (OrFails fails Q) s := by
  apply Coro.safe_call_bind (I := Calls)
  intro s₁ grown r s₂ answer
  refine ⟨?_, ?_, ?_⟩
  · rcases answer with ⟨rfl, -⟩ | ⟨rfl, -⟩
    · exact .quiet s₂
    · exact may s₁ grown
  · rintro a rfl
    rcases answer with ⟨-, -, e, error⟩ | ⟨rfl, ok | ⟨-, e, error⟩⟩
    · cases error
    · rw [Except.ok.inj ok]
      exact next s₁ grown
    · cases error
  · rintro e rfl
    exact answer_error answer

/-- What a new layer is made from and where it ends. -/
structure Covers (s : Scene) (boundary : Nat) (turns : List MessageRow) : Prop where
  advances : s.position < boundary
  within : boundary ≤ s.log.length
  made : ∀ m ∈ s.log, s.position < m.seq → m.seq ≤ boundary → m ∈ turns

theorem Covers.grown {s s' : Scene} {boundary : Nat} {turns : List MessageRow}
    (h : Covers s boundary turns) (numbered : Log.Numbered MessageRow.seq s.log)
    (grown : Grown s s') : Covers s' boundary turns where
  advances := by rw [grown.position_eq]; exact h.advances
  within := h.within.trans grown.log.length_le
  made := by
    intro m mem above upto
    rw [grown.position_eq] at above
    refine h.made m ?_ above upto
    -- what was appended since is numbered above the boundary
    obtain ⟨added, joined⟩ := grown.log
    obtain ⟨i, here⟩ := List.mem_iff_getElem?.mp mem
    have at_ := (grown.numbered numbered).getElem here
    have within := h.within
    rw [← joined, List.getElem?_append_left (by omega)] at here
    exact List.mem_of_getElem? here

theorem checkpoint_does {s : Scene} {layer : Layer} {payload : Payload} {turns : List MessageRow}
    {boundary : MessageRow} (ends : layer.position = boundary.seq)
    (rendered : layer.content = render payload)
    (numbered : Log.Numbered MessageRow.seq s.log) (covers : Covers s boundary.seq turns) :
    Does svc opens fails
      (checkpoint tenantId threadId requestId (newLayers svc s.layers layer) payload turns boundary)
      (OrFails fails fun result s' => Moved s boundary.seq s' ∧ Reported svc s result s' false) s := by
  unfold checkpoint
  apply does_commit
  · intro s₁ grown
    have covers₁ := covers.grown numbered grown
    refine .layer s₁ _ turns layer rfl ?_ ends covers₁.advances covers₁.within covers₁.made
    rw [grown.layers_eq]
  · intro s₁ grown
    exact Coro.safe_pure _ ⟨⟨rfl, grown.log⟩,
      .layered layer _ rfl (Nat.lt_succ_of_le grown.version.ge) rfl rfl rfl (congrArg some rendered.symm) (congrArg some ends.symm)
        (congrArg some ends.symm) rfl⟩

variable (svc opens fails tenantId threadId requestId) in
/-- The `try` block: the new layer goes on top of those found. -/
theorem swap_does {s : Scene} {turns : List MessageRow} {boundary : MessageRow}
    (numbered : Log.Numbered MessageRow.seq s.log) (covers : Covers s boundary.seq turns) :
    Does svc opens fails (swap svc tenantId threadId requestId s.layers turns boundary)
      (OrFails fails fun result s' => Moved s boundary.seq s' ∧ Reported svc s result s' false) s := by
  have stored (payload : Payload) {s₁ : Scene} (grown : Grown s s₁) :
      Does svc opens fails
        (checkpoint tenantId threadId requestId
          (newLayers svc s.layers ⟨boundary.seq, render payload, payload⟩) payload turns boundary)
        (OrFails fails fun result s' => Moved s boundary.seq s' ∧ Reported svc s result s' false) s₁ := by
    rw [← grown.layers_eq]
    refine (checkpoint_does rfl rfl (grown.numbered numbered) (covers.grown numbered grown)).mono ?_
    intro r _ s' done
    cases r with
    | error e => exact done
    | ok result =>
      obtain ⟨moved, reported⟩ := done
      exact ⟨⟨moved.position, grown.log.trans moved.log⟩, reported.grown grown (.refl s')⟩
  unfold swap
  apply does_read rfl
  intro answered s₁ grown answer
  rcases answer.2 with ⟨payload, ok, clean⟩ | ⟨ok, failed⟩ | ⟨-, e, error⟩
  · obtain rfl : answered = some payload := Except.ok.inj ok
    simp only
    split
    next valid =>
      split
      next check =>
        apply does_read rfl
        intro _ s₂ grown₂ _
        exact stored payload (grown.trans grown₂)
      next => exact stored payload grown
    next invalid =>
      refine Coro.safe_throw _ ?_
      rcases clean with valid | failed
      · exact absurd valid invalid
      · exact failed
  · obtain rfl : answered = none := Except.ok.inj ok
    exact Coro.safe_throw _ failed
  · cases error

/-! ## The head -/

theorem head_slice {log head : List MessageRow} (numbered : Log.Numbered MessageRow.seq log)
    (read : head <+: log) (k : Nat) : head.filter (fun m => k < m.seq) = head.drop k := by
  obtain ⟨rest, rfl⟩ := read
  exact numbered.left.filter_gt k

theorem compactHead_does {s : Scene} {head : List MessageRow} (valid : s.Valid)
    (read : head <+: s.log) :
    Does svc opens fails (compactHead svc tenantId threadId requestId head)
      (OrFails fails fun result s' => Moved s (max s.position head.length) s' ∧
        Reported svc s result s' false) s := by
  unfold compactHead
  apply does_read rfl
  intro row s₁ grown answer
  have valid₁ := grown.valid valid
  have read₁ := read.trans grown.log
  obtain rfl : row = some s₁.row := by
    rcases answer.2 with ok | ⟨-, e, error⟩
    · exact Except.ok.inj ok
    · cases error
  have layers : ((some s₁.row).map currentLayers).getD [] = s₁.layers := rfl
  simp only [layers, valid₁.linked, head_slice valid₁.numbered read₁]
  rw [← grown.position_eq]
  split
  next none_ =>
    -- nothing lies above the stored position
    rw [List.getLast?_eq_none_iff, List.drop_eq_nil_iff] at none_
    refine Coro.safe_pure _ ?_
    rw [max_eq_left none_]
    exact ⟨⟨rfl, grown.log⟩, .nothing _ rfl grown.block grown.position⟩
  next boundary here =>
    have longer : s₁.position < head.length := by
      by_contra short
      rw [List.drop_of_length_le (by omega)] at here
      cases here
    have last : head.getLast? = some boundary := by
      rw [List.getLast?_drop] at here
      split at here
      · omega
      · exact here
    have seq := getLast?_seq valid₁.numbered read₁ last
    have covers : Covers s₁ boundary.seq
        (sourceTurns svc s₁.layers head (head.drop s₁.position)) := by
      refine ⟨by omega, seq ▸ read₁.length_le, ?_⟩
      intro m mem above upto
      have inside : m ∈ head.drop s₁.position := by
        rw [← head_slice valid₁.numbered read₁, List.mem_filter, decide_eq_true_eq]
        refine ⟨?_, above⟩
        rw [List.prefix_iff_eq_take.mp read₁, ← valid₁.numbered.filter_le, List.mem_filter,
          decide_eq_true_eq]
        exact ⟨mem, by omega⟩
      unfold sourceTurns
      split
      · exact List.mem_of_mem_drop inside
      · exact inside
    rw [max_eq_right (by omega), ← seq]
    have swapped := swap_does svc opens fails tenantId threadId requestId
      valid₁.numbered covers
    refine Coro.Safe.bind (P := fun r _ s' =>
      OrFails fails (fun result s' => Moved s₁ boundary.seq s' ∧ Reported svc s₁ result s' false)
      r s')
      ?_ ?_ ?_
    · refine Coro.Safe.tryCatch swapped (fun _ _ _ => id) ?_
      -- whatever is recorded, the error goes on
      intro e _ s₂ (failed : fails)
      split
      · apply does_read rfl
        intro _ s₃ _ _
        exact Coro.safe_throw e failed
      · exact Coro.safe_throw e failed
    · intro result _ s₂ done
      obtain ⟨moved, reported⟩ := done
      apply does_read rfl
      intro _ s₃ grown₃ _
      refine Coro.safe_pure result ⟨⟨?_, ?_⟩, reported.grown grown grown₃⟩
      · rw [grown₃.position_eq, moved.position]
      · exact grown.log.trans (moved.log.trans grown₃.log)
    · intro e _ s₂ failed
      exact failed

/-! ## The truncation -/

theorem truncateFallback_does {s : Scene} {snapshot : List MessageRow} (valid : s.Valid)
    (read : snapshot <+: s.log) (opened : opens s.position snapshot true) :
    Does svc opens fails (truncateFallback svc tenantId threadId requestId snapshot)
      (OrFails fails fun result s' => Moved s
        (if snapshot.length ≤ svc.config.truncationKeepTurns then s.position
          else snapshot.length - svc.config.truncationKeepTurns) s' ∧
        Reported svc s result s' true) s := by
  unfold truncateFallback
  simp only
  split
  next short => exact Coro.safe_pure _ ⟨⟨rfl, List.prefix_refl _⟩, .nothing _ rfl rfl rfl⟩
  next long =>
    split
    next none_ =>
      rw [List.getElem?_eq_none_iff] at none_
      omega
    next boundary here =>
      obtain ⟨rest, joined⟩ := read
      have seq : boundary.seq = snapshot.length - svc.config.truncationKeepTurns := by
        have := (joined ▸ valid.numbered).left.getElem here
        omega
      apply does_commit
      · intro s₁ grown
        refine .truncate s₁ _ [] snapshot rfl rfl rfl ?_ (by omega) ?_ ?_
        · exact List.IsPrefix.trans ⟨rest, joined⟩ grown.log
        · simp only [seq]
          omega
        · rw [grown.position_eq]
          exact opened
      · intro s₁ grown
        exact Coro.safe_pure _ ⟨⟨seq, grown.log⟩,
          .truncated boundary.seq _ rfl rfl rfl rfl rfl rfl rfl rfl⟩

/-! ## The whole -/

/-- How a compaction that returned left the thread it found at `before`. -/
structure Outcome (svc : Service) (opens : Nat → List MessageRow → Bool → Prop) (before : Scene)
    (result : Result) (after : Scene) : Prop where
  log : before.log <+: after.log
  moved : ∃ snapshot, Read svc before.log snapshot after.log ∧
    (svc.boundary snapshot = 0 ∧ after.position = before.position ∧
        (∀ tripped, Reported svc before result after tripped) ∨
      opens before.position snapshot false ∧
        after.position = max before.position (svc.boundary snapshot) ∧
        Reported svc before result after false ∨
      opens before.position snapshot true ∧
        after.position = (if snapshot.length ≤ svc.config.truncationKeepTurns then before.position
          else snapshot.length - svc.config.truncationKeepTurns) ∧
        Reported svc before result after true)

theorem Read.grown {before snapshot after later : List MessageRow}
    (h : Read svc before snapshot after) (grown : after <+: later) : Read svc before snapshot later :=
  ⟨h.read.trans grown, h.bound, h.whole⟩

variable (svc opens fails tenantId threadId requestId) in
theorem compact_does {s : Scene} (valid : s.Valid) :
    Does svc opens fails (compact svc tenantId threadId requestId)
      (OrFails fails (Outcome svc opens s)) s := by
  unfold compact
  refine Coro.Safe.bind (snapshot_does svc opens fails valid) ?_ ?_
  · intro snapshot _ s₁ found
    obtain ⟨grown, read⟩ := found
    have valid₁ := grown.valid valid
    have head_ := length_head svc snapshot
    simp only
    split
    next none_ =>
      rw [none_] at head_
      exact Coro.safe_pure _ ⟨grown.log, snapshot, read, .inl ⟨head_.symm, grown.position_eq,
        fun tripped => .nothing tripped rfl grown.block grown.position⟩⟩
    next =>
      apply does_read rfl
      intro tripped s₂ grown₂ answer
      have found₂ := grown.trans grown₂
      have valid₂ := found₂.valid valid
      have read₂ := read.grown grown₂.log
      have opened : opens s.position snapshot tripped := by
        rw [← found₂.position_eq]
        rcases answer.2 with ⟨tripped', ok, opened⟩ | ⟨-, e, error⟩
        · rwa [Except.ok.inj ok]
        · cases error
      split
      next open_ =>
        obtain rfl : tripped = true := open_
        refine (truncateFallback_does valid₂ read₂.read ?_).mono ?_
        · rw [found₂.position_eq]
          exact opened
        intro r _ s' done
        cases r with
        | error e => exact done
        | ok result =>
          obtain ⟨moved, reported⟩ := done
          refine ⟨found₂.log.trans moved.log, snapshot, read₂.grown moved.log,
            .inr (.inr ⟨opened, ?_, reported.grown found₂ (.refl s')⟩)⟩
          rw [moved.position, found₂.position_eq]
      next closed =>
        obtain rfl : tripped = false := Bool.eq_false_iff.mpr closed
        refine (compactHead_does valid₂ ?_).mono ?_
        · rw [split_head]
          exact (List.take_prefix _ _).trans read₂.read
        intro r _ s' done
        cases r with
        | error e => exact done
        | ok result =>
          obtain ⟨moved, reported⟩ := done
          refine ⟨found₂.log.trans moved.log, snapshot, read₂.grown moved.log,
            .inr (.inl ⟨opened, ?_, reported.grown found₂ (.refl s')⟩)⟩
          rw [moved.position, found₂.position_eq, head_]
  · intro e _ s₁ failed
    exact failed

/-! ## Compactions that run alone -/

theorem Swap.log_eq {s s' : Scene} (h : Swap svc opens s s') : s'.log = s.log := by
  cases h with
  | quiet => rfl
  | layer => rfl
  | truncate => rfl

/-- Alone, a compaction reads the oldest messages of the thread as it stands. -/
theorem Read.alone {log snapshot : List MessageRow} (h : Read svc log snapshot log) :
    snapshot = log.take svc.cap := by
  have prefix_ := List.prefix_iff_eq_take.mp h.read
  have bound := h.read.length_le
  have cap := h.bound
  rcases h.whole with whole | full
  · rw [prefix_, List.take_of_length_le whole, List.take_of_length_le (by omega)]
  · rw [prefix_, full]

theorem alone_grown (a b : Scene) (same : a = b) : Grown a b := same ▸ .refl a

/-- How a compaction that ran alone left the thread. -/
structure Left (svc : Service) (opens : Nat → List MessageRow → Bool → Prop) (s s' : Scene) :
    Prop where
  log : s'.log = s.log
  valid : s'.Valid
  moved : (svc.boundary (s.log.take svc.cap) = 0 ∨ opens s.position (s.log.take svc.cap) false) ∧
      s'.position = max s.position (svc.boundary (s.log.take svc.cap)) ∨
    opens s.position (s.log.take svc.cap) true ∧
      s'.position =
        if (s.log.take svc.cap).length ≤ svc.config.truncationKeepTurns then s.position
        else (s.log.take svc.cap).length - svc.config.truncationKeepTurns

theorem compact_left {s s' : Scene} {result : Result} (valid : s.Valid)
    (ends : Tree.Ends (Answer opens fails) Eq
      (compact svc tenantId threadId requestId ()) s (.ok result, ()) s') : Left svc opens s s' := by
  have safe := compact_does svc opens fails tenantId threadId requestId valid
  have log : s'.log = s.log := by
    refine Tree.Safe.keeps safe alone_grown (J := fun x => x.log = s.log) ?_ ?_ ends rfl
    · rintro a b rfl same
      exact same
    · intro a b swap same
      exact swap.log_eq.trans same
  have valid' : s'.Valid := Tree.Safe.keeps safe alone_grown (fun a b same => same ▸ id)
    (fun a b swap => swap.valid) ends valid
  have outcome : Outcome svc opens s result s' := by
    have done := Tree.Safe.ends safe alone_grown ends
    exact done
  obtain ⟨snapshot, read, moved⟩ := outcome.moved
  rw [log] at read
  rw [read.alone] at moved
  refine ⟨log, valid', ?_⟩
  rcases moved with ⟨fits, position, -⟩ | ⟨opened, position, -⟩ | ⟨opened, position, -⟩
  · rw [fits, position]
    exact .inl ⟨.inl rfl, (max_eq_left (Nat.zero_le _)).symm⟩
  · exact .inl ⟨.inr opened, position⟩
  · exact .inr ⟨opened, position⟩

/-- A payload that passes `validate`. -/
def cleanPayload : Payload :=
  [("objective", .text "Book a flight"), ("key_facts", .texts []), ("decisions", .texts []),
    ("pending_work", .texts []), ("next_moves", .texts [])]

/-- Every call is answered; the breaker is found as `tripped` tells. -/
def answered (tripped : Bool) : (op : Op) → Scene → Except Raised op.Answer × Scene
  | .listMessages afterSeq limit, s => (.ok (Log.page MessageRow.seq afterSeq limit s.log), s)
  | .isTripped _, s => (.ok tripped, s)
  | .getThread, s => (.ok (some s.row), s)
  | .summarize _, s => (.ok (some cleanPayload), s)
  | .qualityCheck _ _, s => (.ok (), s)
  | .setSummary args turns, s =>
    (.ok (s.row.summaryVersion + 1, args.summaryPosition), s.commit args turns)
  | .recordFailure, s => (.ok (), s)
  | .recordSuccess, s => (.ok (), s)

theorem answered_answer {tripped : Bool}
    (may : ∀ position snapshot, opens position snapshot tripped) (op : Op) (s : Scene) :
    Answer opens fails op s (answered tripped op s).1 (answered tripped op s).2 := by
  cases op with
  | isTripped snapshot => exact ⟨rfl, .inl ⟨tripped, rfl, may _ _⟩⟩
  | summarize turns => exact ⟨rfl, .inl ⟨cleanPayload, rfl, .inl (by decide)⟩⟩
  | setSummary args turns => exact .inr ⟨rfl, .inl rfl⟩
  | listMessages | getThread | qualityCheck | recordFailure | recordSuccess => exact ⟨rfl, .inl rfl⟩

variable (svc opens tenantId threadId requestId) in
/-- Where nothing raises, a compaction runs to its end and returns. -/
theorem compact_returns {tripped : Bool}
    (may : ∀ position snapshot, opens position snapshot tripped) {s : Scene} (valid : s.Valid) :
    ∃ result s', Tree.Ends (Answer opens False) Eq
      (compact svc tenantId threadId requestId ()) s (.ok result, ()) s' := by
  have ends : Tree.Ends (Answer opens False) Eq (compact svc tenantId threadId requestId ()) s _ _ :=
    Tree.drive_ends (I := Calls) (fun _ => rfl) (answered_answer may) _ s
  generalize Tree.drive _ (compact svc tenantId threadId requestId ()) s = out at ends
  obtain ⟨⟨r, u⟩, s'⟩ := out
  have done : OrFails False (Outcome svc opens s) r s' := by
    have done := Tree.Safe.ends (compact_does svc opens False tenantId threadId requestId valid)
      alone_grown ends
    exact done
  cases r with
  | error e => exact absurd done id
  | ok result => exact ⟨result, s', ends⟩

end AgentStudio.Compaction
