import AgentStudio.Memory.Extraction

/-!
# What one extraction does

Runs of `extract_thread_memory` on one thread, one after the other, each up to where it
stopped, among messages that are appended. A run has called the extractor with what lies between
the watermark and the newest message, and stored some of what it returned, or nothing.
-/

namespace AgentStudio.Memory

open Async Threads

structure Scene where
  row : ThreadRow
  log : List MessageRow
  facts : List MemoryRow

namespace Scene

variable (s : Scene)

def watermark : Nat := maxSourceSeq s.facts s.row.tenantId s.row.id

/-- The facts of this thread. -/
def own : List MemoryRow :=
  s.facts.filter fun row => row.tenantId == s.row.tenantId && row.threadId == s.row.id

/-- The newest message may be in flight. -/
def Closed (m : MessageRow) : Prop :=
  m ∈ s.log ∧ m.seq < s.log.length ∧ m.redactedContent ≠ ""

end Scene

/-- A call that raised and left the thread as it was. -/
def Failed {α : Type} (r : Except Raised α) : Prop := ∃ e, r = .error e

/-- How the calls are answered: any of them may raise, and an insert that raised may have been
stored. -/
def Answer : Answers Calls Raised Scene
  | .getThread, s, r, s' => s' = s ∧ (r = .ok (some s.row) ∨ Failed r)
  | .maxSourceSeq, s, r, s' => s' = s ∧ (r = .ok s.watermark ∨ Failed r)
  | .listMessages afterSeq limit, s, r, s' => s' = s ∧
    (r = .ok (Log.page MessageRow.seq afterSeq limit s.log) ∨ Failed r)
  | .extract _ _, s, _, s' => s' = s
  | .add row, s, r, s' => s' = s ∧ Failed r ∨
    s' = { s with facts := s.facts ++ [row] } ∧ (r = .ok () ∨ Failed r)

/-- The same thread later. -/
structure Onward (s s' : Scene) : Prop where
  id : s'.row.id = s.row.id
  tenantId : s'.row.tenantId = s.row.tenantId
  log : s.log <+: s'.log
  numbered : Log.Numbered MessageRow.seq s.log → Log.Numbered MessageRow.seq s'.log

/-- Others append messages to this thread, and store facts of other threads. -/
structure Grown (s s' : Scene) : Prop extends Onward s s' where
  own : s'.own = s.own

/-! ## Runs -/

/-- One run of the job: the calls that were answered, and how it ended, if it did. -/
structure Record where
  before : Scene
  trace : Trace Calls Raised
  ended : Option (Except Raised Result)
  after : Scene

inductive Runs (ex : Extraction) : Scene → List Record → Scene → Prop
  | start (s : Scene) : Runs ex s [] s
  | grown {s₀ s s' : Scene} {history : List Record} (earlier : Runs ex s₀ history s)
      (grown : Grown s s') : Runs ex s₀ history s'
  | ran {s₀ s s' : Scene} {history : List Record} (earlier : Runs ex s₀ history s) (now : ℚ)
      (rounds : Nat) (trace : Trace Calls Raised) (rest : Tree Calls Raised (Except Raised Result × Unit))
      (stops : Tree.Stops Answer Grown
        (extractThreadMemory ex now s.row.tenantId s.row.id rounds ()) s trace rest s') :
      Runs ex s₀ (history ++ [⟨s, trace, rest.ended.map Prod.fst, s'⟩]) s'

/-- The turns that the extractor was called with. -/
def calls (trace : Trace Calls Raised) : List (List MessageRow) :=
  trace.filterMap fun ev =>
    match ev.op with
    | .extract _ turns => some turns
    | _ => none

/-- The turns that the extractor was called with, and what it returned. -/
def batches (trace : Trace Calls Raised) : List (List MessageRow × List String) :=
  trace.filterMap fun ev =>
    match ev with
    | ⟨.extract _ turns, .ok facts⟩ => some (turns, facts)
    | _ => none

namespace Record

variable (ex : Extraction) (r : Record)

/-- The facts that the run stored. -/
def stored : List MemoryRow := r.after.own.drop r.before.own.length

/-- The extractor returned, and what is left of every fact is stored. -/
def completes (batch : List MessageRow × List String) : Bool :=
  match ex.kept batch.2 with
  | .ok texts => texts == r.stored.map MemoryRow.content
  | .error _ => false

/-- The completed batch of the run, if it has one. -/
def completed : List (List MessageRow × List String) := (batches r.trace).filter (r.completes ex)

/-- The turns of its completed batch. -/
def turns : List MessageRow := (r.completed ex).flatMap Prod.fst

/-- The texts that are to be stored of its completed batch. -/
def texts : List String := (r.completed ex).flatMap fun batch => (ex.kept batch.2).toOption.getD []

def returned : Prop := ∃ result, r.ended = some (.ok result)

end Record

/-- How many completed batches a turn was in. -/
def timesExtracted (ex : Extraction) (history : List Record) (m : MessageRow) : Nat :=
  history.countP fun r => m ∈ r.turns ex

/-- What is asked of extraction. -/
structure Once (ex : Extraction) (history : List Record) (s : Scene) : Prop where
  /-- No turn is in two completed batches. -/
  atMost : ∀ m, timesExtracted ex history m ≤ 1
  /-- A turn that was closed when a run started that returned is in one. -/
  extracted : ∀ r ∈ history, r.returned → ∀ m, r.before.Closed m → timesExtracted ex history m = 1
  /-- What is stored of the thread are the facts of the completed batches, each once. -/
  stored : s.own.map MemoryRow.content = history.flatMap (Record.texts ex)
  /-- A run that finds no closed turn but those of completed batches does not call the
  extractor. -/
  quiet : ∀ earlier r later, history = earlier ++ r :: later →
    (∀ m, r.after.Closed m → timesExtracted ex earlier m = 1) → calls r.trace = []

/-- Something is left of what the extractor returns, and a run that stores a fact of it stores
them all. -/
structure Record.Careful (ex : Extraction) (r : Record) : Prop where
  some_ : ∀ batch ∈ batches r.trace, ex.kept batch.2 ≠ .ok []
  whole : r.stored = [] ∨ ∀ batch ∈ batches r.trace, r.completes ex batch = true

/-! ## One run -/

variable {ex : Extraction} {now : ℚ} {s₀ s s' s'' : Scene}

theorem Onward.refl (s : Scene) : Onward s s := ⟨rfl, rfl, List.prefix_refl _, fun numbered => numbered⟩

theorem Onward.trans (h : Onward s s') (h' : Onward s' s'') : Onward s s'' :=
  ⟨h'.id.trans h.id, h'.tenantId.trans h.tenantId, h.log.trans h'.log,
    fun numbered => h'.numbered (h.numbered numbered)⟩

theorem Scene.watermark_eq (s : Scene) : s.watermark = Log.top MemoryRow.sourceSeq s.own := rfl

theorem Grown.watermark (h : Grown s s') : s'.watermark = s.watermark := by
  rw [Scene.watermark_eq, h.own, Scene.watermark_eq]

/-- What an insert leaves. -/
def Scene.insert (s : Scene) (row : MemoryRow) : Scene := { s with facts := s.facts ++ [row] }

theorem Onward.insert (h : Onward s s') (row : MemoryRow) : Onward s (s'.insert row) :=
  ⟨h.id, h.tenantId, h.log, h.numbered⟩

theorem own_insert {row : MemoryRow} (tenantId : row.tenantId = s.row.tenantId)
    (threadId : row.threadId = s.row.id) : (s.insert row).own = s.own ++ [row] := by
  simp [Scene.own, Scene.insert, tenantId, threadId]

/-- The loop over the facts: what was stored comes after what was there, and is all that is
kept where the loop ends. -/
theorem storeFacts_halts (endUserId : Option String) (sourceSeq : Nat) (facts : List String)
    (stored : Nat) (tenantId : s₀.row.tenantId = s.row.tenantId)
    (threadId : s₀.row.id = s.row.id) :
    (storeFacts ex now s₀.row.tenantId s₀.row.id endUserId sourceSeq facts stored).Halts
      Answer Grown () (fun t o s' => calls t = [] ∧ batches t = [] ∧ Onward s s' ∧
        ∃ rows, s'.own = s.own ++ rows ∧ (∀ row ∈ rows, row.sourceSeq = sourceSeq) ∧
          ∀ n, o = some (.ok n, ()) → ex.kept facts = .ok (rows.map MemoryRow.content)) s := by
  induction facts generalizing stored s with
  | nil =>
    exact Coro.halts_pure stored ⟨rfl, rfl, .refl s, [], by simp, by simp, fun _ _ => rfl⟩
  | cons fact facts ih =>
    unfold storeFacts
    cases clean : ex.clean fact with
    | error e =>
      exact Coro.halts_throw e ⟨rfl, rfl, .refl s, [], by simp, by simp, by simp⟩
    | ok text =>
      have kept (more : List String) (rest : ex.kept facts = .ok more) :
          ex.kept (fact :: facts) = .ok (if text = "" then more else text :: more) := by
        simp only [Extraction.kept, clean, rest]
        rfl
      dsimp only
      by_cases blank : text = ""
      · rw [if_pos blank]
        refine (ih stored tenantId threadId).mono ?_
        rintro t o s' ⟨calls_, batches_, onward, rows, own, seq, whole⟩
        refine ⟨calls_, batches_, onward, rows, own, seq, ?_⟩
        intro n ended
        rw [kept _ (whole n ended), if_pos blank]
      · rw [if_neg blank]
        apply Coro.halts_call_bind (I := Calls)
        · exact ⟨rfl, rfl, .refl s, [], by simp, by simp, by simp⟩
        · intro s₁ grown r s₂ answer
          have onward := grown.toOnward
          rcases answer with ⟨rfl, e, rfl⟩ | ⟨rfl, answered⟩
          · refine ⟨by simp, ?_⟩
            intro e' _
            exact ⟨rfl, rfl, onward, [], by simp [grown.own], by simp, by simp⟩
          · let row := ex.row now s₀.row.tenantId s₀.row.id endUserId sourceSeq text
            have own : (s₁.insert row).own = s.own ++ [row] := by
              rw [own_insert (tenantId.trans onward.tenantId.symm)
                (threadId.trans onward.id.symm), grown.own]
            constructor
            · intro _ _
              refine (@ih (s₁.insert row) (stored + 1) (tenantId.trans onward.tenantId.symm)
                (threadId.trans onward.id.symm)).mono ?_
              rintro t o s' ⟨calls_, batches_, onward', rows, own', seq, whole⟩
              refine ⟨calls_, batches_, (onward.insert row).trans onward', row :: rows, ?_, ?_, ?_⟩
              · rw [own', own, List.append_assoc]
                rfl
              · simpa [row, Extraction.row] using seq
              · intro n ended
                rw [kept _ (whole n ended), if_neg blank]
                rfl
            · intro e _
              exact ⟨rfl, rfl, onward.insert row, [row], own, by simp [row, Extraction.row], by simp⟩

theorem Grown.refl (s : Scene) : Grown s s := ⟨.refl s, rfl⟩

theorem Grown.trans (h : Grown s s') (h' : Grown s' s'') : Grown s s'' :=
  ⟨h.toOnward.trans h'.toOnward, h'.own.trans h.own⟩

/-- The loop over the pages: it ends with all that is above the watermark, as the log stands
then. -/
theorem readTurns_halts (rounds : Nat) (turns : List MessageRow) (after low : Nat)
    (numbered : Log.Numbered MessageRow.seq s.log) (read : turns = (s.log.take after).drop low)
    (above : low ≤ after) (bound : after ≤ s.log.length) :
    (readTurns rounds turns after).Halts Answer Grown ()
      (fun t o s' => calls t = [] ∧ batches t = [] ∧ Grown s s' ∧
        ∀ read, o = some (.ok read, ()) → read = s'.log.drop low) s := by
  induction rounds generalizing turns after s with
  | zero => exact Coro.halts_throw _ ⟨rfl, rfl, .refl s, by simp⟩
  | succ rounds ih =>
    unfold readTurns
    apply Coro.halts_call_bind (I := Calls)
    · exact ⟨rfl, rfl, .refl s, by simp⟩
    · intro s₁ grown r s₂ answer
      obtain ⟨rfl, answered⟩ := answer
      refine ⟨?_, ?_⟩
      · rintro page rfl
        have numbered₁ := grown.numbered numbered
        obtain rfl : page = Log.page MessageRow.seq after 200 s₂.log := by
          rcases answered with ok | ⟨e, error⟩
          · exact Except.ok.inj ok
          · cases error
        have longer := grown.log.length_le
        -- what was read stands in the longer log
        have read₁ : turns = (s₂.log.take after).drop low := by
          obtain ⟨added, joined⟩ := grown.log
          rw [read, ← joined, List.take_append_of_le_length bound]
        have page_ := numbered₁.page_eq after 200
        have joined : turns ++ (s₂.log.drop after).take 200 =
            (s₂.log.take (after + 200)).drop low := by
          rw [read₁, List.take_add, List.drop_append_of_le_length]
          rw [List.length_take]
          omega
        split
        next more =>
          rw [page_] at more
          have more_ : after + 200 < s₂.log.length := of_decide_eq_true more
          have next_ := Log.getLast?_take_drop after 200 numbered₁ (by decide) more_
          simp only [page_, next_]
          refine (ih _ (after + 200) numbered₁ joined (by omega) (by omega)).mono ?_
          rintro t o s' ⟨calls_, batches_, grown', ended⟩
          exact ⟨calls_, batches_, grown.trans grown', ended⟩
        next more =>
          rw [page_] at more
          have last : ¬after + 200 < s₂.log.length := fun more_ => more (decide_eq_true more_)
          refine Coro.halts_pure _ ⟨rfl, rfl, grown, ?_⟩
          intro read' ended
          have is : read' = turns ++ (Log.page MessageRow.seq after 200 s₂.log).rows := by
            simpa using ended.symm
          rw [is, page_, joined, List.take_of_length_le (by omega)]
      · rintro e rfl
        exact ⟨rfl, rfl, grown, by simp⟩

/-- What the extractor is called with: of the messages of a log that stood during the run, those
above the watermark, but for the newest, that have redacted content. -/
structure Batch (s s' : Scene) (read turns : List MessageRow) : Prop where
  before : s.log <+: read
  after : read <+: s'.log
  is : turns = (read.dropLast.drop s.watermark).filter fun m => m.redactedContent != ""
  some_ : turns ≠ []

/-- What a run did by the time it stopped. -/
inductive Outcome (ex : Extraction) (s : Scene) (t : Trace Calls Raised)
    (ended : Option (Except Raised Result)) (s' : Scene) : Prop
  | quiet (calls : calls t = []) (batches : batches t = []) (own : s'.own = s.own)
      (done : ∀ result, ended = some (.ok result) → ∀ m, s.Closed m → m.seq ≤ s.watermark)
  | failed (read turns : List MessageRow) (batch : Batch s s' read turns)
      (calls : calls t = [turns]) (batches : batches t = []) (own : s'.own = s.own)
      (raised : ∀ result, ended ≠ some (.ok result))
  | answered (read turns : List MessageRow) (facts : List String) (rows : List MemoryRow)
      (batch : Batch s s' read turns) (calls : calls t = [turns])
      (batches : batches t = [(turns, facts)]) (own : s'.own = s.own ++ rows)
      (seq : ∀ row ∈ rows, row.sourceSeq = read.length - 1)
      (whole : ∀ result, ended = some (.ok result) →
        ex.kept facts = .ok (rows.map MemoryRow.content))

variable {t t' : Trace Calls Raised} {ended : Option (Except Raised Result)}

theorem calls_append (t t' : Trace Calls Raised) : calls (t ++ t') = calls t ++ calls t' := by
  rw [calls, List.filterMap_append, calls, calls]

theorem batches_append (t t' : Trace Calls Raised) :
    batches (t ++ t') = batches t ++ batches t' := by
  rw [batches, List.filterMap_append, batches, batches]

/-- What comes before the call of the extractor does not count. -/
theorem Outcome.after (calls_ : calls t = []) (batches_ : batches t = [])
    (h : Outcome ex s t' ended s') : Outcome ex s (t ++ t') ended s' := by
  have calls' : calls (t ++ t') = calls t' := by rw [calls_append, calls_, List.nil_append]
  have batches' : batches (t ++ t') = batches t' := by
    rw [batches_append, batches_, List.nil_append]
  cases h with
  | quiet calls batches own done =>
    exact .quiet (calls'.trans calls) (batches'.trans batches) own done
  | failed read turns batch calls batches own raised =>
    exact .failed read turns batch (calls'.trans calls) (batches'.trans batches) own raised
  | answered read turns facts rows batch calls batches own seq whole =>
    exact .answered read turns facts rows batch (calls'.trans calls) (batches'.trans batches) own
      seq whole

theorem dropLast_drop (log : List MessageRow) (low : Nat) :
    (log.drop low).dropLast = log.dropLast.drop low := by
  rw [List.dropLast_eq_take, List.dropLast_eq_take, List.drop_take, List.length_drop]
  congr 1
  omega

/-- What is read above `low`, but for the newest message. -/
theorem mem_unread {log : List MessageRow} (numbered : Log.Numbered MessageRow.seq log) (low : Nat)
    (m : MessageRow) : m ∈ log.dropLast.drop low ↔ m ∈ log ∧ low < m.seq ∧ m.seq < log.length := by
  rw [List.dropLast_eq_take, ← (numbered.take _).filter_gt, ← numbered.filter_le]
  simp only [List.mem_filter, decide_eq_true_eq]
  constructor
  · rintro ⟨⟨mem, upto⟩, above⟩
    exact ⟨mem, above, by omega⟩
  · rintro ⟨mem, above, below⟩
    exact ⟨⟨mem, by omega⟩, above⟩

theorem newest_seq {log : List MessageRow} (numbered : Log.Numbered MessageRow.seq log) {low : Nat}
    {newest : MessageRow} (here : (log.dropLast.drop low).getLast? = some newest) :
    newest.seq = log.length - 1 := by
  rw [List.getLast?_drop] at here
  split at here
  · cases here
  · rw [List.getLast?_eq_getElem?] at here
    have bound := (List.getElem?_eq_some_iff.mp here).1
    rw [List.dropLast_eq_take] at here bound
    have seq := (numbered.take _).getElem here
    rw [List.length_take] at seq bound
    omega

/-- The messages were read where the log stood at `s'`. -/
theorem extractTurns_halts (endUserId : Option String)
    (numbered : Log.Numbered MessageRow.seq s.log) (grown : Grown s s') :
    (extractTurns ex now s.row.tenantId s.row.id endUserId s.watermark
      (s'.log.drop s.watermark)).Halts Answer Grown ()
      (fun t o s'' => Outcome ex s t (o.map Prod.fst) s'' ∧ Onward s s'') s' := by
  have numbered' := grown.numbered numbered
  have longer := grown.log.length_le
  unfold extractTurns
  split
  next none_ =>
    -- at most one message lies above the watermark
    refine Coro.halts_pure _ ⟨.quiet rfl rfl grown.own ?_, grown.toOnward⟩
    rintro - - m ⟨-, closed, -⟩
    rw [List.getLast?_eq_none_iff, ← List.length_eq_zero_iff, List.length_dropLast,
      List.length_drop] at none_
    omega
  next newest here =>
    rw [dropLast_drop] at here ⊢
    have seq := newest_seq numbered' here
    dsimp only
    split
    next none_ =>
      refine Coro.halts_pure _ ⟨.quiet rfl rfl grown.own ?_, grown.toOnward⟩
      rintro - - m ⟨mem, closed, text⟩
      by_contra above
      have unread := (mem_unread numbered' s.watermark m).mpr
        ⟨grown.log.subset mem, by omega, by omega⟩
      exact List.filter_eq_nil_iff.mp none_ m unread (bne_iff_ne.mpr text)
    next some_ =>
      have batch {s₁ : Scene} (grown₁ : Onward s' s₁) : Batch s s₁ s'.log
          ((s'.log.dropLast.drop s.watermark).filter fun m => m.redactedContent != "") :=
        ⟨grown.log, grown₁.log, rfl, some_⟩
      apply Coro.halts_call_bind (I := Calls)
      · refine ⟨.quiet rfl rfl grown.own ?_, grown.toOnward⟩
        simp
      · intro s₁ grown₁ r s₂ answer
        obtain rfl : s₂ = s₁ := answer
        have onward := grown.toOnward.trans grown₁.toOnward
        constructor
        · rintro facts rfl
          refine Coro.Halts.bind (storeFacts_halts endUserId newest.seq facts 0
            onward.tenantId.symm onward.id.symm) ?_ ?_ ?_
          · rintro t s₃ ⟨calls_, batches_, onward₃, rows, own, seq_, -⟩
            refine ⟨.answered _ _ facts rows (batch (grown₁.toOnward.trans onward₃))
              (congrArg _ calls_) (congrArg _ batches_) ?_ ?_ (by simp), onward.trans onward₃⟩
            · rw [own, grown₁.own, grown.own]
            · rwa [← seq]
          · rintro t n ⟨⟩ s₃ ⟨calls_, batches_, onward₃, rows, own, seq_, whole⟩
            refine Coro.halts_pure _ ⟨.answered _ _ facts rows (batch (grown₁.toOnward.trans onward₃))
              ?_ ?_ ?_ ?_ ?_, onward.trans onward₃⟩
            · rw [List.append_nil]
              exact congrArg _ calls_
            · rw [List.append_nil]
              exact congrArg _ batches_
            · rw [own, grown₁.own, grown.own]
            · rwa [← seq]
            · intro _ _
              exact whole n rfl
          · rintro t e - s₃ ⟨calls_, batches_, onward₃, rows, own, seq_, -⟩
            refine ⟨.answered _ _ facts rows (batch (grown₁.toOnward.trans onward₃))
              (congrArg _ calls_) (congrArg _ batches_) ?_ ?_ (by simp), onward.trans onward₃⟩
            · rw [own, grown₁.own, grown.own]
            · rwa [← seq]
        · rintro e rfl
          refine ⟨.failed _ _ (batch grown₁.toOnward) rfl rfl (grown₁.own.trans grown.own) ?_,
            onward⟩
          simp

/-- Wherever a run stops, it has done nothing yet, or it has called the extractor and stored
some of what it returned. -/
theorem extract_halts (rounds : Nat) (numbered : Log.Numbered MessageRow.seq s.log)
    (within : s.watermark ≤ s.log.length) :
    (extractThreadMemory ex now s.row.tenantId s.row.id rounds).Halts Answer Grown ()
      (fun t o s' => Outcome ex s t (o.map Prod.fst) s' ∧ Onward s s') s := by
  unfold extractThreadMemory
  apply Coro.halts_call_bind (I := Calls)
  · exact ⟨.quiet rfl rfl rfl (by simp), .refl s⟩
  · intro s₁ grown₁ r s₂ answer
    obtain ⟨rfl, answered⟩ := answer
    constructor
    · rintro row rfl
      obtain rfl : row = some s₂.row := by
        rcases answered with ok | ⟨e, error⟩
        · exact Except.ok.inj ok
        · cases error
      dsimp only
      apply Coro.halts_call_bind (I := Calls)
      · exact ⟨.quiet rfl rfl grown₁.own (by simp), grown₁.toOnward⟩
      · intro s₃ grown₃ r s₄ answer
        obtain ⟨rfl, answered⟩ := answer
        have grown := grown₁.trans grown₃
        constructor
        · rintro watermark rfl
          obtain rfl : watermark = s₄.watermark := by
            rcases answered with ok | ⟨e, error⟩
            · exact Except.ok.inj ok
            · cases error
          rw [grown.watermark]
          have longer := grown.log.length_le
          refine Coro.Halts.bind (readTurns_halts rounds [] s.watermark s.watermark
            (grown.numbered numbered) (by simp) (Nat.le_refl _) (by omega)) ?_ ?_ ?_
          · rintro t s₅ ⟨calls_, batches_, grown₅, -⟩
            exact ⟨.quiet calls_ batches_ (grown.trans grown₅).own (by simp),
              (grown.trans grown₅).toOnward⟩
          · rintro t read ⟨⟩ s₅ ⟨calls_, batches_, grown₅, whole⟩
            rw [whole read rfl]
            refine (extractTurns_halts _ numbered (grown.trans grown₅)).mono ?_
            rintro t' o s' ⟨outcome, onward⟩
            exact ⟨outcome.after (t := ⟨.getThread, _⟩ :: ⟨.maxSourceSeq, _⟩ :: t) calls_ batches_,
              onward⟩
          · rintro t e ⟨⟩ s₅ ⟨calls_, batches_, grown₅, -⟩
            exact ⟨.quiet calls_ batches_ (grown.trans grown₅).own (by simp),
              (grown.trans grown₅).toOnward⟩
        · rintro e rfl
          exact ⟨.quiet rfl rfl grown.own (by simp), grown.toOnward⟩
    · rintro e rfl
      exact ⟨.quiet rfl rfl grown₁.own (by simp), grown₁.toOnward⟩

end AgentStudio.Memory
