import AgentStudio.Memory.Batches

/-!
# Which turns have been extracted

A batch whose facts are all stored, one of them at least, moves the watermark to its newest
turn; no other run moves it. So the turns up to the watermark have been in one completed batch,
and those above it in none.
-/

namespace AgentStudio.Memory

open Async Threads

variable {ex : Extraction} {s s' : Scene}

/-- What a careful run amounts to: nothing that counts, or one completed batch, which moves the
watermark to its newest turn. -/
theorem Outcome.effect {r : Record} (h : Outcome ex r.before r.trace r.ended r.after)
    (careful : r.Careful ex) :
    r.completed ex = [] ∧ r.after.own = r.before.own ∧
        (r.returned → ∀ m, r.before.Closed m → m.seq ≤ r.before.watermark) ∨
      ∃ read turns facts rows, Batch r.before r.after read turns ∧
        r.completed ex = [(turns, facts)] ∧ r.after.own = r.before.own ++ rows ∧ rows ≠ [] ∧
        (∀ row ∈ rows, row.sourceSeq = read.length - 1) ∧
        ex.kept facts = .ok (rows.map MemoryRow.content) := by
  cases h with
  | quiet calls batches_ own done =>
    refine .inl ⟨by rw [Record.completed, batches_, List.filter_nil], own, ?_⟩
    rintro ⟨result, ended⟩
    exact done result ended
  | failed read turns batch calls batches_ own raised =>
    refine .inl ⟨by rw [Record.completed, batches_, List.filter_nil], own, ?_⟩
    rintro ⟨result, ended⟩
    exact absurd ended (raised result)
  | answered read turns facts rows batch calls batches_ own seq whole =>
    have here : (turns, facts) ∈ batches r.trace := by simp [batches_]
    have left := careful.some_ _ here
    have stored : r.stored = rows := by rw [Record.stored, own, List.drop_left]
    by_cases all : r.completes ex (turns, facts) = true
    · have kept : ex.kept facts = .ok (rows.map MemoryRow.content) := by
        unfold Record.completes at all
        split at all
        next texts kept => rw [kept, eq_of_beq all, stored]
        next => cases all
      refine .inr ⟨read, turns, facts, rows, batch, ?_, own, ?_, seq, kept⟩
      · rw [Record.completed, batches_, List.filter_cons_of_pos all, List.filter_nil]
      · rintro rfl
        exact left kept
    · have none_ : rows = [] := by
        rcases careful.whole with none_ | every
        · rwa [stored] at none_
        · exact absurd (every _ here) all
      subst none_
      refine .inl ⟨?_, by rw [own, List.append_nil], ?_⟩
      · rw [Record.completed, batches_, List.filter_cons_of_neg all, List.filter_nil]
      · rintro ⟨result, ended⟩
        exact absurd (whole result ended) left

/-! ## Runs one after the other -/

/-- The turns up to the watermark have been extracted, and no others. -/
structure Kept (ex : Extraction) (history : List Record) (s : Scene) : Prop where
  numbered : Log.Numbered MessageRow.seq s.log
  within : s.watermark ≤ s.log.length
  atMost : ∀ m, timesExtracted ex history m ≤ 1
  upto : ∀ m ∈ s.log, m.seq ≤ s.watermark → m.redactedContent ≠ "" →
    timesExtracted ex history m = 1
  above : ∀ m, (m ∈ s.log → s.watermark < m.seq) → timesExtracted ex history m = 0
  returned : ∀ r ∈ history, r.returned → ∀ m, r.before.Closed m → m ∈ s.log ∧ m.seq ≤ s.watermark
  stored : s.own.map MemoryRow.content = history.flatMap (Record.texts ex)
  quiet : ∀ earlier r later, history = earlier ++ r :: later →
    (∀ m, r.after.Closed m → timesExtracted ex earlier m = 1) → calls r.trace = []

variable {history : List Record}

theorem Kept.once (kept : Kept ex history s) : Once ex history s where
  atMost := kept.atMost
  extracted := by
    intro r mem returned m closed
    obtain ⟨here, upto⟩ := kept.returned r mem returned m closed
    exact kept.upto m here upto closed.2.2
  stored := kept.stored
  quiet := kept.quiet

/-- A message of the log later that is numbered within the log was there. -/
theorem Onward.mem (h : Onward s s') (numbered : Log.Numbered MessageRow.seq s.log)
    {m : MessageRow} (mem : m ∈ s'.log) (within : m.seq ≤ s.log.length) : m ∈ s.log := by
  obtain ⟨added, joined⟩ := h.log
  have numbered' := h.numbered numbered
  rw [List.prefix_iff_eq_take.mp h.log, ← numbered'.filter_le, List.mem_filter, decide_eq_true_eq]
  exact ⟨mem, within⟩

theorem Kept.onward (kept : Kept ex history s) (onward : Onward s s') (own : s'.own = s.own) :
    Kept ex history s' := by
  have watermark : s'.watermark = s.watermark := by
    rw [Scene.watermark_eq, own, Scene.watermark_eq]
  have within := kept.within
  have longer := onward.log.length_le
  refine ⟨onward.numbered kept.numbered, by omega, kept.atMost, ?_, ?_, ?_, ?_, kept.quiet⟩
  · intro m mem upto text
    rw [watermark] at upto
    exact kept.upto m (onward.mem kept.numbered mem (by omega)) upto text
  · intro m high
    rw [watermark] at high
    exact kept.above m fun mem => high (onward.log.subset mem)
  · intro r mem returned m closed
    obtain ⟨here, upto⟩ := kept.returned r mem returned m closed
    exact ⟨onward.log.subset here, by omega⟩
  · rw [own, kept.stored]

theorem Batch.mem {read turns : List MessageRow} (batch : Batch s s' read turns)
    (numbered : Log.Numbered MessageRow.seq s'.log) (m : MessageRow) : m ∈ turns ↔
      m ∈ s'.log ∧ s.watermark < m.seq ∧ m.seq < read.length ∧ m.redactedContent ≠ "" := by
  have read_ := List.prefix_iff_eq_take.mp batch.after
  have numbered' : Log.Numbered MessageRow.seq read := read_ ▸ numbered.take _
  rw [batch.is, List.mem_filter, mem_unread numbered', bne_iff_ne]
  constructor
  · rintro ⟨⟨mem, above, below⟩, text⟩
    exact ⟨batch.after.subset mem, above, below, text⟩
  · rintro ⟨mem, above, below, text⟩
    refine ⟨⟨?_, above, below⟩, text⟩
    rw [read_, ← numbered.filter_le, List.mem_filter, decide_eq_true_eq]
    exact ⟨mem, Nat.le_of_lt below⟩

theorem timesExtracted_snoc (ex : Extraction) (history : List Record) (r : Record)
    (m : MessageRow) : timesExtracted ex (history ++ [r]) m =
      timesExtracted ex history m + if m ∈ r.turns ex then 1 else 0 := by
  simp [timesExtracted, List.countP_append, List.countP_cons]

/-- The extractor is called only with a turn that was in no completed batch. -/
theorem Kept.calls {r : Record} (kept : Kept ex history r.before)
    (h : Outcome ex r.before r.trace r.ended r.after) (onward : Onward r.before r.after)
    (none_ : ∀ m, r.after.Closed m → timesExtracted ex history m = 1) : calls r.trace = [] := by
  have fresh {read turns : List MessageRow} (batch : Batch r.before r.after read turns) : False := by
    obtain ⟨m, mem⟩ := List.exists_mem_of_ne_nil _ batch.some_
    obtain ⟨here, above, below, text⟩ := (batch.mem (onward.numbered kept.numbered) m).mp mem
    have closed : r.after.Closed m := ⟨here, by have := batch.after.length_le; omega, text⟩
    have zero := kept.above m fun _ => above
    rw [none_ m closed] at zero
    cases zero
  cases h with
  | quiet calls => exact calls
  | failed read turns batch => exact (fresh batch).elim
  | answered read turns facts rows batch => exact (fresh batch).elim

theorem top_rows {rows : List MemoryRow} {k : Nat} (some_ : rows ≠ [])
    (seq : ∀ row ∈ rows, row.sourceSeq = k) : Log.top MemoryRow.sourceSeq rows = k := by
  induction rows with
  | nil => exact absurd rfl some_
  | cons row rows ih =>
    have first := seq row List.mem_cons_self
    have top : Log.top MemoryRow.sourceSeq (row :: rows) =
        max row.sourceSeq (Log.top MemoryRow.sourceSeq rows) := rfl
    rw [top, first]
    rcases eq_or_ne rows [] with rfl | more
    · exact Nat.max_zero k
    · rw [ih more fun row mem => seq row (List.mem_cons_of_mem _ mem), Nat.max_self]

theorem Kept.ran {r : Record} (kept : Kept ex history r.before)
    (h : Outcome ex r.before r.trace r.ended r.after) (onward : Onward r.before r.after)
    (careful : r.Careful ex) : Kept ex (history ++ [r]) r.after := by
  have quiet : ∀ earlier r' later, history ++ [r] = earlier ++ r' :: later →
      (∀ m, r'.after.Closed m → timesExtracted ex earlier m = 1) → Memory.calls r'.trace = [] := by
    intro earlier r' later is none_
    rcases List.eq_nil_or_concat later with rfl | ⟨more, last, rfl⟩
    · obtain ⟨rfl, same⟩ := List.append_inj' is rfl
      obtain rfl := (List.cons.inj same).1
      exact kept.calls h onward none_
    · have is' : history = earlier ++ r' :: more := by
        have same : history ++ [r] = (earlier ++ r' :: more) ++ [last] := by simpa using is
        exact (List.append_inj' same rfl).1
      exact kept.quiet earlier r' more is' none_
  rcases h.effect careful with ⟨none_, own, done⟩ |
    ⟨read, turns, facts, rows, batch, one, own, some_, seq, texts⟩
  · have kept' := kept.onward onward own
    have turns : r.turns ex = [] := by rw [Record.turns, none_, List.flatMap_nil]
    have times (m : MessageRow) :
        timesExtracted ex (history ++ [r]) m = timesExtracted ex history m := by
      rw [timesExtracted_snoc, turns]
      simp
    refine ⟨kept'.numbered, kept'.within, ?_, ?_, ?_, ?_, ?_, quiet⟩
    · intro m
      rw [times]
      exact kept'.atMost m
    · intro m
      rw [times]
      exact kept'.upto m
    · intro m
      rw [times]
      exact kept'.above m
    · intro r' mem returned m closed
      rcases List.mem_append.mp mem with old | new
      · exact kept'.returned r' old returned m closed
      · obtain rfl := List.mem_singleton.mp new
        refine ⟨onward.log.subset closed.1, ?_⟩
        rw [Scene.watermark_eq, own, ← Scene.watermark_eq]
        exact done returned m closed
    · rw [List.flatMap_append, ← kept'.stored]
      simp [Record.texts, none_]
  · have numbered := onward.numbered kept.numbered
    have mem_turns := batch.mem numbered
    have longer := batch.after.length_le
    have first := batch.before.length_le
    -- a turn of the batch lies between the two watermarks
    obtain ⟨between, inside⟩ := List.exists_mem_of_ne_nil _ batch.some_
    obtain ⟨-, low, high, -⟩ := (mem_turns between).mp inside
    have watermark : r.after.watermark = read.length - 1 := by
      rw [Scene.watermark_eq, own, Log.top_append, ← Scene.watermark_eq, top_rows some_ seq]
      omega
    have times (m : MessageRow) : timesExtracted ex (history ++ [r]) m =
        timesExtracted ex history m + if m ∈ turns then 1 else 0 := by
      rw [timesExtracted_snoc]
      simp [Record.turns, one]
    have new {m : MessageRow} (above : r.before.watermark < m.seq) :
        timesExtracted ex history m = 0 := kept.above m fun _ => above
    refine ⟨numbered, by omega, ?_, ?_, ?_, ?_, ?_, quiet⟩
    · intro m
      rw [times]
      by_cases mem : m ∈ turns
      · rw [new ((mem_turns m).mp mem).2.1, if_pos mem]
      · rw [if_neg mem]
        exact kept.atMost m
    · intro m mem upto text
      rw [watermark] at upto
      rw [times]
      by_cases old : m.seq ≤ r.before.watermark
      · have within := kept.within
        have out : m ∉ turns := fun inside => by
          have := ((mem_turns m).mp inside).2.1
          omega
        rw [kept.upto m (onward.mem kept.numbered mem (by omega)) old text, if_neg out]
      · rw [new (by omega), if_pos ((mem_turns m).mpr ⟨mem, by omega, by omega, text⟩)]
    · intro m high_
      rw [watermark] at high_
      have out : m ∉ turns := fun inside => by
        obtain ⟨here, -, below, -⟩ := (mem_turns m).mp inside
        have := high_ here
        omega
      rw [times, if_neg out, kept.above m]
      intro mem
      have := high_ (onward.log.subset mem)
      omega
    · intro r' mem returned m closed
      rcases List.mem_append.mp mem with old | new_
      · obtain ⟨here, upto⟩ := kept.returned r' old returned m closed
        exact ⟨onward.log.subset here, by omega⟩
      · obtain rfl := List.mem_singleton.mp new_
        have := closed.2.1
        exact ⟨onward.log.subset closed.1, by omega⟩
    · rw [own, List.map_append, kept.stored, List.flatMap_append]
      simp [Record.texts, one, texts, Except.toOption]

/-- Every run of careful runs keeps it, from a thread that nothing was extracted from. -/
theorem runs_kept {s₀ s : Scene} {history : List Record}
    (numbered : Log.Numbered MessageRow.seq s₀.log) (fresh : s₀.own = [])
    (runs : Runs ex s₀ history s) (careful : ∀ r ∈ history, r.Careful ex) : Kept ex history s := by
  induction runs with
  | start =>
    have watermark : s₀.watermark = 0 := by
      rw [Scene.watermark_eq, fresh]
      rfl
    refine ⟨numbered, by omega, fun _ => Nat.zero_le _, ?_, fun _ _ => rfl, ?_, ?_, ?_⟩
    · intro m mem upto
      have := (numbered.num_le mem).1
      omega
    · simp
    · simp [fresh]
    · simp
  | grown earlier grown ih =>
    exact (ih careful).onward grown.toOnward grown.own
  | ran earlier now rounds trace rest stops ih =>
    have kept := ih fun r mem => careful r (List.mem_append_left _ mem)
    obtain ⟨outcome, onward⟩ :=
      Tree.Halts.stops (extract_halts rounds kept.numbered kept.within) stops
    exact kept.ran (r := ⟨_, trace, rest.ended.map Prod.fst, _⟩) outcome onward
      (careful _ (by simp))

/-- In every run in which something is left of what the extractor returns, and no run stops
between the first fact that it stores and the last, each turn that was closed when a run began
that returned is in exactly one completed batch, every fact of a completed batch is stored once,
and the extractor is not called for turns that it has had. -/
theorem extracted_once {s₀ s : Scene} {history : List Record}
    (numbered : Log.Numbered MessageRow.seq s₀.log) (fresh : s₀.own = [])
    (runs : Runs ex s₀ history s) (careful : ∀ r ∈ history, r.Careful ex) : Once ex history s :=
  (runs_kept numbered fresh runs careful).once

/-! ## A thread of three messages -/

def said (seq : Nat) : MessageRow where
  id := seq
  conversationId := 0
  tenantId := 0
  threadId := 1
  seq := seq
  role := "user"
  content := "a"
  redactedContent := "a"

def threeSaid : Scene :=
  ⟨{ id := 1, tenantId := 0, conversationId := 0 }, [said 1, said 2, said 3], []⟩

/-- The extractor returns `facts`; the inserts of what is `lost` raise. -/
def respond (facts : List String) (lost : List String) :
    (op : Op) → Scene → Except Raised op.Answer × Scene
  | .getThread, s => (.ok (some s.row), s)
  | .maxSourceSeq, s => (.ok s.watermark, s)
  | .listMessages afterSeq limit, s => (.ok (Log.page MessageRow.seq afterSeq limit s.log), s)
  | .extract _ _, s => (.ok facts, s)
  | .add row, s =>
    if row.content ∈ lost then (.error (.exception "connection lost"), s)
    else (.ok (), s.insert row)

theorem respond_answer (facts lost : List String) (op : Op) (s : Scene) :
    Answer op s (respond facts lost op s).1 (respond facts lost op s).2 := by
  cases op with
  | getThread | maxSourceSeq | listMessages => exact ⟨rfl, .inl rfl⟩
  | extract closed turns => rfl
  | add row =>
    by_cases gone : row.content ∈ lost
    · simp only [respond, if_pos gone]
      exact .inl ⟨rfl, _, rfl⟩
    · simp only [respond, if_neg gone]
      exact .inr ⟨rfl, .inl rfl⟩

/-- A run that is answered so. -/
def responded (facts lost : List String) (s : Scene) : Record :=
  let body := extractThreadMemory {} 0 s.row.tenantId s.row.id 1 ()
  ⟨s, body.told (respond facts lost) s, some (body.drive (respond facts lost) s).1.1,
    (body.drive (respond facts lost) s).2⟩

theorem responded_runs {s₀ s : Scene} {history : List Record} (earlier : Runs {} s₀ history s)
    (facts lost : List String) : Runs {} s₀ (history ++ [responded facts lost s])
      (responded facts lost s).after :=
  .ran earlier 0 1 _ _ (Tree.drive_stops Grown.refl (respond_answer facts lost) _ s)

theorem extracted_once_threeSaid : ∃ history s, Runs {} threeSaid history s ∧
    timesExtracted {} history (said 1) = 1 ∧ Once {} history s := by
  have runs := responded_runs (.start threeSaid) ["likes tea"] []
  have batches_ : batches (responded ["likes tea"] [] threeSaid).trace =
      [([said 1, said 2], ["likes tea"])] := by decide +kernel
  have numbered : Log.Numbered MessageRow.seq threeSaid.log := rfl
  refine ⟨_, _, runs, by decide +kernel, extracted_once numbered rfl runs ?_⟩
  intro r mem
  obtain rfl := List.mem_singleton.mp mem
  refine ⟨?_, .inr ?_⟩
  · intro batch mem
    rw [batches_, List.mem_singleton] at mem
    rw [mem]
    decide
  · intro batch mem
    rw [batches_, List.mem_singleton] at mem
    rw [mem]
    decide +kernel

/-- The second of two facts is not stored, and the run raises. -/
def cutShort : Record := responded ["likes tea", "lives abroad"] ["lives abroad"] threeSaid

def retried : Record := responded ["likes tea", "lives abroad"] [] cutShort.after

/-- The retry finds the watermark at the newest turn of the batch: it returns, and the turns are
in no completed batch. -/
theorem fact_lost_on_retry : Log.Numbered MessageRow.seq threeSaid.log ∧ threeSaid.own = [] ∧
    Runs {} threeSaid [cutShort, retried] retried.after ∧
    [cutShort, retried].map (fun r => calls r.trace) = [[[said 1, said 2]], []] ∧
    retried.after.own.map MemoryRow.content = ["likes tea"] ∧
    timesExtracted {} [cutShort, retried] (said 1) = 0 ∧
    ¬Once {} [cutShort, retried] retried.after := by
  have none_ : timesExtracted {} [cutShort, retried] (said 1) = 0 := by decide +kernel
  refine ⟨rfl, rfl, responded_runs (responded_runs (.start threeSaid) _ _) _ _, by decide +kernel,
    by decide +kernel, none_, ?_⟩
  intro once
  have returned : retried.returned := ⟨⟨0, "no_closed_turns", none, none⟩, by decide +kernel⟩
  have closed : retried.before.Closed (said 1) :=
    ⟨by decide +kernel, by decide +kernel, by decide⟩
  have one := once.extracted retried (by simp) returned (said 1) closed
  rw [none_] at one
  cases one

end AgentStudio.Memory
