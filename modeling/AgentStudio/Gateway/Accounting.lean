import AgentStudio.Gateway.Ledger

/-!
# What becomes of a generation's spend

Where nothing fails after the event is written, and no row is written over that
others have committed to since it was read, each generation is one event, and its
USD is once in a row of each of its levels. A retry, a direct write or two
transactions on one row lose this.
-/

namespace AgentStudio.Ledger

open Async
open AgentStudio.Gateway (UsageRecord)

/-! ## What is written for a generation -/

namespace Store

variable (s : Store)

def eventsOf (g : Nat) : List UsageRecord :=
  (s.events.filter fun e => e.generation = g).map SpendEvent.record

/-- What a row's value has of a generation. -/
def shareOf (g : Nat) (row : QuotaState) : List ℚ :=
  (row.shares.filter fun e => e.1 = g).map Prod.snd

/-- The USD of a generation in the rows of a scope. -/
def paid (g : Nat) (scope : Scope) : List ℚ :=
  (s.rows.filter fun row => row.key.scope = scope).flatMap (shareOf g)

/-- The job of a generation waits, or a worker has taken it. -/
def Placed (g : Nat) (usage : UsageRecord) : Prop :=
  (∃ job ∈ s.queue, job.generation = g ∧ job.payload = usage) ∨
    ∃ i job, s.hand i = some job ∧ job.generation = g ∧ job.payload = usage

def Known (g : Nat) : Prop :=
  (∃ usage, s.Placed g usage) ∨ s.eventsOf g ≠ [] ∨ ∃ scope, s.paid g scope ≠ []

/-- What is written for the job that worker `i` has taken: these events, and this in the rows
of each scope. -/
structure Holding (i : Nat) (job : Job) (events : List UsageRecord) (paid : Scope → List ℚ) :
    Prop where
  hand : s.hand i = some job
  events : s.eventsOf job.generation = events
  paid : ∀ scope, s.paid job.generation scope = paid scope

end Store

/-- The levels of a record that are not skipped. -/
def path (usage : UsageRecord) : List Scope :=
  (levels.filter fun level => ¬ skipped usage level).map (scope usage)

/-- The amount, once in each of some scopes. -/
def once (usd : ℚ) (scopes : List Scope) (scope : Scope) : List ℚ :=
  if scope ∈ scopes then [usd] else []

/-- Nothing is written. -/
def untouched : Scope → List ℚ := fun _ => []

/-- One row for each key, and its value the sum of the shares. -/
structure Tabled (s : Store) : Prop where
  ids : (s.rows.map QuotaState.id).Nodup
  drawn : ∀ row ∈ s.rows, row.id < s.nextId
  keys : (s.rows.map QuotaState.key).Nodup
  sums : ∀ row ∈ s.rows, row.spentUsd = (row.shares.map Prod.snd).sum

/-- What holds of the stores. -/
structure Sound (s : Store) : Prop where
  tabled : Tabled s
  queued : (s.queue.map Job.generation).Nodup
  apart : ∀ job ∈ s.queue, ∀ i taken, s.hand i = some taken → taken.generation ≠ job.generation
  alone : ∀ i j a b, s.hand i = some a → s.hand j = some b → a.generation = b.generation → i = j
  clean : ∀ job ∈ s.queue, s.eventsOf job.generation = [] ∧
    ∀ scope, s.paid job.generation scope = []

/-- What the others leave to task `i`. -/
structure Frame (i : Nat) (s s' : Store) : Prop where
  hand : s'.hand i = s.hand i
  events : ∀ job, s.hand i = some job → s'.eventsOf job.generation = s.eventsOf job.generation
  paid : ∀ job, s.hand i = some job → ∀ scope,
    s'.paid job.generation scope = s.paid job.generation scope
  placed : ∀ usage, s.Placed i usage → s'.Placed i usage
  unknown : ¬ s.Known i → ¬ s'.Known i

/-- Task `i` has taken no job, and nothing is known of a generation of its number. -/
structure Fresh (i : Nat) (s : Store) : Prop where
  hand : s.hand i = none
  unknown : ¬ s.Known i

abbrev Rely := Pool.Rely Sound Frame

abbrev Guar := Pool.Guar Sound Frame fun _ _ => True

/-- A generation is written once. -/
def Accounted (s : Store) (g : Nat) (usage : UsageRecord) : Prop :=
  s.eventsOf g = [usage] ∧ ∀ scope, s.paid g scope = once usage.usd (path usage) scope

/-- What a task leaves behind. -/
def Left (i : Nat) : Call → Outcome → Store → Prop
  | .complete usage, _, s => s.hand i = none ∧ s.Placed i usage
  | .work, _, s => ∀ job, s.hand i = some job → Accounted s job.generation job.payload

variable {s s' : Store} {i j : Nat} {job : Job} {usage : UsageRecord} {key : Key} {row : QuotaState}

/-! ## Frames -/

theorem Frame.refl (i : Nat) (s : Store) : Frame i s s :=
  ⟨rfl, fun _ _ => rfl, fun _ _ _ => rfl, fun _ placed => placed, fun unknown => unknown⟩

theorem Frame.trans {a b c : Store} (first : Frame i a b) (next : Frame i b c) : Frame i a c := by
  refine ⟨next.hand.trans first.hand, fun job held => ?_, fun job held scope => ?_,
    fun usage placed => next.placed usage (first.placed usage placed),
    fun unknown => next.unknown (first.unknown unknown)⟩
  · exact (next.events job (first.hand.trans held)).trans (first.events job held)
  · exact (next.paid job (first.hand.trans held) scope).trans (first.paid job held scope)

theorem Store.Holding.moved {events : List UsageRecord} {paid : Scope → List ℚ}
    (held : s.Holding i job events paid) (moved : Rely i s s') : s'.Holding i job events paid := by
  obtain ⟨-, frame⟩ := moved
  refine ⟨frame.hand.trans held.hand, ?_, fun scope => ?_⟩
  · rw [frame.events job held.hand, held.events]
  · rw [frame.paid job held.hand scope, held.paid]

theorem Fresh.moved (fresh : Fresh i s) (moved : Rely i s s') : Fresh i s' :=
  ⟨moved.2.hand.trans fresh.hand, moved.2.unknown fresh.unknown⟩

/-! ## What each step does -/

/-- A number that has a placed job is another than one that nothing is known of. -/
theorem guar_enqueued (usage : UsageRecord) (sound : Sound s) (fresh : Fresh i s) :
    Guar i s (s.enqueued i usage) ∧ (s.enqueued i usage).Placed i usage := by
  have queued (job : Job) (mem : job ∈ s.queue) : job.generation ≠ i := by
    intro its
    exact fresh.unknown (.inl ⟨job.payload, .inl ⟨job, mem, its, rfl⟩⟩)
  have held (j : Nat) (job : Job) (has : s.hand j = some job) : job.generation ≠ i := by
    intro its
    exact fresh.unknown (.inl ⟨job.payload, .inr ⟨j, job, has, its, rfl⟩⟩)
  have blank : s.eventsOf i = [] ∧ ∀ scope, s.paid i scope = [] := by
    have unknown := fresh.unknown
    unfold Store.Known at unknown
    push Not at unknown
    exact unknown.2
  have sound' : Sound (s.enqueued i usage) := by
    refine ⟨⟨sound.tabled.ids, sound.tabled.drawn, sound.tabled.keys, sound.tabled.sums⟩, ?_, ?_,
      sound.alone, ?_⟩
    · rw [Store.enqueued, List.map_append]
      refine List.Nodup.append sound.queued (List.nodup_singleton _) ?_
      intro g mem last
      obtain ⟨job, memJob, rfl⟩ := List.mem_map.mp mem
      exact queued job memJob (List.mem_singleton.mp last)
    · intro job mem j taken has
      rcases List.mem_append.mp mem with old | new
      · exact sound.apart job old j taken has
      · rw [List.mem_singleton.mp new]
        exact held j taken has
    · intro job mem
      rcases List.mem_append.mp mem with old | new
      · exact sound.clean job old
      · rw [List.mem_singleton.mp new]
        exact blank
  refine ⟨⟨sound', trivial, fun j other => ?_⟩, ?_⟩
  · refine ⟨rfl, fun _ _ => rfl, fun _ _ _ => rfl, fun record placed => ?_, fun unknown known => ?_⟩
    · rcases placed with ⟨job, mem, its⟩ | hand
      · exact .inl ⟨job, List.mem_append_left _ mem, its⟩
      · exact .inr hand
    · apply unknown
      rcases known with ⟨record, ⟨job, mem, its⟩ | hand⟩ | written
      · rcases List.mem_append.mp mem with old | new
        · exact .inl ⟨record, .inl ⟨job, old, its⟩⟩
        · rw [List.mem_singleton.mp new] at its
          exact absurd its.1.symm other
      · exact .inl ⟨record, .inr hand⟩
      · exact .inr written
  · exact .inl ⟨_, List.mem_append_right _ List.mem_cons_self, rfl, rfl⟩

theorem guar_taken {pre post : List Job} (sound : Sound s) (free : s.hand i = none)
    (queue : s.queue = pre ++ job :: post) :
    Guar i s (s.taken i job (pre ++ post)) ∧
      (s.taken i job (pre ++ post)).Holding i job [] untouched := by
  have mem : job ∈ s.queue := by simp [queue]
  have left : ∀ other ∈ pre ++ post, other ∈ s.queue ∧ other.generation ≠ job.generation := by
    have nodup := sound.queued
    rw [queue, List.map_append, List.map_cons, List.nodup_middle, List.nodup_cons,
      ← List.map_append] at nodup
    intro other memOther
    refine ⟨?_, fun same => nodup.1 (List.mem_map.mpr ⟨other, memOther, same⟩)⟩
    rw [queue]
    rcases List.mem_append.mp memOther with before | after
    · exact List.mem_append_left _ before
    · exact List.mem_append_right _ (List.mem_cons_of_mem _ after)
  have hand (j : Nat) (other : j ≠ i) : (s.taken i job (pre ++ post)).hand j = s.hand j :=
    Function.update_of_ne other _ _
  have own : (s.taken i job (pre ++ post)).hand i = some job := Function.update_self _ _ _
  have sound' : Sound (s.taken i job (pre ++ post)) := by
    refine ⟨⟨sound.tabled.ids, sound.tabled.drawn, sound.tabled.keys, sound.tabled.sums⟩, ?_, ?_,
      ?_, ?_⟩
    · refine sound.queued.sublist (List.Sublist.map _ ?_)
      rw [queue]
      exact (List.Sublist.refl pre).append (List.sublist_cons_self job post)
    · intro other memOther j taken has
      by_cases its : j = i
      · rw [its, own] at has
        rw [← Option.some.inj has]
        exact ((left other memOther).2).symm
      · rw [hand j its] at has
        exact sound.apart other (left other memOther).1 j taken has
    · intro j k a b hasA hasB same
      by_cases itsJ : j = i <;> by_cases itsK : k = i
      · rw [itsJ, itsK]
      · rw [itsJ, own] at hasA
        rw [hand k itsK] at hasB
        rw [← Option.some.inj hasA] at same
        exact absurd same.symm (sound.apart job mem k b hasB)
      · rw [itsK, own] at hasB
        rw [hand j itsJ] at hasA
        rw [← Option.some.inj hasB] at same
        exact absurd same (sound.apart job mem j a hasA)
      · rw [hand j itsJ] at hasA
        rw [hand k itsK] at hasB
        exact sound.alone j k a b hasA hasB same
    · intro other memOther
      exact sound.clean other (left other memOther).1
  have placed (g : Nat) (record : UsageRecord) :
      (s.taken i job (pre ++ post)).Placed g record ↔ s.Placed g record := by
    constructor
    · rintro (⟨other, memOther, its⟩ | ⟨k, other, has, its⟩)
      · exact .inl ⟨other, (left other memOther).1, its⟩
      · by_cases here : k = i
        · rw [here, own] at has
          rw [← Option.some.inj has] at its
          exact .inl ⟨job, mem, its⟩
        · rw [hand k here] at has
          exact .inr ⟨k, other, has, its⟩
    · rintro (⟨other, memOther, its⟩ | ⟨k, other, has, its⟩)
      · rw [queue] at memOther
        rcases List.mem_append.mp memOther with before | after
        · exact .inl ⟨other, List.mem_append_left _ before, its⟩
        · rcases List.mem_cons.mp after with rfl | after
          · exact .inr ⟨i, other, own, its⟩
          · exact .inl ⟨other, List.mem_append_right _ after, its⟩
      · have here : k ≠ i := by
          rintro rfl
          rw [free] at has
          cases has
        exact .inr ⟨k, other, (hand k here).trans has, its⟩
  refine ⟨⟨sound', trivial, fun j other => ?_⟩, own, (sound.clean job mem).1, (sound.clean job mem).2⟩
  refine ⟨hand j other, fun _ _ => rfl, fun _ _ _ => rfl, fun record => (placed j record).mpr,
    fun unknown known => unknown ?_⟩
  rcases known with ⟨record, its⟩ | written
  · exact .inl ⟨record, (placed j record).mp its⟩
  · exact .inr written

/-- A job that is enqueued again has written nothing. -/
theorem guar_requeued (failed : Job) (sound : Sound s) (held : s.Holding i job [] untouched)
    (same : failed.generation = job.generation) (payload : failed.payload = job.payload) :
    Guar i s (s.requeued i failed) ∧ (s.requeued i failed).hand i = none := by
  have hand (j : Nat) (other : j ≠ i) : (s.requeued i failed).hand j = s.hand j :=
    Function.update_of_ne other _ _
  have own : (s.requeued i failed).hand i = none := Function.update_self _ _ _
  have still (j : Nat) (taken : Job) (has : (s.requeued i failed).hand j = some taken) :
      j ≠ i ∧ s.hand j = some taken := by
    have other : j ≠ i := by
      rintro rfl
      rw [own] at has
      cases has
    exact ⟨other, (hand j other).symm.trans has⟩
  have sound' : Sound (s.requeued i failed) := by
    refine ⟨⟨sound.tabled.ids, sound.tabled.drawn, sound.tabled.keys, sound.tabled.sums⟩, ?_, ?_,
      ?_, ?_⟩
    · rw [Store.requeued, List.map_append]
      refine List.Nodup.append sound.queued (List.nodup_singleton _) ?_
      intro g mem last
      obtain ⟨other, memOther, rfl⟩ := List.mem_map.mp mem
      have is : other.generation = failed.generation := List.mem_singleton.mp last
      exact sound.apart other memOther i job held.hand (same.symm.trans is.symm)
    · intro other mem j taken has
      obtain ⟨differs, before⟩ := still j taken has
      rcases List.mem_append.mp mem with old | new
      · exact sound.apart other old j taken before
      · rw [List.mem_singleton.mp new, same]
        intro is
        exact differs (sound.alone j i taken job before held.hand is)
    · intro j k a b hasA hasB is
      exact sound.alone j k a b (still j a hasA).2 (still k b hasB).2 is
    · intro other mem
      rcases List.mem_append.mp mem with old | new
      · exact sound.clean other old
      · rw [List.mem_singleton.mp new, same]
        exact ⟨held.events, held.paid⟩
  have placed (g : Nat) (record : UsageRecord) :
      (s.requeued i failed).Placed g record ↔ s.Placed g record := by
    constructor
    · rintro (⟨other, mem, its, is⟩ | ⟨k, other, has, its⟩)
      · rcases List.mem_append.mp mem with old | new
        · exact .inl ⟨other, old, its, is⟩
        · rw [List.mem_singleton.mp new] at its is
          exact .inr ⟨i, job, held.hand, same.symm.trans its, payload.symm.trans is⟩
      · exact .inr ⟨k, other, (still k other has).2, its⟩
    · rintro (⟨other, mem, its⟩ | ⟨k, other, has, its, is⟩)
      · exact .inl ⟨other, List.mem_append_left _ mem, its⟩
      · by_cases here : k = i
        · rw [here, held.hand] at has
          rw [← Option.some.inj has] at its is
          exact .inl ⟨failed, List.mem_append_right _ List.mem_cons_self, same.trans its,
            payload.trans is⟩
        · exact .inr ⟨k, other, (hand k here).trans has, its, is⟩
  refine ⟨⟨sound', trivial, fun j other => ?_⟩, own⟩
  refine ⟨hand j other, fun _ _ => rfl, fun _ _ _ => rfl, fun record => (placed j record).mpr,
    fun unknown known => unknown ?_⟩
  rcases known with ⟨record, its⟩ | written
  · exact .inl ⟨record, (placed j record).mp its⟩
  · exact .inr written

/-- What is written for one generation is nothing to the others. -/
theorem guar_written (sound : Sound s) (held : s.hand i = some job) (queue : s'.queue = s.queue)
    (hands : s'.hand = s.hand) (tabled : Tabled s')
    (events : ∀ g, g ≠ job.generation → s'.eventsOf g = s.eventsOf g)
    (paid : ∀ g, g ≠ job.generation → ∀ scope, s'.paid g scope = s.paid g scope) :
    Guar i s s' := by
  have placed (g : Nat) (record : UsageRecord) : s'.Placed g record ↔ s.Placed g record := by
    unfold Store.Placed
    rw [queue, hands]
  refine ⟨⟨tabled, queue ▸ sound.queued, ?_, hands ▸ sound.alone, ?_⟩, trivial, fun j other => ?_⟩
  · rw [queue, hands]
    exact sound.apart
  · intro waiting mem
    rw [queue] at mem
    have differs := (sound.apart waiting mem i job held).symm
    rw [events _ differs]
    refine ⟨(sound.clean waiting mem).1, fun scope => ?_⟩
    rw [paid _ differs]
    exact (sound.clean waiting mem).2 scope
  · have differs (taken : Job) (has : s.hand j = some taken) :
        taken.generation ≠ job.generation := fun same =>
      other (sound.alone j i taken job has held same)
    refine ⟨congrFun hands j, fun taken has => events _ (differs taken has),
      fun taken has => paid _ (differs taken has), fun record => (placed j record).mpr,
      fun unknown known => ?_⟩
    have its : j ≠ job.generation := by
      rintro rfl
      exact unknown (.inl ⟨job.payload, .inr ⟨i, job, held, rfl, rfl⟩⟩)
    apply unknown
    rcases known with ⟨record, is⟩ | some_ | ⟨scope, some_⟩
    · exact .inl ⟨record, (placed j record).mp is⟩
    · exact .inr (.inl (events j its ▸ some_))
    · exact .inr (.inr ⟨scope, paid j its scope ▸ some_⟩)

/-! ### Rows -/

theorem generation_work (held : s.hand i = some job) :
    s.generation i .work = job.generation := by
  simp [Store.generation, held]

theorem eventsOf_withEvent (s : Store) (g h : Nat) (usage : UsageRecord) :
    (s.withEvent g usage).eventsOf h = s.eventsOf h ++ if g = h then [usage] else [] := by
  unfold Store.eventsOf Store.withEvent
  rw [List.filter_append, List.map_append]
  by_cases same : g = h <;> simp [same]

theorem paid_inserted (s : Store) (g h : Nat) (key : Key) (usd : ℚ) (scope : Scope) :
    (s.inserted g key usd).paid h scope =
      s.paid h scope ++ if key.scope = scope ∧ g = h then [usd] else [] := by
  unfold Store.paid Store.inserted
  rw [List.filter_append, List.flatMap_append]
  by_cases at_ : key.scope = scope <;> by_cases same : g = h <;>
    simp [at_, same, Store.shareOf]

/-- The row that is written, among the others. -/
theorem updated_rows (g : Nat) (usd : ℚ) (tabled : Tabled s) (mem : row ∈ s.rows) :
    ∃ pre post, s.rows = pre ++ row :: post ∧ (s.updated g row usd).rows =
      pre ++ { row with spentUsd := row.spentUsd + usd, shares := row.shares ++ [(g, usd)] } ::
        post := by
  obtain ⟨pre, post, is⟩ := List.append_of_mem mem
  have nodup := tabled.ids
  rw [is, List.map_append, List.map_cons, List.nodup_middle, List.nodup_cons,
    ← List.map_append] at nodup
  have others (l : List QuotaState) (sub : ∀ r ∈ l, r ∈ pre ++ post) :
      (l.map fun r => if r.id = row.id then { r with
        spentUsd := row.spentUsd + usd, shares := row.shares ++ [(g, usd)] } else r) = l := by
    refine (List.map_congr_left fun r memR => ?_).trans (List.map_id l)
    refine if_neg fun same => nodup.1 (List.mem_map.mpr ⟨r, sub r memR, same⟩)
  refine ⟨pre, post, is, ?_⟩
  rw [Store.updated, is, List.map_append, List.map_cons,
    others pre fun r => List.mem_append_left _, others post fun r => List.mem_append_right _,
    if_pos rfl]

theorem paid_updated (g h : Nat) (usd : ℚ) (tabled : Tabled s) (mem : row ∈ s.rows) (scope : Scope)
    (other : row.key.scope ≠ scope ∨ g ≠ h) :
    (s.updated g row usd).paid h scope = s.paid h scope := by
  obtain ⟨pre, post, is, after⟩ := updated_rows g usd tabled mem
  unfold Store.paid
  rw [after, is]
  rcases other with elsewhere | different
  · simp [elsewhere]
  · have shares : Store.shareOf h { row with
        spentUsd := row.spentUsd + usd, shares := row.shares ++ [(g, usd)] } =
          Store.shareOf h row := by
      simp [Store.shareOf, different]
    by_cases at_ : row.key.scope = scope <;> simp [at_, shares]

theorem paid_updated_own (g : Nat) (usd : ℚ) (tabled : Tabled s) (mem : row ∈ s.rows)
    (none_ : s.paid g row.key.scope = []) :
    (s.updated g row usd).paid g row.key.scope = [usd] := by
  obtain ⟨pre, post, is, after⟩ := updated_rows g usd tabled mem
  unfold Store.paid at none_ ⊢
  rw [is] at none_
  rw [after]
  have blank : ∀ r ∈ (pre ++ row :: post).filter fun r => r.key.scope = row.key.scope,
      Store.shareOf g r = [] := List.flatMap_eq_nil_iff.mp none_
  have before : (pre.filter fun r => r.key.scope = row.key.scope).flatMap (Store.shareOf g) = [] :=
    List.flatMap_eq_nil_iff.mpr fun r memR => blank r (by
      rw [List.filter_append]
      exact List.mem_append_left _ memR)
  have behind : (post.filter fun r => r.key.scope = row.key.scope).flatMap (Store.shareOf g) = [] :=
    List.flatMap_eq_nil_iff.mpr fun r memR => blank r (by
      rw [List.filter_append, List.filter_cons_of_pos (by simp)]
      exact List.mem_append_right _ (List.mem_cons_of_mem _ memR))
  have here : Store.shareOf g row = [] := blank row (by simp)
  have shares : Store.shareOf g { row with
      spentUsd := row.spentUsd + usd, shares := row.shares ++ [(g, usd)] } = [usd] := by
    unfold Store.shareOf at here ⊢
    rw [List.filter_append, List.map_append, here]
    simp
  rw [List.filter_append, List.filter_cons_of_pos (by simp), List.flatMap_append,
    List.flatMap_cons, before, behind, shares]
  rfl

theorem tabled_inserted (g : Nat) (usd : ℚ) (tabled : Tabled s) (new : s.lookup key = []) :
    Tabled (s.inserted g key usd) := by
  have absent : ∀ r ∈ s.rows, r.key ≠ key := by
    intro r mem
    have out := List.filter_eq_nil_iff.mp new r mem
    simpa using out
  refine ⟨?_, ?_, ?_, ?_⟩
  · rw [Store.inserted, List.map_append]
    refine List.Nodup.append tabled.ids (List.nodup_singleton _) ?_
    intro id mem last
    obtain ⟨r, memR, rfl⟩ := List.mem_map.mp mem
    have is : r.id = s.nextId := List.mem_singleton.mp last
    have bound := tabled.drawn r memR
    omega
  · intro r mem
    rcases List.mem_append.mp mem with old | last
    · exact Nat.lt_succ_of_lt (tabled.drawn r old)
    · rw [List.mem_singleton.mp last]
      exact Nat.lt_succ_self _
  · rw [Store.inserted, List.map_append]
    refine List.Nodup.append tabled.keys (List.nodup_singleton _) ?_
    intro k mem last
    obtain ⟨r, memR, rfl⟩ := List.mem_map.mp mem
    exact absent r memR (List.mem_singleton.mp last)
  · intro r mem
    rcases List.mem_append.mp mem with old | last
    · exact tabled.sums r old
    · rw [List.mem_singleton.mp last]
      simp

theorem tabled_updated (g : Nat) (usd : ℚ) (tabled : Tabled s) (mem : row ∈ s.rows) :
    Tabled (s.updated g row usd) := by
  obtain ⟨pre, post, is, after⟩ := updated_rows g usd tabled mem
  have ids : (s.updated g row usd).rows.map QuotaState.id = s.rows.map QuotaState.id := by
    simp [after, is]
  have keys : (s.updated g row usd).rows.map QuotaState.key = s.rows.map QuotaState.key := by
    simp [after, is]
  refine ⟨ids ▸ tabled.ids, ?_, keys ▸ tabled.keys, ?_⟩
  · intro r memR
    have its : r.id ∈ s.rows.map QuotaState.id := ids ▸ List.mem_map_of_mem memR
    obtain ⟨old, memOld, same⟩ := List.mem_map.mp its
    rw [← same]
    exact tabled.drawn old memOld
  · intro r memR
    rw [after] at memR
    have old {r : QuotaState} (memR : r ∈ pre ++ post) : r ∈ s.rows := by
      rw [is]
      rcases List.mem_append.mp memR with before | behind
      · exact List.mem_append_left _ before
      · exact List.mem_append_right _ (List.mem_cons_of_mem _ behind)
    rcases List.mem_append.mp memR with before | behind
    · exact tabled.sums r (old (List.mem_append_left _ before))
    · rcases List.mem_cons.mp behind with rfl | behind
      · simp [tabled.sums row mem]
      · exact tabled.sums r (old (List.mem_append_right _ behind))

theorem once_snoc {usd : ℚ} {done : List Scope} {added : Scope} (scope : Scope)
    (other : added ≠ scope) : once usd (done ++ [added]) scope = once usd done scope := by
  unfold once
  simp [Ne.symm other]

variable {events : List UsageRecord} {paid : Scope → List ℚ} {done : List Scope} {usd : ℚ}

theorem wrote_event (usage : UsageRecord) (sound : Sound s) (held : s.Holding i job [] paid) :
    Guar i s (s.withEvent job.generation usage) ∧
      (s.withEvent job.generation usage).Holding i job [usage] paid := by
  constructor
  · refine guar_written sound held.hand rfl rfl ⟨sound.tabled.ids, sound.tabled.drawn,
      sound.tabled.keys, sound.tabled.sums⟩ ?_ fun _ _ _ => rfl
    intro g other
    rw [eventsOf_withEvent, if_neg (Ne.symm other), List.append_nil]
  · refine ⟨held.hand, ?_, held.paid⟩
    rw [eventsOf_withEvent, if_pos rfl, held.events]
    rfl

theorem wrote_insert (sound : Sound s) (held : s.Holding i job events (once usd done))
    (next : key.scope ∉ done) (new : s.lookup key = []) :
    Guar i s (s.inserted job.generation key usd) ∧
      (s.inserted job.generation key usd).Holding i job events
        (once usd (done ++ [key.scope])) := by
  constructor
  · refine guar_written sound held.hand rfl rfl (tabled_inserted _ usd sound.tabled new)
      (fun _ _ => rfl) ?_
    intro g other scope
    rw [paid_inserted, if_neg fun is => other is.2.symm, List.append_nil]
  · refine ⟨held.hand, held.events, fun scope => ?_⟩
    rw [paid_inserted, held.paid]
    by_cases at_ : key.scope = scope
    · subst at_
      simp [once, next]
    · rw [if_neg fun is => at_ is.1, List.append_nil, once_snoc scope at_]

theorem wrote_update (sound : Sound s) (held : s.Holding i job events (once usd done))
    (next : row.key.scope ∉ done) (mem : row ∈ s.rows) :
    Guar i s (s.updated job.generation row usd) ∧
      (s.updated job.generation row usd).Holding i job events
        (once usd (done ++ [row.key.scope])) := by
  constructor
  · refine guar_written sound held.hand rfl rfl (tabled_updated _ usd sound.tabled mem)
      (fun _ _ => rfl) ?_
    intro g other scope
    exact paid_updated _ _ usd sound.tabled mem scope (.inr (Ne.symm other))
  · refine ⟨held.hand, held.events, fun scope => ?_⟩
    by_cases at_ : row.key.scope = scope
    · subst at_
      rw [paid_updated_own _ usd sound.tabled mem (by rw [held.paid, once, if_neg next])]
      simp [once]
    · rw [paid_updated _ _ usd sound.tabled mem scope (.inl at_), held.paid,
        once_snoc scope at_]

/-! ## The worker -/

/-- A part of worker `i`'s round, where nothing is faulty. -/
abbrev SafeIn {α : Type} (i : Nat) (action : Action α) (Q : Except Raised α → Store → Prop)
    (s : Store) : Prop :=
  action.Safe (Replies False i .work) (Rely i) (Guar i) () (fun o _ => Q o) s

theorem guar_refl (sound : Sound s) : Guar i s s := ⟨sound, trivial, fun j _ => Frame.refl j s⟩

/-- A call that is answered, and what follows. -/
theorem safe_op {α : Type} (op : Op) {k : op.Answer → Action α}
    {Q : Except Raised α → Store → Prop}
    (h : ∀ s₁, Rely i s s₁ → ∀ r s₂, Replies False i .work op s₁ r s₂ → Guar i s₁ s₂ ∧
      (∀ a, r = .ok a → SafeIn i (k a) Q s₂) ∧ ∀ e, r = .error e → Q (.error e) s₂) :
    SafeIn i (Coro.call (I := Calls) op >>= k) Q s :=
  Coro.safe_call_bind (I := Calls) op h

/-- There is no second row of a key. -/
theorem lookup_cases (tabled : Tabled s) (key : Key) :
    s.lookup key = [] ∨ ∃ row, s.lookup key = [row] ∧ row ∈ s.rows ∧ row.key = key := by
  have sub : (s.lookup key).Sublist s.rows := List.filter_sublist
  have nodup := tabled.keys.sublist (sub.map QuotaState.key)
  have each (r : QuotaState) (mem : r ∈ s.lookup key) : r ∈ s.rows ∧ r.key = key := by
    simpa using List.mem_filter.mp mem
  cases found : s.lookup key with
  | nil => exact .inl rfl
  | cons row rest =>
    have first := each row (found ▸ List.mem_cons_self)
    cases rest with
    | nil => exact .inr ⟨row, rfl, first⟩
    | cons other rest =>
      have second := each other (by rw [found]; simp)
      rw [found] at nodup
      simp [first.2, second.2] at nodup

theorem recordSpend_safe (key : Key) (held : s.Holding i job events (once usd done))
    (next : key.scope ∉ done) :
    SafeIn i (recordSpend key usd) (fun o s' => o = .ok () ∧
      s'.Holding i job events (once usd (done ++ [key.scope]))) s := by
  refine safe_op (.select key) ?_
  rintro s₁ moved r s₂ ⟨rfl, read | ⟨never, -⟩⟩
  · refine ⟨guar_refl moved.1, fun rows is => ?_, fun e is => by subst is; cases read⟩
    have rows_ : rows = s₂.lookup key := Except.ok.inj (is.symm.trans read)
    have held₁ := held.moved moved
    rcases lookup_cases moved.1.tabled key with none_ | ⟨row, one, -, its⟩
    · rw [rows_, none_]
      refine Coro.safe_call (I := Calls) (.insert key usd) ?_
      rintro s₃ moved' r' s₄ (⟨rfl, ⟨new, rfl⟩ | ⟨never, -⟩⟩ | ⟨never, -⟩)
      · have held₃ := held₁.moved moved'
        rw [generation_work held₃.hand]
        obtain ⟨guar, after⟩ := wrote_insert moved'.1 held₃ next new
        exact ⟨guar, rfl, after⟩
      · exact never.elim
      · exact never.elim
    · rw [rows_, one]
      refine Coro.safe_call (I := Calls) (.update row usd) ?_
      rintro s₃ moved' r' s₄ (⟨rfl, ⟨mem, rfl⟩ | ⟨never, -⟩⟩ | ⟨never, -⟩)
      · have held₃ := held₁.moved moved'
        rw [generation_work held₃.hand]
        obtain ⟨guar, after⟩ := wrote_update moved'.1 held₃ (its ▸ next) mem
        rw [its] at after
        exact ⟨guar, rfl, after⟩
      · exact never.elim
      · exact never.elim
  · exact never.elim

theorem recordLevels_safe (window : Nat × Nat) (levels : List ScopeType)
    (held : s.Holding i job events (once usage.usd done))
    (distinct : (done ++ (levels.filter fun level => ¬ skipped usage level).map
      (scope usage)).Nodup) :
    SafeIn i (recordLevels usage window levels) (fun o s' => o = .ok () ∧
      s'.Holding i job events (once usage.usd (done ++
        (levels.filter fun level => ¬ skipped usage level).map (scope usage)))) s := by
  induction levels generalizing s done with
  | nil =>
    refine ⟨rfl, ?_⟩
    simpa using held
  | cons level levels ih =>
    rw [recordLevels]
    by_cases skip : skipped usage level = true
    · rw [if_pos skip]
      rw [List.filter_cons_of_neg (by simpa using skip)] at distinct ⊢
      exact ih held distinct
    · rw [if_neg skip]
      rw [List.filter_cons_of_pos (by simpa using skip), List.map_cons] at distinct ⊢
      have next : scope usage level ∉ done := by
        intro mem
        exact (List.nodup_append.mp distinct).2.2 _ mem _ List.mem_cons_self rfl
      refine Coro.Safe.bind (recordSpend_safe ⟨scope usage level, window⟩ held next) ?_ ?_
      · rintro - - s' ⟨-, held'⟩
        rw [List.append_cons] at distinct ⊢
        exact ih held' distinct
      · rintro e - s' ⟨is, -⟩
        cases is

theorem levels_nodup (usage : UsageRecord) : (path usage).Nodup := by
  refine List.Nodup.map_on ?_ (List.Nodup.filter _ (by decide))
  intro a _ b _ same
  exact congrArg Scope.scopeType same

/-- The handler writes everything, or raises before it has written anything. -/
theorem handleCostLedgerWrite_safe (held : s.Holding i job [] untouched) :
    SafeIn i (handleCostLedgerWrite job.payload) (fun o s' =>
      o = .ok () ∧ s'.Holding i job [job.payload] (once job.payload.usd (path job.payload)) ∨
        (∃ message, o = .error (.exception message)) ∧ s'.Holding i job [] untouched) s := by
  refine safe_op (.addEvent job.payload) ?_
  rintro s₁ moved r s₂ (⟨rfl, rfl | ⟨never, -⟩⟩ | ⟨rfl, message, rfl⟩)
  · have held₁ := held.moved moved
    rw [generation_work held₁.hand]
    obtain ⟨guar, after⟩ := wrote_event job.payload moved.1 held₁
    refine ⟨guar, fun _ _ => ?_, fun e is => by cases is⟩
    refine safe_op .now ?_
    rintro s₃ moved' r' s₄ ⟨rfl, time, rfl⟩
    refine ⟨guar_refl moved'.1, fun now _ => ?_, fun e is => by cases is⟩
    have start : s₄.Holding i job [job.payload] (once job.payload.usd []) := by
      obtain ⟨hand, events, paid⟩ := after.moved moved'
      refine ⟨hand, events, fun scope => ?_⟩
      rw [paid scope]
      rfl
    refine Coro.Safe.mono (recordLevels_safe (windowStartedAt now) levels start ?_) ?_
    · exact levels_nodup job.payload
    · rintro o - s' ⟨rfl, held'⟩
      exact .inl ⟨rfl, held'⟩
  · exact never.elim
  · refine ⟨guar_refl moved.1, fun _ is => (by cases is), fun e is => ?_⟩
    obtain rfl := Except.error.inj is
    exact .inr ⟨⟨message, rfl⟩, held.moved moved⟩

theorem retry_safe (held : s.Holding i job [] untouched) (error : String) :
    SafeIn i (retry job error) (fun _ s' => s'.hand i = none) s := by
  unfold retry
  refine iteInduction (motive := fun action => SafeIn i action (fun _ s' => s'.hand i = none) s)
    (fun _ => ?_) fun _ => ?_
  · refine safe_op (.backoff (job.retries + 1)) ?_
    rintro s₁ moved r s₂ ⟨rfl, delay, rfl⟩
    refine ⟨guar_refl moved.1, fun (delay : Nat) _ => ?_, fun e is => by cases is⟩
    refine safe_op .now ?_
    rintro s₃ moved' r' s₄ ⟨rfl, time, rfl⟩
    refine ⟨guar_refl moved'.1, fun (now : Nat) _ => ?_, fun e is => by cases is⟩
    refine safe_op (.requeue _) ?_
    rintro s₅ moved'' r'' s₆ (⟨rfl, answered⟩ | ⟨never, -⟩)
    · obtain ⟨guar, after⟩ := guar_requeued { job with
          error := some error, retries := job.retries + 1, scheduledAt := some (now + delay) }
        moved''.1 (((held.moved moved).moved moved').moved moved'') rfl rfl
      refine ⟨guar, fun _ _ => after, fun e is => ?_⟩
      subst is
      rcases answered with answered | answered <;> cases answered
    · exact never.elim
  · refine Coro.safe_call (I := Calls) (.sendToDeadLetter _) ?_
    rintro s₁ moved r s₂ ⟨never, -⟩
    exact never.elim

/-- The worker's hand, when its round is over. -/
def Emptied (i : Nat) (s : Store) : Prop :=
  ∀ job, s.hand i = some job → Accounted s job.generation job.payload

theorem processJob_safe (held : s.Holding i job [] untouched) :
    SafeIn i (processJob job) (fun _ => Emptied i) s := by
  have settled {s : Store} (hand : s.hand i = none) : Emptied i s := by
    intro other has
    rw [hand] at has
    cases has
  unfold processJob
  refine Coro.Safe.bind (P := fun o _ s' =>
      o = .ok none ∧ s'.Holding i job [job.payload] (once job.payload.usd (path job.payload)) ∨
        (∃ error, o = .ok (some error)) ∧ s'.Holding i job [] untouched) ?_ ?_ ?_
  · refine Coro.Safe.tryCatch (P := fun o _ s' =>
      o = .ok none ∧ s'.Holding i job [job.payload] (once job.payload.usd (path job.payload)) ∨
        (∃ message, o = .error (.exception message)) ∧ s'.Holding i job [] untouched) ?_ ?_ ?_
    · refine Coro.Safe.bind (handleCostLedgerWrite_safe held) ?_ ?_
      · rintro _ _ s' (⟨-, after⟩ | ⟨⟨message, is⟩, -⟩)
        · exact .inl ⟨rfl, after⟩
        · cases is
      · rintro e _ s' (⟨is, -⟩ | ⟨⟨message, is⟩, after⟩)
        · cases is
        · exact .inr ⟨⟨message, congrArg _ (Except.error.inj is)⟩, after⟩
    · rintro a _ s' (⟨is, after⟩ | ⟨⟨message, is⟩, -⟩)
      · exact .inl ⟨is, after⟩
      · cases is
    · rintro e _ s' (⟨is, -⟩ | ⟨⟨message, is⟩, after⟩)
      · cases is
      · obtain rfl := Except.error.inj is
        exact .inr ⟨⟨_, rfl⟩, after⟩
  · rintro raised _ s' (⟨is, after⟩ | ⟨⟨error, is⟩, after⟩)
    · obtain rfl := Except.ok.inj is
      intro other has
      obtain rfl := Option.some.inj (after.hand.symm.trans has)
      exact ⟨after.events, after.paid⟩
    · obtain rfl := Except.ok.inj is
      refine Coro.Safe.bind (retry_safe after error) ?_ ?_
      · rintro _ _ s'' hand
        exact settled hand
      · rintro e _ s'' hand
        exact settled hand
  · rintro e _ s' (⟨is, -⟩ | ⟨⟨error, is⟩, -⟩) <;> cases is

theorem work_safe (free : s.hand i = none) : SafeIn i work (fun _ => Emptied i) s := by
  refine safe_op .dequeue ?_
  rintro s₁ moved r s₂ answer
  have free₁ := moved.2.hand.trans free
  rcases answer with ⟨pre, job, post, queue, rfl, rfl⟩ | ⟨rfl, rfl⟩
  · obtain ⟨guar, held⟩ := guar_taken moved.1 free₁ queue
    refine ⟨guar, fun found is => ?_, fun e is => by cases is⟩
    obtain rfl := Except.ok.inj is
    refine Coro.Safe.bind (processJob_safe held) ?_ ?_
    · exact fun _ _ _ emptied => emptied
    · exact fun _ _ _ emptied => emptied
  · refine ⟨guar_refl moved.1, fun found is => ?_, fun e is => by cases is⟩
    obtain rfl := Except.ok.inj is
    intro job has
    rw [free₁] at has
    cases has

/-! ## Runs -/

/-- A completion leaves its job with the queue or with a worker. -/
theorem record_safe (ledger : CostLedger) (queue : ledger.queue = true) (fresh : Fresh i s) :
    (record ledger usage).Safe (Replies False i (.complete usage)) (Rely i) (Guar i) ()
      (fun o _ s' => Left i (.complete usage) (o, ()) s') s := by
  unfold record
  rw [queue]
  refine Coro.Safe.bind (P := fun o _ s' => o = .ok true ∧ s'.hand i = none ∧ s'.Placed i usage)
    ?_ ?_ ?_
  · refine Coro.Safe.tryCatch (P := fun o _ s' =>
      o = .ok true ∧ s'.hand i = none ∧ s'.Placed i usage) ?_ (fun _ _ _ => id) ?_
    · refine Coro.safe_call (I := Calls) (.enqueue usage) ?_
      rintro s₁ moved r s₂ (⟨rfl, rfl⟩ | ⟨never, -⟩)
      · have fresh₁ := fresh.moved moved
        obtain ⟨guar, placed⟩ := guar_enqueued usage moved.1 fresh₁
        exact ⟨guar, rfl, fresh₁.hand, placed⟩
      · exact never.elim
    · rintro e _ s' ⟨is, -⟩
      cases is
  · rintro ok _ s' ⟨is, left⟩
    obtain rfl := Except.ok.inj is
    exact left
  · rintro e _ s' ⟨is, -⟩
    cases is

theorem framed (ledger : CostLedger) (queue : ledger.queue = true) :
    Pool.Framed (Replies False) (fun _ _ => False) (body ledger) Sound Frame
      (fun _ _ _ _ => True) Fresh Left where
  refl := Frame.refl
  trans _ _ _ _ := Frame.trans
  env _ _ never := never.elim
  fresh _ _ _ moved fresh := fresh.moved moved
  ended i call w s s' moved left := by
    cases call with
    | complete usage =>
      exact ⟨moved.2.hand.trans left.1, moved.2.placed usage left.2⟩
    | work =>
      intro job has
      have held := moved.2.hand.symm.trans has
      obtain ⟨events, paid⟩ := left job held
      refine ⟨(moved.2.events job held).trans events, fun scope => ?_⟩
      rw [moved.2.paid job held scope, paid scope]
  start i call s _ fresh := by
    cases call with
    | complete usage => exact record_safe ledger queue fresh
    | work => exact work_safe fresh.hand

def World.empty : World := ⟨{}, []⟩

/-- In every run of completions and workers in which nothing is faulty, once nothing is under
way and no job waits, each generation is one event, and its USD is once in the rows of each
level on its path and in no others; and there is one row for each key, whose value is the sum
of what the generations have in it. -/
theorem accounted_once (ledger : CostLedger) (queue : ledger.queue = true) (w : World)
    (run : Runs ledger False World.empty w) (idle : w.Idle) (drained : w.store.queue = []) :
    (∀ i usage trace rest, w.tasks[i]? = some ⟨.complete usage, trace, rest⟩ →
      Accounted w.store i usage) ∧ Tabled w.store := by
  have unwritten : Sound World.empty.store := by
    refine ⟨⟨List.nodup_nil, ?_, List.nodup_nil, ?_⟩, List.nodup_nil, ?_, ?_, ?_⟩
    · intro row mem
      cases mem
    · intro row mem
      cases mem
    · intro job mem
      cases mem
    · intro i j a b has
      cases has
    · intro job mem
      cases mem
  have fresh (i : Nat) : Fresh i World.empty.store := by
    refine ⟨rfl, ?_⟩
    rintro (⟨usage, ⟨job, mem, -⟩ | ⟨j, job, has, -⟩⟩ | some_ | ⟨scope, some_⟩)
    · cases mem
    · cases has
    · exact some_ rfl
    · exact some_ rfl
  obtain ⟨sound, stands⟩ := Pool.turns_framed (framed ledger queue) run unwritten fresh
  have ended (i : Nat) (task : Task Call Calls Raised Outcome) (here : w.tasks[i]? = some task) :
      ∃ o, Left i task.call o w.store := by
    have safe := stands i
    rw [here] at safe
    obtain ⟨o, is⟩ := idle task (List.mem_of_getElem? here)
    rw [Pool.Stands, is] at safe
    exact ⟨o, safe⟩
  refine ⟨fun i usage trace rest here => ?_, sound.tabled⟩
  obtain ⟨-, -, placed⟩ := ended i _ here
  rcases placed with ⟨job, mem, -⟩ | ⟨k, job, has, rfl, rfl⟩
  · rw [drained] at mem
    cases mem
  · cases at_ : w.tasks[k]? with
    | none =>
      have safe := stands k
      rw [at_] at safe
      rw [safe.hand] at has
      cases has
    | some task =>
      obtain ⟨call, trace', rest'⟩ := task
      obtain ⟨o, left⟩ := ended k _ at_
      cases call with
      | complete other =>
        rw [left.1] at has
        cases has
      | work => exact left job has

/-! ## Runs with and without a fault -/

/-- Every call succeeds, but for what `refuse` and `raise` say: the queue refuses the job of a
completion; the first attempt of a job raises at the level of the tenant. -/
def answering (refuse raise : Bool) (i : Nat) (call : Call) :
    (op : Op) → Store → Except Raised op.Answer × Store
  | .enqueue usage, s => if refuse then (.ok false, s) else (.ok true, s.enqueued i usage)
  | .requeue job, s => (.ok true, s.requeued i job)
  | .sendToDeadLetter job, s => (.ok (), s.buried i job)
  | .dequeue, s =>
    match s.queue with
    | [] => (.ok none, s)
    | job :: queue => (.ok (some job), s.taken i job queue)
  | .backoff _, s => (.ok (1 : Nat), s)
  | .now, s => (.ok (0 : Nat), s)
  | .addEvent usage, s => (.ok (), s.withEvent (s.generation i call) usage)
  | .select key, s =>
    if raise ∧ key.scope.scopeType = .tenant ∧ (s.hand i).any fun job => job.retries = 0 then
      (.error (.exception "server closed the connection unexpectedly"), s)
    else (.ok (s.lookup key), s)
  | .insert key usd, s => (.ok (), s.inserted (s.generation i call) key usd)
  | .update row usd, s => (.ok (), s.updated (s.generation i call) row usd)

/-- No row is written over that was committed to since it was read. -/
def unraced (_ : Nat) (_ : Call) (op : Op) (s : Store) : Bool :=
  match op with
  | .insert key _ => s.lookup key = []
  | .update row _ => row ∈ s.rows
  | .sendToDeadLetter _ => false
  | _ => true

theorem answering_dequeue {faulty : Prop} (refuse raise : Bool) (i : Nat) (call : Call)
    (s : Store) : Replies faulty i call .dequeue s (answering refuse raise i call .dequeue s).1
      (answering refuse raise i call .dequeue s).2 := by
  simp only [answering]
  split
  next => exact .inr ⟨rfl, rfl⟩
  next job queue is => exact .inl ⟨[], job, queue, is, rfl, rfl⟩

theorem answering_faulty (refuse raise : Bool) (i : Nat) (call : Call) (op : Op) (s : Store) :
    Replies True i call op s (answering refuse raise i call op s).1
      (answering refuse raise i call op s).2 := by
  cases op with
  | enqueue usage =>
    cases refuse
    · exact .inl ⟨rfl, rfl⟩
    · exact .inr ⟨trivial, .inr rfl, .inl rfl⟩
  | requeue job => exact .inl ⟨rfl, .inl rfl⟩
  | sendToDeadLetter job => exact ⟨trivial, rfl, rfl⟩
  | dequeue => exact answering_dequeue refuse raise i call s
  | backoff | now => exact ⟨rfl, _, rfl⟩
  | addEvent usage => exact .inl ⟨rfl, .inl rfl⟩
  | select key =>
    simp only [answering]
    split
    · exact ⟨rfl, .inr ⟨trivial, _, rfl⟩⟩
    · exact ⟨rfl, .inl rfl⟩
  | insert key usd => exact .inl ⟨rfl, .inr ⟨trivial, .inl rfl⟩⟩
  | update row usd => exact .inl ⟨rfl, .inr ⟨trivial, .inl rfl⟩⟩

theorem answering_unraced (i : Nat) (call : Call) (op : Op) (s : Store)
    (checked : unraced i call op s = true) :
    Replies False i call op s (answering false false i call op s).1
      (answering false false i call op s).2 := by
  cases op with
  | enqueue usage => exact .inl ⟨rfl, rfl⟩
  | requeue job => exact .inl ⟨rfl, .inl rfl⟩
  | sendToDeadLetter job => cases checked
  | dequeue => exact answering_dequeue false false i call s
  | backoff | now => exact ⟨rfl, _, rfl⟩
  | addEvent usage => exact .inl ⟨rfl, .inl rfl⟩
  | select key => exact ⟨rfl, .inl rfl⟩
  | insert key usd => exact .inl ⟨rfl, .inl ⟨of_decide_eq_true checked, rfl⟩⟩
  | update row usd => exact .inl ⟨rfl, .inl ⟨of_decide_eq_true checked, rfl⟩⟩

/-- One dollar, with a surface and no end user. -/
def dollar : UsageRecord where
  tenantId := "acme"
  provider := "openai"
  model := "gpt-4o"
  inputTokens := 0
  outputTokens := 0
  reasoningTokens := 0
  cachedTokens := 0
  usd := 1
  surfaceId := some "web"
  endUserId := none
  conversationId := none
  sessionId := none
  requestId := ""

/-- Some completions and some rounds of workers, none of which has begun. -/
def started (completions rounds : Nat) : World :=
  ⟨{}, List.replicate completions ⟨.complete dollar, [], body {} (.complete dollar)⟩ ++
    List.replicate rounds ⟨.work, [], body {} .work⟩⟩

theorem started_runs {faulty : Prop} (completions rounds : Nat) :
    Runs {} faulty World.empty (started completions rounds) := by
  have more (call : Call) (n : Nat) (w : World) :
      Runs {} faulty w { w with tasks := w.tasks ++ List.replicate n ⟨call, [], body {} call⟩ } := by
    induction n generalizing w with
    | zero => simpa using Relation.ReflTransGen.refl
    | succ n ih =>
      have next := ih { w with tasks := w.tasks ++ [⟨call, [], body {} call⟩] }
      simp only [List.append_assoc, List.singleton_append, ← List.replicate_succ] at next
      exact .head (.start w call) next
  exact (more (.complete dollar) completions World.empty).trans (more .work rounds _)

/-- Nine calls of each task in turn, or as many as it makes. -/
def inTurn (tasks : List Nat) : List Nat := tasks.flatMap (List.replicate 9)

/-- The calls of the tasks in this order, where `refuse` and `raise` are the faults. -/
def after (refuse raise : Bool) (completions rounds : Nat) (schedule : List Nat) : World :=
  schedule.foldl (Pool.serve (answering refuse raise)) (started completions rounds)

theorem after_runs (refuse raise : Bool) (completions rounds : Nat) (schedule : List Nat) :
    Runs {} True World.empty (after refuse raise completions rounds schedule) :=
  (started_runs completions rounds).trans
    (Pool.turns_serve (answering_faulty refuse raise) (started completions rounds) schedule)

/-- Two generations, one after the other. -/
theorem accounted_once_two : Accounted (after false false 2 2 (inTurn [0, 1, 2, 3])).store 0 dollar ∧
    Accounted (after false false 2 2 (inTurn [0, 1, 2, 3])).store 1 dollar := by
  have run : Runs {} False World.empty (after false false 2 2 (inTurn [0, 1, 2, 3])) :=
    (started_runs 2 2).trans (Pool.turns_checked answering_unraced (started 2 2) _
      (by decide +kernel))
  have both := (accounted_once {} rfl _ run (Pool.idle_of_done (by decide +kernel))
    (by decide +kernel)).1
  exact ⟨both 0 dollar _ _ rfl, both 1 dollar _ _ rfl⟩

/-- The run has ended, and what is written for a generation is this many events, and this in
the rows of the platform. -/
def Ends (w : World) (g events : Nat) (platform : List ℚ) : Prop :=
  Runs {} True World.empty w ∧ w.Idle ∧ w.store.queue.length = 0 ∧
    (w.store.eventsOf g).length = events ∧ w.store.paid g (scope dollar .platform) = platform

/-- A retry writes the event and the levels before the failure again; of two workers that have
read one row the first loses its update; a job that the queue refuses has no levels. -/
theorem miscounted :
    (∃ w, Ends w 0 2 [1, 1]) ∧ (∃ w, Ends w 1 1 [] ∧ Ends w 2 1 [1]) ∧ (∃ w, Ends w 0 1 []) ∧
      ¬ ∀ w, Runs {} True World.empty w → w.Idle → w.store.queue = [] →
        ∀ i usage trace rest, w.tasks[i]? = some ⟨.complete usage, trace, rest⟩ →
          Accounted w.store i usage := by
  have refused : Ends (after true false 1 0 (inTurn [0])) 0 1 [] :=
    ⟨after_runs _ _ _ _ _, Pool.idle_of_done (by decide +kernel), by decide +kernel,
      by decide +kernel, by decide +kernel⟩
  refine ⟨⟨after false true 1 2 (inTurn [0, 1, 2]), ?_⟩, ⟨after false false 3 3
    (inTurn [0, 1, 2, 3] ++ [4, 4, 4, 5, 5, 5, 4, 5, 4, 5] ++ inTurn [4, 5]), ?_, ?_⟩,
    ⟨_, refused⟩, fun all => ?_⟩
  · exact ⟨after_runs _ _ _ _ _, Pool.idle_of_done (by decide +kernel), by decide +kernel,
      by decide +kernel, by decide +kernel⟩
  · exact ⟨after_runs _ _ _ _ _, Pool.idle_of_done (by decide +kernel), by decide +kernel,
      by decide +kernel, by decide +kernel⟩
  · exact ⟨after_runs _ _ _ _ _, Pool.idle_of_done (by decide +kernel), by decide +kernel,
      by decide +kernel, by decide +kernel⟩
  · obtain ⟨run, idle, drained, -, paid⟩ := refused
    have claimed := (all _ run idle (List.eq_nil_of_length_eq_zero drained) 0 dollar _ _ rfl).2
      (scope dollar .platform)
    rw [paid] at claimed
    revert claimed
    decide +kernel

end AgentStudio.Ledger
