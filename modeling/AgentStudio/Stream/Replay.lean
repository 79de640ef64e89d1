import AgentStudio.Stream.Buffer

/-!
# What a replay returns

Appends to one stream, one after the other, while Redis and the overflow table
answer. The hot tier is memory where Redis was down from the start, the Redis
list otherwise; what is over the cap goes to the table. A replay from memory
cuts off at the cursor in both tiers, a replay from Redis in the table alone.
-/

namespace AgentStudio.Stream

open Async Log

variable (config : Config)

/-- Redis and the table answer every call. -/
def serve : (op : Op) → Store → Except Raised op.Answer × Store
  | .enter type data, s => (.ok (s.enter config type data).1, (s.enter config type data).2)
  | .rpush record, s => (.ok (s.list.length + 1), s.rpush record)
  | .expire, s => (.ok (decide (s.list ≠ [])), s.expire config)
  | .llen, s => (.ok s.list.length, s)
  | .lrange stop, s => (.ok (stop.elim s.list fun stop => s.list.take (stop + 1)), s)
  | .ltrim start read, s => (.ok (), s.ltrim start read)
  | .writeChunks chunks, s => (.ok chunks.length, s.writeChunks chunks)
  | .fallBack record, s => (.ok (), s.markRedisDown.memAppend config record)
  | .hot after, s => (.ok (if s.redisAvailable then none else some (s.memRead after)), s)
  | .fallBackRead after, s => (.ok (s.markRedisDown.memRead after), s.markRedisDown)
  | .readChunks after, s => (.ok (s.readChunks after), s)

namespace Store

/-- The records of the tier that appends go to. -/
def hot (s : Store) : List Record := if s.redisAvailable then s.list else s.memEntries

/-- The records of the other tier. -/
def cold (s : Store) : List Record := if s.redisAvailable then s.memEntries else s.list

variable {config} (s : Store) (r : Record)

@[simp] theorem memEntries_memAppend :
    (s.memAppend config r).memEntries = s.memEntries ++ [r] := by
  simp [memAppend, memEntries, memGet, Option.filter]

theorem memEntries_memSpill : (s.memSpill config).memEntries =
    s.memEntries.drop (excess config s.memEntries.length) := by
  cases found : s.memory with
  | none => simp [memSpill, memEntries, memGet, found]
  | some entry =>
    by_cases live : s.now ≤ entry.ttl
    · have short : excess config entry.entries.length ≤ entry.entries.length := by
        unfold excess
        split <;> omega
      simp [memSpill, memEntries, memGet, found, Option.filter, live, Nat.min_eq_left short]
    · simp [memSpill, memEntries, memGet, found, Option.filter, live]

theorem list_of_items {items : List Record} {expiry : Option Nat}
    (live : expiry.all (fun at_ => s.now ≤ at_) = true ∨ items = []) :
    ({ s with redis := ⟨items, expiry⟩ } : Store).list = items := by
  unfold list
  rcases live with live | rfl
  · simp [live]
  · simp

theorem expiry_live (nonempty : s.list ≠ []) :
    s.redis.expiry.all (fun at_ => s.now ≤ at_) = true := by
  by_contra dead
  exact nonempty (by simp [list, dead])

@[simp] theorem list_rpush : (s.rpush r).list = s.list ++ [r] := by
  refine list_of_items s (.inl ?_)
  split
  · rfl
  next nonempty => exact s.expiry_live nonempty

@[simp] theorem list_expire : (s.expire config).list = s.list := by
  refine list_of_items s ?_
  split
  next empty => exact .inr empty
  next => exact .inl (by simp)

@[simp] theorem list_ltrim (start : Nat) (read : List Record) :
    (s.ltrim start read).list = s.list.drop start := by
  refine list_of_items { s with moving := s.moving ++ read } ?_
  by_cases empty : s.list = []
  · exact .inr (by simp [empty])
  · exact .inl (s.expiry_live empty)

end Store

/-! ## Appends -/

variable {config}

/-- What an append of `r` does: the oldest records over the cap go to the table. -/
structure Appended (config : Config) (r : Record) (s s' : Store) : Prop where
  available : s'.redisAvailable = s.redisAvailable
  now : s'.now = s.now
  seq : s'.seq = s.seq + 1
  log : s'.log = s.log ++ [r]
  lapsed : s'.lapsed = s.lapsed
  cold : s'.cold = s.cold
  hot : s'.hot = (s.hot ++ [r]).drop (Store.excess config (s.hot ++ [r]).length)
  overflow : s'.overflow = putAll Record.id s.overflow
    ((s.hot ++ [r]).take (Store.excess config (s.hot ++ [r]).length))

/-- What leaves the hot tier is written. -/
theorem spillOverflow_gives (stored : config.db = true) (spills : List Record) (s : Store) :
    ∃ moving, (spillOverflow config spills).Gives (serve config) () s ()
      { s with overflow := putAll Record.id s.overflow spills, moving := moving } := by
  unfold spillOverflow
  by_cases none_ : spills = []
  · subst none_
    exact ⟨s.moving, .pure ()⟩
  · rw [if_neg none_, if_pos stored]
    exact ⟨_, .tryCatch (.bind (.call rfl) (.pure ()))⟩

theorem append_memory (stored : config.db = true) (type : String) (data : Data) {s : Store}
    (down : s.redisAvailable = false) :
    ∃ s', (append config type data).Gives (serve config) () s (s.seq + 1) s' ∧
      Appended config (s.record type data) s s' := by
  let r := s.record type data
  let kept := (s.count type data).memAppend config r
  have entries : kept.memEntries = s.hot ++ [r] := by
    rw [Store.memEntries_memAppend]
    simp [Store.hot, down, Store.count, Store.memEntries, Store.memGet]
  have entered : serve config (.enter type data) s =
      (.ok (r, some (kept.memEntries.take (Store.excess config kept.memEntries.length))),
        kept.memSpill config) := by
    simp [serve, Store.enter, down, r, kept]
  obtain ⟨moving, spilled⟩ := spillOverflow_gives stored
    (kept.memEntries.take (Store.excess config kept.memEntries.length)) (kept.memSpill config)
  refine ⟨_, .bind (.call entered) (.bind spilled (.pure _)), rfl, rfl, rfl, rfl, rfl, ?_, ?_, ?_⟩
  · simp [Store.cold, down, Store.memSpill, kept, Store.count, Store.memAppend, Store.list]
  · have left := @Store.memEntries_memSpill config kept
    rw [entries] at left
    rw [← left]
    simp [Store.hot, down, Store.memSpill, Store.memEntries, Store.memGet, kept, Store.count,
      Store.memAppend]
  · rw [← entries]
    rfl

/-- The records over the cap of the list, where it has more. -/
theorem trimRedis_gives (stored : config.db = true) (s : Store) :
    ∃ s', (trimRedis config).Gives (serve config) () s () s' ∧
      s'.list = s.list.drop (Store.excess config s.list.length) ∧
      ∃ redis moving, s' = { s with
        redis := redis, moving := moving
        overflow := putAll Record.id s.overflow
          (s.list.take (Store.excess config s.list.length)) } := by
  unfold trimRedis Store.excess
  by_cases unbounded : config.overflowMaxChunks = 0
  · rw [if_pos unbounded, if_pos unbounded]
    exact ⟨s, .pure (), rfl, s.redis, s.moving, rfl⟩
  · rw [if_neg unbounded, if_neg unbounded]
    by_cases above : config.overflowMaxChunks < s.list.length
    · set excess := s.list.length - config.overflowMaxChunks with excess_eq
      have raw : serve config (.lrange (some (excess - 1))) s = (.ok (s.list.take excess), s) := by
        change (Except.ok (s.list.take (excess - 1 + 1)), s) = _
        rw [Nat.sub_add_cancel (by omega)]
        rfl
      let trimmed := s.ltrim excess (s.list.take excess)
      obtain ⟨moving, spilled⟩ := spillOverflow_gives stored (s.list.take excess) trimmed
      refine ⟨{ trimmed with overflow := putAll Record.id s.overflow (s.list.take excess), moving },
        .bind (.call rfl) ?_, s.list_ltrim excess (s.list.take excess), trimmed.redis, moving, rfl⟩
      rw [if_pos above]
      exact .bind (.call raw) (.bind (.call rfl) spilled)
    · have none_ : s.list.length - config.overflowMaxChunks = 0 := by omega
      refine ⟨s, .bind (.call rfl) ?_, by rw [none_, List.drop_zero], s.redis, s.moving, ?_⟩
      · rw [if_neg above]
        exact .pure ()
      · rw [none_]
        rfl

theorem append_redis (stored : config.db = true) (type : String) (data : Data) {s : Store}
    (up : s.redisAvailable = true) :
    ∃ s', (append config type data).Gives (serve config) () s (s.seq + 1) s' ∧
      Appended config (s.record type data) s s' := by
  let r := s.record type data
  let pushed := ((s.count type data).rpush r).expire config
  have items : pushed.list = s.hot ++ [r] := by
    rw [Store.list_expire, Store.list_rpush]
    simp [Store.hot, up, Store.count, Store.list]
  have entered : serve config (.enter type data) s = (.ok (r, none), s.count type data) := by
    simp [serve, Store.enter, up, r]
  obtain ⟨s', trimmed, left, redis, moving, rfl⟩ := trimRedis_gives stored pushed
  refine ⟨_, .bind (.call entered) (.tryCatch (.bind (.call rfl) (.bind (.call rfl)
    (.bind trimmed (.pure _))))), rfl, rfl, rfl, rfl, rfl, ?_, ?_, ?_⟩
  · simp [Store.cold, up, pushed, Store.expire, Store.rpush, Store.count, Store.memEntries,
      Store.memGet]
  · rw [← items, ← left]
    exact if_pos up
  · rw [← items]
    rfl

theorem append_does (stored : config.db = true) (type : String) (data : Data) (s : Store) :
    ∃ s', (append config type data).Gives (serve config) () s (s.seq + 1) s' ∧
      Appended config (s.record type data) s s' := by
  cases available : s.redisAvailable with
  | true => exact append_redis stored type data available
  | false => exact append_memory stored type data available

/-! ## Histories -/

inductive Event where
  | append (type : String) (data : Data)
  /-- An append to another stream. -/
  | elsewhere
  | wait (time : Nat)
  deriving DecidableEq, Repr

variable (config) in
def Store.step (s : Store) : Event → Store
  | .append type data => ((append config type data ()).drive (I := Calls) (serve config) s).2
  | .elsewhere => s.elsewhere
  | .wait time => s.wait time

variable (config) in
/-- A history, from an empty buffer whose last id is `seq`. -/
def run (up : Bool) (seq : Nat) (events : List Event) : Store :=
  events.foldl (Store.step config) { seq, redisAvailable := up }

/-- The records that a history appends to the stream. -/
def appended (seq : Nat) : List Event → List Record
  | [] => []
  | .append type data :: events => ⟨seq + 1, type, data⟩ :: appended (seq + 1) events
  | .elsewhere :: events => appended (seq + 1) events
  | .wait _ :: events => appended seq events

/-- The overflow table and then the hot tier hold what was appended and has not run out. -/
structure Store.Valid (s : Store) : Prop where
  increasing : Increasing Record.id s.log
  below : ∀ r ∈ s.log, r.id ≤ s.seq
  lapsed : s.lapsed ⊆ s.log
  cold : s.cold = []
  kept : s.overflow ++ s.hot = s.log.filter fun r => r ∉ s.lapsed

theorem Appended.valid {s s' : Store} {r : Record} (h : Appended config r s s') (valid : s.Valid)
    (new : r.id = s.seq + 1) : s'.Valid := by
  have above : ∀ b ∈ s.log, b.id < r.id := by
    intro b mem
    have := valid.below b mem
    omega
  have fresh : r ∉ s.lapsed := fun mem => Nat.lt_irrefl _ (above r (valid.lapsed mem))
  have increasing : Increasing Record.id (s.log ++ [r]) := valid.increasing.snoc above
  have all : s.overflow ++ (s.hot ++ [r]) = (s.log ++ [r]).filter fun b => b ∉ s.lapsed := by
    rw [← List.append_assoc, valid.kept]
    simp [List.filter_append, fresh]
  let cut := Store.excess config (s.hot ++ [r]).length
  have spilled : s'.overflow = s.overflow ++ (s.hot ++ [r]).take cut := by
    rw [h.overflow]
    refine putAll_append ?_
    refine (increasing.filter fun b => b ∉ s.lapsed).sublist ?_
    rw [← all]
    exact (List.take_sublist _ _).append_left _
  constructor
  · rw [h.log]
    exact increasing
  · rw [h.log, h.seq]
    intro b mem
    rcases List.mem_append.mp mem with old | last
    · exact Nat.le_succ_of_le (valid.below b old)
    · rw [List.mem_singleton.mp last, new]
  · rw [h.log, h.lapsed]
    exact fun b mem => List.mem_append_left _ (valid.lapsed mem)
  · rw [h.cold, valid.cold]
  · rw [spilled, h.hot, h.log, h.lapsed, List.append_assoc, List.take_append_drop, all]

/-! ### Time -/

namespace Store

variable (s : Store) (time : Nat)

theorem list_wait : (s.wait time).list = s.list ∨ (s.wait time).list = [] := by
  cases ends : s.redis.expiry with
  | none => simp [wait, list, ends]
  | some at_ =>
    by_cases late : s.now + time ≤ at_
    · have early : s.now ≤ at_ := by omega
      simp [wait, list, ends, late, early]
    · simp [wait, list, ends, late]

theorem memEntries_wait :
    (s.wait time).memEntries = s.memEntries ∨ (s.wait time).memEntries = [] := by
  cases found : s.memory with
  | none => simp [wait, memEntries, memGet, found]
  | some entry =>
    by_cases late : s.now + time ≤ entry.ttl
    · have early : s.now ≤ entry.ttl := by omega
      simp [wait, memEntries, memGet, found, Option.filter, late, early]
    · simp [wait, memEntries, memGet, found, Option.filter, late]

/-- The hot tier keeps what it holds, or runs out. -/
theorem hot_wait : (s.wait time).hot = s.hot ∨ (s.wait time).hot = [] := by
  cases up : s.redisAvailable with
  | true => simpa [hot, wait, up] using s.list_wait time
  | false => simpa [hot, wait, up] using s.memEntries_wait time

theorem cold_wait (empty : s.cold = []) : (s.wait time).cold = [] := by
  have kept : (s.wait time).cold = s.cold ∨ (s.wait time).cold = [] := by
    cases up : s.redisAvailable with
    | true => simpa [cold, wait, up] using s.memEntries_wait time
    | false => simpa [cold, wait, up] using s.list_wait time
  exact kept.elim (fun same => same.trans empty) id

theorem lapsed_wait (empty : s.cold = []) : (s.wait time).lapsed =
    s.lapsed ++ s.hot.filter fun r => r ∉ (s.wait time).hot := by
  cases up : s.redisAvailable with
  | true =>
    have none_ : s.memEntries = [] := by simpa [cold, up] using empty
    have later : (s.wait time).hot = (s.wait time).list := if_pos up
    rw [later, hot, if_pos up]
    simp [wait, none_, list]
  | false =>
    have none_ : s.list = [] := by simpa [cold, up] using empty
    have later : (s.wait time).hot = (s.wait time).memEntries := if_neg (by simp [wait, up])
    rw [later, hot, if_neg (by simp [up])]
    simp only [wait, none_, List.filter_nil, List.append_nil]
    rfl

end Store

theorem Store.Valid.wait {s : Store} (valid : s.Valid) (time : Nat) : (s.wait time).Valid := by
  have nodup : (s.overflow ++ s.hot).Nodup := by
    rw [valid.kept]
    exact (valid.increasing.filter _).nodup
  have lapsed := s.lapsed_wait time valid.cold
  have hotLog : s.hot ⊆ s.log := by
    intro r mem
    have : r ∈ s.overflow ++ s.hot := List.mem_append_right _ mem
    rw [valid.kept] at this
    exact (List.mem_filter.mp this).1
  refine ⟨valid.increasing, valid.below, ?_, s.cold_wait time valid.cold, ?_⟩
  · rw [lapsed]
    intro r mem
    rcases List.mem_append.mp mem with old | new
    · exact valid.lapsed old
    · exact hotLog (List.mem_filter.mp new).1
  · change s.overflow ++ _ = s.log.filter _
    rw [lapsed]
    rcases s.hot_wait time with same | gone
    · simpa [same] using valid.kept
    · have apart := (List.nodup_append.mp nodup).2.2
      have stay : s.overflow.filter (fun r => r ∉ s.hot) = s.overflow := by
        rw [List.filter_eq_self]
        intro r mem
        simpa using fun hot => apart r mem r hot rfl
      calc s.overflow ++ (s.wait time).hot
          = (s.overflow ++ s.hot).filter fun r => r ∉ s.hot := by
            rw [gone, List.filter_append, stay]
            simp
        _ = s.log.filter fun r => r ∉ s.lapsed ++ s.hot.filter fun r => r ∉ (s.wait time).hot := by
            rw [valid.kept, List.filter_filter, gone]
            refine List.filter_congr fun r _ => ?_
            simp [Bool.and_comm]

theorem Store.Valid.elsewhere {s : Store} (valid : s.Valid) : s.elsewhere.Valid :=
  ⟨valid.increasing, fun r mem => Nat.le_succ_of_le (valid.below r mem), valid.lapsed, valid.cold,
    valid.kept⟩

/-! ### Runs -/

/-- A run keeps every record that its history appends. -/
theorem run_does (stored : config.db = true) (events : List Event) {s : Store} (valid : s.Valid) :
    (events.foldl (Store.step config) s).Valid ∧
      (events.foldl (Store.step config) s).redisAvailable = s.redisAvailable ∧
      (events.foldl (Store.step config) s).log = s.log ++ appended s.seq events := by
  induction events generalizing s with
  | nil => exact ⟨valid, rfl, by simp [appended]⟩
  | cons event events ih =>
    rw [List.foldl_cons]
    cases event with
    | append type data =>
      obtain ⟨s', gives, does⟩ := append_does stored type data s
      have step : s.step config (.append type data) = s' := by
        change (Tree.drive _ _ _).2 = s'
        rw [gives]
      obtain ⟨valid', available, log⟩ := ih (does.valid valid rfl)
      rw [step, available, log, does.available, does.log, does.seq]
      exact ⟨valid', rfl, by simp [appended, Store.record]⟩
    | elsewhere => exact ih valid.elsewhere
    | wait time => exact ih (valid.wait time)

theorem run_valid (stored : config.db = true) (up : Bool) (seq : Nat) (events : List Event) :
    (run config up seq events).Valid ∧ (run config up seq events).redisAvailable = up ∧
      (run config up seq events).log = appended seq events := by
  have empty : ({ seq, redisAvailable := up } : Store).Valid :=
    ⟨.nil, by simp, by simp, by simp [Store.cold, Store.memEntries, Store.memGet, Store.list],
      by simp [Store.hot, Store.memEntries, Store.memGet, Store.list]⟩
  exact run_does stored events empty

/-- The records of a history are numbered in the order of their appends. -/
theorem appended_increasing (seq : Nat) (events : List Event) :
    Increasing Record.id (appended seq events) := by
  have config : Config := {}
  obtain ⟨valid, -, log⟩ := @run_valid { db := true } rfl true seq events
  exact log ▸ valid.increasing

/-! ## Replays -/

theorem readHot_gives (after : Nat) (s : Store) :
    ∃ s', (readHot after).Gives (serve config) () s
        (if s.redisAvailable then s.hot else s.hot.filter fun r => after < r.id) s' ∧
      s'.overflow = s.overflow := by
  cases up : s.redisAvailable with
  | true =>
    have asked : serve config (.hot after) s = (.ok none, s) := by simp [serve, up]
    have all : serve config (.lrange none) s = (.ok s.list, s) := rfl
    rw [Store.hot, if_pos up, if_pos rfl]
    by_cases empty : s.list = []
    · refine ⟨s, .bind (.call asked) (.tryCatch (.bind (.call all) ?_)), rfl⟩
      rw [if_pos empty]
      exact .pure _
    · refine ⟨s.expire config, .bind (.call asked) (.tryCatch (.bind (.call all) ?_)), rfl⟩
      rw [if_neg empty]
      exact .bind (.call rfl) (.pure _)
  | false =>
    have asked : serve config (.hot after) s = (.ok (some (s.memRead after)), s) := by
      simp [serve, up]
    refine ⟨s, .bind (.call asked) ?_, rfl⟩
    simp only [Store.hot, up, Bool.false_eq_true, if_false]
    exact .pure _

theorem readOverflow_gives (stored : config.db = true) (after : Nat) (s : Store) :
    (readOverflow config after).Gives (serve config) () s (s.readChunks after) s := by
  rw [readOverflow, if_pos stored]
  exact .tryCatch (.call rfl)

/-- Nothing is merged where the hot records follow those of the table. -/
theorem merge_append {overflow hot : List Record} (h : Increasing Record.id (overflow ++ hot)) :
    merge overflow hot = overflow ++ hot := by
  have left : putAll Record.id [] overflow = overflow :=
    putAll_append (l := []) (List.pairwise_append.mp h).1
  rw [merge, left, putAllNew_append h, h.sorted]

/-- A replay from Redis returns the whole Redis list. -/
theorem replay_gives (stored : config.db = true) (after : Nat) {s : Store} (valid : s.Valid) :
    ∃ s', (replay config after).Gives (serve config) () s
      ((s.overflow.filter fun r => after < r.id) ++
        if s.redisAvailable then s.hot else s.hot.filter fun r => after < r.id) s' := by
  obtain ⟨s₁, hot, same⟩ := @readHot_gives config after s
  have ordered : Increasing Record.id (s.overflow ++ s.hot) := by
    rw [valid.kept]
    exact valid.increasing.filter _
  have below : ((s.overflow.filter fun r => after < r.id) ++
      if s.redisAvailable then s.hot else s.hot.filter fun r => after < r.id).Sublist
        (s.overflow ++ s.hot) := by
    refine List.filter_sublist.append ?_
    split
    · exact List.Sublist.refl _
    · exact List.filter_sublist
  have overflow : s₁.readChunks after = s.overflow.filter fun r => after < r.id := by
    rw [Store.readChunks, same]
    exact Increasing.sorted ((List.pairwise_append.mp ordered).1.filter _)
  refine ⟨s₁, .bind hot (.bind (readOverflow_gives stored after s₁) ?_)⟩
  rw [overflow, merge_append (ordered.sublist below)]
  exact .pure _

/-- What a run's end is replayed as, against what was to be replayed. -/
theorem replay_run (stored : config.db = true) (up : Bool) (seq : Nat) (events : List Event)
    (after : Nat) :
    (∃ s', (replay config after).Gives (serve config) () (run config up seq events)
        ((appended seq events).filter fun r => after < r.id) s') ↔
      (∀ r ∈ (run config up seq events).lapsed, r.id ≤ after) ∧
        (up = true → ∀ r ∈ (run config up seq events).list, after < r.id) := by
  obtain ⟨valid, available, log⟩ := @run_valid config stored up seq events
  obtain ⟨s₁, gives⟩ := replay_gives stored after valid
  rw [available] at gives
  set s := run config up seq events
  have kept : (s.overflow ++ s.hot).filter (fun r => after < r.id) =
      (s.log.filter fun r => after < r.id).filter fun r => r ∉ s.lapsed := by
    rw [valid.kept, List.filter_filter, List.filter_filter]
    exact List.filter_congr fun r _ => Bool.and_comm _ _
  have same_iff : (s.overflow ++ s.hot).filter (fun r => after < r.id) =
      (s.log.filter fun r => after < r.id) ↔ ∀ r ∈ s.lapsed, r.id ≤ after := by
    rw [kept, List.filter_eq_self]
    constructor
    · intro stay r lapsed
      by_contra above
      have := stay r (List.mem_filter.mpr ⟨valid.lapsed lapsed, by simpa using above⟩)
      simp [lapsed] at this
    · intro low r mem
      have above : after < r.id := by simpa using (List.mem_filter.mp mem).2
      have : r ∉ s.lapsed := fun lapsed => absurd (low r lapsed) (Nat.not_le.mpr above)
      simpa using this
  rw [List.filter_append] at same_iff
  rw [← log]
  cases up with
  | false =>
    simp only [Bool.false_eq_true, if_false, false_implies, and_true] at gives ⊢
    rw [← same_iff]
    exact ⟨fun ⟨s₂, other⟩ => (gives.unique other).1, fun same => ⟨s₁, same ▸ gives⟩⟩
  | true =>
    have hot : s.hot = s.list := if_pos available
    simp only [if_true, true_implies] at gives ⊢
    constructor
    · rintro ⟨s₂, other⟩
      have same := (gives.unique other).1
      have new : ∀ r ∈ s.hot, after < r.id := by
        intro r mem
        have : r ∈ s.log.filter fun r => after < r.id := same ▸ List.mem_append_right _ mem
        simpa using (List.mem_filter.mp this).2
      have all : s.hot.filter (fun r => after < r.id) = s.hot := by
        simpa using new
      rw [all] at same_iff
      exact ⟨same_iff.mp same, hot ▸ new⟩
    · rintro ⟨low, new⟩
      have all : s.hot.filter (fun r => after < r.id) = s.hot := by
        simpa [hot] using new
      rw [all] at same_iff
      exact ⟨s₁, same_iff.mpr low ▸ gives⟩

/-- On both paths alike a replay returns what was appended above the cursor, exactly when
nothing above the cursor has run out and no record of the Redis list is at or below it. -/
theorem replay_exact_iff (stored : config.db = true) (seq : Nat) (events : List Event)
    (after : Nat) :
    (∀ up, ∃ s', (replay config after).Gives (serve config) () (run config up seq events)
        ((appended seq events).filter fun r => after < r.id) s') ↔
      (∀ up, ∀ r ∈ (run config up seq events).lapsed, r.id ≤ after) ∧
        ∀ r ∈ (run config true seq events).list, after < r.id := by
  constructor
  · intro exact_
    refine ⟨fun up => ((replay_run stored up seq events after).mp (exact_ up)).1, ?_⟩
    exact ((replay_run stored true seq events after).mp (exact_ true)).2 rfl
  · rintro ⟨kept, new⟩ up
    refine (replay_run stored up seq events after).mpr ⟨kept up, ?_⟩
    rintro rfl
    exact new

/-- Three deltas with a cap of two, read from the start. -/
def three : List Event := [.append "delta" "a", .append "delta" "b", .append "delta" "c"]

theorem replay_exact_three :
    ∃ s', (replay { overflowMaxChunks := 2 } 0).Gives (I := Calls)
      (serve { overflowMaxChunks := 2 }) () (run { overflowMaxChunks := 2 } true 0 three)
      [⟨1, "delta", "a"⟩, ⟨2, "delta", "b"⟩, ⟨3, "delta", "c"⟩] s' :=
  (@replay_exact_iff { overflowMaxChunks := 2 } rfl 0 three 0).mpr (by decide) true

/-- A client that has seen the first delta is sent it again. -/
theorem replayed_again : ¬ ∃ s', (replay {} 1).Gives (I := Calls) (serve {}) ()
    (run {} true 0 three) ((appended 0 three).filter fun r => 1 < r.id) s' := by
  rw [replay_run rfl]
  decide

end AgentStudio.Stream
