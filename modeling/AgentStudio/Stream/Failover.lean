import AgentStudio.Stream.Replay

/-!
# Appends together, and Redis going down

Any number of appends to one stream run together, and any Redis command of one
may fail, with or without having been executed; from then on appends go to
memory. A record that an append returned stays in a tier that a replay reads,
or is with an append that will write it, unless a trim takes what its append did
not read, an append pushes to a Redis that was marked down, or Redis is marked
down while its list holds a record that is nowhere else.
-/

namespace AgentStudio.Stream

open Async Log

/-- What keeps a step from losing a record. -/
def Op.Careful : Op → Store → Prop
  | .rpush _, s => s.redisAvailable = true
  | .ltrim start read, s => s.list.take start ⊆ read
  | .fallBack record, s =>
    s.redisAvailable = true → ∀ r ∈ s.list, r = record ∨ r ∈ s.overflow
  | .fallBackRead _, s => s.redisAvailable = true → s.list ⊆ s.overflow
  | _, _ => True

def Op.isRedis : Op → Bool
  | .rpush _ | .expire | .llen | .lrange _ | .ltrim .. => true
  | _ => false

def Op.isTrim : Op → Bool
  | .ltrim .. => true
  | _ => false

variable (config : Config)

/-- How the calls are answered: a Redis command may fail. Only where `lossy` is a step not
careful, or a trim that failed has been executed. -/
def Answer (lossy : Prop) : Answers Calls Raised Store := fun op s r s' =>
  (lossy ∨ op.Careful s) ∧ (r, s') = serve config op s ∨
    op.isRedis = true ∧ (∃ message, r = .error (.exception message)) ∧
      (s' = s ∨ (lossy ∨ op.isTrim = false) ∧ s' = (serve config op s).2)

/-- Appends to other streams, time, and a failure of Redis elsewhere. -/
def Moves (lossy : Prop) (s s' : Store) : Prop :=
  s' = s.elsewhere ∨
    (∃ time, s' = s.wait time ∧ (lossy ∨ s'.lapsed = s.lapsed)) ∨
    s' = s.markRedisDown ∧ (lossy ∨ (s.redisAvailable = true → s.list ⊆ s.overflow))

abbrev Task := Tree Calls Raised (Except Raised Nat × Unit)

abbrev World := Shared Calls Raised (Except Raised Nat × Unit) Store

def Starts (_ : World) (body : Task) : Prop := ∃ type data, body = append config type data ()

/-- A run in which no append dies. -/
abbrev Run (lossy : Prop) (init s : World) : Prop :=
  Relation.ReflTransGen (Shared.Steady (Answer config lossy) (Moves lossy) (Starts config)) init s

/-- An empty buffer. -/
def fresh (up : Bool) (seq : Nat) : World := ⟨{ seq, redisAvailable := up }, []⟩

namespace Store

/-- Where a replay finds a record, or will find it when it is written. -/
def Placed (s : Store) (r : Record) : Prop :=
  r ∈ s.overflow ∨ r ∈ s.moving ∨ s.redisAvailable = false ∧ r ∈ s.memEntries ∨
    s.redisAvailable = true ∧ r ∈ s.list

/-- All that the tiers hold was appended, under an id of its own. -/
structure Sound (s : Store) : Prop where
  increasing : Increasing Record.id s.log
  ids : ∀ r ∈ s.log, 0 < r.id ∧ r.id ≤ s.seq
  overflow : s.overflow ⊆ s.log
  moving : s.moving ⊆ s.log
  memory : s.memEntries ⊆ s.log
  list : s.list ⊆ s.log

/-- What every step keeps. -/
structure Ahead (s s' : Store) : Prop where
  sound : s'.Sound
  log : s.log ⊆ s'.log
  placed : ∀ r, s.Placed r → s'.Placed r

theorem Sound.refl {s : Store} (sound : s.Sound) : s.Ahead s := ⟨sound, fun _ => id, fun _ => id⟩

theorem Ahead.trans {s₁ s₂ s₃ : Store} (h : s₁.Ahead s₂) (h' : s₂.Ahead s₃) : s₁.Ahead s₃ :=
  ⟨h'.sound, fun _ mem => h'.log (h.log mem), fun r placed => h'.placed r (h.placed r placed)⟩

end Store

/-! ## Steps -/

/-- The records that a call passes on. -/
def Op.passes : Op → List Record
  | .rpush record | .fallBack record => [record]
  | .ltrim _ read => read
  | .writeChunks chunks => chunks
  | _ => []

namespace Store

variable {config} {s : Store} {r : Record}

/-- Where no record is made, the tiers are what has to be looked at. -/
theorem Sound.ahead {s' : Store} (sound : s.Sound) (log : s'.log = s.log) (seq : s.seq ≤ s'.seq)
    (held : ∀ r, r ∈ s'.overflow ∨ r ∈ s'.moving ∨ r ∈ s'.memEntries ∨ r ∈ s'.list → r ∈ s.log)
    (placed : ∀ r, s.Placed r → s'.Placed r) : s.Ahead s' := by
  refine ⟨⟨?_, ?_, ?_, ?_, ?_, ?_⟩, ?_, placed⟩
  · exact log ▸ sound.increasing
  · intro r mem
    have := sound.ids r (log ▸ mem)
    omega
  · exact fun r mem => log ▸ held r (.inl mem)
  · exact fun r mem => log ▸ held r (.inr (.inl mem))
  · exact fun r mem => log ▸ held r (.inr (.inr (.inl mem)))
  · exact fun r mem => log ▸ held r (.inr (.inr (.inr mem)))
  · exact fun r mem => log ▸ mem

theorem Sound.held (sound : s.Sound) (r : Record)
    (mem : r ∈ s.overflow ∨ r ∈ s.moving ∨ r ∈ s.memEntries ∨ r ∈ s.list) : r ∈ s.log := by
  rcases mem with mem | mem | mem | mem
  · exact sound.overflow mem
  · exact sound.moving mem
  · exact sound.memory mem
  · exact sound.list mem

theorem count_ahead (sound : s.Sound) (type : String) (data : Data) :
    s.Ahead (s.count type data) := by
  have grown : s.log ⊆ s.log ++ [s.record type data] := List.subset_append_left _ _
  refine ⟨⟨?_, ?_, ?_, ?_, ?_, ?_⟩, grown, fun r placed => placed⟩
  · refine sound.increasing.snoc fun b mem => ?_
    have := (sound.ids b mem).2
    exact Nat.lt_succ_of_le this
  · intro b mem
    change 0 < b.id ∧ b.id ≤ s.seq + 1
    rcases List.mem_append.mp mem with old | last
    · have := sound.ids b old
      omega
    · rw [List.mem_singleton.mp last]
      exact ⟨Nat.succ_pos _, Nat.le_refl _⟩
  · exact fun r mem => grown (sound.overflow mem)
  · exact fun r mem => grown (sound.moving mem)
  · exact fun r mem => grown (sound.memory mem)
  · exact fun r mem => grown (sound.list mem)

theorem memAppend_ahead (sound : s.Sound) (known : r ∈ s.log) :
    s.Ahead (s.memAppend config r) := by
  refine sound.ahead rfl (Nat.le_refl _) ?_ ?_
  · intro b mem
    rw [memEntries_memAppend, List.mem_append, List.mem_singleton] at mem
    rcases mem with mem | mem | (mem | rfl) | mem
    · exact sound.overflow mem
    · exact sound.moving mem
    · exact sound.memory mem
    · exact known
    · exact sound.list mem
  · rintro b (mem | mem | ⟨down, mem⟩ | mem)
    · exact .inl mem
    · exact .inr (.inl mem)
    · refine .inr (.inr (.inl ⟨down, ?_⟩))
      rw [memEntries_memAppend]
      exact List.mem_append_left _ mem
    · exact .inr (.inr (.inr mem))

/-- What leaves memory is moving. -/
theorem memSpill_ahead (sound : s.Sound) : s.Ahead (s.memSpill config) := by
  refine sound.ahead rfl (Nat.le_refl _) ?_ ?_
  · intro b mem
    rw [memEntries_memSpill] at mem
    rcases mem with mem | mem | mem | mem
    · exact sound.overflow mem
    · rcases List.mem_append.mp mem with mem | mem
      · exact sound.moving mem
      · exact sound.memory (List.mem_of_mem_take mem)
    · exact sound.memory (List.mem_of_mem_drop mem)
    · exact sound.list mem
  · rintro b (mem | mem | ⟨down, mem⟩ | mem)
    · exact .inl mem
    · exact .inr (.inl (List.mem_append_left _ mem))
    · rw [← List.take_append_drop (excess config s.memEntries.length) s.memEntries,
        List.mem_append] at mem
      rcases mem with spilled | left
      · exact .inr (.inl (List.mem_append_right _ spilled))
      · refine .inr (.inr (.inl ⟨down, ?_⟩))
        rw [memEntries_memSpill]
        exact left
    · exact .inr (.inr (.inr mem))

theorem enter_ahead (sound : s.Sound) (type : String) (data : Data) :
    s.Ahead (s.enter config type data).2 := by
  have counted := count_ahead sound type data
  unfold enter
  split
  · exact counted
  · have known : s.record type data ∈ (s.count type data).log :=
      List.mem_append_right _ (List.mem_singleton_self _)
    have kept := @memAppend_ahead config _ _ counted.sound known
    exact (counted.trans kept).trans (memSpill_ahead kept.sound)

theorem rpush_ahead (sound : s.Sound) (known : r ∈ s.log) : s.Ahead (s.rpush r) := by
  refine sound.ahead rfl (Nat.le_refl _) ?_ ?_
  · intro b mem
    rw [list_rpush, List.mem_append, List.mem_singleton] at mem
    rcases mem with mem | mem | mem | mem | rfl
    · exact sound.overflow mem
    · exact sound.moving mem
    · exact sound.memory mem
    · exact sound.list mem
    · exact known
  · rintro b (mem | mem | ⟨down, mem⟩ | ⟨up, mem⟩)
    · exact .inl mem
    · exact .inr (.inl mem)
    · exact .inr (.inr (.inl ⟨down, mem⟩))
    · refine .inr (.inr (.inr ⟨up, ?_⟩))
      rw [list_rpush]
      exact List.mem_append_left _ mem

theorem expire_ahead (sound : s.Sound) : s.Ahead (s.expire config) := by
  refine sound.ahead rfl (Nat.le_refl _) ?_ ?_
  · intro b mem
    rw [list_expire] at mem
    exact sound.held b mem
  · rintro b (mem | mem | ⟨down, mem⟩ | ⟨up, mem⟩)
    · exact .inl mem
    · exact .inr (.inl mem)
    · exact .inr (.inr (.inl ⟨down, mem⟩))
    · refine .inr (.inr (.inr ⟨up, ?_⟩))
      rw [list_expire]
      exact mem

theorem ltrim_ahead (sound : s.Sound) {start : Nat} {read : List Record} (known : read ⊆ s.log)
    (careful : s.list.take start ⊆ read) : s.Ahead (s.ltrim start read) := by
  refine sound.ahead rfl (Nat.le_refl _) ?_ ?_
  · intro b mem
    rw [list_ltrim] at mem
    rcases mem with mem | mem | mem | mem
    · exact sound.overflow mem
    · exact (List.mem_append.mp mem).elim (fun old => sound.moving old) (fun new => known new)
    · exact sound.memory mem
    · exact sound.list (List.mem_of_mem_drop mem)
  · rintro b (mem | mem | ⟨down, mem⟩ | ⟨up, mem⟩)
    · exact .inl mem
    · exact .inr (.inl (List.mem_append_left _ mem))
    · exact .inr (.inr (.inl ⟨down, mem⟩))
    · rw [← List.take_append_drop start s.list, List.mem_append] at mem
      rcases mem with trimmed | left
      · exact .inr (.inl (List.mem_append_right _ (careful trimmed)))
      · refine .inr (.inr (.inr ⟨up, ?_⟩))
        rw [list_ltrim]
        exact left

theorem writeChunks_ahead (sound : s.Sound) {chunks : List Record} (known : chunks ⊆ s.log) :
    s.Ahead (s.writeChunks chunks) := by
  have row {b : Record} (mem : b ∈ s.overflow ∨ b ∈ chunks) : b ∈ (s.writeChunks chunks).overflow := by
    refine mem_putAll mem fun a new same => ?_
    exact sound.increasing.inj (known new) (mem.elim (fun h => sound.overflow h) (known ·)) same
  refine sound.ahead rfl (Nat.le_refl _) ?_ ?_
  · rintro b (mem | mem | mem | mem)
    · exact (of_mem_putAll mem).elim (fun old => sound.overflow old) (fun new => known new)
    · exact sound.moving (List.mem_filter.mp mem).1
    · exact sound.memory mem
    · exact sound.list mem
  · rintro b (mem | mem | mem | mem)
    · exact .inl (row (.inl mem))
    · by_cases written : b ∈ chunks
      · exact .inl (row (.inr written))
      · exact .inr (.inl (List.mem_filter.mpr ⟨mem, by simpa using written⟩))
    · exact .inr (.inr (.inl mem))
    · exact .inr (.inr (.inr mem))

/-- Redis may be left where its list holds nothing that is nowhere else. -/
theorem markRedisDown_ahead (sound : s.Sound)
    (careful : s.redisAvailable = true → s.list ⊆ s.overflow) : s.Ahead s.markRedisDown := by
  refine sound.ahead rfl (Nat.le_refl _) (sound.held ·) ?_
  rintro b (mem | mem | ⟨down, mem⟩ | ⟨up, mem⟩)
  · exact .inl mem
  · exact .inr (.inl mem)
  · exact .inr (.inr (.inl ⟨rfl, mem⟩))
  · exact .inl (careful up mem)

theorem fallBack_ahead (sound : s.Sound) (known : r ∈ s.log)
    (careful : s.redisAvailable = true → ∀ b ∈ s.list, b = r ∨ b ∈ s.overflow) :
    s.Ahead (s.markRedisDown.memAppend config r) := by
  have here : r ∈ (s.markRedisDown.memAppend config r).memEntries := by
    rw [memEntries_memAppend]
    exact List.mem_append_right _ (List.mem_singleton_self r)
  refine sound.ahead rfl (Nat.le_refl _) ?_ ?_
  · intro b mem
    rw [memEntries_memAppend, List.mem_append, List.mem_singleton] at mem
    rcases mem with mem | mem | (mem | rfl) | mem
    · exact sound.overflow mem
    · exact sound.moving mem
    · exact sound.memory mem
    · exact known
    · exact sound.list mem
  · rintro b (mem | mem | ⟨-, mem⟩ | ⟨up, mem⟩)
    · exact .inl mem
    · exact .inr (.inl mem)
    · refine .inr (.inr (.inl ⟨rfl, ?_⟩))
      rw [memEntries_memAppend]
      exact List.mem_append_left _ mem
    · rcases careful up b mem with rfl | stored
      · exact .inr (.inr (.inl ⟨rfl, here⟩))
      · exact .inl stored

end Store

def Kept (s s' : Store) : Prop := s.Sound → s.Ahead s'

theorem Kept.refl (s : Store) : Kept s s := Store.Sound.refl

theorem Kept.trans (s₁ s₂ s₃ : Store) (h : Kept s₁ s₂) (h' : Kept s₂ s₃) : Kept s₁ s₃ :=
  fun sound => (h sound).trans (h' (h sound).sound)

variable {config} {s s' : Store}

/-- A command that fails may do what it does when it does not. -/
theorem serve_ahead {op : Op} (sound : s.Sound) (known : op.passes ⊆ s.log)
    (careful : op.Careful s ∨ op.isRedis = true ∧ op.isTrim = false) :
    s.Ahead (serve config op s).2 := by
  cases op with
  | enter type data => exact Store.enter_ahead sound type data
  | rpush r => exact Store.rpush_ahead sound (known (List.mem_singleton_self r))
  | expire => exact Store.expire_ahead sound
  | ltrim start read =>
    exact Store.ltrim_ahead sound known (careful.resolve_right fun h => Bool.noConfusion h.2)
  | writeChunks chunks => exact Store.writeChunks_ahead sound known
  | fallBack r =>
    exact Store.fallBack_ahead sound (known (List.mem_singleton_self r))
      (careful.resolve_right fun h => Bool.noConfusion h.1)
  | fallBackRead after =>
    exact Store.markRedisDown_ahead sound (careful.resolve_right fun h => Bool.noConfusion h.1)
  | llen | lrange | hot | readChunks => exact sound.refl

theorem answer_ahead {op : Op} {r : Except Raised op.Answer} (sound : s.Sound)
    (known : op.passes ⊆ s.log) (h : Answer config False op s r s') : s.Ahead s' := by
  rcases h with ⟨careful, served⟩ | ⟨redis, -, rfl | ⟨untrimmed, rfl⟩⟩
  · obtain ⟨-, rfl⟩ := Prod.mk.inj served
    exact serve_ahead sound known (.inl (careful.resolve_left id))
  · exact sound.refl
  · exact serve_ahead sound known (.inr ⟨redis, untrimmed.resolve_left id⟩)

theorem wait_ahead (sound : s.Sound) {time : Nat} (kept : (s.wait time).lapsed = s.lapsed) :
    s.Ahead (s.wait time) := by
  have nothing : s.memEntries.filter (fun r => r ∉ (s.wait time).memEntries) = [] ∧
      s.list.filter (fun r => r ∉ (s.wait time).list) = [] := by
    change s.lapsed ++ _ ++ _ = s.lapsed at kept
    rw [List.append_assoc, List.append_right_eq_self, List.append_eq_nil_iff] at kept
    exact kept
  obtain ⟨memory, list⟩ := nothing
  simp only [List.filter_eq_nil_iff, decide_eq_true_eq, not_not] at memory list
  refine sound.ahead rfl (Nat.le_refl _) ?_ ?_
  · intro r mem
    refine sound.held r (mem.imp id (Or.imp id (Or.imp ?_ ?_)))
    · exact fun mem => (s.memEntries_wait time).elim (fun same => same ▸ mem)
        fun gone => by simp [gone] at mem
    · exact fun mem => (s.list_wait time).elim (fun same => same ▸ mem)
        fun gone => by simp [gone] at mem
  · rintro r (mem | mem | ⟨down, mem⟩ | ⟨up, mem⟩)
    · exact .inl mem
    · exact .inr (.inl mem)
    · exact .inr (.inr (.inl ⟨down, memory r mem⟩))
    · exact .inr (.inr (.inr ⟨up, list r mem⟩))

theorem Moves.kept (h : Moves False s s') : Kept s s' := by
  intro sound
  rcases h with rfl | ⟨time, rfl, kept⟩ | ⟨rfl, careful⟩
  · exact sound.ahead rfl (Nat.le_succ _) (sound.held ·) fun r placed => placed
  · exact wait_ahead sound (kept.resolve_left id)
  · exact Store.markRedisDown_ahead sound (careful.resolve_left id)

/-! ## Appends -/

/-- An append of the record with this id has returned, and the record can be found. -/
def Returned (s : Store) (id : Nat) : Prop := ∃ r ∈ s.log, r.id = id ∧ s.Placed r

theorem Store.Ahead.returned {id : Nat} (ahead : s.Ahead s') (h : Returned s id) :
    Returned s' id := by
  obtain ⟨r, mem, same, placed⟩ := h
  exact ⟨r, ahead.log mem, same, ahead.placed r placed⟩

/-- What an append that has ended says about the store. -/
def Ended (o : Except Raised Nat) (s : Store) : Prop := ∀ id, o = .ok id → Returned s id

abbrev SafeAt {α : Type} (config : Config) (action : Action α) (Q : Except Raised α → Store → Prop)
    (s : Store) : Prop :=
  action.Safe (Answer config False) Kept Kept () (fun o _ => Q o) s

/-- A call in a sound store, with what follows it. -/
theorem safe_op {α : Type} (op : Op) {k : op.Answer → Action α} {Q : Except Raised α → Store → Prop}
    (sound : s.Sound) (known : op.passes ⊆ s.log)
    (ok : ∀ s₁ a s₂, s.Ahead s₁ → Answer config False op s₁ (.ok a) s₂ → s.Ahead s₂ →
      SafeAt config (k a) Q s₂)
    (error : ∀ e s₂, s.Ahead s₂ → Q (.error e) s₂) :
    SafeAt config (Coro.call (I := Calls) op >>= k) Q s := by
  refine Coro.safe_call_bind (I := Calls) op ?_
  intro s₁ moved r s₂ answer
  have first := moved sound
  have second := answer_ahead first.sound (fun b mem => first.log (known mem)) answer
  refine ⟨fun _ => second, ?_, ?_⟩
  · rintro a rfl
    exact ok s₁ a s₂ first answer (first.trans second)
  · rintro e -
    exact error e s₂ (first.trans second)

/-- What a call that did not fail does. -/
theorem Answer.ok {op : Op} {a : op.Answer} (h : Answer config False op s (.ok a) s') :
    op.Careful s ∧ (.ok a, s') = serve config op s := by
  rcases h with ⟨careful, served⟩ | ⟨-, ⟨message, failed⟩, -⟩
  · exact ⟨careful.resolve_left id, served⟩
  · cases failed

theorem excepting_safe {α : Type} {body handler : Action α} {P Q : Except Raised α → Store → Prop}
    (h : SafeAt config body P s) (ok : ∀ a s', P (.ok a) s' → Q (.ok a) s')
    (error : ∀ e s', P (.error e) s' → Q (.error e) s')
    (handled : ∀ e s', P (.error e) s' → SafeAt config handler Q s') :
    SafeAt config (excepting body handler) Q s := by
  refine Coro.Safe.tryCatch h (fun a _ s' => ok a s') fun e v s' failed => ?_
  split
  · exact handled e s' failed
  · exact error e s' failed

theorem spillOverflow_safe (sound : s.Sound) {spills : List Record} (known : spills ⊆ s.log) :
    SafeAt config (spillOverflow config spills) (fun _ s' => s.Ahead s') s := by
  unfold spillOverflow
  split
  · exact sound.refl
  · split
    · refine excepting_safe (P := fun _ s' => s.Ahead s') ?_ (fun _ _ => id) (fun _ _ => id)
        fun e s' ahead => ahead
      exact safe_op (.writeChunks spills) sound known (fun _ _ _ _ _ ahead => ahead)
        fun _ _ ahead => ahead
    · exact sound.refl

theorem trimRedis_safe (sound : s.Sound) :
    SafeAt config (trimRedis config) (fun _ s' => s.Ahead s') s := by
  unfold trimRedis
  split
  · exact sound.refl
  · refine safe_op .llen sound (List.nil_subset _) ?_ fun _ _ ahead => ahead
    intro _ size s₁ _ _ ahead₁
    split
    · refine safe_op (.lrange _) ahead₁.sound (List.nil_subset _) ?_
        fun _ _ ahead => ahead₁.trans ahead
      intro s₂ (read : List Record) s₃ ahead₂ answer ahead₃
      -- what was read is in the list, so it was appended
      have read_log : read ⊆ s₃.log := by
        obtain ⟨-, served⟩ := answer.ok
        obtain ⟨same, rfl⟩ := Prod.mk.inj served
        cases same
        exact fun b mem => ahead₂.sound.list (List.mem_of_mem_take mem)
      refine safe_op (.ltrim _ _) ahead₃.sound read_log ?_
        fun _ _ ahead => ahead₁.trans (ahead₃.trans ahead)
      intro _ _ s₄ _ _ ahead₄
      have later := ahead₁.trans (ahead₃.trans ahead₄)
      exact Coro.Safe.mono (spillOverflow_safe ahead₄.sound fun b mem => ahead₄.log (read_log mem))
        fun _ _ _ ahead => later.trans ahead
    · exact ahead₁

/-- What an append knows once its record is made. -/
theorem entered {type : String} {data : Data} {a : Record × Option (List Record)} (sound : s.Sound)
    (h : (s.enter config type data).1 = a) :
    a.1 ∈ (s.enter config type data).2.log ∧ ∀ spills, a.2 = some spills →
      spills ⊆ (s.enter config type data).2.log ∧ (s.enter config type data).2.Placed a.1 := by
  subst h
  have counted := Store.count_ahead sound type data
  have made : s.record type data ∈ (s.count type data).log :=
    List.mem_append_right _ (List.mem_singleton_self _)
  unfold Store.enter
  split
  · exact ⟨made, fun _ none_ => by cases none_⟩
  next down =>
    have kept := @Store.memAppend_ahead config _ _ counted.sound made
    have spilled := @Store.memSpill_ahead config _ kept.sound
    refine ⟨made, ?_⟩
    rintro spills ⟨⟩
    refine ⟨fun b mem => kept.sound.memory (List.mem_of_mem_take mem), spilled.placed _ ?_⟩
    refine .inr (.inr (.inl ⟨Bool.eq_false_iff.mpr down, ?_⟩))
    rw [Store.memEntries_memAppend]
    exact List.mem_append_right _ (List.mem_singleton_self _)

theorem append_safe (type : String) (data : Data) (sound : s.Sound) :
    SafeAt config (append config type data) Ended s := by
  refine safe_op (.enter type data) sound (List.nil_subset _) ?_ fun e s' _ id h => by cases h
  rintro s₁ ⟨r, spilled⟩ s₂ ahead₁ answer ahead₂
  obtain ⟨-, served⟩ := answer.ok
  obtain ⟨same, rfl⟩ := Prod.mk.inj served
  obtain ⟨made, memory⟩ := entered ahead₁.sound (Except.ok.inj same).symm
  have returned {s' : Store} (ahead : (s₁.enter config type data).2.Ahead s') (placed : s'.Placed r) :
      Ended (.ok r.id) s' := by
    rintro id ⟨⟩
    exact ⟨r, ahead.log made, rfl, placed⟩
  cases spilled with
  | some spills =>
    obtain ⟨known, placed⟩ := memory spills rfl
    refine Coro.Safe.bind (spillOverflow_safe ahead₂.sound known) ?_ fun e _ _ _ id h => by cases h
    intro _ _ s₃ ahead₃
    exact returned ahead₃ (ahead₃.placed r placed)
  | none =>
    refine excepting_safe (P := fun o s' => (s₁.enter config type data).2.Ahead s' ∧ Ended o s') ?_
      (fun _ _ h => h.2) (fun _ _ h => h.2) ?_
    · refine safe_op (.rpush r) ahead₂.sound (by simpa [Op.passes] using made) ?_
        fun e s' ahead => ⟨ahead, fun id h => by cases h⟩
      intro s₃ _ s₄ ahead₃ answer ahead₄
      obtain ⟨up, served⟩ := answer.ok
      obtain ⟨-, rfl⟩ := Prod.mk.inj served
      have placed : (s₃.rpush r).Placed r := by
        refine .inr (.inr (.inr ⟨up, ?_⟩))
        rw [Store.list_rpush]
        exact List.mem_append_right _ (List.mem_singleton_self _)
      refine safe_op .expire ahead₄.sound (List.nil_subset _) ?_
        fun e s' ahead => ⟨ahead₄.trans ahead, fun id h => by cases h⟩
      intro _ _ s₅ _ _ ahead₅
      refine Coro.Safe.bind (trimRedis_safe ahead₅.sound) ?_ ?_
      · intro _ _ s₆ ahead₆
        have later := ahead₄.trans (ahead₅.trans ahead₆)
        exact ⟨later, returned later (ahead₆.placed r (ahead₅.placed r placed))⟩
      · intro e _ s₆ ahead₆
        exact ⟨ahead₄.trans (ahead₅.trans ahead₆), fun id h => by cases h⟩
    · rintro e s' ⟨ahead, -⟩
      intro s₃ moved _ s₄ answer
      have ahead₃ := moved ahead.sound
      have known : r ∈ s₃.log := ahead₃.log (ahead.log made)
      have ahead₄ := answer_ahead ahead₃.sound (by simpa [Op.passes] using known) answer
      refine ⟨fun _ => ahead₄, returned (ahead.trans (ahead₃.trans ahead₄)) ?_⟩
      have kept : s₄ = s₃.markRedisDown.memAppend config r := by
        rcases answer with ⟨-, served⟩ | ⟨redis, -, -⟩
        · exact (Prod.mk.inj served).2
        · cases redis
      rw [kept]
      refine .inr (.inr (.inl ⟨rfl, ?_⟩))
      rw [Store.memEntries_memAppend]
      exact List.mem_append_right _ (List.mem_singleton_self _)

/-! ## What is on its way -/

/-- What a call took from the hot tier to be written. -/
def takes : (op : Op) → Except Raised op.Answer → List Record
  | .enter .., .ok (_, some spills) => spills
  | .ltrim _ read, .ok () => read
  | _, _ => []

section

variable {ω ω' : Type}

/-- What a task is about to write. -/
def writes : Tree Calls Raised ω → List Record
  | .await (.writeChunks chunks) _ => chunks
  | _ => []

/-- What a call takes, the call that follows it writes. -/
def Hands : Tree Calls Raised ω → Prop
  | .done _ => True
  | .await op k => ∀ r, takes op r ⊆ writes (k r) ∧ Hands (k r)

theorem writes_bind (c : Tree Calls Raised ω) (k : ω → Tree Calls Raised ω') :
    writes c ⊆ writes (c.bind k) := by
  cases c with
  | done w => exact List.nil_subset _
  | await op c => cases op <;> exact fun _ => id

theorem Hands.bind {c : Tree Calls Raised ω} {k : ω → Tree Calls Raised ω'} (h : Hands c)
    (next : ∀ w, Hands (k w)) : Hands (c.bind k) := by
  induction c with
  | done w => exact next w
  | await op c ih => exact fun r => ⟨fun b mem => writes_bind _ k ((h r).1 mem), ih r (h r).2⟩

end

namespace Hands

variable {α β : Type}

theorem seq {c : Action α} {k : α → Action β} (h : Hands (c ())) (next : ∀ a, Hands (k a ())) :
    Hands ((c >>= k) ()) := by
  refine h.bind ?_
  rintro ⟨_ | a, -⟩
  · trivial
  · exact next a

theorem excepting {body handler : Action α} (h : Hands (body ())) (caught : Hands (handler ())) :
    Hands (excepting body handler ()) := by
  refine h.bind ?_
  rintro ⟨e | a, -⟩
  · change Hands ((if e.isException then handler else throw e) ())
    split
    · exact caught
    · trivial
  · trivial

/-- A call that takes nothing. -/
theorem call {op : Op} (quiet : ∀ r, takes op r = []) :
    Hands ((Coro.call (I := Calls) op : Action op.Answer) ()) :=
  fun r => ⟨by simp [quiet r], trivial⟩

/-- A call that takes something, with what follows it. -/
theorem take {op : Op} {k : op.Answer → Action β} (failed : ∀ e, takes op (.error e) = [])
    (handed : ∀ a, takes op (.ok a) ⊆ writes (k a ())) (next : ∀ a, Hands (k a ())) :
    Hands ((Coro.call (I := Calls) op >>= k) ()) := by
  rintro (e | a)
  · exact ⟨by simp [failed e], trivial⟩
  · exact ⟨handed a, next a⟩

end Hands

theorem spillOverflow_hands (spills : List Record) : Hands (spillOverflow config spills ()) := by
  unfold spillOverflow
  split
  · trivial
  · split
    · exact .excepting (.seq (.call fun _ => rfl) fun _ => trivial) trivial
    · trivial

theorem spillOverflow_writes (stored : config.db = true) (spills : List Record) :
    spills ⊆ writes (spillOverflow config spills ()) := by
  unfold spillOverflow
  by_cases none_ : spills = []
  · simp [none_]
  · rw [if_neg none_, if_pos stored]
    exact fun _ => id

theorem trimRedis_hands (stored : config.db = true) : Hands (trimRedis config ()) := by
  unfold trimRedis
  split
  · trivial
  · refine .seq (.call fun _ => rfl) fun size => ?_
    split
    · refine .seq (.call fun _ => rfl) fun read => ?_
      refine .take (fun _ => rfl) (fun _ => ?_) fun _ => spillOverflow_hands read
      exact spillOverflow_writes stored read
    · trivial

theorem append_hands (stored : config.db = true) (type : String) (data : Data) :
    Hands (append config type data ()) := by
  refine .take (fun _ => rfl) ?_ ?_
  · rintro ⟨r, _ | spills⟩
    · exact List.nil_subset _
    · exact fun b mem => writes_bind _ _ (spillOverflow_writes stored spills mem)
  · rintro ⟨r, _ | spills⟩
    · refine .excepting (.seq (.call fun _ => rfl) fun _ => .seq (.call fun _ => rfl) fun _ =>
        .seq (trimRedis_hands stored) fun _ => trivial) ?_
      exact fun r => ⟨List.nil_subset _, trivial⟩
    · exact .seq (spillOverflow_hands spills) fun _ => trivial

/-- A call moves what it takes, and what is written has arrived. -/
theorem answer_moves {op : Op} {r : Except Raised op.Answer} (h : Answer config False op s r s')
    {b : Record} (moving : b ∈ s'.moving) :
    b ∈ s.moving ∧ (∀ chunks, op = .writeChunks chunks → b ∉ chunks) ∨ b ∈ takes op r := by
  have same (eq : s'.moving = s.moving) (other : ∀ chunks, op ≠ .writeChunks chunks) :
      b ∈ s.moving ∧ ∀ chunks, op = .writeChunks chunks → b ∉ chunks :=
    ⟨eq ▸ moving, fun chunks is => absurd is (other chunks)⟩
  rcases h with ⟨-, served⟩ | ⟨redis, -, rfl | ⟨untrimmed, rfl⟩⟩
  · obtain ⟨rfl, rfl⟩ := Prod.mk.inj served
    cases op with
    | enter type data =>
      change b ∈ (s.enter config type data).2.moving at moving
      unfold Store.enter at moving
      split at moving
      · exact .inl ⟨moving, fun _ is => by cases is⟩
      next down =>
        rcases List.mem_append.mp moving with old | spilled
        · exact .inl ⟨old, fun _ is => by cases is⟩
        · refine .inr ?_
          simpa [serve, Store.enter, down, takes] using spilled
    | ltrim start read =>
      rcases List.mem_append.mp moving with old | trimmed
      · exact .inl ⟨old, fun _ is => by cases is⟩
      · exact .inr trimmed
    | writeChunks chunks =>
      obtain ⟨old, other⟩ := List.mem_filter.mp moving
      refine .inl ⟨old, ?_⟩
      rintro _ ⟨⟩
      simpa using other
    | rpush | expire | llen | lrange | fallBack | hot | fallBackRead | readChunks =>
      exact .inl (same rfl fun _ is => by cases is)
  · refine .inl (same rfl ?_)
    rintro chunks rfl
    cases redis
  · refine .inl (same ?_ ?_)
    · cases op with
      | rpush | expire | llen | lrange => rfl
      | ltrim => exact absurd (untrimmed.resolve_left id) (by simp [Op.isTrim])
      | enter | writeChunks | fallBack | hot | fallBackRead | readChunks => cases redis
    · rintro chunks rfl
      cases redis

/-- In a run in which no append dies, what is moving is with the append that will write it. -/
theorem moving_run (stored : config.db = true) {init s : World} (empty : init.tasks = [])
    (still : init.store.moving = []) (run : Run config False init s) :
    ∀ r ∈ s.store.moving, ∃ task ∈ s.tasks, r ∈ writes task := by
  refine (Shared.custody_run (fun (s : Store) r => r ∈ s.moving) (fun task r => r ∈ writes task)
    Hands ?_ ?_ ?_ empty (by simp [still]) run).2
  · rintro a b (rfl | ⟨time, rfl, -⟩ | ⟨rfl, -⟩) r moving <;> exact moving
  · rintro s body ⟨type, data, rfl⟩
    exact append_hands stored type data
  · intro op k hands s r s' answer
    refine ⟨(hands r).2, fun b moving => ?_⟩
    rcases answer_moves answer moving with ⟨old, other⟩ | taken
    · refine .inl ⟨old, fun written => ?_⟩
      cases op with
      | writeChunks chunks => exact other chunks rfl written
      | _ => simp [writes] at written
    · exact .inr ((hands r).1 taken)

/-! ## Runs -/

/-- A replay from the start returns what is placed and not moving. -/
theorem replay_placed (stored : config.db = true) (sound : s.Sound) (still : s.moving = []) :
    ∃ records s', (replay config 0).Gives (serve config) () s records s' ∧
      ∀ r, s.Placed r → r ∈ records := by
  obtain ⟨s₁, hot, same⟩ := @readHot_gives config 0 s
  set read := if s.redisAvailable then s.hot else s.hot.filter fun r => 0 < r.id
  refine ⟨_, s₁, .bind hot (.bind (readOverflow_gives stored 0 s₁) (.pure _)), ?_⟩
  have rows (r : Record) : r ∈ s₁.readChunks 0 ↔ r ∈ s.overflow := by
    rw [Store.readChunks, mem_sorted, same, List.mem_filter]
    exact ⟨And.left, fun mem => ⟨mem, by simpa using (sound.ids r (sound.overflow mem)).1⟩⟩
  have hot_log (r : Record) (mem : r ∈ s.hot) : r ∈ s.log := by
    unfold Store.hot at mem
    split at mem
    · exact sound.list mem
    · exact sound.memory mem
  have read_iff (r : Record) : r ∈ read ↔ r ∈ s.hot := by
    simp only [read]
    split
    · exact Iff.rfl
    · rw [List.mem_filter]
      exact ⟨And.left, fun mem => ⟨mem, by simpa using (sound.ids r (hot_log r mem)).1⟩⟩
  intro r placed
  have found : r ∈ s₁.readChunks 0 ∨ r ∈ read := by
    rw [rows, read_iff, Store.hot]
    rcases placed with mem | mem | ⟨down, mem⟩ | ⟨up, mem⟩
    · exact .inl mem
    · simp [still] at mem
    · exact .inr (by simpa [down] using mem)
    · exact .inr (by simpa [up] using mem)
  have known (a : Record) (mem : a ∈ s₁.readChunks 0 ∨ a ∈ read) : a ∈ s.log := by
    rw [rows, read_iff] at mem
    exact mem.elim (fun mem => sound.overflow mem) (hot_log a)
  rw [merge, mem_sorted]
  refine mem_putAllNew ?_ fun a mem same => sound.increasing.inj (known a ?_) (known r found) same
  · refine found.imp_left fun stored => mem_putAll (.inr stored) fun a mem same => ?_
    exact sound.increasing.inj (known a (.inl mem)) (known r found) same
  · exact mem.imp_left fun mem => (of_mem_putAll mem).resolve_left List.not_mem_nil

/-- Every record that an append returned is in what a replay from the start returns, when the
appends have ended, in every run whose steps are careful. -/
theorem returned_replayed (stored : config.db = true) {up : Bool} {seq : Nat} {s : World}
    (run : Run config False (fresh up seq) s) (idle : s.idle) :
    ∃ records s', (replay config 0).Gives (serve config) () s.store records s' ∧
      ∀ id, Tree.done (.ok id, ()) ∈ s.tasks →
        ∃ r ∈ s.store.log, r.id = id ∧ r ∈ records := by
  have steps : Relation.ReflTransGen (Shared.Step (Answer config False) (Moves False)
      (Starts config)) (fresh up seq) s := run.lift id fun _ _ step => step.1
  have sound : (fresh up seq).store.Sound := by
    constructor <;> simp [fresh, Store.memEntries, Store.memGet, Store.list]
  have stable (w : Except Raised Nat × Unit) (a b : Store) (moved : Kept a b) (sound : a.Sound)
      (ended : Ended w.1 a) : Ended w.1 b := fun id ok => (moved sound).returned (ended id ok)
  have starts (s : World) (body : Task) (begins : Starts config s body) (sound : s.store.Sound) :
      body.Safe (Answer config False) Kept Kept (fun w => Ended w.1) s.store := by
    obtain ⟨type, data, same⟩ := begins
    exact same ▸ append_safe type data sound
  obtain ⟨sound, ended⟩ := Shared.concurrent_ended Store.Sound
    (fun a b (h : Moves False a b) => h.kept) Kept.refl Kept.trans
    (fun a b (h : Kept a b) sound => (h sound).sound) stable
    starts rfl sound steps
  have still : s.store.moving = [] := by
    rw [List.eq_nil_iff_forall_not_mem]
    intro r moving
    obtain ⟨task, mem, carries⟩ := moving_run stored rfl rfl run r moving
    cases task with
    | done w => simp [writes] at carries
    | await op k => cases idle _ mem
  obtain ⟨records, s', gives, all⟩ := replay_placed stored sound still
  refine ⟨records, s', gives, fun id done => ?_⟩
  obtain ⟨r, mem, same, placed⟩ := ended _ done id rfl
  exact ⟨r, mem, same, all r placed⟩

theorem returned_replayed_one : ∃ records s', (replay {} 0).Gives (I := Calls) (serve {}) ()
    (run {} true 0 [.append "delta" "a"]) records s' ∧
      ∀ id, Tree.done (.ok id, ()) ∈ [(Tree.done (.ok 1, ()) : Task)] →
        ∃ r ∈ (run {} true 0 [.append "delta" "a"]).log, r.id = id ∧ r ∈ records := by
  let s₁ : World := { fresh true 0 with tasks := [append {} "delta" "a" ()] }
  have start : Shared.Steady (Answer {} False) (Moves False) (Starts {}) (fresh true 0) s₁ :=
    ⟨.start _ _ ⟨"delta", "a", rfl⟩, Nat.zero_le _⟩
  have call (store : Store) (op : Op) (k : Except Raised op.Answer → Task)
      (careful : op.Careful store) :
      Shared.Steady (Answer {} False) (Moves False) (Starts {}) ⟨store, [.await op k]⟩
        ⟨(serve {} op store).2, [k (serve {} op store).1]⟩ := by
    have here : ([.await op k] : List Task)[0]? = some (.await op k) := rfl
    exact ⟨.answer (I := Calls) (⟨store, [.await op k]⟩ : World) 0 op k here (serve {} op store).1
      (serve {} op store).2 (.inl ⟨.inr careful, rfl⟩), Nat.le_refl _⟩
  have entered : Run {} False (fresh true 0) ⟨_, _⟩ :=
    (Relation.ReflTransGen.single start).tail (call _ (.enter "delta" "a") _ trivial)
  have pushed : Run {} False (fresh true 0) ⟨_, _⟩ :=
    entered.tail (call _ (.rpush ⟨1, "delta", "a"⟩) _ rfl)
  have expired : Run {} False (fresh true 0) ⟨_, [.done (.ok 1, ())]⟩ :=
    pushed.tail (call _ .expire _ trivial)
  refine returned_replayed rfl expired fun task mem => ?_
  rw [List.mem_singleton.mp mem]
  rfl

/-! ## What is lost -/

/-- Every command is answered but the push of the record that `failing` names. -/
def answerBut (config : Config) (failing : Nat) : (op : Op) → Store → Except Raised op.Answer × Store
  | .rpush r, s =>
    if r.id = failing then (.error (.exception "Connection reset by peer"), s)
    else serve config (.rpush r) s
  | op, s => serve config op s

theorem answerBut_answer (config : Config) (failing : Nat) (op : Op) (s : Store) :
    Answer config True op s (answerBut config failing op s).1 (answerBut config failing op s).2 := by
  cases op with
  | rpush r =>
    simp only [answerBut]
    split
    · exact .inr ⟨rfl, ⟨_, rfl⟩, .inl rfl⟩
    · exact .inl ⟨.inl trivial, rfl⟩
  | _ => exact .inl ⟨.inl trivial, rfl⟩

/-- The world in which append `i` made its next `n` calls. -/
def proceed (config : Config) (failing n i : Nat) (s : World) : World :=
  match s.tasks[i]? with
  | some c =>
    ⟨(c.advance (I := Calls) (answerBut config failing) n s.store).2,
      s.tasks.set i (c.advance (I := Calls) (answerBut config failing) n s.store).1⟩
  | none => s

theorem proceed_run (config : Config) (failing n i : Nat) (s : World) :
    Run config True s (proceed config failing n i s) := by
  unfold proceed
  split
  next c here =>
    exact Shared.advance_steady _ _ (answerBut_answer config failing) n c s.store here
  next => exact .refl

/-- The world in which an append starts. -/
def started (config : Config) (data : Data) (s : World) : World :=
  { s with tasks := s.tasks ++ [append config "delta" data ()] }

theorem started_run (config : Config) (data : Data) (s : World) :
    Run config True s (started config data s) :=
  .single ⟨.start s _ ⟨"delta", data, rfl⟩, by simp [started]⟩

/-- Redis fails the second of two appends: the first is in its list, where no replay looks. -/
theorem first_lost : ∃ s : World, Run {} True (fresh true 0) s ∧ s.idle ∧
    Tree.done (.ok 1, ()) ∈ s.tasks ∧ ∃ s', (replay {} 0).Gives (I := Calls) (serve {}) () s.store
      [⟨2, "delta", "b"⟩] s' := by
  let s := proceed {} 2 3 1 (started {} "b" (proceed {} 2 3 0 (started {} "a" (fresh true 0))))
  refine ⟨s, ?_, ?_, ?_, ?_⟩
  · exact (started_run {} "a" _).trans ((proceed_run {} 2 3 0 _).trans
      ((started_run {} "b" _).trans (proceed_run {} 2 3 1 _)))
  · intro task mem
    have tasks : s.tasks = [.done (.ok 1, ()), .done (.ok 2, ())] := rfl
    rw [tasks] at mem
    simp only [List.mem_cons, List.not_mem_nil, or_false] at mem
    rcases mem with rfl | rfl <;> rfl
  · exact List.mem_cons_self
  · exact ⟨_, rfl⟩

end AgentStudio.Stream
