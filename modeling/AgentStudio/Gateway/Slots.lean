import AgentStudio.Gateway.Admission

/-!
# What the Redis counter counts

A counter counts the increments of its present life that are not taken back. As long
as no call takes back an increment that was lost with the key, its value is their
number, so it is not negative, and of one life there are no more slots than the limit.
-/

namespace AgentStudio.Admission

open Async

/-- The increment of call `i` is counted: the key has not expired since. -/
def Counter.Counts (c : Counter) (i : ℕ) : Prop := i ∈ c.slots ∨ i ∈ c.refused

namespace Counter

variable {limit i j : ℕ} {c : Counter}

theorem incr_granted (below : c.value + 1 ≤ limit) : c.incr limit i =
    { c with value := c.value + 1, leased := true, slots := insert i c.slots } := if_pos below

theorem incr_refused (above : limit < c.value + 1) : c.incr limit i =
    { c with value := c.value + 1, leased := true, refused := insert i c.refused } :=
  if_neg (not_le.mpr above)

/-- Another call's increment is no part of one's own. -/
theorem incr_other (other : j ≠ i) : (j ∈ (c.incr limit i).slots ↔ j ∈ c.slots) ∧
    (j ∈ (c.incr limit i).refused ↔ j ∈ c.refused) ∧ (c.incr limit i).expired = c.expired := by
  unfold incr
  split <;> simp [other]

/-- The value is the number of increments that are counted, and there are slots for no more
than the limit. -/
structure Exact (limit : ℕ) (c : Counter) : Prop where
  value : c.value = c.slots.card + c.refused.card
  slots : c.slots.card ≤ limit

theorem Exact.incr (h : c.Exact limit) (new : ¬ c.Counts i) : (c.incr limit i).Exact limit := by
  obtain ⟨fresh, fresh'⟩ := not_or.mp new
  have value := h.value
  by_cases below : c.value + 1 ≤ limit
  · rw [incr_granted below]
    constructor
    · simp only [Finset.card_insert_of_notMem fresh]
      omega
    · simp only [Finset.card_insert_of_notMem fresh]
      omega
  · rw [incr_refused (not_le.mp below)]
    refine ⟨?_, h.slots⟩
    simp only [Finset.card_insert_of_notMem fresh']
    omega

/-- What is taken back once is counted once. -/
theorem card_decr (counts : c.Counts i) (apart : ¬ (i ∈ c.slots ∧ i ∈ c.refused)) :
    ((c.decr i).slots.card : ℤ) + (c.decr i).refused.card = c.slots.card + c.refused.card - 1 := by
  have one {s : Finset ℕ} (mem : i ∈ s) : ((s.erase i).card : ℤ) = s.card - 1 := by
    have := Finset.card_pos.mpr ⟨i, mem⟩
    rw [Finset.card_erase_of_mem mem]
    omega
  rcases counts with mem | mem
  · have absent : i ∉ c.refused := fun mem' => apart ⟨mem, mem'⟩
    simp only [decr, one mem, Finset.erase_eq_of_notMem absent]
    omega
  · have absent : i ∉ c.slots := fun mem' => apart ⟨mem', mem⟩
    simp only [decr, one mem, Finset.erase_eq_of_notMem absent]
    omega

theorem Exact.decr (h : c.Exact limit) (counts : c.Counts i)
    (apart : ¬ (i ∈ c.slots ∧ i ∈ c.refused)) : (c.decr i).Exact limit := by
  constructor
  · rw [card_decr counts apart, ← h.value]
    rfl
  · exact (Finset.card_erase_le).trans h.slots

theorem Exact.expire (c : Counter) (limit : ℕ) : c.expire.Exact limit :=
  ⟨rfl, Nat.zero_le _⟩

end Counter

/-! ## What is counted for a call -/

/-- A slot is out or about to be returned. -/
def Stage.slotted : Stage → Bool
  | inUse | returning => true
  | _ => false

/-- What the counters have of a call is what its stage says. -/
structure Ticketed (gate : Gate) (i : ℕ) (call : Call) (s : Store) (stage : Stage) : Prop where
  elsewhere : ∀ key, key ≠ gate.key call.tenantId → ¬ (s.counters key).Counts i
  slot : i ∈ (s.counters (gate.key call.tenantId)).slots → stage.slotted = true
  refused : i ∈ (s.counters (gate.key call.tenantId)).refused → stage = .undoing
  kept : stage.slotted = true → i ∈ (s.counters (gate.key call.tenantId)).slots ∨
    i ∈ (s.counters (gate.key call.tenantId)).expired

/-- The same of any number: one that no call has yet is not counted. -/
def Entered (gate : Gate) (i : ℕ) : Option Admitting → Store → Prop
  | none, s => ∀ key, ¬ (s.counters key).Counts i
  | some task, s => ∃ stage, task.rest = stage.rest gate task.call.tenantId ∧
      Ticketed gate i task.call s stage

/-- The replies while Redis is up. -/
def Gate.upReplies (gate : Gate) : Pool.Replies Call Calls Raised Store := fun i call op s r s' =>
  gate.replies i call op s r s' ∧ ∀ key, op = .incr key ∨ op = .decr key → ∀ e, r ≠ .error e

/-- The replies while no call takes back an increment that is not counted any more. -/
def Gate.countedReplies (gate : Gate) : Pool.Replies Call Calls Raised Store :=
  fun i call op s r s' => gate.upReplies i call op s r s' ∧
    ∀ key, op = .decr key → (s.counters key).Counts i

section
variable {gate : Gate} {i j : ℕ} {call : Call} {s s' : Store} {stage stage' : Stage} {op : Op}
  {r : Except Raised (Calls.Ans op)} {key : String}

/-- What a call is answered while Redis is up changes the counters so. -/
theorem up_counters (reply : gate.upReplies i call op s r s') : s'.counters = s.counters ∨
    (∃ key, op = .incr key ∧ s'.counters =
      Function.update s.counters key ((s.counters key).incr gate.limit i)) ∨
    ∃ key, op = .decr key ∧ s'.counters =
      Function.update s.counters key ((s.counters key).decr i) := by
  obtain ⟨reply, up⟩ := reply
  cases op with
  | acquire =>
    cases r with
    | ok =>
      obtain ⟨-, rfl⟩ := reply
      exact .inl rfl
    | error e =>
      obtain ⟨-, rfl⟩ := reply
      exact .inl rfl
  | free =>
    obtain ⟨-, rfl⟩ := reply
    exact .inl rfl
  | use =>
    obtain ⟨-, rfl⟩ := reply
    exact .inl rfl
  | incr key =>
    cases r with
    | ok =>
      obtain ⟨-, rfl⟩ := reply
      exact .inr (.inl ⟨key, rfl, rfl⟩)
    | error e => exact absurd rfl (up key (.inl rfl) e)
  | decr key =>
    cases r with
    | ok =>
      obtain rfl : s' = _ := reply
      exact .inr (.inr ⟨key, rfl, rfl⟩)
    | error e => exact absurd rfl (up key (.inr rfl) e)

/-- And to other calls it changes nothing. -/
theorem up_others (reply : gate.upReplies i call op s r s') (other : j ≠ i) (key : String) :
    (j ∈ (s'.counters key).slots ↔ j ∈ (s.counters key).slots) ∧
      (j ∈ (s'.counters key).refused ↔ j ∈ (s.counters key).refused) ∧
      (s'.counters key).expired = (s.counters key).expired := by
  rcases up_counters reply with same | ⟨key', -, is⟩ | ⟨key', -, is⟩
  · rw [same]
    exact ⟨.rfl, .rfl, rfl⟩
  · rw [is]
    by_cases here : key = key'
    · subst here
      simpa using Counter.incr_other other
    · simp [Function.update_of_ne here]
  · rw [is]
    by_cases here : key = key'
    · subst here
      simpa [Counter.decr, other] using other
    · simp [Function.update_of_ne here]

/-- A call whose stage has no slot and nothing to undo is not counted. -/
theorem Ticketed.uncounted (h : Ticketed gate i call s stage) (unslotted : stage.slotted = false)
    (other : stage ≠ .undoing) (key : String) : ¬ (s.counters key).Counts i := by
  by_cases own : key = gate.key call.tenantId
  · subst own
    rintro (mem | mem)
    · rw [h.slot mem] at unslotted
      cases unslotted
    · exact other (h.refused mem)
  · exact h.elsewhere key own

/-- No increment is both a slot and refused. -/
theorem Ticketed.apart (h : Ticketed gate i call s stage) (key : String) :
    ¬ (i ∈ (s.counters key).slots ∧ i ∈ (s.counters key).refused) := by
  rintro ⟨slot, refused⟩
  by_cases own : key = gate.key call.tenantId
  · subst own
    have slotted := h.slot slot
    rw [h.refused refused] at slotted
    cases slotted
  · exact h.elsewhere key own (.inl slot)

theorem Ticketed.same (h : Ticketed gate i call s stage) (counters : s'.counters = s.counters)
    (slotted : stage'.slotted = stage.slotted) (undoing : stage = .undoing → stage' = .undoing) :
    Ticketed gate i call s' stage' := by
  constructor
  · exact fun key other => counters ▸ h.elsewhere key other
  · rw [counters, slotted]
    exact h.slot
  · rw [counters]
    exact fun mem => undoing (h.refused mem)
  · rw [counters, slotted]
    exact h.kept

theorem entered_apart {task : Option Admitting} (h : Entered gate i task s) (key : String) :
    ¬ (i ∈ (s.counters key).slots ∧ i ∈ (s.counters key).refused) := by
  cases task with
  | none => exact fun both => h key (.inl both.1)
  | some task =>
    obtain ⟨stage, -, ticketed⟩ := h
    exact ticketed.apart key

/-- What one answer does to what is counted for the call. -/
theorem goes_ticketed (available : gate.redisAvailable = true)
    (goes : Stage.Goes gate call.tenantId stage ⟨op, r⟩ stage')
    (reply : gate.upReplies i call op s r s') (h : Ticketed gate i call s stage) :
    Ticketed gate i call s' stage' := by
  have still (no : ∀ key, op ≠ .incr key ∧ op ≠ .decr key) : s'.counters = s.counters := by
    rcases up_counters reply with same | ⟨key, is, -⟩ | ⟨key, is, -⟩
    · exact same
    · exact absurd is (no key).1
    · exact absurd is (no key).2
  cases goes with
  | enter | turnedAway | count | waited | cancelled | give | clear | leave =>
    exact h.same (still (by simp)) rfl (by simp)
  | uncounted unavailable | giveUncounted unavailable =>
    rw [available] at unavailable
    cases unavailable
  | countFailed => exact absurd rfl (reply.2 _ (.inl rfl) _)
  | undoFailed | returnFailed => exact absurd rfl (reply.2 _ (.inr rfl) _)
  | granted below =>
    obtain ⟨⟨rfl, rfl⟩, -⟩ := reply
    simp only [Store.setCounter, Counter.incr_granted below]
    constructor
    · intro key other
      simpa [Function.update_of_ne other] using h.elsewhere key other
    · exact fun _ => rfl
    · intro mem
      simp only [Function.update_self] at mem
      cases h.refused mem
    · simp
  | refused above =>
    obtain ⟨⟨rfl, rfl⟩, -⟩ := reply
    simp only [Store.setCounter, Counter.incr_refused above]
    constructor
    · intro key other
      simpa [Function.update_of_ne other] using h.elsewhere key other
    · intro mem
      simp only [Function.update_self] at mem
      cases h.slot mem
    · exact fun _ => rfl
    · rintro ⟨⟩
  | undone | returned =>
    obtain ⟨is, -⟩ := reply
    obtain rfl : s' = _ := is
    simp only [Store.setCounter]
    constructor
    · intro key other
      simpa [Function.update_of_ne other] using h.elsewhere key other
    · simp [Counter.decr]
    · simp [Counter.decr]
    · rintro ⟨⟩

end

/-! ## Runs -/

/-- What is counted is exact, as long as it is taken back once. -/
theorem goes_exact {gate : Gate} {i : ℕ} {call : Call} {s s' : Store} {stage stage' : Stage} {op : Op}
    {r : Except Raised (Calls.Ans op)} (goes : Stage.Goes gate call.tenantId stage ⟨op, r⟩ stage')
    (reply : gate.countedReplies i call op s r s') (h : Ticketed gate i call s stage)
    (exact_ : ∀ key, (s.counters key).Exact gate.limit) (key : String) :
    (s'.counters key).Exact gate.limit := by
  obtain ⟨up, counted⟩ := reply
  rcases up_counters up with same | ⟨key', rfl, is⟩ | ⟨key', rfl, is⟩
  · rw [same]
    exact exact_ key
  · rw [is]
    by_cases here : key = key'
    · subst here
      rw [Function.update_self]
      apply (exact_ key).incr
      cases goes with
      | granted | refused | countFailed => exact h.uncounted rfl (by simp) _
    · rw [Function.update_of_ne here]
      exact exact_ key
  · rw [is]
    by_cases here : key = key'
    · subst here
      rw [Function.update_self]
      exact (exact_ key).decr (counted key rfl) (h.apart key)
    · rw [Function.update_of_ne here]
      exact exact_ key

/-- `config` with Redis up. -/
def Gate.connected (config : Config) : Gate := ⟨config, true⟩

section
variable {config : Config} {s s' : Store} {w w' : World} {tenantId : String}

theorem Ticketed.lapses {gate : Gate} {i : ℕ} {call : Call} {stage : Stage}
    (h : Ticketed gate i call s stage) (moved : Lapses s s') : Ticketed gate i call s' stage := by
  obtain ⟨key, -, rfl⟩ := moved
  simp only [Store.setCounter]
  constructor
  · intro key' other
    by_cases here : key' = key
    · subst here
      simp [Counter.expire, Counter.Counts]
    · simpa [Function.update_of_ne here] using h.elsewhere key' other
  all_goals by_cases own : gate.key call.tenantId = key
  · simp [own, Counter.expire]
  · simpa [Function.update_of_ne own] using h.slot
  · simp [own, Counter.expire]
  · simpa [Function.update_of_ne own] using h.refused
  · intro slotted
    have kept := h.kept slotted
    simp only [own] at kept
    simp [own, Counter.expire, kept.symm]
  · simpa [Function.update_of_ne own] using h.kept

/-- While Redis is up, what is counted for each call is what its stage says. -/
theorem entered_kept (config : Config) : Pool.Kept (Gate.connected config).upReplies Lapses
    (Gate.connected config).body (fun _ => True) (Entered (Gate.connected config)) where
  env s s' moved _ := by
    refine ⟨trivial, fun i task h => ?_⟩
    cases task with
    | none =>
      obtain ⟨key, -, rfl⟩ := moved
      intro key'
      by_cases here : key' = key
      · subst here
        simp [Store.setCounter, Counter.expire, Counter.Counts]
      · simpa [Store.setCounter, Function.update_of_ne here] using h key'
    | some task =>
      obtain ⟨stage, rest, ticketed⟩ := h
      exact ⟨stage, rest, ticketed.lapses moved⟩
  start i call s absent := by
    refine ⟨.entering, (Gate.connected config).admission_eq call.tenantId, ?_⟩
    exact ⟨fun key _ => absent key, fun mem => absurd (.inl mem) (absent _),
      fun mem => absurd (.inr mem) (absent _), nofun⟩
  own i call trace op k s r s' reply _ entered := by
    obtain ⟨stage, rest, ticketed⟩ := entered
    obtain ⟨stage', goes, next⟩ := Stage.rest_goes rest.symm r
    exact ⟨trivial, stage', next, goes_ticketed rfl goes reply ticketed⟩
  others i call op s r s' reply j other task entered := by
    cases task with
    | none =>
      intro key
      obtain ⟨slots, refused, -⟩ := up_others reply other key
      rw [Counter.Counts, slots, refused]
      exact entered key
    | some task =>
      obtain ⟨stage, rest, ticketed⟩ := entered
      refine ⟨stage, rest, fun key away => ?_, ?_, ?_, ?_⟩
      all_goals obtain ⟨slots, refused, expired⟩ :=
        up_others reply other ((Gate.connected config).key task.call.tenantId)
      · obtain ⟨slots, refused, -⟩ := up_others reply other key
        rw [Counter.Counts, slots, refused]
        exact ticketed.elsewhere key away
      · rw [slots]
        exact ticketed.slot
      · rw [refused]
        exact ticketed.refused
      · rw [slots, expired]
        exact ticketed.kept

/-- While no call takes back what is not counted, the counters are exact as well. -/
theorem exact_kept (config : Config) : Pool.Kept (Gate.connected config).countedReplies Lapses
    (Gate.connected config).body (fun s => ∀ key, (s.counters key).Exact (Gate.connected config).limit)
    (Entered (Gate.connected config)) where
  env s s' moved exact_ := by
    refine ⟨fun key' => ?_, ((entered_kept config).env s s' moved trivial).2⟩
    obtain ⟨key, -, rfl⟩ := moved
    by_cases here : key' = key
    · subst here
      simpa [Store.setCounter] using Counter.Exact.expire _ _
    · simpa [Store.setCounter, Function.update_of_ne here] using exact_ key'
  start := (entered_kept config).start
  own i call trace op k s r s' reply exact_ entered := by
    refine ⟨fun key => ?_,
      ((entered_kept config).own i call trace op k s r s' reply.1 trivial entered).2⟩
    obtain ⟨stage, rest, ticketed⟩ := entered
    obtain ⟨stage', goes, -⟩ := Stage.rest_goes rest.symm r
    exact goes_exact goes reply ticketed exact_ key
  others i call op s r s' reply := (entered_kept config).others i call op s r s' reply.1

/-- Every run from the start, with these replies. -/
def Gate.ReachableBy (gate : Gate) (replies : Pool.Replies Call Calls Raised Store) (w : World) : Prop :=
  Pool.Turns replies Lapses gate.body gate.fresh w

theorem counted_reachable
    (run : (Gate.connected config).ReachableBy (Gate.connected config).countedReplies w) :
    (∀ key, (w.store.counters key).Exact (Gate.connected config).limit) ∧
      ∀ i, Entered (Gate.connected config) i w.tasks[i]? w.store :=
  Pool.turns_kept (exact_kept config) run (fun key => ⟨rfl, Nat.zero_le _⟩)
    fun i => by simp [Gate.fresh, Entered, Counter.Counts]

/-! ## Admissions that are not released -/

/-- The handle is out. -/
def isOut : Rest → Bool
  | .await .use _ => true
  | _ => false

/-- The admissions of a tenant that are not released. -/
def unreleased (w : World) (tenantId : String) : Finset ℕ :=
  (Finset.range w.tasks.length).filter fun i =>
    (w.tasks[i]?).any fun task => task.call.tenantId == tenantId && isOut task.rest

/-- The counter of a tenant is not negative, and there are no more admissions than the limit,
those apart whose lease has expired. -/
structure Within (gate : Gate) (w : World) (tenantId : String) : Prop where
  nonneg : 0 ≤ (w.store.counters (gate.key tenantId)).value
  bound : (unreleased w tenantId).card ≤
    gate.limit + (w.store.counters (gate.key tenantId)).expired.card

/-- Who is not released has a slot, or had one when the key expired. -/
theorem unreleased_slots (entered : ∀ i, Entered (Gate.connected config) i w.tasks[i]? w.store) :
    unreleased w tenantId ⊆ (w.store.counters ((Gate.connected config).key tenantId)).slots ∪
      (w.store.counters ((Gate.connected config).key tenantId)).expired := by
  intro i mem
  obtain ⟨-, is⟩ := Finset.mem_filter.mp mem
  obtain ⟨task, here, is⟩ := (Option.any_eq_true _ _).mp is
  obtain ⟨own, out⟩ := Bool.and_eq_true_iff.mp is
  obtain ⟨stage, rest, ticketed⟩ : Entered _ i (some task) _ := here ▸ entered i
  have slotted : stage.slotted = true := by
    rw [rest] at out
    cases stage <;> first | rfl | cases out
  have kept := ticketed.kept slotted
  rw [eq_of_beq own] at kept
  exact Finset.mem_union.mpr kept

theorem counted_within
    (run : (Gate.connected config).ReachableBy (Gate.connected config).countedReplies w) :
    Within (Gate.connected config) w tenantId := by
  obtain ⟨exact_, entered⟩ := counted_reachable run
  have here := exact_ ((Gate.connected config).key tenantId)
  constructor
  · rw [here.value]
    omega
  · have slots_ : unreleased w tenantId ⊆ _ := unreleased_slots entered
    have few := Finset.card_le_card slots_
    have sum := Finset.card_union_le
      (w.store.counters ((Gate.connected config).key tenantId)).slots
      (w.store.counters ((Gate.connected config).key tenantId)).expired
    have slots := here.slots
    omega

/-! ## What follows when one increment is taken back twice -/

/-- A counted increment is taken back where the call waits to do so. -/
theorem decr_turn {key : String} {i : ℕ} {call : Call} {trace : Trace Calls Raised}
    {k : Except Raised (Calls.Ans (.decr key)) → Rest}
    (here : w.tasks[i]? = some ⟨call, trace, .await (.decr key) k⟩)
    (counts : (w.store.counters key).Counts i) : ∃ w',
      Pool.Turns (Gate.connected config).countedReplies Lapses (Gate.connected config).body w w' ∧
        w'.store.counters key = (w.store.counters key).decr i := by
  let store := w.store.setCounter key ((w.store.counters key).decr i)
  have reply : (Gate.connected config).countedReplies i call (.decr key) w.store (.ok ()) store := by
    refine ⟨⟨rfl, by simp⟩, ?_⟩
    rintro _ ⟨⟩
    exact counts
  exact ⟨_, .single (.answer w i call trace _ k here (.ok ()) store reply),
    by simp [store, Pool.resume, Store.setCounter]⟩

/-- A call that is counted can go on to where its increment is taken back. -/
theorem take_back (entered : ∀ i, Entered (Gate.connected config) i w.tasks[i]? w.store) {key : String}
    {i : ℕ} (counts : (w.store.counters key).Counts i) : ∃ w',
      Pool.Turns (Gate.connected config).countedReplies Lapses (Gate.connected config).body w w' ∧
        w'.store.counters key = (w.store.counters key).decr i := by
  have at_ := entered i
  cases here : w.tasks[i]? with
  | none =>
    rw [here] at at_
    exact absurd counts (at_ key)
  | some task =>
    rw [here] at at_
    obtain ⟨call, trace, rest⟩ := task
    obtain ⟨stage, rfl, ticketed⟩ : ∃ stage : Stage,
      rest = stage.rest (Gate.connected config) call.tenantId ∧
        Ticketed (Gate.connected config) i call w.store stage := at_
    have own : key = (Gate.connected config).key call.tenantId := by
      by_contra other
      exact ticketed.elsewhere key other counts
    subst own
    cases stage with
    | undoing | returning => exact decr_turn here counts
    | inUse =>
      have reply : (Gate.connected config).countedReplies i call .use w.store (.ok ()) w.store :=
        ⟨⟨⟨rfl, rfl⟩, by simp⟩, by simp⟩
      have next := Pool.resume_self here (.ok ()) w.store
      obtain ⟨w', turns, is⟩ : ∃ w', Pool.Turns (Gate.connected config).countedReplies Lapses
          (Gate.connected config).body _ w' ∧ _ := decr_turn next counts
      exact ⟨w', .head (.answer w i call trace .use _ here (.ok ()) w.store reply) turns, is⟩
    | _ => exact absurd counts (ticketed.uncounted rfl (by simp) _)

/-- Where the value is below the number of increments that are counted, it can become negative. -/
theorem drained (key : String) (n : ℕ)
    (entered : ∀ i, Entered (Gate.connected config) i w.tasks[i]? w.store)
    (size : (w.store.counters key).slots.card + (w.store.counters key).refused.card = n)
    (value : (w.store.counters key).value = n - 1) : ∃ w',
      Pool.Turns (Gate.connected config).countedReplies Lapses (Gate.connected config).body w w' ∧
        (w'.store.counters key).value < 0 := by
  induction n generalizing w with
  | zero => exact ⟨w, .refl, by omega⟩
  | succ n ih =>
    obtain ⟨i, counts⟩ : ∃ i, (w.store.counters key).Counts i := by
      by_contra none_
      have empty (x : Finset ℕ) (sub : ∀ i ∈ x, (w.store.counters key).Counts i) : x.card = 0 := by
        rw [Finset.card_eq_zero]
        exact Finset.eq_empty_of_forall_notMem fun i mem => none_ ⟨i, sub i mem⟩
      have slots := empty (w.store.counters key).slots fun i => .inl
      have refused := empty (w.store.counters key).refused fun i => .inr
      omega
    obtain ⟨w', turns, is⟩ := take_back entered counts
    have entered' := (Pool.turns_kept (entered_kept config)
      (turns.mono fun _ _ _ _ _ _ => And.left) trivial entered).2
    have apart := entered_apart (entered i) key
    have size' := Counter.card_decr counts apart
    obtain ⟨w'', turns', negative⟩ := ih entered' (by rw [is]; omega) (by
      rw [is, Counter.decr]
      simp only
      omega)
    exact ⟨w'', turns.trans turns', negative⟩

/-- For every config, with any number of workers: in every state that an interleaving of `admit`
and `release` reaches, with the keys expiring at any time, each tenant's counter is not negative
and its admissions are within the limit, as long as no call takes back an increment (on a
release, or after a refusal) when the key has expired since that increment. And wherever a call
is about to take one back, the condition is exact: what follows is within the limit in every
such run if and only if the increment is still counted. -/
theorem within_limit_iff (config : Config) :
    (∀ w, (Gate.connected config).ReachableBy (Gate.connected config).countedReplies w →
      ∀ tenantId, Within (Gate.connected config) w tenantId) ∧
    ∀ w, (Gate.connected config).ReachableBy (Gate.connected config).countedReplies w →
      ∀ i call trace key k, w.tasks[i]? = some ⟨call, trace, .await (.decr key) k⟩ →
        ((∀ w', Pool.Turns (Gate.connected config).countedReplies Lapses (Gate.connected config).body
            (w.resume i call trace (.decr key) k (.ok ())
              (w.store.setCounter key ((w.store.counters key).decr i))) w' →
          ∀ tenantId, Within (Gate.connected config) w' tenantId) ↔
        (w.store.counters key).Counts i) := by
  refine ⟨fun w run tenantId => counted_within run, fun w run i call trace key k here => ?_⟩
  let store := w.store.setCounter key ((w.store.counters key).decr i)
  have up : (Gate.connected config).upReplies i call (.decr key) w.store (.ok ()) store :=
    ⟨rfl, by simp⟩
  constructor
  · intro claim
    by_contra lost
    obtain ⟨exact_, entered⟩ := counted_reachable run
    obtain ⟨stage, rest, -⟩ : ∃ stage : Stage,
        .await (.decr key) k = stage.rest (Gate.connected config) call.tenantId ∧ _ := by
      have at_ := entered i
      rwa [here] at at_
    obtain ⟨stage', goes, -⟩ := Stage.rest_goes rest.symm (.ok ())
    obtain rfl : key = (Gate.connected config).key call.tenantId := by
      cases goes <;> rfl
    have entered' := (Pool.turn_kept (entered_kept config)
      (.answer w i call trace _ k here (.ok ()) store up) trivial entered).2
    obtain ⟨absent, absent'⟩ := not_or.mp lost
    have value := (exact_ ((Gate.connected config).key call.tenantId)).value
    obtain ⟨w', turns, negative⟩ :=
      drained ((Gate.connected config).key call.tenantId) _ entered' rfl (by
      simp only [Pool.resume, store, Store.setCounter, Function.update_self, Counter.decr,
        Finset.erase_eq_of_notMem absent, Finset.erase_eq_of_notMem absent']
      omega)
    exact absurd (claim w' turns call.tenantId).nonneg (not_le.mpr negative)
  · intro counts w' turns tenantId
    have counted : (Gate.connected config).countedReplies i call (.decr key) w.store (.ok ()) store := by
      refine ⟨up, ?_⟩
      rintro _ ⟨⟩
      exact counts
    exact counted_within ((run.tail (.answer w i call trace _ k here (.ok ()) store counted)).trans turns)

end

/-! ## Two admissions where one is allowed -/

def single : Config := { maxConcurrentPerTenant := 1 }

/-- Each task takes its turns as `schedule` says, while Redis is up. -/
def play (w : World) (schedule : List ℕ) : World :=
  schedule.foldl (Pool.serve ((Gate.connected single).answer false)) w

/-- Four calls. The first is admitted and the second refused; the first is released. -/
def beforeExpiry : World :=
  play { (Gate.connected single).fresh with
    tasks := [0, 1, 0, 1].map fun worker =>
      ⟨⟨worker, "acme"⟩, [], (Gate.connected single).body ⟨worker, "acme"⟩⟩ }
    [0, 0, 0, 1, 1, 1, 0, 0, 0, 0]

def lapsed : Store := beforeExpiry.store.setCounter "neryva:admission:acme"
  (beforeExpiry.store.counters "neryva:admission:acme").expire

/-- The key expires, and the second call takes back the increment of its refusal. -/
def afterExpiry : World := play { beforeExpiry with store := lapsed } [1, 1, 1]

/-- The other two come. -/
def crowded : World := play afterExpiry [2, 2, 2, 3, 3, 3]

theorem answer_up (i : ℕ) (call : Call) (op : Op) (s : Store) :
    (Gate.connected single).upReplies i call op s
      ((Gate.connected single).answer false i call op s).1
      ((Gate.connected single).answer false i call op s).2 := by
  refine ⟨Gate.answer_replies _ false i call op s, ?_⟩
  rintro key (rfl | rfl) e ⟨⟩

theorem crowded_reachable :
    (Gate.connected single).ReachableBy (Gate.connected single).upReplies crowded := by
  have start (worker : ℕ) (w : World) :
      Pool.Turn (Gate.connected single).upReplies Lapses (Gate.connected single).body w
        { w with tasks := w.tasks ++
          [⟨⟨worker, "acme"⟩, [], (Gate.connected single).body ⟨worker, "acme"⟩⟩] } :=
    .start w ⟨worker, "acme"⟩
  have before : (Gate.connected single).ReachableBy (Gate.connected single).upReplies beforeExpiry :=
    .head (start 0 _) (.head (start 1 _) (.head (start 0 _) (.head (start 1 _)
      (Pool.turns_serve answer_up _ _))))
  have lapse : Lapses beforeExpiry.store lapsed :=
    ⟨"neryva:admission:acme", by decide +kernel, rfl⟩
  have after : (Gate.connected single).ReachableBy (Gate.connected single).upReplies afterExpiry :=
    (before.tail (.env _ _ lapse)).trans (Pool.turns_serve answer_up _ [1, 1, 1])
  exact after.trans (Pool.turns_serve answer_up _ [2, 2, 2, 3, 3, 3])

/-- No slot was ever lost with the key, the counter falls to minus one, and two admissions are out
where the limit is one. -/
theorem over_admitted :
    (afterExpiry.store.counters "neryva:admission:acme").value = -1 ∧
    (crowded.store.counters "neryva:admission:acme").expired = ∅ ∧
    (unreleased crowded "acme").card = 2 ∧
    ¬ ∀ (config : Config) (w : World),
      (Gate.connected config).ReachableBy (Gate.connected config).upReplies w →
        ∀ tenantId, Within (Gate.connected config) w tenantId := by
  have two : (unreleased crowded "acme").card = 2 := by decide +kernel
  have none_ : (crowded.store.counters "neryva:admission:acme").expired = ∅ := by decide +kernel
  refine ⟨by decide +kernel, none_, two, fun claim => ?_⟩
  have bound := (claim single crowded crowded_reachable "acme").bound
  have key : (Gate.connected single).key "acme" = "neryva:admission:acme" := by decide +kernel
  rw [key, two, none_] at bound
  exact absurd bound (by decide)

end AgentStudio.Admission
