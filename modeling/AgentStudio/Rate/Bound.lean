import Mathlib.Tactic.FieldSimp
import Mathlib.Tactic.Positivity
import Mathlib.Tactic.Ring
import AgentStudio.Rate.Limiter

/-!
# What the two paths grant

In the process a bucket is refilled `max / window` a second and holds at most
`max * burst`. In Redis it holds at most `max`, and is refilled that much a
millisecond.
-/

namespace AgentStudio.Rate

open Metered

variable {config : Config} {key : String} {call : Call} {s : Store} {connected : Bool}
  {calls : List Call}

/-! ## In the process -/

/-- What is left in the process of a key. -/
def memoryLevel (s : Store) (key : String) : Option (Metered.Level ℚ) :=
  (s.buckets key).map fun b => ⟨b.tokens, b.lastRefill⟩

/-- `max / window`. -/
def Config.rate (config : Config) : ℚ := config.maxRequests / config.windowSeconds

@[simp] theorem memoryLevel_write (s : Store) (key : String) (bucket : Bucket) :
    memoryLevel (s.write key bucket) key = some ⟨bucket.tokens, bucket.lastRefill⟩ := by
  simp [memoryLevel, Store.write]

theorem memoryLevel_other (bucket : Bucket) {other : String} (differs : other ≠ key) :
    memoryLevel (s.write key bucket) other = memoryLevel s other := by
  simp [memoryLevel, Store.write, Function.update_of_ne differs]

theorem memoryRefilled_capped (config : Config) (now : ℚ) (bucket : Option Bucket) :
    memoryRefilled config now bucket ≤ config.maxRequests * config.burstMultiplier :=
  min_le_right _ _

theorem memoryRefilled_flows (config : Config) (now : ℚ) {l : Metered.Level ℚ}
    (is : memoryLevel s key = some l) : memoryRefilled config now (s.buckets key) ≤
      l.amount + config.rate * (now - l.time) := by
  obtain ⟨b, here, rfl⟩ := Option.map_eq_some_iff.mp is
  rw [here, mul_comm]
  exact min_le_left _ _

theorem memoryAcquire_draws (config : Config) (call : Call) (s : Store) :
    ∃ after : Metered.Level ℚ, memoryLevel (memoryAcquire config call s).2 call.key = some after ∧
      Draws (config.maxRequests * config.burstMultiplier) config.rate (memoryLevel s call.key)
        ⟨call.now, call.tokens, (memoryAcquire config call s).1⟩ after := by
  have capped := memoryRefilled_capped config call.now (s.buckets call.key)
  by_cases covered : memoryRefilled config call.now (s.buckets call.key) ≥ call.tokens
  · rw [memoryAcquire, if_pos covered]
    refine ⟨_, memoryLevel_write _ _ _, rfl, ?_, fun l is => ?_, fun _ => sub_nonneg.mpr covered⟩
    · simpa [Attempt.spent] using capped
    · simpa [Attempt.spent] using memoryRefilled_flows config call.now is
  · rw [memoryAcquire, if_neg covered]
    refine ⟨_, memoryLevel_write _ _ _, rfl, ?_, fun l is => ?_, fun is => by cases is⟩
    · simpa [Attempt.spent] using capped
    · simpa [Attempt.spent] using memoryRefilled_flows config call.now is

theorem memoryAcquire_other (config : Config) (other : key ≠ call.key) :
    memoryLevel (memoryAcquire config call s).2 key = memoryLevel s key := by
  rw [memoryAcquire]
  split
  · exact memoryLevel_other _ other
  · exact memoryLevel_other _ other

/-- Whatever became of the script, the buckets in the process are as they were. -/
theorem acquire_memory (config : Config) (s : Store) (takes : Path.memory.Takes connected call) :
    ∃ s' : Store, s'.buckets = s.buckets ∧
      acquire config connected call s = memoryAcquire config call s' := by
  rcases takes with rfl | ⟨ran, raised⟩
  · exact ⟨s, rfl, rfl⟩
  · cases connected with
    | false => exact ⟨s, rfl, rfl⟩
    | true =>
      refine ⟨if ran then (redisAcquire config call s).2 else s, ?_, by rw [acquire, raised]; rfl⟩
      cases ran <;> rfl

theorem memory_metered (key : String) (s : Store)
    (takes : ∀ call ∈ calls, Path.memory.Takes connected call) :
    Metered (config.maxRequests * config.burstMultiplier) config.rate (memoryLevel s key)
      (attempts key (acquireAll config connected s calls)) := by
  induction calls generalizing s with
  | nil => trivial
  | cons call calls ih =>
    have rest (s' : Store) := ih s' fun c mem => takes c (List.mem_cons_of_mem call mem)
    obtain ⟨s', same, is⟩ := acquire_memory config s
      (takes call List.mem_cons_self)
    have level (k : String) : memoryLevel s' k = memoryLevel s k := by
      rw [memoryLevel, same]
      rfl
    rw [acquireAll, attempts_cons, is]
    by_cases its : call.key = key
    · obtain ⟨after, here, draws⟩ := memoryAcquire_draws config call s'
      rw [if_pos its]
      rw [its] at here draws
      rw [level key] at draws
      exact ⟨after, draws, here ▸ rest _⟩
    · rw [if_neg its, ← level key, ← memoryAcquire_other config (Ne.symm its)]
      exact rest _

/-! ## In Redis -/

/-- What a hash of the script is, at a time in milliseconds. -/
structure Hash.Stored (config : Config) (now : ℚ) (h : Hash) : Prop where
  tokens : 0 ≤ h.tokens
  ts : h.ts ≤ now
  expiry : h.expiry = h.ts + ⌊config.windowSeconds * 1000⌋

/-- Every hash is one of the script's. -/
def Kept (config : Config) (now : ℚ) (s : Store) : Prop :=
  ∀ name h, s.redis name = some h → h.Stored config now

theorem Kept.later {now now' : ℚ} (kept : Kept config now s) (later : now ≤ now') :
    Kept config now' s := fun name h here =>
  ⟨(kept name h here).tokens, (kept name h here).ts.trans later, (kept name h here).expiry⟩

/-- What a bucket is refilled to, whether it has expired or not. -/
def Config.filled (config : Config) (call : Call) (s : Store) : ℚ :=
  refilled config.maxRequests config.windowSeconds (call.now * 1000)
    (s.find (config.name call.key) (call.now * 1000))

theorem filled_cases (config : Config) (call : Call) (s : Store) :
    config.filled call s = config.maxRequests ∨
      ∃ h, s.redis (config.name call.key) = some h ∧ call.now * 1000 - h.ts < config.windowSeconds ∧
        config.filled call s =
          min (config.maxRequests : ℚ) (h.tokens + (call.now * 1000 - h.ts) * config.rate) := by
  rw [Config.filled]
  cases found : s.find (config.name call.key) (call.now * 1000) with
  | none => exact .inl rfl
  | some h =>
    rw [refilled]
    split
    · exact .inl rfl
    next recent => exact .inr ⟨h, (Option.filter_eq_some_iff.mp found).1, not_le.mp recent, rfl⟩

theorem filled_capped (config : Config) (call : Call) (s : Store) :
    config.filled call s ≤ config.maxRequests := by
  rcases filled_cases config call s with is | ⟨h, -, -, is⟩
  · exact is.le
  · exact is.le.trans (min_le_left _ _)

theorem filled_nonneg (positive : 0 < config.windowSeconds)
    (kept : Kept config (call.now * 1000) s) : 0 ≤ config.filled call s := by
  rcases filled_cases config call s with is | ⟨h, here, -, is⟩
  · rw [is]
    exact Nat.cast_nonneg _
  · obtain ⟨tokens, ts, -⟩ := kept _ h here
    have flow : 0 ≤ (call.now * 1000 - h.ts) * config.rate :=
      mul_nonneg (sub_nonneg.mpr ts) (div_nonneg (Nat.cast_nonneg _) positive.le)
    rw [is]
    exact le_min (Nat.cast_nonneg _) (add_nonneg tokens flow)

/-- A whole number of milliseconds is no less than the same number of seconds that the script
takes a window for. -/
theorem window_le_ttl {window : ℚ} (least : 1 / 1000 ≤ window) : window ≤ ⌊window * 1000⌋ := by
  have one : (1 : ℤ) ≤ ⌊window * 1000⌋ := Int.le_floor.mpr (by push_cast; linarith)
  have above := Int.lt_floor_add_one (window * 1000)
  by_cases short : window ≤ 1
  · exact short.trans (by exact_mod_cast one)
  · linarith

/-- Nor is a bucket that has expired refilled to more than has flowed in. -/
theorem filled_flows (least : 1 / 1000 ≤ config.windowSeconds)
    (kept : Kept config (call.now * 1000) s) {h : Hash}
    (here : s.redis (config.name call.key) = some h) :
    config.filled call s ≤ h.tokens + (call.now * 1000 - h.ts) * config.rate := by
  have positive : 0 < config.windowSeconds := lt_of_lt_of_le (by norm_num) least
  obtain ⟨tokens, ts, expiry⟩ := kept _ h here
  have full (passed : config.windowSeconds ≤ call.now * 1000 - h.ts) :
      (config.maxRequests : ℚ) ≤ h.tokens + (call.now * 1000 - h.ts) * config.rate := by
    have whole : config.windowSeconds * config.rate = config.maxRequests :=
      mul_div_cancel₀ _ positive.ne'
    have flow := mul_le_mul_of_nonneg_right passed
      (div_nonneg (Nat.cast_nonneg config.maxRequests) positive.le)
    rw [← Config.rate, whole] at flow
    linarith
  rw [Config.filled, Store.find, here]
  by_cases live : call.now * 1000 < h.expiry
  · rw [Option.filter_some_pos (by simpa using live), refilled]
    split
    next passed => exact full passed
    next => exact min_le_right _ _
  · rw [Option.filter_some_neg (by simpa using live), refilled]
    refine full ?_
    have ttl := window_le_ttl least
    linarith [not_lt.mp live]

theorem redisAcquire_granted (covered : (call.tokens : ℚ) ≤ config.filled call s) :
    redisAcquire config call s = (true, { s with
      redis := Function.update s.redis (config.name call.key)
        (store config.windowSeconds (call.now * 1000) (config.filled call s - call.tokens)) }) := by
  have enough : refilled config.maxRequests config.windowSeconds (call.now * 1000)
      (s.find (config.name call.key) (call.now * 1000)) ≥ call.tokens := covered
  simp only [redisAcquire, tokenBucket, if_pos enough]
  rfl

theorem redisAcquire_refused (short : ¬ (call.tokens : ℚ) ≤ config.filled call s) :
    redisAcquire config call s = (false, { s with
      redis := Function.update s.redis (config.name call.key)
        (store config.windowSeconds (call.now * 1000) (config.filled call s)) }) := by
  have few : ¬ refilled config.maxRequests config.windowSeconds (call.now * 1000)
      (s.find (config.name call.key) (call.now * 1000)) ≥ call.tokens := short
  simp only [redisAcquire, tokenBucket, if_neg few]
  rfl

theorem store_stored {now tokens : ℚ} {h : Hash} (nonneg : 0 ≤ tokens)
    (is : store config.windowSeconds now tokens = some h) : h.Stored config now := by
  rw [store] at is
  split at is
  · cases is
  · obtain rfl := Option.some.inj is
    exact ⟨nonneg, le_refl now, rfl⟩

theorem Kept.write {now tokens : ℚ} (kept : Kept config now s) (nonneg : 0 ≤ tokens)
    (name : String) : Kept config now { s with
      redis := Function.update s.redis name (store config.windowSeconds now tokens) } := by
  intro other h here
  by_cases its : other = name
  · rw [its] at here
    simp only [Function.update_self] at here
    exact store_stored nonneg here
  · simp only [Function.update_of_ne its] at here
    exact kept other h here

theorem Kept.acquire (positive : 0 < config.windowSeconds)
    (kept : Kept config (call.now * 1000) s) :
    Kept config (call.now * 1000) (redisAcquire config call s).2 := by
  by_cases covered : (call.tokens : ℚ) ≤ config.filled call s
  · rw [redisAcquire_granted covered]
    exact kept.write (sub_nonneg.mpr covered) _
  · rw [redisAcquire_refused covered]
    exact kept.write (filled_nonneg positive kept) _

/-- What is left in Redis of a key, by the clock of the calls. -/
def redisLevel (config : Config) (s : Store) (key : String) : Option (Metered.Level ℚ) :=
  (s.redis (config.name key)).map fun h => ⟨h.tokens, h.ts / 1000⟩

theorem redisLevel_store (least : 1 / 1000 ≤ config.windowSeconds) (now tokens : ℚ) :
    redisLevel config { s with
      redis := Function.update s.redis (config.name key)
        (store config.windowSeconds (now * 1000) tokens) } key = some ⟨tokens, now⟩ := by
  have ttl : ¬ ⌊config.windowSeconds * 1000⌋ ≤ 0 := by
    have one : (1 : ℤ) ≤ ⌊config.windowSeconds * 1000⌋ :=
      Int.le_floor.mpr (by push_cast; linarith)
    omega
  simp [redisLevel, store, ttl]

theorem redisAcquire_draws (least : 1 / 1000 ≤ config.windowSeconds)
    (kept : Kept config (call.now * 1000) s) : ∃ after : Metered.Level ℚ,
      redisLevel config (redisAcquire config call s).2 call.key = some after ∧
        Draws (config.maxRequests : ℚ) (1000 * config.rate) (redisLevel config s call.key)
          ⟨call.now, call.tokens, (redisAcquire config call s).1⟩ after := by
  have positive : 0 < config.windowSeconds := lt_of_lt_of_le (by norm_num) least
  have flows (l : Metered.Level ℚ) (is : redisLevel config s call.key = some l) :
      config.filled call s ≤ l.amount + 1000 * config.rate * (call.now - l.time) := by
    obtain ⟨h, here, rfl⟩ := Option.map_eq_some_iff.mp is
    refine (filled_flows least kept here).trans_eq ?_
    ring
  have capped := filled_capped config call s
  by_cases covered : (call.tokens : ℚ) ≤ config.filled call s
  · refine ⟨⟨config.filled call s - call.tokens, call.now⟩, ?_, ?_⟩
    · rw [redisAcquire_granted covered]
      exact redisLevel_store least _ _
    · rw [redisAcquire_granted covered]
      refine ⟨rfl, ?_, fun l is => ?_, fun _ => sub_nonneg.mpr covered⟩
      · simpa [Attempt.spent] using capped
      · simpa [Attempt.spent] using flows l is
  · refine ⟨⟨config.filled call s, call.now⟩, ?_, ?_⟩
    · rw [redisAcquire_refused covered]
      exact redisLevel_store least _ _
    · rw [redisAcquire_refused covered]
      refine ⟨rfl, ?_, fun l is => ?_, fun is => by cases is⟩
      · simpa [Attempt.spent] using capped
      · simpa [Attempt.spent] using flows l is

theorem name_inj {other : String} (same : config.name key = config.name other) : key = other := by
  simpa [Config.name] using same

theorem redisAcquire_other (config : Config) (other : key ≠ call.key) :
    redisLevel config (redisAcquire config call s).2 key = redisLevel config s key := by
  have apart : config.name key ≠ config.name call.key := fun same => other (name_inj same)
  simp only [redisAcquire, redisLevel, Function.update_of_ne apart]

theorem acquire_redis (takes : Path.redis.Takes connected call) :
    acquire config connected call s = redisAcquire config call s := by
  obtain ⟨rfl, answered⟩ := takes
  rw [acquire, answered]
  rfl

theorem redis_metered (least : 1 / 1000 ≤ config.windowSeconds) (key : String) (s : Store)
    (takes : ∀ call ∈ calls, Path.redis.Takes connected call)
    (ordered : calls.Pairwise fun a b => a.now ≤ b.now)
    (kept : ∀ call ∈ calls, Kept config (call.now * 1000) s) :
    Metered (config.maxRequests : ℚ) (1000 * config.rate) (redisLevel config s key)
      (attempts key (acquireAll config connected s calls)) := by
  induction calls generalizing s with
  | nil => trivial
  | cons call calls ih =>
    have positive : 0 < config.windowSeconds := lt_of_lt_of_le (by norm_num) least
    have before := kept call List.mem_cons_self
    obtain ⟨first, ordered⟩ := List.pairwise_cons.mp ordered
    have rest := ih (redisAcquire config call s).2
      (fun c mem => takes c (List.mem_cons_of_mem call mem)) ordered fun c mem => by
        refine (Kept.acquire positive before).later ?_
        have later := first c mem
        linarith
    rw [acquireAll, attempts_cons, acquire_redis (takes call List.mem_cons_self)]
    by_cases its : call.key = key
    · obtain ⟨after, here, draws⟩ := redisAcquire_draws least before
      rw [if_pos its]
      rw [its] at here draws
      exact ⟨after, draws, here ▸ rest⟩
    · rw [if_neg its, ← redisAcquire_other config (Ne.symm its)]
      exact rest

end AgentStudio.Rate
