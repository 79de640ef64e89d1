import AgentStudio.Rate.Bound

/-!
# When the bound holds

The Redis path grants what a bucket of `max` that is refilled `max / window` a
millisecond grants, and all of it: the bucket is emptied, and then each token is taken
as it flows in. A window under a millisecond leaves no bucket at all.
-/

namespace AgentStudio.Rate

open Metered

variable {config : Config} {key : String} {s : Store} {connected : Bool} {calls : List Call}

theorem acquireAll_calls (config : Config) (connected : Bool) (s : Store) (calls : List Call) :
    (acquireAll config connected s calls).map Prod.fst = calls := by
  induction calls generalizing s with
  | nil => rfl
  | cons call calls ih => rw [acquireAll, List.map_cons, ih]

theorem attempts_ordered (ordered : calls.Pairwise fun a b => a.now ≤ b.now) :
    (attempts key (acquireAll config connected s calls)).Pairwise fun a b => a.time ≤ b.time := by
  refine List.pairwise_map.mpr (List.Pairwise.filter _ ?_)
  have same := acquireAll_calls config connected s calls
  rw [← same, List.pairwise_map] at ordered
  exact ordered

/-! ## Nothing to grant -/

/-- Without tokens only what costs none is granted. -/
theorem granted_free (none_ : config.maxRequests = 0) (call : Call)
    (takes : ∃ path : Path, path.Takes connected call)
    (ok : (acquire config connected call s).1 = true) : call.tokens ≤ 0 := by
  obtain ⟨path, takes⟩ := takes
  cases path with
  | redis =>
    rw [acquire_redis takes] at ok
    by_cases covered : (call.tokens : ℚ) ≤ config.filled call s
    · have capped := filled_capped config call s
      rw [none_, Nat.cast_zero] at capped
      exact_mod_cast covered.trans capped
    · rw [redisAcquire_refused covered] at ok
      cases ok
  | memory =>
    obtain ⟨s', -, is⟩ := acquire_memory config s takes
    rw [is, memoryAcquire] at ok
    by_cases covered : memoryRefilled config call.now (s'.buckets call.key) ≥ call.tokens
    · have capped := memoryRefilled_capped config call.now (s'.buckets call.key)
      rw [none_, Nat.cast_zero, zero_mul] at capped
      exact_mod_cast covered.le.trans capped
    · rw [if_neg covered] at ok
      cases ok

theorem granted_nonpos (none_ : config.maxRequests = 0) (s : Store) {path : Path}
    (takes : ∀ call ∈ calls, path.Takes connected call) (start length : ℚ) :
    granted key start length (acquireAll config connected s calls) ≤ 0 := by
  induction calls generalizing s with
  | nil => exact le_refl 0
  | cons call calls ih =>
    have rest := ih (acquire config connected call s).2 fun c mem =>
      takes c (List.mem_cons_of_mem call mem)
    rw [acquireAll, granted_cons]
    split
    next counts =>
      exact add_nonpos (granted_free none_ call ⟨path, takes call List.mem_cons_self⟩ counts.1) rest
    next => rwa [zero_add]

/-! ## Taking what flows in -/

/-- Calls for one token each, one every `step` seconds, from the `j`th on. -/
def units (key : String) (step : ℚ) : ℕ → ℕ → List Call
  | _, 0 => []
  | j, k + 1 => { key := key, now := j * step } :: units key step (j + 1) k

theorem units_mem {step : ℚ} {j k : ℕ} {call : Call} (mem : call ∈ units key step j k) :
    ∃ i, j ≤ i ∧ i < j + k ∧ call = { key := key, now := i * step } := by
  induction k generalizing j with
  | zero => cases mem
  | succ k ih =>
    rcases List.mem_cons.mp mem with rfl | mem
    · exact ⟨j, le_refl j, by omega, rfl⟩
    · obtain ⟨i, low, high, is⟩ := ih mem
      exact ⟨i, by omega, by omega, is⟩

theorem units_ordered {step : ℚ} (forward : 0 ≤ step) (key : String) (j k : ℕ) :
    (units key step j k).Pairwise fun a b => a.now ≤ b.now := by
  induction k generalizing j with
  | zero => exact List.Pairwise.nil
  | succ k ih =>
    refine List.pairwise_cons.mpr ⟨fun call mem => ?_, ih (j + 1)⟩
    obtain ⟨i, low, -, rfl⟩ := units_mem mem
    have le : (j : ℚ) ≤ i := by exact_mod_cast (by omega : j ≤ i)
    exact mul_le_mul_of_nonneg_right le forward

theorem units_tokens (key : String) (step : ℚ) (j k : ℕ) :
    ((units key step j k).map Call.tokens).sum = k := by
  induction k generalizing j with
  | zero => rfl
  | succ k ih =>
    rw [units, List.map_cons, List.sum_cons, ih]
    push_cast
    ring

/-- A token is there at a time: with no hash, or one that has it or to which it has flowed in. -/
def Ready (config : Config) (key : String) (now : ℚ) (s : Store) : Prop :=
  ∀ h, s.redis (config.name key) = some h → 0 ≤ h.tokens ∧ 1 ≤ (now * 1000 - h.ts) * config.rate

theorem Ready.filled {call : Call} (some_ : 1 ≤ config.maxRequests)
    (ready : Ready config call.key call.now s) : 1 ≤ config.filled call s := by
  have most : (1 : ℚ) ≤ config.maxRequests := by exact_mod_cast some_
  rcases filled_cases config call s with is | ⟨h, here, -, is⟩
  · rwa [is]
  · obtain ⟨tokens, flowed⟩ := ready h here
    rw [is]
    exact le_min most (by linarith)

/-- The next token has flowed in a step later, if a hash is kept at all. -/
theorem Ready.next (call : Call) {later : ℚ} (covered : (call.tokens : ℚ) ≤ config.filled call s)
    (flows : ⌊config.windowSeconds * 1000⌋ ≤ 0 ∨
      1 ≤ (later * 1000 - call.now * 1000) * config.rate) :
    Ready config call.key later (redisAcquire config call s).2 := by
  rw [redisAcquire_granted covered]
  intro h here
  simp only [Function.update_self, store] at here
  split at here
  next => cases here
  next kept =>
    obtain rfl := Option.some.inj here
    exact ⟨sub_nonneg.mpr covered, flows.resolve_left kept⟩

theorem units_granted {step : ℚ} (some_ : 1 ≤ config.maxRequests) (j k : ℕ)
    (flows : ⌊config.windowSeconds * 1000⌋ ≤ 0 ∨ 1 ≤ step * 1000 * config.rate)
    (ready : Ready config key (j * step) s) :
    ∀ r ∈ acquireAll config true s (units key step j k), r.2 = true := by
  induction k generalizing j s with
  | zero =>
    intro r mem
    cases mem
  | succ k ih =>
    intro r mem
    have covered : (((1 : ℤ)) : ℚ) ≤ config.filled { key := key, now := j * step } s := by
      rw [Int.cast_one]
      exact ready.filled some_
    have next : Ready config key ((j + 1 : ℕ) * step)
        (redisAcquire config { key := key, now := j * step } s).2 := by
      refine Ready.next { key := key, now := j * step } covered ?_
      refine flows.imp_right fun flowed => flowed.trans_eq ?_
      push_cast
      ring
    rcases List.mem_cons.mp mem with rfl | mem
    · rw [acquire_redis ⟨rfl, rfl⟩, redisAcquire_granted covered]
    · rw [acquire_redis ⟨rfl, rfl⟩] at mem
      exact ih (j + 1) next r mem

/-- Where all is granted, all is counted. -/
theorem granted_all {start length : ℚ} {results : List (Call × Bool)}
    (all : ∀ r ∈ results, r.2 = true ∧ r.1.key = key ∧ start ≤ r.1.now ∧
      r.1.now ≤ start + length) :
    granted key start length results = (results.map fun r => r.1.tokens).sum := by
  induction results with
  | nil => rfl
  | cons r results ih =>
    rw [granted_cons, if_pos (all r List.mem_cons_self), List.map_cons, List.sum_cons,
      ih fun r' mem => all r' (List.mem_cons_of_mem r mem)]

/-- The bucket is emptied, and its tokens are taken as they flow in. -/
def spree (config : Config) (key : String) (k : ℕ) : List Call :=
  { key := key, tokens := config.maxRequests, now := 0 } ::
    units key (config.windowSeconds / (1000 * config.maxRequests)) 1 k

theorem spree_redis (config : Config) (key : String) (k : ℕ) :
    ∀ call ∈ spree config key k, Path.redis.Takes true call := by
  intro call mem
  rcases List.mem_cons.mp mem with rfl | mem
  · exact ⟨rfl, rfl⟩
  · obtain ⟨i, -, -, rfl⟩ := units_mem mem
    exact ⟨rfl, rfl⟩

theorem step_nonneg (config : Config) (positive : 0 < config.windowSeconds) :
    0 ≤ config.windowSeconds / (1000 * config.maxRequests) :=
  div_nonneg positive.le (by positivity)

theorem spree_ordered (positive : 0 < config.windowSeconds) (key : String) (k : ℕ) :
    (spree config key k).Pairwise fun a b => a.now ≤ b.now := by
  refine List.pairwise_cons.mpr ⟨fun call mem => ?_, units_ordered (step_nonneg config positive) key 1 k⟩
  obtain ⟨i, -, -, rfl⟩ := units_mem mem
  exact mul_nonneg (Nat.cast_nonneg i) (step_nonneg config positive)

theorem spree_granted (positive : 0 < config.windowSeconds) (some_ : 1 ≤ config.maxRequests)
    (key : String) {k : ℕ} {length : ℚ}
    (inside : k * (config.windowSeconds / (1000 * config.maxRequests)) ≤ length) :
    granted key 0 length (acquireAll config true {} (spree config key k)) =
      config.maxRequests + k := by
  have forward := step_nonneg config positive
  have most : (0 : ℚ) < config.maxRequests := by exact_mod_cast some_
  have full : config.filled { key := key, tokens := config.maxRequests, now := 0 } {} =
      config.maxRequests := by
    rcases filled_cases config { key := key, tokens := config.maxRequests, now := 0 } {} with
      is | ⟨h, here, -⟩
    · exact is
    · cases here
  have covered : ((config.maxRequests : ℤ) : ℚ) ≤
      config.filled { key := key, tokens := config.maxRequests, now := 0 } {} := by
    rw [full, Int.cast_natCast]
  have flowed : 1 ≤ config.windowSeconds / (1000 * config.maxRequests) * 1000 * config.rate := by
    rw [Config.rate]
    field_simp
    exact le_refl _
  have next : Ready config key ((1 : ℕ) * (config.windowSeconds / (1000 * config.maxRequests)))
      (redisAcquire config { key := key, tokens := config.maxRequests, now := 0 } {}).2 := by
    refine Ready.next { key := key, tokens := config.maxRequests, now := 0 } covered ?_
    refine .inr (flowed.trans_eq ?_)
    push_cast
    ring
  have taken := units_granted (k := k) some_ 1 (.inr flowed) next
  have calls := acquireAll_calls config true {} (spree config key k)
  rw [granted_all]
  · rw [show (fun r : Call × Bool => r.1.tokens) = Call.tokens ∘ Prod.fst from rfl, ← List.map_map,
      calls, spree, List.map_cons, List.sum_cons, units_tokens]
  · intro r mem
    have call : r.1 ∈ spree config key k := calls ▸ List.mem_map_of_mem mem
    refine ⟨?_, ?_⟩
    · rcases List.mem_cons.mp mem with rfl | mem
      · rw [acquire_redis ⟨rfl, rfl⟩, redisAcquire_granted covered]
      · rw [acquire_redis ⟨rfl, rfl⟩] at mem
        exact taken r mem
    · rw [zero_add]
      rcases List.mem_cons.mp call with is | call
      · rw [is]
        exact ⟨rfl, le_refl 0, (mul_nonneg (Nat.cast_nonneg k) forward).trans inside⟩
      · obtain ⟨i, -, high, is⟩ := units_mem call
        rw [is]
        refine ⟨rfl, mul_nonneg (Nat.cast_nonneg i) forward, le_trans ?_ inside⟩
        have le : (i : ℚ) ≤ k := by exact_mod_cast (by omega : i ≤ k)
        exact mul_le_mul_of_nonneg_right le forward

/-! ## The two paths -/

theorem Config.rate_nonneg (positive : 0 < config.windowSeconds) : 0 ≤ config.rate :=
  div_nonneg (Nat.cast_nonneg _) positive.le

/-- In the process the bound holds, as long as it leaves room for granting nothing. -/
theorem within_memory (positive : 0 < config.windowSeconds) {length : ℚ}
    (room : 0 ≤ config.bound length) : Within config .memory length := by
  intro connected calls takes ordered key start
  have times : (attempts key (acquireAll config connected {} calls)).Pairwise
      fun a b => a.time ≤ b.time := attempts_ordered ordered
  rw [granted_spent]
  rcases spent_bounded start length (config.rate_nonneg positive) times
    (memory_metered key {} takes) with none_ | within
  · rwa [none_]
  · refine within.trans_eq ?_
    rw [Config.bound, Config.rate]
    ring

/-- What the Redis path grants at most in an interval: tokens are whole. -/
def Config.most (config : Config) (length : ℚ) : ℤ :=
  ⌊(config.maxRequests : ℚ) + length * (1000 * config.maxRequests / config.windowSeconds)⌋

theorem most_nonneg (positive : 0 < config.windowSeconds) {length : ℚ} (nonneg : 0 ≤ length) :
    0 ≤ config.most length := by
  refine Int.le_floor.mpr ?_
  rw [Int.cast_zero]
  positivity

theorem within_redis (least : 1 / 1000 ≤ config.windowSeconds) {length : ℚ} (nonneg : 0 ≤ length)
    (room : (config.most length : ℚ) ≤ config.bound length) : Within config .redis length := by
  have positive : 0 < config.windowSeconds := lt_of_lt_of_le (by norm_num) least
  intro connected calls takes ordered key start
  have times : (attempts key (acquireAll config connected {} calls)).Pairwise
      fun a b => a.time ≤ b.time := attempts_ordered ordered
  have empty (now : ℚ) : Kept config now {} := fun name h here => by cases here
  refine le_trans ?_ room
  rw [Int.cast_le]
  rcases spent_bounded start length
    (mul_nonneg (by norm_num) (config.rate_nonneg positive)) times
    (redis_metered least key {} takes ordered fun _ _ => empty _) with none_ | within
  · rw [← granted_spent] at none_
    have zero : granted key start length (acquireAll config connected {} calls) = 0 := by
      exact_mod_cast none_
    rw [zero]
    exact most_nonneg positive nonneg
  · rw [← granted_spent] at within
    refine Int.le_floor.mpr (within.trans_eq ?_)
    rw [Config.rate]
    ring

/-- A window of less than a millisecond is no window: the hash is deleted at once. -/
theorem unlimited (short : config.windowSeconds < 1 / 1000) (some_ : 1 ≤ config.maxRequests)
    (key : String) {length : ℚ} (nonneg : 0 ≤ length) (n : ℕ) :
    granted key 0 length (acquireAll config true {} (units key 0 0 n)) = n := by
  have gone : ⌊config.windowSeconds * 1000⌋ ≤ 0 := by
    refine Int.lt_add_one_iff.mp (Int.floor_lt.mpr ?_)
    push_cast
    linarith
  have ready : Ready config key ((0 : ℕ) * 0) {} := fun h here => by cases here
  have taken := units_granted (k := n) some_ 0 (.inl gone) ready
  have calls := acquireAll_calls config true {} (units key 0 0 n)
  rw [granted_all]
  · rw [show (fun r : Call × Bool => r.1.tokens) = Call.tokens ∘ Prod.fst from rfl, ← List.map_map,
      calls, units_tokens]
  · intro r mem
    have call : r.1 ∈ units key 0 0 n := calls ▸ List.mem_map_of_mem mem
    obtain ⟨i, -, -, is⟩ := units_mem call
    rw [is, mul_zero, zero_add]
    exact ⟨taken r mem, rfl, le_refl 0, nonneg⟩

/-- For an interval of any length, both paths keep the bound if and only if there is nothing to
grant, or a bucket is kept and all that it grants in that time is within the bound. -/
theorem within_iff (config : Config) (positive : 0 < config.windowSeconds) (length : ℚ)
    (nonneg : 0 ≤ length) : (∀ path, Within config path length) ↔ config.maxRequests = 0 ∨
      1 / 1000 ≤ config.windowSeconds ∧ (config.most length : ℚ) ≤ config.bound length := by
  constructor
  · intro within
    by_cases none_ : config.maxRequests = 0
    · exact .inl none_
    have some_ : 1 ≤ config.maxRequests := Nat.one_le_iff_ne_zero.mpr none_
    have least : 1 / 1000 ≤ config.windowSeconds := by
      by_contra short
      obtain ⟨n, more⟩ : ∃ n : ℕ, config.bound length < n :=
        ⟨_, by exact_mod_cast Nat.lt_floor_add_one (config.bound length)⟩
      have most := within .redis true (units "u" 0 0 n)
        (fun call mem => by
          obtain ⟨i, -, -, rfl⟩ := units_mem mem
          exact ⟨rfl, rfl⟩) (units_ordered (le_refl 0) "u" 0 n) "u" 0
      rw [unlimited (not_le.mp short) some_ "u" nonneg n, Int.cast_natCast] at most
      exact absurd most more.not_ge
    refine .inr ⟨least, ?_⟩
    -- as many as flow in during the interval
    have maximum : (0 : ℚ) < config.maxRequests := by exact_mod_cast some_
    have flow : 0 ≤ length * (1000 * config.maxRequests / config.windowSeconds) := by positivity
    obtain ⟨k, count⟩ : ∃ k : ℕ, k = ⌊length * (1000 * config.maxRequests / config.windowSeconds)⌋₊ :=
      ⟨_, rfl⟩
    have inside : k * (config.windowSeconds / (1000 * config.maxRequests)) ≤ length := by
      rw [count]
      have whole := mul_le_mul_of_nonneg_right (Nat.floor_le flow) (step_nonneg config positive)
      refine whole.trans_eq ?_
      field_simp
    have most := within .redis true (spree config "u" k) (spree_redis config "u" k)
      (spree_ordered positive "u" k) "u" 0
    rw [spree_granted positive some_ "u" inside] at most
    refine le_trans (le_of_eq ?_) most
    rw [Config.most, Int.floor_natCast_add, ← Int.natCast_floor_eq_floor flow, ← count]
  · rintro (none_ | ⟨least, room⟩) path
    · intro connected calls takes ordered key start
      have nothing : config.bound length = 0 := by simp [Config.bound, none_]
      rw [nothing]
      exact_mod_cast granted_nonpos none_ {} takes start length
    · cases path with
      | redis => exact within_redis least nonneg room
      | memory =>
        have bound : (0 : ℚ) ≤ config.most length := by exact_mod_cast most_nonneg positive nonneg
        exact within_memory positive (bound.trans room)

/-- With the defaults, for intervals of 25 ms. -/
theorem within_iff_short : Within {} .memory (1 / 40) ∧ Within {} .redis (1 / 40) := by
  have within := (within_iff {} (by norm_num) (1 / 40) (by norm_num)).mpr
    (.inr ⟨by norm_num, by norm_num [Config.most, Config.bound]⟩)
  exact ⟨within .memory, within .redis⟩

/-- With the defaults, 200 tokens in 60 ms. -/
theorem overdrawn :
    granted "u" 0 (3 / 50) (acquireAll {} true {} (spree {} "u" 100)) = 200 ∧
      Config.bound {} (3 / 50) = 1501 / 10 ∧ ¬ Within {} .redis (3 / 50) := by
  have positive : 0 < Config.windowSeconds {} := by norm_num
  have total : granted "u" 0 (3 / 50) (acquireAll {} true {} (spree {} "u" 100)) = 200 := by
    rw [spree_granted positive (by norm_num) "u" (by norm_num)]
    norm_num
  have bound : Config.bound {} (3 / 50) = 1501 / 10 := by norm_num [Config.bound]
  refine ⟨total, bound, fun within => ?_⟩
  have most := within true _ (spree_redis {} "u" 100) (spree_ordered positive "u" 100) "u" 0
  rw [total, bound] at most
  norm_num at most

end AgentStudio.Rate
