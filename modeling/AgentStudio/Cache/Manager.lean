import AgentStudio.Patterns.CircuitBreaker
import Mathlib.Logic.Function.Basic
import Mathlib.Data.Option.Basic

/-!
# The cache manager

`get`, `set` and `delete` of `infrastructure/cache/manager.py`, with a server that never fails and
with none:

* `call_direct`: what a call through the breaker gives while the breaker lets it in;
* `step_holds`: one of the two stores holds for each key what was last set;
* `lawful_of_direct`: a run that never finds the breaker open, or an entry past its time in the
  local cache, gives what was last set.
-/

namespace AgentStudio.Cache

open Patterns

/-- `json.dumps` with `default=str`, which may raise, and `json.loads`; `null` is `None`. -/
structure Json (Value : Type) where
  null : Value
  dumps : Value → Option String
  loads : String → Value

def Json.roundTrip {Value : Type} (json : Json Value) (value : Value) : Option Value :=
  (json.dumps value).map json.loads

structure CacheConfig where
  defaultTtl : ℤ := 3600
  keyPrefix : String := "neryva:"
  circuitBreakerFailures : ℤ := 3
  circuitBreakerRecovery : ℚ := 15

/-- What a manager is set up with; `expires` are the times that `SETEX` takes. -/
structure Setting (Value : Type) where
  config : CacheConfig := {}
  json : Json Value
  expires : ℤ → Bool := fun ttl => 0 < ttl

structure CacheEntry (Value : Type) where
  value : Value
  ttl : ℤ
  storedAt : ℚ

/-- When the `ttl` of an entry has elapsed. -/
def CacheEntry.ends {Value : Type} (entry : CacheEntry Value) : ℚ := entry.storedAt + entry.ttl

/-- The text of each key, and when it is gone. -/
abbrev Redis := String → Option (String × ℚ)

/-- A manager, and the server if there is one. -/
structure CacheManager (Value : Type) where
  client : Bool
  circuitBreaker : CircuitBreaker := {}
  localCache : String → Option (CacheEntry Value) := fun _ => none
  redis : Redis := fun _ => none

variable {Value α : Type} (setting : Setting Value)

def Setting.breaker : CircuitBreakerConfig where
  failureThreshold := setting.config.circuitBreakerFailures
  recoveryTimeout := setting.config.circuitBreakerRecovery

/-- `_key`. -/
def Setting.key (key : String) : String := setting.config.keyPrefix ++ key

/-- `_redis_get`; a miss raises `CacheMiss`. -/
def redisGet (key : String) (now : ℚ) (redis : Redis) : Except Unit Value × Redis :=
  match redis (setting.key key) with
  | some (text, ends) => (if now < ends then .ok (setting.json.loads text) else .error (), redis)
  | none => (.error (), redis)

/-- `_redis_set`. -/
def redisSet (key : String) (value : Value) (ttl : ℤ) (now : ℚ) (redis : Redis) :
    Except Unit Unit × Redis :=
  match setting.json.dumps value with
  | none => (.error (), redis)
  | some serialized =>
    if setting.expires ttl then
      (.ok (), Function.update redis (setting.key key) (some (serialized, now + ttl)))
    else (.error (), redis)

/-- `_redis_delete`. -/
def redisDelete (key : String) (redis : Redis) : Except Unit Unit × Redis :=
  (.ok (), Function.update redis (setting.key key) none)

namespace CacheManager

/-- `_circuit_breaker.call`: nothing, if it raises. -/
def call (m : CacheManager Value) (now : ℚ) (fn : Redis → Except Unit α × Redis) :
    Option α × CacheManager Value :=
  match m.circuitBreaker.enter setting.breaker now with
  | (.error _, b) => (none, { m with circuitBreaker := b })
  | (.ok _, b) =>
    match fn m.redis with
    | (.ok result, redis) => (some result, { m with
        circuitBreaker := b.recordSuccess setting.breaker, redis := redis })
    | (.error _, redis) => (none, { m with
        circuitBreaker := b.recordFailure setting.breaker now, redis := redis })

/-- An entry of the local cache is given whatever its `ttl`. -/
def localGet (m : CacheManager Value) (key : String) (default : Value) : Value :=
  ((m.localCache key).map CacheEntry.value).getD default

def get [DecidableEq Value] (m : CacheManager Value) (key : String) (default : Value) (now : ℚ) :
    Value × CacheManager Value :=
  if m.client then
    match m.call setting now (redisGet setting key now) with
    | (some result, m) => (if result = setting.json.null then default else result, m)
    | (none, m) => (m.localGet key default, m)
  else (m.localGet key default, m)

def localSet (m : CacheManager Value) (key : String) (entry : CacheEntry Value) :
    CacheManager Value := { m with localCache := Function.update m.localCache key (some entry) }

/-- `set`, which always returns `True`. -/
def set (m : CacheManager Value) (key : String) (value : Value) (ttl : Option ℤ) (now : ℚ) :
    CacheManager Value :=
  let ttl := ttl.getD setting.config.defaultTtl
  if m.client then
    match m.call setting now (redisSet setting key value ttl now) with
    | (some _, m) => m
    | (none, m) => m.localSet key ⟨value, ttl, now⟩
  else m.localSet key ⟨value, ttl, now⟩

def localDelete (m : CacheManager Value) (key : String) : Bool × CacheManager Value :=
  ((m.localCache key).isSome, { m with localCache := Function.update m.localCache key none })

def delete (m : CacheManager Value) (key : String) (now : ℚ) : Bool × CacheManager Value :=
  if m.client then
    match m.call setting now (redisDelete setting key) with
    | (some _, m) => (true, m)
    | (none, m) => m.localDelete key
  else m.localDelete key

end CacheManager

/-! ## Sequences of calls -/

/-- A call and when it is made. -/
inductive Call (Value : Type) where
  | get (key : String) (default : Value) (now : ℚ)
  | set (key : String) (value : Value) (ttl : Option ℤ) (now : ℚ)
  | delete (key : String) (now : ℚ)

section

variable [DecidableEq Value]

def step (m : CacheManager Value) : Call Value → CacheManager Value
  | .get key default now => (m.get setting key default now).2
  | .set key value ttl now => m.set setting key value ttl now
  | .delete key now => (m.delete setting key now).2

def run (client : Bool) (calls : List (Call Value)) : CacheManager Value :=
  calls.foldl (step setting) { client := client }

end

/-- What a call makes of the latest set of `key`. -/
def follow (key : String) (last : Option (Value × ℚ)) : Call Value → Option (Value × ℚ)
  | .get _ _ _ => last
  | .set key' value ttl now =>
    if key = key' then some (value, now + (ttl.getD setting.config.defaultTtl : ℤ)) else last
  | .delete key' _ => if key = key' then none else last

/-- The latest set of `key`, if no delete followed, and when its ttl has elapsed. -/
def latest (key : String) (calls : List (Call Value)) : Option (Value × ℚ) :=
  calls.foldl (follow setting key) none

/-- What `get` should return after `calls`. -/
def expected (calls : List (Call Value)) (key : String) (default : Value) (now : ℚ) :
    Option Value :=
  match latest setting key calls with
  | some (value, ends) => if now < ends then setting.json.roundTrip value else some default
  | none => some default

variable [DecidableEq Value]

/-- Every `get` of a sequence returns what it should. -/
def Lawful (client : Bool) (calls : List (Call Value)) : Prop :=
  ∀ before key default now after, calls = before ++ .get key default now :: after →
    some ((run setting client before).get setting key default now).1 =
      expected setting before key default now

/-- With a server the call goes to it, a value that is set can be kept there, and `get` finds no
`None` but where it returns one. Without a server `get` finds no entry whose ttl has elapsed, and
none that `json` changes. -/
def Fits (m : CacheManager Value) : Call Value → Prop
  | .get key default now =>
    if m.client then
      ¬m.circuitBreaker.Waits setting.breaker now ∧
        ∀ kept ∈ m.redis (setting.key key), now < kept.2 →
          setting.json.loads kept.1 = setting.json.null → default = setting.json.null
    else ∀ entry ∈ m.localCache key,
      if now < entry.ends then setting.json.roundTrip entry.value = some entry.value
      else entry.value = default
  | .set _ value ttl now => m.client = true →
      ¬m.circuitBreaker.Waits setting.breaker now ∧
        setting.expires (ttl.getD setting.config.defaultTtl) = true ∧
        (setting.json.dumps value).isSome = true
  | .delete _ now => m.client = true → ¬m.circuitBreaker.Waits setting.breaker now

instance decidableFits (m : CacheManager Value) :
    (call : Call Value) → Decidable (Fits setting m call)
  | .get _ _ _ => inferInstanceAs (Decidable (ite _ _ _))
  | .set _ _ _ _ => inferInstanceAs (Decidable (_ → _))
  | .delete _ _ => inferInstanceAs (Decidable (_ → _))

/-- Every call of a sequence fits. -/
def Direct : CacheManager Value → List (Call Value) → Prop
  | _, [] => True
  | m, call :: calls => Fits setting m call ∧ Direct (step setting m call) calls

instance decidableDirect :
    (m : CacheManager Value) → (calls : List (Call Value)) → Decidable (Direct setting m calls)
  | _, [] => isTrue trivial
  | m, call :: calls =>
    @instDecidableAnd _ _ (decidableFits setting m call)
      (decidableDirect (step setting m call) calls)

/-! ## What the store holds -/

variable {setting} {m : CacheManager Value} {before : List (Call Value)}

omit [DecidableEq Value] in
theorem latest_snoc (key : String) (before : List (Call Value)) (call : Call Value) :
    latest setting key (before ++ [call]) = follow setting key (latest setting key before) call := by
  unfold latest
  rw [List.foldl_append]
  rfl

/-- While the breaker lets calls in, none is counted and each goes to the server. -/
theorem call_direct {m : CacheManager α} {setting : Setting α} {β : Type} {now : ℚ}
    (uncounted : m.circuitBreaker.halfOpenCalls = 0)
    (closed : ¬m.circuitBreaker.Waits setting.breaker now)
    (fn : Redis → Except Unit β × Redis) :
    ∃ b : CircuitBreaker, b.halfOpenCalls = 0 ∧ m.call setting now fn =
      ((fn m.redis).1.toOption, { m with circuitBreaker := b, redis := (fn m.redis).2 }) := by
  have probed := probe_halfOpenCalls uncounted
  have entered : m.circuitBreaker.enter setting.breaker now =
      (.ok (), m.circuitBreaker.probe) := by
    rw [CircuitBreaker.enter, if_neg closed, probed, if_neg]
    intro full
    have most : (3 : ℤ) ≤ (0 : Nat) := full.2
    exact absurd most (by decide)
  unfold CacheManager.call
  rw [entered]
  rcases fn m.redis with ⟨result, redis⟩
  cases result with
  | ok a => exact ⟨_, recordSuccess_halfOpenCalls probed, rfl⟩
  | error e => exact ⟨_, recordFailure_halfOpenCalls probed, rfl⟩

/-- The server holds what was last set, and the local cache nothing. -/
structure Kept (setting : Setting Value) (before : List (Call Value)) (m : CacheManager Value) :
    Prop where
  client : m.client = true
  uncounted : m.circuitBreaker.halfOpenCalls = 0
  empty : ∀ key, m.localCache key = none
  stored : ∀ key, m.redis (setting.key key) = (latest setting key before).bind fun last =>
    (setting.json.dumps last.1).map fun text => (text, last.2)
  dumped : ∀ key, ∀ last ∈ latest setting key before, (setting.json.dumps last.1).isSome = true

/-- The local cache holds what was last set. -/
structure Local (setting : Setting Value) (before : List (Call Value)) (m : CacheManager Value) :
    Prop where
  client : m.client = false
  stored : ∀ key, (m.localCache key).map (fun entry => (entry.value, entry.ends)) =
    latest setting key before

omit [DecidableEq Value] in
theorem redisGet_redis (key : String) (now : ℚ) (redis : Redis) :
    (redisGet setting key now redis).2 = redis := by
  unfold redisGet
  split <;> rfl

omit [DecidableEq Value] in
/-- What a `get` finds on the server. -/
theorem redisGet_kept (h : Kept setting before m) (key : String) (now : ℚ) :
    (redisGet setting key now m.redis).1.toOption =
      (latest setting key before).bind fun last =>
        if now < last.2 then setting.json.roundTrip last.1 else none := by
  have stored := h.stored key
  unfold redisGet Json.roundTrip
  cases kept : latest setting key before with
  | none =>
    rw [kept] at stored
    rw [stored]
    rfl
  | some last =>
    rw [kept, Option.bind_some] at stored
    rw [stored, Option.bind_some]
    cases setting.json.dumps last.1 with
    | none => exact (ite_self none).symm
    | some text =>
      by_cases live : now < last.2
      · simp only [Option.map_some, if_pos live]
        rfl
      · simp only [Option.map_some, if_neg live]
        rfl

theorem get_kept (h : Kept setting before m) {key : String} {default : Value} {now : ℚ}
    (closed : ¬m.circuitBreaker.Waits setting.breaker now)
    (no_null : ∀ kept ∈ m.redis (setting.key key), now < kept.2 →
      setting.json.loads kept.1 = setting.json.null → default = setting.json.null) :
    some (m.get setting key default now).1 = expected setting before key default now ∧
      Kept setting (before ++ [.get key default now]) (m.get setting key default now).2 := by
  obtain ⟨b, uncounted, called⟩ := call_direct h.uncounted closed (redisGet setting key now)
  constructor
  · have missed : m.localGet key default = default := by
      unfold CacheManager.localGet
      rw [h.empty]
      rfl
    unfold CacheManager.get expected
    rw [if_pos h.client, called, redisGet_kept h]
    cases kept : latest setting key before with
    | none => exact congrArg some missed
    | some last =>
      obtain ⟨text, dumped⟩ := Option.isSome_iff_exists.mp (h.dumped key last kept)
      by_cases live : now < last.2
      · simp only [Option.bind_some, if_pos live, Json.roundTrip, dumped, Option.map_some]
        rw [h.stored, kept, Option.bind_some, dumped] at no_null
        split
        · rename_i null
          rw [no_null (text, last.2) rfl live null, null]
        · rfl
      · simp only [Option.bind_some, if_neg live]
        exact congrArg some missed
  · have next : (m.get setting key default now).2 = { m with circuitBreaker := b } := by
      unfold CacheManager.get
      rw [if_pos h.client, called, redisGet_redis]
      cases (redisGet setting key now m.redis).1.toOption <;> rfl
    rw [next]
    refine ⟨h.client, uncounted, h.empty, ?_, ?_⟩
    · intro other
      rw [latest_snoc]
      exact h.stored other
    · intro other last
      rw [latest_snoc]
      exact h.dumped other last

omit [DecidableEq Value] in
theorem update_key (redis : Redis) (key other : String) (kept : Option (String × ℚ)) :
    Function.update redis (setting.key key) kept (setting.key other) =
      if other = key then kept else redis (setting.key other) := by
  rw [Function.update_apply]
  exact if_congr (String.append_right_inj _) rfl rfl

omit [DecidableEq Value] in
/-- A command that puts the latest of a key in its place. -/
theorem Kept.update (h : Kept setting before m) {b : CircuitBreaker}
    (uncounted : b.halfOpenCalls = 0) {key : String} (call : Call Value)
    (now_last : Option (Value × ℚ))
    (follows : ∀ other, follow setting other (latest setting other before) call =
      if other = key then now_last else latest setting other before)
    (dumped : ∀ last ∈ now_last, (setting.json.dumps last.1).isSome = true) :
    Kept setting (before ++ [call]) { m with
      circuitBreaker := b
      redis := Function.update m.redis (setting.key key) (now_last.bind fun last =>
        (setting.json.dumps last.1).map fun text => (text, last.2)) } := by
  refine ⟨h.client, uncounted, h.empty, ?_, ?_⟩
  · intro other
    rw [latest_snoc, follows]
    refine (update_key ..).trans ?_
    by_cases here : other = key
    · rw [if_pos here, if_pos here]
    · rw [if_neg here, if_neg here]
      exact h.stored other
  · intro other last last_in
    rw [latest_snoc, follows] at last_in
    by_cases here : other = key
    · rw [if_pos here] at last_in
      exact dumped last last_in
    · rw [if_neg here] at last_in
      exact h.dumped other last last_in

omit [DecidableEq Value] in
theorem set_kept (h : Kept setting before m) {key : String} {value : Value} {ttl : Option ℤ}
    {now : ℚ} (closed : ¬m.circuitBreaker.Waits setting.breaker now)
    (expires : setting.expires (ttl.getD setting.config.defaultTtl) = true)
    (is_dumped : (setting.json.dumps value).isSome = true) :
    Kept setting (before ++ [.set key value ttl now]) (m.set setting key value ttl now) := by
  obtain ⟨text, dumped⟩ := Option.isSome_iff_exists.mp is_dumped
  obtain ⟨b, uncounted, called⟩ := call_direct h.uncounted closed
    (redisSet setting key value (ttl.getD setting.config.defaultTtl) now)
  have kept := h.update uncounted (.set key value ttl now)
    (some (value, now + (ttl.getD setting.config.defaultTtl : ℤ))) (fun _ => rfl) (by
      intro last last_in
      cases last_in
      exact is_dumped)
  rw [Option.bind_some, dumped] at kept
  unfold CacheManager.set
  simp only [if_pos h.client, called, redisSet, dumped, if_pos expires]
  exact kept

omit [DecidableEq Value] in
theorem delete_kept (h : Kept setting before m) {key : String} {now : ℚ}
    (closed : ¬m.circuitBreaker.Waits setting.breaker now) :
    Kept setting (before ++ [.delete key now]) (m.delete setting key now).2 := by
  obtain ⟨b, uncounted, called⟩ := call_direct h.uncounted closed (redisDelete setting key)
  unfold CacheManager.delete
  rw [if_pos h.client, called]
  exact h.update uncounted (.delete key now) none (fun _ => rfl) (fun last last_in => by cases last_in)

theorem get_local (h : Local setting before m) {key : String} {default : Value} {now : ℚ}
    (found : ∀ entry ∈ m.localCache key,
      if now < entry.ends then setting.json.roundTrip entry.value = some entry.value
      else entry.value = default) :
    some (m.get setting key default now).1 = expected setting before key default now ∧
      Local setting (before ++ [.get key default now]) (m.get setting key default now).2 := by
  have answered : m.get setting key default now = (m.localGet key default, m) := by
    unfold CacheManager.get
    rw [if_neg (by rw [h.client]; decide)]
  rw [answered]
  constructor
  · unfold expected CacheManager.localGet
    rw [← h.stored key]
    cases held : m.localCache key with
    | none => rfl
    | some entry =>
      have told := found entry held
      change some entry.value =
        if now < entry.ends then setting.json.roundTrip entry.value else some default
      by_cases live : now < entry.ends
      · rw [if_pos live] at told ⊢
        exact told.symm
      · rw [if_neg live] at told ⊢
        exact congrArg some told
  · refine ⟨h.client, fun other => ?_⟩
    rw [latest_snoc]
    exact h.stored other

omit [DecidableEq Value] in
theorem set_local (h : Local setting before m) (key : String) (value : Value) (ttl : Option ℤ)
    (now : ℚ) :
    Local setting (before ++ [.set key value ttl now]) (m.set setting key value ttl now) := by
  have next : m.set setting key value ttl now =
      m.localSet key ⟨value, ttl.getD setting.config.defaultTtl, now⟩ := by
    unfold CacheManager.set
    rw [if_neg (by rw [h.client]; decide)]
  rw [next]
  refine ⟨h.client, fun other => ?_⟩
  rw [latest_snoc, follow, ← h.stored other]
  refine (congrArg _ (Function.update_apply ..)).trans ?_
  split <;> rfl

omit [DecidableEq Value] in
theorem delete_local (h : Local setting before m) (key : String) (now : ℚ) :
    Local setting (before ++ [.delete key now]) (m.delete setting key now).2 := by
  have next : m.delete setting key now = m.localDelete key := by
    unfold CacheManager.delete
    rw [if_neg (by rw [h.client]; decide)]
  rw [next]
  refine ⟨h.client, fun other => ?_⟩
  rw [latest_snoc, follow, ← h.stored other]
  refine (congrArg _ (Function.update_apply ..)).trans ?_
  split <;> rfl

/-- One of the two stores holds what was last set. -/
def Holds (setting : Setting Value) (before : List (Call Value)) (m : CacheManager Value) : Prop :=
  Kept setting before m ∨ Local setting before m

theorem get_holds (h : Holds setting before m) {key : String} {default : Value} {now : ℚ}
    (fits : Fits setting m (.get key default now)) :
    some (m.get setting key default now).1 = expected setting before key default now ∧
      Holds setting (before ++ [.get key default now]) (m.get setting key default now).2 := by
  rw [Fits] at fits
  rcases h with kept | local_
  · rw [if_pos kept.client] at fits
    exact (get_kept kept fits.1 fits.2).imp_right Or.inl
  · rw [if_neg (by rw [local_.client]; decide)] at fits
    exact (get_local local_ fits).imp_right Or.inr

theorem step_holds (h : Holds setting before m) {call : Call Value} (fits : Fits setting m call) :
    Holds setting (before ++ [call]) (step setting m call) := by
  cases call with
  | get key default now => exact (get_holds h fits).2
  | set key value ttl now =>
    rcases h with kept | local_
    · obtain ⟨closed, expires, dumped⟩ := fits kept.client
      exact Or.inl (set_kept kept closed expires dumped)
    · exact Or.inr (set_local local_ key value ttl now)
  | delete key now =>
    rcases h with kept | local_
    · exact Or.inl (delete_kept kept (fits kept.client))
    · exact Or.inr (delete_local local_ key now)

theorem direct_append {calls after : List (Call Value)} {m : CacheManager Value}
    (direct : Direct setting m (calls ++ after)) (h : Holds setting before m) :
    Holds setting (before ++ calls) (calls.foldl (step setting) m) ∧
      Direct setting (calls.foldl (step setting) m) after := by
  induction calls generalizing m before with
  | nil =>
    rw [List.append_nil]
    exact ⟨h, direct⟩
  | cons call calls ih =>
    rw [List.append_cons]
    exact ih direct.2 (step_holds h direct.1)

omit [DecidableEq Value] in
theorem start_holds (client : Bool) : Holds setting [] { client := client } := by
  cases client with
  | true => exact Or.inl ⟨rfl, rfl, fun _ => rfl, fun _ => rfl, fun _ _ => nofun⟩
  | false => exact Or.inr ⟨rfl, fun _ => rfl⟩

/-- In a run in which every call fits, every `get` returns the latest value that was set, while its
ttl has not elapsed, and otherwise the default. -/
theorem lawful_of_direct (setting : Setting Value) (client : Bool) (calls : List (Call Value))
    (direct : Direct setting { client := client } calls) : Lawful setting client calls := by
  rintro before key default now after rfl
  obtain ⟨holds, next⟩ := direct_append direct (start_holds client)
  exact (get_holds holds next.1).1

/-- `json` on `None`, `True` and `False`. -/
def truths : Json (Option Bool) where
  null := none
  dumps value := some (value.elim "null" fun b => if b then "true" else "false")
  loads text := if text = "true" then some true else if text = "false" then some false else none

/-- A key that is set, read, deleted and read again, with a server. -/
theorem lawful_of_direct_read : Lawful { json := truths } true
    [.set "a" (some true) none 0, .get "a" none 1, .delete "a" 2, .get "a" (some false) 3] :=
  lawful_of_direct { json := truths } true _ (by decide +kernel)

/-- Three keys that are not there open the breaker, and a key that is there is not found. -/
theorem misses_hide : ¬∀ (setting : Setting (Option Bool)) (client : Bool)
    (calls : List (Call (Option Bool))), Lawful setting client calls := by
  intro claim
  have read := claim { json := truths } true
    [.set "a" (some true) none 0, .get "b" none 1, .get "c" none 1, .get "d" none 1,
      .get "a" none 2]
    [.set "a" (some true) none 0, .get "b" none 1, .get "c" none 1, .get "d" none 1]
    "a" none 2 [] rfl
  exact absurd read (by decide +kernel)

end AgentStudio.Cache
