import Mathlib.Algebra.Order.Field.Rat
import Mathlib.Data.List.Induction
import Mathlib.Data.Rat.Floor
import Mathlib.Tactic.Linarith

/-!
# The cooldown of a deployment

`gateway/cooldown.py`: the failures of a deployment are counted under one key in Redis,
which expires. The expiry is set by the first failure that is counted and by no other, so
the window of the count and the cooldown end together. Times are milliseconds of Redis'
clock.
-/

namespace AgentStudio.Cooldown

structure Config where
  allowedFails : Int := 5
  cooldownTimeSeconds : ℚ := 60

/-- The key: its count, and when it expires. -/
structure Entry where
  count : Int
  expiry : Int
  deriving DecidableEq

inductive Event where
  | failure (time : Nat)
  | success (time : Nat)
  deriving DecidableEq

def Event.time : Event → Nat
  | .failure time => time
  | .success time => time

/-- What a command finds: a key is there up to its expiry. -/
def live (now : Nat) (key : Option Entry) : Option Entry := key.filter fun e => (now : Int) ≤ e.expiry

/-- `_COOLDOWN_FAIL_LUA`: `PEXPIRE` deletes a key that is given no time. -/
def failScript (cooldownMs : Int) (now : Nat) (key : Option Entry) : Option Entry :=
  match live now key with
  | some e => some { e with count := e.count + 1 }
  | none => if cooldownMs ≤ 0 then none else some { count := 1, expiry := now + cooldownMs }

namespace Config

variable (config : Config)

/-- The cooldown time in milliseconds. -/
def cooldown : ℚ := config.cooldownTimeSeconds * 1000

/-- `int(cooldown_time_seconds * 1000)`. -/
def cooldownMs : Int := if 0 ≤ config.cooldown then ⌊config.cooldown⌋ else ⌈config.cooldown⌉

/-- `record_failure` and `record_success`. -/
def record (key : Option Entry) : Event → Option Entry
  | .failure now => failScript config.cooldownMs now key
  | .success _ => none

/-- The key after the calls. -/
def after (calls : List Event) : Option Entry := calls.foldl config.record none

/-- `is_available`. -/
def isAvailable (now : Nat) (key : Option Entry) : Bool :=
  match live now key with
  | none => true
  | some e => e.count < config.allowedFails

/-! ## What is asked of the cooldown -/

/-- The times of the last failures with no success after them, the latest first. -/
def streak : List Event → List Nat
  | [] => []
  | .failure time :: earlier => time :: streak earlier
  | .success _ :: _ => []

/-- With a failure at `time`, there have been as many as are allowed within the cooldown time,
with no success in between. -/
def Reached (calls : List Event) (time : Nat) : Prop :=
  config.allowedFails ≤ ((time :: streak calls.reverse).filter fun t : Nat =>
    (time : ℚ) - t ≤ config.cooldown).length

/-- Whenever as many failures have occurred, whoever asks within the cooldown time after the
last of them, with no success since, is told that the deployment is not available. -/
def Cools (calls : List Event) : Prop :=
  ∀ (before since later : List Event) (time now : Nat),
    calls = before ++ .failure time :: since ++ later →
    config.Reached before time → (∀ e ∈ since, e = .failure e.time) →
    (∀ e ∈ .failure time :: since, e.time ≤ now) → (∀ e ∈ later, now ≤ e.time) →
    (now : ℚ) < time + config.cooldown →
    config.isAvailable now (config.after (before ++ .failure time :: since)) = false

/-! ## The window -/

/-- The window that the last failure falls in: when it began, and the failures in it. The times
are of failures with no success in between, the latest first. -/
def window (ms : Int) : List Nat → Option (Nat × Int)
  | [] => none
  | time :: earlier =>
    match window ms earlier with
    | some (start, count) => if time ≤ start + ms then some (start, count + 1) else some (time, 1)
    | none => some (time, 1)

/-- The window of the failure holds as many as are allowed, and goes on for the cooldown time
after it, or up to the next success. -/
def Covered (before : List Event) (time : Nat) (rest : List Event) : Prop :=
  0 < config.cooldownMs ∧ ∃ start count,
    window config.cooldownMs (time :: streak before.reverse) = some (start, count) ∧
      config.allowedFails ≤ count ∧
      (time + config.cooldown ≤ start + config.cooldownMs + 1 ∨
        ∃ (since later : List Event) (t : Nat), rest = since ++ .success t :: later ∧
          (∀ e ∈ since, e = .failure e.time) ∧ t ≤ start + config.cooldownMs)

/-- The key of a window. -/
def entry (ms : Int) (w : Nat × Int) : Entry := ⟨w.2, w.1 + ms⟩

variable {config} {calls : List Event}

theorem streak_failure (calls : List Event) (time : Nat) :
    streak (calls ++ [Event.failure time]).reverse = time :: streak calls.reverse := by
  rw [List.reverse_append]
  rfl

theorem streak_success (calls : List Event) (time : Nat) :
    streak (calls ++ [Event.success time]).reverse = [] := by
  rw [List.reverse_append]
  rfl

theorem after_snoc (calls : List Event) (e : Event) :
    config.after (calls ++ [e]) = config.record (config.after calls) e := by
  rw [after, List.foldl_append]
  rfl

theorem live_early {ms : Int} {now : Nat} {w : Nat × Int} (early : now ≤ w.1 + ms) :
    live now (some (entry ms w)) = some (entry ms w) :=
  Option.filter_some_pos (decide_eq_true early)

theorem live_late {ms : Int} {now : Nat} {w : Nat × Int} (late : ¬now ≤ w.1 + ms) :
    live now (some (entry ms w)) = none :=
  Option.filter_some_neg (decide_eq_false late)

/-- With no time to expire in, there is never a key. -/
theorem after_none (short : config.cooldownMs ≤ 0) (calls : List Event) :
    config.after calls = none := by
  induction calls using List.reverseRecOn with
  | nil => rfl
  | append_singleton calls e ih =>
    rw [after_snoc, ih]
    cases e with
    | failure time => exact if_pos short
    | success time => rfl

/-- The key is that of the window. -/
theorem after_window (long : 0 < config.cooldownMs) (calls : List Event) :
    config.after calls = (window config.cooldownMs (streak calls.reverse)).map
      (entry config.cooldownMs) := by
  induction calls using List.reverseRecOn with
  | nil => rfl
  | append_singleton calls e ih =>
    rw [after_snoc, ih]
    cases e with
    | success time =>
      rw [streak_success]
      rfl
    | failure time =>
      rw [streak_failure, window, record, failScript]
      have fresh : ¬config.cooldownMs ≤ 0 := not_le.mpr long
      cases open_ : window config.cooldownMs (streak calls.reverse) with
      | none =>
        rw [Option.map_none, live, Option.filter_none]
        exact if_neg fresh
      | some w =>
        obtain ⟨start, count⟩ := w
        rw [Option.map_some]
        by_cases inside : (time : Int) ≤ start + config.cooldownMs
        · rw [live_early inside]
          simp [entry, inside]
        · rw [live_late inside]
          simp [entry, inside, fresh]

/-- Failures up to the end of a window are in it. -/
theorem window_grows {ms count : Int} {start : Nat} {calls since : List Event}
    (open_ : window ms (streak calls.reverse) = some (start, count))
    (failures : ∀ e ∈ since, e = .failure e.time) (inside : ∀ e ∈ since, e.time ≤ start + ms) :
    window ms (streak (calls ++ since).reverse) = some (start, count + since.length) := by
  induction since using List.reverseRecOn with
  | nil => simpa using open_
  | append_singleton since e ih =>
    have before := ih (fun e mem => failures e (List.mem_append_left _ mem))
      (fun e mem => inside e (List.mem_append_left _ mem))
    have last := inside e (List.mem_append_right _ (List.mem_singleton_self e))
    rw [failures e (List.mem_append_right _ (List.mem_singleton_self e)), ← List.append_assoc,
      streak_failure, window, before]
    simp [last, add_assoc]

/-- While a window holds as many failures as are allowed, the deployment is not available. -/
theorem unavailable_of_window {start now : Nat} {count : Int} (long : 0 < config.cooldownMs)
    (open_ : window config.cooldownMs (streak calls.reverse) = some (start, count))
    (full : config.allowedFails ≤ count) (early : now ≤ start + config.cooldownMs) :
    config.isAvailable now (config.after calls) = false := by
  rw [after_window long, open_, Option.map_some, isAvailable, live_early early]
  exact decide_eq_false (not_lt.mpr full)

theorem available_of_window {start now : Nat} {count : Int} (long : 0 < config.cooldownMs)
    (open_ : window config.cooldownMs (streak calls.reverse) = some (start, count))
    (late : start + config.cooldownMs < now) :
    config.isAvailable now (config.after calls) = true := by
  rw [after_window long, open_, Option.map_some, isAvailable, live_late (not_le.mpr late)]

/-- What is unavailable is in a window that holds as many failures as are allowed. -/
theorem window_of_unavailable {now : Nat}
    (is : config.isAvailable now (config.after calls) = false) :
    0 < config.cooldownMs ∧ ∃ start count,
      window config.cooldownMs (streak calls.reverse) = some (start, count) ∧
        config.allowedFails ≤ count ∧ now ≤ start + config.cooldownMs := by
  by_cases short : config.cooldownMs ≤ 0
  · rw [after_none short] at is
    cases is
  have long := not_le.mp short
  refine ⟨long, ?_⟩
  rw [after_window long] at is
  cases open_ : window config.cooldownMs (streak calls.reverse) with
  | none =>
    rw [open_] at is
    cases is
  | some w =>
    obtain ⟨start, count⟩ := w
    refine ⟨start, count, rfl, ?_⟩
    rw [open_, Option.map_some, isAvailable] at is
    by_cases early : now ≤ start + config.cooldownMs
    · rw [live_early early] at is
      exact ⟨not_lt.mp (of_decide_eq_false is), early⟩
    · rw [live_late early] at is
      cases is

/-- A list of calls up to its first success. -/
theorem first_success (calls : List Event) : (∀ e ∈ calls, e = .failure e.time) ∨
    ∃ (since later : List Event) (t : Nat), calls = since ++ .success t :: later ∧
      ∀ e ∈ since, e = .failure e.time := by
  induction calls with
  | nil => exact .inl fun e mem => by cases mem
  | cons e calls ih =>
    cases e with
    | success t => exact .inr ⟨[], calls, t, rfl, fun e mem => by cases mem⟩
    | failure t =>
      rcases ih with all | ⟨since, later, t', rfl, all⟩
      · refine .inl fun e mem => ?_
        rcases List.mem_cons.mp mem with rfl | mem
        · rfl
        · exact all e mem
      · refine .inr ⟨.failure t :: since, later, t', rfl, fun e mem => ?_⟩
        rcases List.mem_cons.mp mem with rfl | mem
        · rfl
        · exact all e mem

/-- Sorted calls split at a time. -/
theorem split_at (bound : Int) (sorted : calls.Pairwise fun a b => a.time ≤ b.time) :
    ∃ since later, calls = since ++ later ∧ (∀ e ∈ since, e.time ≤ bound) ∧
      ∀ e ∈ later, bound < e.time := by
  induction calls with
  | nil => exact ⟨[], [], rfl, by simp, by simp⟩
  | cons e calls ih =>
    obtain ⟨first, sorted⟩ := List.pairwise_cons.mp sorted
    by_cases early : (e.time : Int) ≤ bound
    · obtain ⟨since, later, rfl, inside, outside⟩ := ih sorted
      refine ⟨e :: since, later, rfl, fun e' mem => ?_, outside⟩
      rcases List.mem_cons.mp mem with rfl | mem
      · exact early
      · exact inside e' mem
    · refine ⟨[], e :: calls, rfl, by simp, fun e' mem => ?_⟩
      rcases List.mem_cons.mp mem with rfl | mem
      · exact not_le.mp early
      · have := first e' mem
        omega

/-! ## When it is kept -/

/-- The cooldown is kept if and only if every failure that makes as many as are allowed falls in
a window that covers it. -/
theorem cools_iff (config : Config) (sorted : calls.Pairwise fun a b => a.time ≤ b.time) :
    config.Cools calls ↔ ∀ (before rest : List Event) (time : Nat),
      calls = before ++ .failure time :: rest → config.Reached before time →
        config.cooldown ≤ 0 ∨ config.Covered before time rest := by
  constructor
  · intro cools before rest time is reached
    by_cases none_ : config.cooldown ≤ 0
    · exact .inl none_
    have some_ := not_le.mp none_
    refine .inr ?_
    subst is
    obtain ⟨-, sorted, -⟩ := List.pairwise_append.mp sorted
    obtain ⟨first, sorted⟩ := List.pairwise_cons.mp sorted
    -- asked at once
    have now := cools before [] rest time time (by simp) reached (fun e mem => by cases mem)
      (fun e mem => by rw [List.mem_singleton.mp mem]; rfl) first (by linarith)
    obtain ⟨long, start, count, open_, full, own⟩ := window_of_unavailable now
    have there := open_
    rw [streak_failure] at there
    refine ⟨long, start, count, there, full, ?_⟩
    by_cases covers : time + config.cooldown ≤ start + config.cooldownMs + 1
    · exact .inl covers
    refine .inr ?_
    -- asked when the window has ended
    obtain ⟨since, later, rfl, inside, outside⟩ := split_at (start + config.cooldownMs) sorted
    rcases first_success since with failures | ⟨since', later', t, rfl, failures⟩
    · exfalso
      have grown := window_grows open_ failures inside
      rw [List.append_assoc, List.singleton_append] at grown
      obtain ⟨ended, is⟩ := Int.eq_ofNat_of_zero_le (a := start + config.cooldownMs + 1) (by omega)
      have unavailable := cools before since later time ended (by simp) reached failures ?_ ?_ ?_
      · rw [available_of_window long grown (by omega)] at unavailable
        cases unavailable
      · intro e mem
        rcases List.mem_cons.mp mem with rfl | mem
        · simp only [Event.time]
          omega
        · have := inside e mem
          omega
      · intro e mem
        have := outside e mem
        omega
      · have : ((ended : Int) : ℚ) < time + config.cooldown := by
          rw [← is]
          push_cast
          exact not_le.mp covers
        exact_mod_cast this
    · refine ⟨since', later' ++ later, t, by simp, failures, ?_⟩
      exact inside (.success t) (by simp)
  · intro covered before since later time now is reached failures asked next within
    have early : time ≤ now := asked (.failure time) List.mem_cons_self
    have some_ : 0 < config.cooldown := by
      have : (time : ℚ) ≤ now := by exact_mod_cast early
      linarith
    rw [List.append_assoc, List.cons_append] at is
    obtain ⟨long, start, count, open_, full, ends⟩ :=
      (covered before (since ++ later) time is reached).resolve_left (not_le.mpr some_)
    have bound : (now : Int) ≤ start + config.cooldownMs := by
      rcases ends with covers | ⟨since', later', t, rest, -, inside⟩
      · have : (now : ℚ) < start + config.cooldownMs + 1 := within.trans_le covers
        have : (now : Int) < start + config.cooldownMs + 1 := by exact_mod_cast this
        omega
      · have mem : Event.success t ∈ since ++ later := by
          rw [rest]
          simp
        rcases List.mem_append.mp mem with mem | mem
        · cases failures _ mem
        · have := next _ mem
          simp only [Event.time] at this
          omega
    rw [← streak_failure] at open_
    have grown := window_grows open_ failures fun e mem =>
      (Int.ofNat_le.mpr (asked e (List.mem_cons_of_mem _ mem))).trans bound
    rw [List.append_assoc, List.singleton_append] at grown
    exact unavailable_of_window long grown (by omega) bound

/-- One failure is allowed, and a success comes within the minute. -/
theorem cools_iff_one : Cools { allowedFails := 1 } [.failure 0, .success 10] := by
  have long : cooldownMs { allowedFails := 1 } = 60000 := by norm_num [cooldownMs, cooldown]
  refine (cools_iff { allowedFails := 1 } (by decide)).mpr fun before rest time is _ => .inr ?_
  cases before with
  | nil =>
    cases is
    refine ⟨by rw [long]; decide, 0, 1, rfl, by decide, .inr ⟨[], [], 10, rfl, by simp, ?_⟩⟩
    rw [long]
    decide
  | cons e before =>
    cases before with
    | nil => cases is
    | cons e' before => cases before <;> cases is

/-- Five failures in 50 seconds: the deployment is available 20 seconds after the last. -/
def spread : List Event :=
  [.failure 0, .failure 10000, .failure 20000, .failure 30000, .failure 50000]

theorem spread_cut_short : isAvailable {} 70000 (after {} spread) = true ∧ ¬Cools {} spread := by
  have long : cooldownMs {} = 60000 := by norm_num [cooldownMs, cooldown]
  have available : isAvailable {} 70000 (after {} spread) = true := by
    apply @available_of_window {} spread 0 70000 5
    · rw [long]
      decide
    · rw [long]
      decide
    · rw [long]
      decide
  refine ⟨available, fun cools => ?_⟩
  have told := cools [.failure 0, .failure 10000, .failure 20000, .failure 30000] [] [] 50000 70000
    rfl ?_ (by simp) (by decide) (by simp) ?_
  · cases available.symm.trans told
  · norm_num [Reached, streak, cooldown]
  · norm_num [cooldown]

end Config

end AgentStudio.Cooldown
