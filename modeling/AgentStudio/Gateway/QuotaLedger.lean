import AgentStudio.Async.Pool
import AgentStudio.Gateway.Quota

/-!
# The budget store under any interleaving

Any number of `reserve`, `reconcile` and `release` calls run at once, each Lua
script one atomic step. What a reservation holds is read off the traces: it was
charged at a key, and neither its own rollback nor a settling call has returned
it there.
-/

namespace AgentStudio.Quota
open Async

/-- A call of the service. `reconcile` and `release` are given the reservation
that the `reserve` call started as task `rid` returned. -/
inductive Call where
  | reserve (args : ReserveArgs)
  | reconcile (rid : Nat) (actualUsd : ℚ)
  | release (rid : Nat)

/-- The `reserve` call a settling call settles, and the amount it moves to spent. -/
def Call.settles : Call → Option (Nat × ℚ)
  | .reserve _ => none
  | .reconcile rid actualUsd => some (rid, actualUsd)
  | .release rid => some (rid, 0)

abbrev Progress := Tree Redis Raised (Except Raised (Option Reservation))

abbrev World := Pool Call Redis Raised (Except Raised (Option Reservation)) Store

/-- A settling call as a task: it returns nothing. -/
def settling (c : Coro Redis Raised Unit Unit) : Progress :=
  (c.tree ()).bind fun o => .done (o.map fun _ => none)

/-- What may be started: a `reserve` with a non-negative estimate and the fixed
limits, a settling call on a reservation that was returned. -/
inductive MayStart (svc : Service) (limit : String → ℚ) (w : World) : Call → Progress → Prop
  | reserve (args : ReserveArgs) (amount : 0 ≤ args.estimatedUsd)
      (fixed : ∀ level, args.limits.levelLimit level = limit (args.key svc level)) :
      MayStart svc limit w (.reserve args) ((reserve svc args).tree {})
  | reconcile (rid : Nat) (args : ReserveArgs) (trace : Trace Redis Raised) (r : Reservation)
      (returned : w.tasks[rid]? = some ⟨.reserve args, trace, .done (.ok (some r))⟩)
      (actualUsd : ℚ) (amount : 0 ≤ actualUsd) :
      MayStart svc limit w (.reconcile rid actualUsd) (settling (reconcile svc (some r) actualUsd))
  | release (rid : Nat) (args : ReserveArgs) (trace : Trace Redis Raised) (r : Reservation)
      (returned : w.tasks[rid]? = some ⟨.reserve args, trace, .done (.ok (some r))⟩) :
      MayStart svc limit w (.release rid) (settling (release svc (some r)))

def World.empty : World := ⟨fun _ => ⟨0, 0⟩, []⟩

def Reachable (svc : Service) (limit : String → ℚ) (w : World) : Prop :=
  Pool.Reachable exec (MayStart svc limit) World.empty w

/-- The key a script call charged, when it was granted. -/
def chargedKey (ev : Event Redis Raised) : Option String :=
  match ev with
  | ⟨.reserve key _ _, .ok (true, _)⟩ => some key
  | _ => none

/-- The key a script call returned a charge at, and the amount it spent there. -/
def settledKey (ev : Event Redis Raised) : Option (String × ℚ) :=
  match ev with
  | ⟨.reconcile key _ actual, .ok _⟩ => some (key, actual)
  | _ => none

def charged (t : Trace Redis Raised) : List String := t.filterMap chargedKey

def returned (t : Trace Redis Raised) : List String := (t.filterMap settledKey).map Prod.fst

/-- The amount the calls of a trace moved to spent under `key`. -/
def spentAt (key : String) (t : Trace Redis Raised) : ℚ :=
  ((t.filterMap settledKey).map fun e => if e.1 = key then e.2 else 0).sum

abbrev Running := Task Call Redis Raised (Except Raised (Option Reservation))

/-- A settling call has returned `key` for the reservation of task `i`. -/
def SettledAt (w : World) (i : Nat) (key : String) : Prop :=
  ∃ (j : Nat) (task : Running) (actual : ℚ), w.tasks[j]? = some task ∧
    task.call.settles = some (i, actual) ∧ key ∈ returned task.trace

/-- The reservation of task `i` holds `key`: charged there, and neither rolled
back by the call itself nor settled. -/
def Holds (w : World) (i : Nat) (key : String) : Prop :=
  (∃ task : Running, w.tasks[i]? = some task ∧ key ∈ charged task.trace ∧
    key ∉ returned task.trace) ∧ ¬ SettledAt w i key

def Call.estimate : Call → ℚ
  | .reserve args => args.estimatedUsd
  | _ => 0

/-- The estimate of task `i`'s reservation. -/
def estimate (w : World) (i : Nat) : ℚ := ((w.tasks[i]?).map fun task => task.call.estimate).getD 0

open Classical in
/-- The estimates of the reservations that hold `key`. -/
noncomputable def held (w : World) (key : String) : ℚ :=
  ∑ i ∈ Finset.range w.tasks.length, if Holds w i key then estimate w i else 0

/-- The actuals reconciled under `key`. -/
def reconciled (w : World) (key : String) : ℚ := (w.tasks.map fun task => spentAt key task.trace).sum

/-- No reservation is settled by two calls. -/
def SettledOnce (w : World) : Prop :=
  ∀ (i j : Nat) (task task' : Running) (rid : Nat) (a a' : ℚ),
    w.tasks[i]? = some task → w.tasks[j]? = some task' → task.call.settles = some (rid, a) → task'.call.settles = some (rid, a') → i = j

/-! ## Where a `reserve` call stands -/

section
variable (svc : Service) (args : ReserveArgs)

/-- The handler of `reserve`'s `try`. -/
def onRaise (e : Raised) : Coro Redis Raised Acquired (Option Reservation) := do
  if e.isQuotaExceeded then throw e
  else if e.isException then
    rollback svc (← get).keys args.estimatedUsd
    pure none
  else throw e

/-- `reserve` with `levels` still to charge. -/
def reserveFrom (levels : List Level) (a : Acquired) : Progress :=
  Coro.tree (tryCatch
    (do
      reserveLevels svc args levels
      let acquired ← get
      pure (some ⟨args.reservationId, args.estimatedUsd, acquired.levels, acquired.keys, args.window⟩))
    (onRaise svc args)) a

/-- `reserve` refused, with `keys` still to return. -/
def refuseFrom (level : Level) (limit projected : ℚ) (keys : List String) (a : Acquired) : Progress :=
  Coro.tree (tryCatch
    (do
      tryCatch (reconcileKeys args.estimatedUsd 0 keys) fun e =>
        if e.isException then pure () else throw e
      throw (.quotaExceeded level limit projected))
    (onRaise svc args)) a

/-- A settling call with `keys` still to settle. -/
def settleFrom (est actual : ℚ) (keys : List String) : Progress :=
  settling (tryCatch (reconcileKeys est actual keys) fun e =>
    if e.isException then pure () else throw e)

theorem reserve_tree (amount : 0 < args.estimatedUsd) (up : svc.available = true) :
    (reserve svc args).tree {} = reserveFrom svc args Level.all {} := by
  unfold reserve
  rw [if_neg (not_le.mpr amount), up]
  rfl

theorem reserve_tree_free (free : args.estimatedUsd ≤ 0 ∨ svc.available = false) :
    (reserve svc args).tree {} = .done (.ok none) := by
  unfold reserve
  by_cases h : args.estimatedUsd ≤ 0
  · rw [if_pos h]; rfl
  · rw [if_neg h, free.resolve_left h]; rfl

theorem reserveFrom_nil (a : Acquired) :
    reserveFrom svc args [] a =
      .done (.ok (some ⟨args.reservationId, args.estimatedUsd, a.levels, a.keys, args.window⟩)) := rfl

theorem rollback_eq (up : svc.available = true) (keys : List String) (est : ℚ) :
    (rollback svc keys est : Coro Redis Raised Acquired Unit) =
      tryCatch (reconcileKeys est 0 keys) fun e =>
        if e.isException then pure () else throw e := by
  unfold rollback
  cases keys with
  | nil => simp [up]; rfl
  | cons key rest => simp [up]

theorem reserveFrom_limited (up : svc.available = true) {level : Level}
    (limited : 0 < args.limits.levelLimit level) (levels : List Level) (a : Acquired) :
    ∃ k, reserveFrom svc args (level :: levels) a =
        .await (I := Redis)
          (.reserve (args.key svc level) (args.limits.levelLimit level) args.estimatedUsd) k ∧
      (∀ projected, k (.ok (true, projected)) = reserveFrom svc args levels
        ⟨a.levels ++ [level], a.keys ++ [args.key svc level]⟩) ∧
      ∀ projected, k (.ok (false, projected)) =
        refuseFrom svc args level (args.limits.levelLimit level) projected a.keys a := by
  unfold reserveFrom refuseFrom
  simp only [reserveLevels, if_neg (not_le.mpr limited), rollback_eq svc up]
  refine ⟨_, rfl, fun _ => rfl, fun projected => ?_⟩
  exact congrArg (fun c => Coro.tree (tryCatch c (onRaise svc args)) a)
    (Coro.bind_assoc
      (tryCatch (reconcileKeys args.estimatedUsd 0 a.keys) fun e =>
        if e.isException then pure () else throw e)
      (fun _ => (throw (.quotaExceeded level (args.limits.levelLimit level) projected) :
        Coro Redis Raised Acquired Unit)) _)

theorem refuseFrom_nil (level : Level) (limit projected : ℚ) (a : Acquired) :
    refuseFrom svc args level limit projected [] a =
      .done (.error (.quotaExceeded level limit projected)) := rfl

theorem refuseFrom_cons (level : Level) (limit projected : ℚ) (key : String) (keys : List String)
    (a : Acquired) :
    ∃ k, refuseFrom svc args level limit projected (key :: keys) a =
        .await (I := Redis) (.reconcile key args.estimatedUsd 0) k ∧
      k (.ok ()) = refuseFrom svc args level limit projected keys a :=
  ⟨_, rfl, rfl⟩

theorem settleFrom_nil (est actual : ℚ) : settleFrom est actual [] = .done (.ok none) := rfl

theorem settleFrom_cons (est actual : ℚ) (key : String) (keys : List String) :
    ∃ k, settleFrom est actual (key :: keys) = .await (I := Redis) (.reconcile key est actual) k ∧
      k (.ok ()) = settleFrom est actual keys :=
  ⟨_, rfl, rfl⟩

/-- The levels that are charged. -/
def limitedLevels : List Level := Level.all.filter fun level => 0 < args.limits.levelLimit level

/-- The loop only ever awaits at limited levels. -/
theorem reserveLevels_filter (levels : List Level) :
    reserveLevels svc args levels =
      reserveLevels svc args (levels.filter fun level => 0 < args.limits.levelLimit level) := by
  induction levels with
  | nil => rfl
  | cons level rest ih =>
    by_cases limited : 0 < args.limits.levelLimit level
    · rw [List.filter_cons_of_pos (by simpa using limited)]
      simp only [reserveLevels, if_neg (not_le.mpr limited), ih]
    · rw [List.filter_cons_of_neg (by simpa using limited)]
      simp only [reserveLevels, if_pos (not_lt.mp limited), ih]

theorem reserve_tree_limited (amount : 0 < args.estimatedUsd) (up : svc.available = true) :
    (reserve svc args).tree {} = reserveFrom svc args (limitedLevels args) {} := by
  rw [reserve_tree svc args amount up]
  unfold reserveFrom limitedLevels
  rw [reserveLevels_filter]

end

/-! ## The four level keys of a request differ -/

theorem levelKey_injective (svc : Service) (args : ReserveArgs) :
    Function.Injective (args.key svc) := by
  intro level level' eq
  have lists := congrArg String.toList eq
  have lengths := congrArg List.length lists
  cases level <;> cases level' <;>
    simp [ReserveArgs.key, Service.levelKey] at lists lengths ⊢ <;> omega

theorem limitedKeys_nodup (svc : Service) (args : ReserveArgs) :
    ((limitedLevels args).map (args.key svc)).Nodup :=
  List.Nodup.map (levelKey_injective svc args) (List.Nodup.filter _ (by decide))

/-! ## Where each task stands -/

@[simp] theorem charged_nil : charged [] = [] := rfl

@[simp] theorem returned_nil : returned [] = [] := rfl

section
variable {t : Trace Redis Raised} {ev : Event Redis Raised} {key : String} {actual : ℚ}

theorem charged_snoc_none (h : chargedKey ev = none) : charged (t ++ [ev]) = charged t := by
  simp [charged, List.filterMap_cons_none h]

theorem charged_snoc (h : chargedKey ev = some key) :
    charged (t ++ [ev]) = charged t ++ [key] := by
  simp [charged, List.filterMap_cons_some h]

theorem settled_snoc_none (h : settledKey ev = none) :
    (t ++ [ev]).filterMap settledKey = t.filterMap settledKey := by
  simp [List.filterMap_cons_none h]

theorem settled_snoc (h : settledKey ev = some (key, actual)) :
    (t ++ [ev]).filterMap settledKey = t.filterMap settledKey ++ [(key, actual)] := by
  simp [List.filterMap_cons_some h]

theorem returned_snoc_none (h : settledKey ev = none) : returned (t ++ [ev]) = returned t := by
  rw [returned, settled_snoc_none h, returned]

theorem returned_snoc (h : settledKey ev = some (key, actual)) :
    returned (t ++ [ev]) = returned t ++ [key] := by
  rw [returned, settled_snoc h, List.map_append]
  rfl

theorem spentAt_snoc_none (h : settledKey ev = none) (k : String) :
    spentAt k (t ++ [ev]) = spentAt k t := by
  rw [spentAt, settled_snoc_none h, spentAt]

theorem spentAt_snoc (h : settledKey ev = some (key, actual)) (k : String) :
    spentAt k (t ++ [ev]) = spentAt k t + if key = k then actual else 0 := by
  rw [spentAt, settled_snoc h, List.map_append, List.sum_append]
  simp [spentAt]

end

/-- Where a `reserve` call stands, read off its own trace: not entitled to
charge, charging its limited levels in order, or giving back what it charged. -/
inductive Stands (svc : Service) (args : ReserveArgs)
    (t : Trace Redis Raised) (rest : Progress) : Prop
  | idle (trace : t = []) (done : rest = .done (.ok none))
  | charging (levels : List Level) (a : Acquired)
      (order : a.levels ++ levels = limitedLevels args)
      (keys : a.keys = a.levels.map (args.key svc))
      (charges : charged t = a.keys) (returns : t.filterMap settledKey = [])
      (rest_eq : rest = reserveFrom svc args levels a)
  | refusing (level : Level) (limitUsd projectedUsd : ℚ) (keys : List String) (a : Acquired)
      (charges : charged t = returned t ++ keys) (distinct : (charged t).Nodup)
      (free : ∀ e ∈ t.filterMap settledKey, e.2 = 0)
      (rest_eq : rest = refuseFrom svc args level limitUsd projectedUsd keys a)

/-- A started `reserve` call keeps to the fixed limits and to its place. -/
structure Reserving (svc : Service) (limit : String → ℚ) (args : ReserveArgs)
    (t : Trace Redis Raised) (rest : Progress) : Prop where
  amount : 0 ≤ args.estimatedUsd
  fixed : ∀ level, args.limits.levelLimit level = limit (args.key svc level)
  stands : Stands svc args t rest

section
variable {svc : Service} {args : ReserveArgs}

theorem limited_of_order {a : Acquired} {level : Level} {levels : List Level}
    (order : a.levels ++ level :: levels = limitedLevels args) :
    0 < args.limits.levelLimit level := by
  have member : level ∈ limitedLevels args := by
    rw [← order]
    simp
  simpa [limitedLevels] using (List.mem_filter.mp member).2

theorem reserveFrom_done (up : svc.available = true) {levels : List Level} {a : Acquired}
    {o : Except Raised (Option Reservation)} (order : a.levels ++ levels = limitedLevels args)
    (eq : .done o = reserveFrom svc args levels a) : levels = [] := by
  cases levels with
  | nil => rfl
  | cons level levels =>
    obtain ⟨k, eq', _⟩ := reserveFrom_limited svc args up (limited_of_order order) levels a
    rw [eq'] at eq
    cases eq

theorem refuseFrom_done {level : Level} {limitUsd projectedUsd : ℚ} {keys : List String}
    {a : Acquired} {o : Except Raised (Option Reservation)}
    (eq : .done o = refuseFrom svc args level limitUsd projectedUsd keys a) : keys = [] := by
  cases keys with
  | nil => rfl
  | cons key keys =>
    obtain ⟨k, eq', _⟩ := refuseFrom_cons svc args level limitUsd projectedUsd key keys a
    rw [eq'] at eq
    cases eq

end

/-- What a waiting `reserve` call waits for, and where either answer puts it. -/
inductive Awaits (svc : Service) (args : ReserveArgs) (t : Trace Redis Raised) :
    (op : Script) → (Except Raised (Redis.Ans op) → Progress) → Prop
  | charge (level : Level) (limited : 0 < args.limits.levelLimit level)
      (k : Except Raised (Bool × ℤ) → Progress)
      (fresh : args.key svc level ∉ charged t) (clean : t.filterMap settledKey = [])
      (next : ∀ answer, Stands svc args
        (t ++ [⟨.reserve (args.key svc level) (args.limits.levelLimit level) args.estimatedUsd,
          .ok answer⟩]) (k (.ok answer))) :
      Awaits svc args t
        (.reserve (args.key svc level) (args.limits.levelLimit level) args.estimatedUsd) k
  | giveBack (key : String) (k : Except Raised Unit → Progress)
      (charges : key ∈ charged t) (kept : key ∉ returned t)
      (next : Stands svc args (t ++ [⟨.reconcile key args.estimatedUsd 0, .ok ()⟩]) (k (.ok ()))) :
      Awaits svc args t (.reconcile key args.estimatedUsd 0) k

theorem Stands.awaits {svc : Service} (up : svc.available = true) {args : ReserveArgs}
    {t : Trace Redis Raised} {op : Script} {k : Except Raised (Redis.Ans op) → Progress}
    (stands : Stands svc args t (.await op k)) : Awaits svc args t op k := by
  cases stands with
  | idle trace done => cases done
  | charging levels a order keys charges returns rest_eq =>
    cases levels with
    | nil =>
      rw [reserveFrom_nil] at rest_eq
      cases rest_eq
    | cons level levels =>
      have limited := limited_of_order order
      have distinct := limitedKeys_nodup svc args
      rw [← order, List.map_append, ← keys, ← charges] at distinct
      have fresh : args.key svc level ∉ charged t := by
        intro old
        exact (List.nodup_append.mp distinct).2.2 _ old _ (by simp) rfl
      obtain ⟨k', eq, granted, refused⟩ := reserveFrom_limited svc args up limited levels a
      rw [eq] at rest_eq
      cases rest_eq
      refine .charge level limited k' fresh returns fun answer => ?_
      obtain ⟨ok, projected⟩ := answer
      cases ok with
      | true =>
        refine .charging levels ⟨a.levels ++ [level], a.keys ++ [args.key svc level]⟩ ?_ ?_ ?_ ?_
          (granted projected)
        · simpa using order
        · simp [keys]
        · rw [charged_snoc rfl, charges]
        · rw [settled_snoc_none rfl, returns]
      | false =>
        refine .refusing level _ projected a.keys a ?_ ?_ ?_ (refused projected)
        · rw [charged_snoc_none rfl, returned_snoc_none rfl, charges, returned, returns]
          rfl
        · rw [charged_snoc_none rfl]
          exact (List.nodup_append.mp distinct).1
        · rw [settled_snoc_none rfl, returns]
          simp
  | refusing level limitUsd projectedUsd keys a charges distinct free rest_eq =>
    cases keys with
    | nil =>
      rw [refuseFrom_nil] at rest_eq
      cases rest_eq
    | cons key keys =>
      obtain ⟨k', eq, next⟩ := refuseFrom_cons svc args level limitUsd projectedUsd key keys a
      rw [eq] at rest_eq
      cases rest_eq
      have kept : key ∉ returned t := by
        rw [charges] at distinct
        intro old
        exact (List.nodup_append.mp distinct).2.2 _ old _ (by simp) rfl
      refine .giveBack key k' (by simp [charges]) kept ?_
      refine .refusing level limitUsd projectedUsd keys a ?_ ?_ ?_ next
      · rw [charged_snoc_none rfl, returned_snoc rfl, charges]
        simp
      · rwa [charged_snoc_none rfl]
      · rw [settled_snoc rfl]
        intro e mem
        rcases List.mem_append.mp mem with mem | mem
        · exact free e mem
        · rw [List.mem_singleton.mp mem]

/-- A returned reservation holds what its call charged. -/
theorem Stands.reservation {svc : Service} (up : svc.available = true) {args : ReserveArgs}
    {t : Trace Redis Raised} {r : Reservation}
    (stands : Stands svc args t (.done (.ok (some r)))) :
    r.estimatedUsd = args.estimatedUsd ∧ r.keys = charged t ∧ (charged t).Nodup ∧
      t.filterMap settledKey = [] := by
  cases stands with
  | idle trace done => cases done
  | charging levels a order keys charges returns rest_eq =>
    obtain rfl := reserveFrom_done up order rest_eq
    rw [reserveFrom_nil] at rest_eq
    cases rest_eq
    have distinct := limitedKeys_nodup svc args
    rw [← order, List.append_nil, ← keys, ← charges] at distinct
    exact ⟨rfl, charges.symm, distinct, returns⟩
  | refusing level limitUsd projectedUsd keys a charges distinct free rest_eq =>
    obtain rfl := refuseFrom_done rest_eq
    rw [refuseFrom_nil] at rest_eq
    cases rest_eq

/-- A refused call has given back every key it charged, and spent nothing. -/
theorem Stands.refused {svc : Service} (up : svc.available = true) {args : ReserveArgs}
    {t : Trace Redis Raised} {e : Raised}
    (stands : Stands svc args t (.done (.error e))) :
    charged t = returned t ∧ ∀ e ∈ t.filterMap settledKey, e.2 = 0 := by
  cases stands with
  | idle trace done => cases done
  | charging levels a order keys charges returns rest_eq =>
    obtain rfl := reserveFrom_done up order rest_eq
    rw [reserveFrom_nil] at rest_eq
    cases rest_eq
  | refusing level limitUsd projectedUsd keys a charges distinct free rest_eq =>
    obtain rfl := refuseFrom_done rest_eq
    exact ⟨by simpa using charges, free⟩

/-- A settling call stands at its own returned keys of a reservation whose
`reserve` call is over. -/
def Settling (w : World) (task : Running) (rid : Nat) (actual : ℚ) : Prop :=
  ∃ (args : ReserveArgs) (t : Trace Redis Raised) (r : Reservation) (keys : List String),
    w.tasks[rid]? = some ⟨.reserve args, t, .done (.ok (some r))⟩ ∧
      r.keys = returned task.trace ++ keys ∧ charged task.trace = [] ∧
      task.rest = settleFrom r.estimatedUsd actual keys

/-- Every task of `w` stands where its own trace says. -/
structure Sound (svc : Service) (limit : String → ℚ) (w : World) : Prop where
  reserving : ∀ (i : Nat) (args : ReserveArgs) (t : Trace Redis Raised) (rest : Progress),
    w.tasks[i]? = some ⟨.reserve args, t, rest⟩ → Reserving svc limit args t rest
  settling : ∀ (i : Nat) (task : Running) (rid : Nat) (actual : ℚ), w.tasks[i]? = some task →
    task.call.settles = some (rid, actual) → Settling w task rid actual

theorem settling_reconcile (svc : Service) (up : svc.available = true) (r : Reservation)
    (actual : ℚ) :
    settling (reconcile svc (some r) actual) = settleFrom r.estimatedUsd actual r.keys := by
  obtain ⟨id, est, levels, keys, window⟩ := r
  unfold reconcile settleFrom
  rw [up]
  cases keys <;> rfl

theorem settling_release (svc : Service) (up : svc.available = true) (r : Reservation) :
    settling (release svc (some r)) = settleFrom r.estimatedUsd 0 r.keys := by
  rw [← settling_reconcile svc up]
  obtain ⟨id, est, levels, keys, window⟩ := r
  cases keys <;> rfl

theorem starts_reserving {svc : Service} (up : svc.available = true) {limit : String → ℚ}
    {w : World} {args : ReserveArgs} {body : Progress}
    (may : MayStart svc limit w (.reserve args) body) : Reserving svc limit args [] body := by
  cases may with
  | reserve _ amount fixed =>
    refine ⟨amount, fixed, ?_⟩
    rcases amount.eq_or_lt with zero | positive
    · exact .idle rfl (reserve_tree_free svc args (.inl zero.symm.le))
    · exact .charging (limitedLevels args) {} rfl rfl rfl rfl
        (reserve_tree_limited svc args positive up)

theorem starts_settling {svc : Service} (up : svc.available = true) {limit : String → ℚ}
    {w : World} {call : Call} {body : Progress} (may : MayStart svc limit w call body)
    {rid : Nat} {actual : ℚ} (settles : call.settles = some (rid, actual)) :
    Settling w ⟨call, [], body⟩ rid actual := by
  cases may with
  | reserve => cases settles
  | reconcile rid args t r back actual amount =>
    cases settles
    exact ⟨args, t, r, r.keys, back, rfl, rfl, settling_reconcile svc up r actual⟩
  | release rid args t r back =>
    cases settles
    exact ⟨args, t, r, r.keys, back, rfl, rfl, settling_release svc up r⟩

/-! ## What one step does -/

/-- What a step can do to the store and to the one task that moves. -/
inductive Moves (svc : Service) (limit : String → ℚ) (w : World) : World → Prop
  | started (call : Call) (body : Progress) (may : MayStart svc limit w call body) :
      Moves svc limit w { w with tasks := w.tasks ++ [⟨call, [], body⟩] }
  | granted (i : Nat) (args : ReserveArgs) (t : Trace Redis Raised) (rest rest' : Progress)
      (key : String) (ev : Event Redis Raised)
      (here : w.tasks[i]? = some ⟨.reserve args, t, rest⟩)
      (charges : chargedKey ev = some key) (returns : settledKey ev = none)
      (fresh : key ∉ charged t) (clean : returned t = []) (open_ : ¬ SettledAt w i key)
      (limited : 0 < limit key)
      (within : (w.store key).spent + (w.store key).reserved + args.estimatedUsd ≤ limit key) :
      Moves svc limit w
        ⟨w.store.set key ⟨(w.store key).reserved + args.estimatedUsd, (w.store key).spent⟩,
          w.tasks.set i ⟨.reserve args, t ++ [ev], rest'⟩⟩
  | refused (i : Nat) (args : ReserveArgs) (t : Trace Redis Raised) (rest rest' : Progress)
      (ev : Event Redis Raised) (here : w.tasks[i]? = some ⟨.reserve args, t, rest⟩)
      (charges : chargedKey ev = none) (returns : settledKey ev = none) :
      Moves svc limit w ⟨w.store, w.tasks.set i ⟨.reserve args, t ++ [ev], rest'⟩⟩
  | gaveBack (i : Nat) (args : ReserveArgs) (t : Trace Redis Raised) (rest rest' : Progress)
      (key : String) (ev : Event Redis Raised)
      (here : w.tasks[i]? = some ⟨.reserve args, t, rest⟩)
      (charges : chargedKey ev = none) (returns : settledKey ev = some (key, 0))
      (holds : Holds w i key) :
      Moves svc limit w ⟨reconcileLua key args.estimatedUsd 0 w.store,
        w.tasks.set i ⟨.reserve args, t ++ [ev], rest'⟩⟩
  | settled (i : Nat) (call : Call) (t : Trace Redis Raised) (rest rest' : Progress)
      (key : String) (ev : Event Redis Raised) (rid : Nat) (actual : ℚ) (args : ReserveArgs)
      (t' : Trace Redis Raised) (r : Reservation)
      (here : w.tasks[i]? = some ⟨call, t, rest⟩) (settles : call.settles = some (rid, actual))
      (charges : chargedKey ev = none) (returns : settledKey ev = some (key, actual))
      (clean : charged t = []) (kept : key ∉ returned t)
      (of : w.tasks[rid]? = some ⟨.reserve args, t', .done (.ok (some r))⟩)
      (charged_ : key ∈ charged t') (clean' : returned t' = []) :
      Moves svc limit w ⟨reconcileLua key args.estimatedUsd actual w.store,
        w.tasks.set i ⟨call, t ++ [ev], rest'⟩⟩

/-- The next script a settling call waits for, and where the answer puts it. -/
inductive SettleAwaits (est actual : ℚ) :
    List String → (op : Script) → (Except Raised (Redis.Ans op) → Progress) → Prop
  | key (key : String) (keys : List String) (k : Except Raised Unit → Progress)
      (next : k (.ok ()) = settleFrom est actual keys) :
      SettleAwaits est actual (key :: keys) (.reconcile key est actual) k

theorem settleFrom_awaits {est actual : ℚ} {keys : List String} {op : Script}
    {k : Except Raised (Redis.Ans op) → Progress}
    (eq : .await op k = settleFrom est actual keys) : SettleAwaits est actual keys op k := by
  cases keys with
  | nil =>
    rw [settleFrom_nil] at eq
    cases eq
  | cons key keys =>
    obtain ⟨k', eq', next⟩ := settleFrom_cons est actual key keys
    rw [eq'] at eq
    cases eq
    exact .key key keys _ next

section
variable {svc : Service} {limit : String → ℚ} {w w' : World}

theorem Settling.start {task : Running} {rid : Nat} {actual : ℚ} (call : Call) (body : Progress)
    (h : Settling w task rid actual) :
    Settling { w with tasks := w.tasks ++ [⟨call, [], body⟩] } task rid actual := by
  obtain ⟨args, t, r, keys, of, rest⟩ := h
  exact ⟨args, t, r, keys, get_snoc_old of, rest⟩

/-- The settled `reserve` call is over, so the task that moves is another one. -/
theorem Settling.advance {task : Running} {rid i : Nat} {actual : ℚ} {call : Call}
    {t : Trace Redis Raised} {op : Script} {k : Except Raised (Redis.Ans op) → Progress}
    (here : w.tasks[i]? = some ⟨call, t, .await op k⟩) (h : Settling w task rid actual) :
    Settling (w.answer exec i call t op k) task rid actual := by
  obtain ⟨args, t', r, keys, of, rest⟩ := h
  refine ⟨args, t', r, keys, ?_, rest⟩
  have ne : i ≠ rid := by
    rintro rfl
    rw [of] at here
    cases here
  simp only [Pool.answer, List.getElem?_set_ne ne, of]

theorem sound_step (up : svc.available = true) (sound : Sound svc limit w)
    (step : Pool.Step exec (MayStart svc limit) w w') : Sound svc limit w' := by
  cases step with
  | start call body may =>
    constructor
    · intro i args t rest here
      rcases get_snoc_cases here with old | ⟨_, new⟩
      · exact sound.reserving i args t rest old
      · cases new
        exact starts_reserving up may
    · intro i task rid actual here settles
      rcases get_snoc_cases here with old | ⟨_, new⟩
      · exact (sound.settling i task rid actual old settles).start call body
      · cases new
        exact (starts_settling up may settles).start call body
  | advance i call t op k here =>
    constructor
    · intro j args t' rest here'
      rcases get_set_cases here' with ⟨_, new⟩ | ⟨_, old⟩
      · cases new
        obtain ⟨amount, fixed, stands⟩ := sound.reserving i args t _ here
        refine ⟨amount, fixed, ?_⟩
        cases stands.awaits up with
        | charge level limited k fresh clean next => exact next _
        | giveBack key k charges kept next => exact next
      · exact sound.reserving j args t' rest old
    · intro j task rid actual here' settles
      rcases get_set_cases here' with ⟨_, new⟩ | ⟨_, old⟩
      · subst new
        have before := (sound.settling i _ rid actual here settles).advance here
        obtain ⟨args, t', r, keys, of, split, clean, rest_eq⟩ := before
        cases settleFrom_awaits rest_eq with
        | key key keys k next =>
          refine ⟨args, t', r, keys, of, ?_, ?_, next⟩
          · rw [returned_snoc rfl, split]
            simp
          · rw [charged_snoc_none rfl, clean]
      · exact (sound.settling j task rid actual old settles).advance here

theorem sound_of_reachable (up : svc.available = true) (reach : Reachable svc limit w) :
    Sound svc limit w := by
  induction reach with
  | refl => exact ⟨fun _ _ _ _ here => by simp [World.empty] at here,
      fun _ _ _ _ here => by simp [World.empty] at here⟩
  | tail _ step ih => exact sound_step up ih step

/-- A waiting `reserve` call has returned no reservation, so nothing settles it. -/
theorem Sound.not_settledAt (sound : Sound svc limit w) {i : Nat} {args : ReserveArgs}
    {t : Trace Redis Raised} {op : Script} {k : Except Raised (Redis.Ans op) → Progress}
    (here : w.tasks[i]? = some ⟨.reserve args, t, .await op k⟩) (key : String) :
    ¬ SettledAt w i key := by
  rintro ⟨j, task, actual, at_j, settles, _⟩
  obtain ⟨_, _, _, _, of, _⟩ := sound.settling j task i actual at_j settles
  rw [here] at of
  cases of

/-- Every step is one of the moves. -/
theorem step_moves (up : svc.available = true) (sound : Sound svc limit w)
    (step : Pool.Step exec (MayStart svc limit) w w') : Moves svc limit w w' := by
  cases step with
  | start call body may => exact .started call body may
  | advance i call t op k here =>
    cases settles : call.settles with
    | none =>
      cases call with
      | reserve args =>
        obtain ⟨amount, fixed, stands⟩ := sound.reserving i args t _ here
        have open_ := sound.not_settledAt here
        cases stands.awaits up with
        | charge level limited k fresh clean next =>
          unfold Pool.answer
          by_cases exceeds : args.limits.levelLimit level > 0 ∧
              (w.store (args.key svc level)).spent + (w.store (args.key svc level)).reserved +
                args.estimatedUsd > args.limits.levelLimit level
          · simp only [exec, reserveLua, if_pos exceeds]
            exact .refused i args t _ _ _ here rfl rfl
          · simp only [exec, reserveLua, if_neg exceeds]
            rw [fixed] at limited exceeds
            refine .granted i args t _ _ (args.key svc level) _ here rfl rfl fresh ?_ (open_ _)
              limited (not_lt.mp fun h => exceeds ⟨limited, h⟩)
            rw [returned, clean, List.map_nil]
        | giveBack key k charges kept next =>
          exact .gaveBack i args t _ _ key _ here rfl rfl ⟨⟨_, here, charges, kept⟩, open_ _⟩
      | reconcile => cases settles
      | release => cases settles
    | some s =>
      obtain ⟨rid, actual⟩ := s
      obtain ⟨args, t', r, keys, of, split, clean, rest_eq⟩ :=
        sound.settling i _ rid actual here settles
      obtain ⟨amount, fixed, stands⟩ := sound.reserving rid args t' _ of
      obtain ⟨est_eq, keys_eq, distinct, clean'⟩ := stands.reservation up
      cases settleFrom_awaits rest_eq with
      | key key keys k next =>
        rw [← keys_eq, split] at distinct
        have kept : key ∉ returned t := by
          intro old
          exact (List.nodup_append.mp distinct).2.2 _ old _ (by simp) rfl
        have at_key : key ∈ charged t' := by
          rw [← keys_eq, split]
          simp
        rw [est_eq] at here ⊢
        exact .settled i call t _ _ key _ rid actual args t' r here settles rfl rfl clean kept of
          at_key (by rw [returned, clean', List.map_nil])

/-! ## Who holds a key after a step -/

section
variable {i : Nat} {call : Call} {t : Trace Redis Raised} {rest : Progress}
  (here : w.tasks[i]? = some ⟨call, t, rest⟩)

/-- The tasks after task `i` moved to the trace `t'`. -/
abbrev World.move (w : World) (i : Nat) (call : Call) (t' : Trace Redis Raised) (rest' : Progress)
    (store : Store) : World := ⟨store, w.tasks.set i ⟨call, t', rest'⟩⟩

include here

theorem get_move (t' : Trace Redis Raised) (rest' : Progress) (store : Store) {j : Nat}
    {task : Running} :
    (w.move i call t' rest' store).tasks[j]? = some task ↔
      (j = i ∧ task = ⟨call, t', rest'⟩) ∨ (j ≠ i ∧ w.tasks[j]? = some task) := by
  constructor
  · exact get_set_cases
  · rintro (⟨rfl, rfl⟩ | ⟨ne, old⟩)
    · exact List.getElem?_set_self (List.getElem?_eq_some_iff.mp here).1
    · rwa [List.getElem?_set_ne (Ne.symm ne)]

/-- Only a settling call can settle: anything else leaves `SettledAt` alone. -/
theorem settledAt_move (t' : Trace Redis Raised) (rest' : Progress) (store : Store) (j : Nat)
    (k : String) (more : call.settles = none ∨ returned t' = returned t) :
    SettledAt (w.move i call t' rest' store) j k ↔ SettledAt w j k := by
  constructor
  · rintro ⟨m, task, actual, at_m, settles, mem⟩
    rcases (get_move here t' rest' store).mp at_m with ⟨rfl, rfl⟩ | ⟨_, old⟩
    · rcases more with none | same
      · exact absurd settles (by simp [none])
      · exact ⟨m, _, actual, here, settles, same ▸ mem⟩
    · exact ⟨m, task, actual, old, settles, mem⟩
  · rintro ⟨m, task, actual, at_m, settles, mem⟩
    by_cases eq : m = i
    · subst eq
      rw [here] at at_m
      cases at_m
      rcases more with none | same
      · exact absurd settles (by simp [none])
      · exact ⟨m, _, actual, (get_move here t' rest' store).mpr (.inl ⟨rfl, rfl⟩), settles,
          same ▸ mem⟩
    · exact ⟨m, task, actual, (get_move here t' rest' store).mpr (.inr ⟨eq, at_m⟩), settles, mem⟩

theorem settledAt_settle (t' : Trace Redis Raised) (rest' : Progress) (store : Store)
    {rid : Nat} {actual : ℚ} (settles : call.settles = some (rid, actual)) {key : String}
    (back : returned t' = returned t ++ [key]) (j : Nat) (k : String) :
    SettledAt (w.move i call t' rest' store) j k ↔ SettledAt w j k ∨ (j = rid ∧ k = key) := by
  constructor
  · rintro ⟨m, task, actual', at_m, settles', mem⟩
    rcases (get_move here t' rest' store).mp at_m with ⟨rfl, rfl⟩ | ⟨_, old⟩
    · rcases List.mem_append.mp (back ▸ mem) with mem | mem
      · exact .inl ⟨m, _, actual', here, settles', mem⟩
      · rw [settles] at settles'
        cases settles'
        exact .inr ⟨rfl, List.mem_singleton.mp mem⟩
    · exact .inl ⟨m, task, actual', old, settles', mem⟩
  · rintro (⟨m, task, actual', at_m, settles', mem⟩ | ⟨rfl, rfl⟩)
    · by_cases eq : m = i
      · subst eq
        rw [here] at at_m
        cases at_m
        exact ⟨m, _, actual', (get_move here t' rest' store).mpr (.inl ⟨rfl, rfl⟩), settles',
          by rw [back]; exact List.mem_append_left _ mem⟩
      · exact ⟨m, task, actual', (get_move here t' rest' store).mpr (.inr ⟨eq, at_m⟩), settles',
          mem⟩
    · exact ⟨i, _, actual, (get_move here t' rest' store).mpr (.inl ⟨rfl, rfl⟩), settles,
        by simp [back]⟩

/-- Task `i`'s own part in holding, before and after it moved. -/
theorem own_move (t' : Trace Redis Raised) (rest' : Progress) (store : Store) (j : Nat)
    (k : String) :
    (∃ task : Running, (w.move i call t' rest' store).tasks[j]? = some task ∧
        k ∈ charged task.trace ∧ k ∉ returned task.trace) ↔
      if j = i then k ∈ charged t' ∧ k ∉ returned t'
      else ∃ task : Running, w.tasks[j]? = some task ∧ k ∈ charged task.trace ∧
        k ∉ returned task.trace := by
  by_cases eq : j = i
  · subst eq
    simp [get_move here t' rest' store]
  · simp [get_move here t' rest' store, eq]

theorem own_here (k : String) :
    (∃ task : Running, w.tasks[i]? = some task ∧ k ∈ charged task.trace ∧
      k ∉ returned task.trace) ↔ k ∈ charged t ∧ k ∉ returned t := by
  simp [here]

theorem holds_granted {ev : Event Redis Raised} {key : String} (rest' : Progress) (store : Store)
    (reserves : call.settles = none)
    (charges : chargedKey ev = some key) (returns : settledKey ev = none)
    (clean : returned t = []) (open_ : ¬ SettledAt w i key) (j : Nat) (k : String) :
    Holds (w.move i call (t ++ [ev]) rest' store) j k ↔ Holds w j k ∨ (j = i ∧ k = key) := by
  unfold Holds
  rw [own_move here, settledAt_move here _ _ _ _ _ (.inl reserves)]
  by_cases eq : j = i
  · subst eq
    rw [if_pos rfl, own_here here, charged_snoc charges, returned_snoc_none returns, clean]
    constructor
    · rintro ⟨⟨mem, _⟩, not_settled⟩
      rcases List.mem_append.mp mem with old | new
      · exact .inl ⟨⟨old, by simp⟩, not_settled⟩
      · exact .inr ⟨rfl, List.mem_singleton.mp new⟩
    · rintro (⟨⟨old, _⟩, not_settled⟩ | ⟨_, rfl⟩)
      · exact ⟨⟨List.mem_append_left _ old, by simp⟩, not_settled⟩
      · exact ⟨⟨by simp, by simp⟩, open_⟩
  · simp [eq]

theorem holds_refused {ev : Event Redis Raised} (rest' : Progress) (store : Store)
    (charges : chargedKey ev = none) (returns : settledKey ev = none) (j : Nat) (k : String) :
    Holds (w.move i call (t ++ [ev]) rest' store) j k ↔ Holds w j k := by
  unfold Holds
  rw [own_move here, settledAt_move here _ _ _ _ _ (.inr (returned_snoc_none returns))]
  by_cases eq : j = i
  · subst eq
    rw [if_pos rfl, own_here here, charged_snoc_none charges, returned_snoc_none returns]
  · simp [eq]

theorem holds_gaveBack {ev : Event Redis Raised} {key : String} {actual : ℚ} (rest' : Progress)
    (store : Store) (reserves : call.settles = none) (charges : chargedKey ev = none)
    (returns : settledKey ev = some (key, actual)) (j : Nat) (k : String) :
    Holds (w.move i call (t ++ [ev]) rest' store) j k ↔ Holds w j k ∧ ¬ (j = i ∧ k = key) := by
  unfold Holds
  rw [own_move here, settledAt_move here _ _ _ _ _ (.inl reserves)]
  by_cases eq : j = i
  · subst eq
    rw [if_pos rfl, own_here here, charged_snoc_none charges, returned_snoc returns]
    simp only [List.mem_append, List.mem_singleton]
    tauto
  · simp [eq]

theorem holds_settled {ev : Event Redis Raised} {key : String} {rid : Nat} {actual : ℚ}
    (rest' : Progress) (store : Store) (settles : call.settles = some (rid, actual))
    (charges : chargedKey ev = none) (returns : settledKey ev = some (key, actual))
    (clean : charged t = []) (j : Nat) (k : String) :
    Holds (w.move i call (t ++ [ev]) rest' store) j k ↔ Holds w j k ∧ ¬ (j = rid ∧ k = key) := by
  unfold Holds
  rw [own_move here, settledAt_settle here _ _ _ settles (returned_snoc returns)]
  by_cases eq : j = i
  · subst eq
    rw [if_pos rfl, own_here here, charged_snoc_none charges, clean]
    simp
  · rw [if_neg eq, not_or, ← and_assoc]

end

theorem holds_started (call : Call) (body : Progress) (j : Nat) (k : String) :
    Holds { w with tasks := w.tasks ++ [⟨call, [], body⟩] } j k ↔ Holds w j k := by
  have settled : SettledAt { w with tasks := w.tasks ++ [⟨call, [], body⟩] } j k ↔
      SettledAt w j k := by
    constructor
    · rintro ⟨m, task, actual, at_m, settles, mem⟩
      rcases get_snoc_cases at_m with old | ⟨_, rfl⟩
      · exact ⟨m, task, actual, old, settles, mem⟩
      · simp at mem
    · rintro ⟨m, task, actual, at_m, settles, mem⟩
      exact ⟨m, task, actual, get_snoc_old at_m, settles, mem⟩
  unfold Holds
  rw [settled]
  refine and_congr_left fun _ => ⟨?_, ?_⟩
  · rintro ⟨task, at_j, charges, kept⟩
    rcases get_snoc_cases at_j with old | ⟨_, rfl⟩
    · exact ⟨task, old, charges, kept⟩
    · simp at charges
  · rintro ⟨task, at_j, charges, kept⟩
    exact ⟨task, get_snoc_old at_j, charges, kept⟩

/-! ## What the store holds after a step -/

theorem Holds.bound {i : Nat} {key : String} (h : Holds w i key) : i < w.tasks.length := by
  obtain ⟨⟨task, here, _⟩, _⟩ := h
  exact (List.getElem?_eq_some_iff.mp here).1

theorem estimate_move {i : Nat} {call : Call} {t : Trace Redis Raised} {rest : Progress}
    (here : w.tasks[i]? = some ⟨call, t, rest⟩) (t' : Trace Redis Raised) (rest' : Progress)
    (store : Store) (j : Nat) : estimate (w.move i call t' rest' store) j = estimate w j := by
  unfold estimate
  by_cases eq : j = i
  · subst eq
    simp [here, List.getElem?_set_self (List.getElem?_eq_some_iff.mp here).1]
  · rw [List.getElem?_set_ne (Ne.symm eq)]

theorem held_same (length : w'.tasks.length = w.tasks.length)
    (estimates : ∀ j, estimate w' j = estimate w j)
    (holds : ∀ j k, Holds w' j k ↔ Holds w j k) (k : String) : held w' k = held w k := by
  classical
  unfold held
  rw [length]
  refine Finset.sum_congr rfl fun j _ => ?_
  rw [estimates]
  simp only [holds]

/-- One more holder of one key adds its estimate there. -/
theorem held_gain (length : w'.tasks.length = w.tasks.length)
    (estimates : ∀ j, estimate w' j = estimate w j) {i : Nat} {key : String}
    (bound : i < w.tasks.length) (new : ¬ Holds w i key)
    (holds : ∀ j k, Holds w' j k ↔ Holds w j k ∨ (j = i ∧ k = key)) (k : String) :
    held w' k = held w k + if k = key then estimate w i else 0 := by
  classical
  unfold held
  rw [length]
  by_cases eq : k = key
  · subst eq
    rw [if_pos rfl, ← Finset.sum_erase_add _ _ (Finset.mem_range.mpr bound),
      ← Finset.sum_erase_add (Finset.range w.tasks.length) _ (Finset.mem_range.mpr bound),
      if_pos ((holds i k).mpr (.inr ⟨rfl, rfl⟩)), if_neg new, add_zero, estimates]
    congr 1
    refine Finset.sum_congr rfl fun j mem => ?_
    have ne : j ≠ i := Finset.ne_of_mem_erase mem
    rw [estimates]
    simp only [holds, ne, false_and, or_false]
  · rw [if_neg eq, add_zero]
    refine Finset.sum_congr rfl fun j _ => ?_
    rw [estimates]
    simp only [holds, eq, and_false, or_false]

/-- One holder less takes it away: `held_gain` read backwards. -/
theorem held_loss (length : w'.tasks.length = w.tasks.length)
    (estimates : ∀ j, estimate w' j = estimate w j) {i : Nat} {key : String}
    (old : Holds w i key)
    (holds : ∀ j k, Holds w' j k ↔ Holds w j k ∧ ¬ (j = i ∧ k = key)) (k : String) :
    held w' k = held w k - if k = key then estimate w i else 0 := by
  have gain := held_gain length.symm (fun j => (estimates j).symm) (length ▸ old.bound)
    (fun h => ((holds i key).mp h).2 ⟨rfl, rfl⟩)
    (fun j k => by
      rw [holds]
      constructor
      · intro h
        by_cases eq : j = i ∧ k = key
        · exact .inr eq
        · exact .inl ⟨h, eq⟩
      · rintro (h | ⟨rfl, rfl⟩)
        · exact h.1
        · exact old) k
  rw [gain, estimates, add_sub_cancel_right]

theorem held_started (call : Call) (body : Progress) (k : String) :
    held { w with tasks := w.tasks ++ [⟨call, [], body⟩] } k = held w k := by
  classical
  unfold held
  rw [List.length_append, List.length_singleton, Finset.sum_range_succ]
  have fresh : ¬ Holds w w.tasks.length k := fun h => (Nat.lt_irrefl _) h.bound
  simp only [holds_started, fresh, if_false, add_zero]
  refine Finset.sum_congr rfl fun j mem => ?_
  have same : estimate { w with tasks := w.tasks ++ [⟨call, [], body⟩] } j = estimate w j := by
    unfold estimate
    rw [List.getElem?_append_left (Finset.mem_range.mp mem)]
  rw [same]

theorem Sound.estimate_nonneg (sound : Sound svc limit w) (i : Nat) : 0 ≤ estimate w i := by
  unfold estimate
  cases here : w.tasks[i]? with
  | none => exact le_rfl
  | some task =>
    obtain ⟨call, t, rest⟩ := task
    cases call with
    | reserve args => exact (sound.reserving i args t rest here).amount
    | reconcile => exact le_rfl
    | release => exact le_rfl

theorem estimate_le_held (sound : Sound svc limit w) {i : Nat} {key : String}
    (holds : Holds w i key) : estimate w i ≤ held w key := by
  classical
  unfold held
  have term : estimate w i = if Holds w i key then estimate w i else 0 := (if_pos holds).symm
  rw [term]
  refine Finset.single_le_sum (f := fun j => if Holds w j key then estimate w j else 0)
    (fun j _ => ?_) (Finset.mem_range.mpr holds.bound)
  split
  · exact sound.estimate_nonneg j
  · exact le_rfl

theorem reconciled_move {i : Nat} {call : Call} {t : Trace Redis Raised} {rest : Progress}
    (here : w.tasks[i]? = some ⟨call, t, rest⟩) (t' : Trace Redis Raised) (rest' : Progress)
    (store : Store) (k : String) :
    reconciled (w.move i call t' rest' store) k =
      reconciled w k + (spentAt k t' - spentAt k t) :=
  sum_map_set (fun task : Running => spentAt k task.trace) here ⟨call, t', rest'⟩

theorem estimate_reserve {i : Nat} {args : ReserveArgs} {t : Trace Redis Raised} {rest : Progress}
    (here : w.tasks[i]? = some ⟨.reserve args, t, rest⟩) : estimate w i = args.estimatedUsd := by
  simp [estimate, here, Call.estimate]

/-- The store agrees with what the traces say is held and reconciled. -/
structure Balanced (w : World) : Prop where
  reserved : ∀ key, (w.store key).reserved = held w key
  spent : ∀ key, (w.store key).spent = reconciled w key

/-- Returning a held estimate never meets the floor at zero, so it takes exactly
the estimate away. -/
theorem balanced_return (sound : Sound svc limit w) (balanced : Balanced w) {i h : Nat}
    {call : Call} {t : Trace Redis Raised} {rest : Progress} {ev : Event Redis Raised}
    {key : String} {est actual : ℚ} (rest' : Progress)
    (here : w.tasks[i]? = some ⟨call, t, rest⟩)
    (returns : settledKey ev = some (key, actual)) (holder : Holds w h key)
    (est_eq : estimate w h = est)
    (holds : ∀ j k, Holds (w.move i call (t ++ [ev]) rest' (reconcileLua key est actual w.store))
      j k ↔ Holds w j k ∧ ¬ (j = h ∧ k = key)) :
    Balanced (w.move i call (t ++ [ev]) rest' (reconcileLua key est actual w.store)) := by
  have enough : 0 ≤ (w.store key).reserved - est := by
    have := estimate_le_held sound holder
    rw [balanced.reserved]
    linarith
  constructor
  · intro k
    rw [held_loss (List.length_set ..) (estimate_move here _ _ _) holder holds, est_eq,
      ← balanced.reserved]
    by_cases eq : k = key
    · subst eq
      simp [reconcileLua, Store.set, enough]
    · simp [reconcileLua, Store.set, eq]
  · intro k
    rw [reconciled_move here, spentAt_snoc returns, ← balanced.spent]
    by_cases eq : k = key
    · subst eq
      simp [reconcileLua, Store.set]
    · simp [reconcileLua, Store.set, eq, Ne.symm eq]

/-- A key not yet returned by the only call that settles its reservation is held. -/
theorem holds_before_settle (once : SettledOnce w) {i rid : Nat} {call : Call}
    {t t' : Trace Redis Raised} {rest rest' : Progress} {key : String} {actual : ℚ}
    {args : ReserveArgs} (here : w.tasks[i]? = some ⟨call, t, rest⟩)
    (settles : call.settles = some (rid, actual)) (kept : key ∉ returned t)
    (of : w.tasks[rid]? = some ⟨.reserve args, t', rest'⟩) (charges : key ∈ charged t')
    (clean : returned t' = []) : Holds w rid key := by
  refine ⟨⟨_, of, charges, by simp [clean]⟩, ?_⟩
  rintro ⟨m, task, actual', at_m, settles', mem⟩
  obtain rfl := once i m _ _ rid actual actual' here at_m settles settles'
  rw [here] at at_m
  cases at_m
  exact kept mem

theorem balanced_moves (sound : Sound svc limit w) (once : SettledOnce w) (balanced : Balanced w)
    (moves : Moves svc limit w w') : Balanced w' := by
  cases moves with
  | started call body may =>
    constructor
    · intro k
      rw [held_started]
      exact balanced.reserved k
    · intro k
      simpa [reconciled, spentAt] using balanced.spent k
  | granted i args t rest rest' key ev here charges returns fresh clean open_ limited within =>
    have new : ¬ Holds w i key := by
      rintro ⟨⟨task, at_i, mem, _⟩, _⟩
      rw [here] at at_i
      cases at_i
      exact fresh mem
    constructor
    · intro k
      rw [held_gain (List.length_set ..) (estimate_move here _ _ _)
        (List.getElem?_eq_some_iff.mp here).1 new
        (holds_granted here rest' _ rfl charges returns clean open_), estimate_reserve here,
        ← balanced.reserved]
      by_cases eq : k = key
      · subst eq
        simp [Store.set]
      · simp [Store.set, eq]
    · intro k
      rw [reconciled_move here, spentAt_snoc_none returns, sub_self, add_zero, ← balanced.spent]
      by_cases eq : k = key
      · subst eq
        simp [Store.set]
      · simp [Store.set, eq]
  | refused i args t rest rest' ev here charges returns =>
    have holds := holds_refused here rest' w.store charges returns
    constructor
    · intro k
      rw [held_same (List.length_set ..) (estimate_move here _ _ _) holds]
      exact balanced.reserved k
    · intro k
      rw [reconciled_move here, spentAt_snoc_none returns, sub_self, add_zero]
      exact balanced.spent k
  | gaveBack i args t rest rest' key ev here charges returns holder =>
    exact balanced_return sound balanced rest' here returns holder (estimate_reserve here)
      (holds_gaveBack here rest' _ rfl charges returns)
  | settled i call t rest rest' key ev rid actual args t' r here settles charges returns clean kept
      of at_key clean' =>
    exact balanced_return sound balanced rest' here returns
      (holds_before_settle once here settles kept of at_key clean') (estimate_reserve of)
      (holds_settled here rest' _ settles charges returns clean)

/-! ## Every reachable state -/

/-- A step changes no call, so what a state's calls allow, every earlier one did. -/
theorem settledOnce_step (step : Pool.Step exec (MayStart svc limit) w w') (once : SettledOnce w') :
    SettledOnce w := by
  intro i j task task' rid a a' at_i at_j settles settles'
  obtain ⟨next, at_i', same⟩ := Pool.step_call step at_i
  obtain ⟨next', at_j', same'⟩ := Pool.step_call step at_j
  exact once i j next next' rid a a' at_i' at_j' (same ▸ settles) (same' ▸ settles')

/-- Every reconciled actual stays within the estimate of its reservation. -/
def ActualsWithin (w : World) : Prop :=
  ∀ (i : Nat) (task : Running) (rid : Nat) (actual : ℚ), w.tasks[i]? = some task →
    task.call.settles = some (rid, actual) → actual ≤ estimate w rid

theorem actualsWithin_step (sound : Sound svc limit w)
    (step : Pool.Step exec (MayStart svc limit) w w') (within : ActualsWithin w') :
    ActualsWithin w := by
  intro i task rid actual at_i settles
  obtain ⟨args, t, r, _, of, _⟩ := sound.settling i task rid actual at_i settles
  obtain ⟨next, at_i', same⟩ := Pool.step_call step at_i
  have bound := within i next rid actual at_i' (same ▸ settles)
  rw [estimate_reserve (Pool.step_done step of rfl)] at bound
  rwa [estimate_reserve of]

theorem balanced_of_reachable (up : svc.available = true) (reach : Reachable svc limit w)
    (once : SettledOnce w) : Balanced w := by
  induction reach with
  | refl =>
    constructor <;> intro key
    · simp [World.empty, held]
    · simp [World.empty, reconciled]
  | tail reach step ih =>
    have once' := settledOnce_step step once
    have sound := sound_of_reachable up reach
    exact balanced_moves sound once' (ih once') (step_moves up sound step)

/-- No limited level is over its limit. -/
def WithinLimits (limit : String → ℚ) (w : World) : Prop :=
  ∀ key, 0 < limit key → (w.store key).spent + (w.store key).reserved ≤ limit key

theorem withinLimits_reconcile (within : WithinLimits limit w) {key : String} {est actual : ℚ}
    (enough : est ≤ (w.store key).reserved) (paid : actual ≤ est)
    (tasks : List Running) :
    WithinLimits limit ⟨reconcileLua key est actual w.store, tasks⟩ := by
  intro k limited
  have before := within k limited
  by_cases eq : k = key
  · subst eq
    have floor : max 0 ((w.store k).reserved - est) = (w.store k).reserved - est :=
      max_eq_right (by linarith)
    simp only [reconcileLua, Store.set, if_true, floor]
    linarith
  · simpa [reconcileLua, Store.set, eq] using before

theorem withinLimits_moves (sound : Sound svc limit w) (once : SettledOnce w)
    (balanced : Balanced w) (actuals : ActualsWithin w) (within : WithinLimits limit w)
    (moves : Moves svc limit w w') : WithinLimits limit w' := by
  cases moves with
  | started => exact within
  | granted i args t rest rest' key ev here charges returns fresh clean open_ limited room =>
    intro k limited_k
    by_cases eq : k = key
    · subst eq
      simp only [Store.set, if_true]
      linarith
    · simpa [Store.set, eq] using within k limited_k
  | refused => exact within
  | gaveBack i args t rest rest' key ev here charges returns holder =>
    have enough := estimate_le_held sound holder
    rw [← balanced.reserved, estimate_reserve here] at enough
    exact withinLimits_reconcile within enough (sound.reserving i args t rest here).amount _
  | settled i call t rest rest' key ev rid actual args t' r here settles charges returns clean kept
      of at_key clean' =>
    have holder := holds_before_settle once here settles kept of at_key clean'
    have enough := estimate_le_held sound holder
    have paid := actuals i _ rid actual here settles
    rw [← balanced.reserved, estimate_reserve of] at enough
    rw [estimate_reserve of] at paid
    exact withinLimits_reconcile within enough paid _

theorem withinLimits_of_reachable (up : svc.available = true) (reach : Reachable svc limit w)
    (once : SettledOnce w) (actuals : ActualsWithin w) : WithinLimits limit w := by
  induction reach with
  | refl =>
    intro key limited
    simpa [World.empty] using limited.le
  | tail reach step ih =>
    have once' := settledOnce_step step once
    have sound := sound_of_reachable up reach
    have actuals' := actualsWithin_step sound step actuals
    exact withinLimits_moves sound once' (balanced_of_reachable up reach once') actuals'
      (ih once' actuals') (step_moves up sound step)

/-- A `reserve` call that raised holds no key and has spent nothing. -/
theorem refused_contributes_nothing (up : svc.available = true) (sound : Sound svc limit w)
    {i : Nat} {args : ReserveArgs} {t : Trace Redis Raised} {e : Raised}
    (here : w.tasks[i]? = some ⟨.reserve args, t, .done (.error e)⟩) (key : String) :
    ¬ Holds w i key ∧ spentAt key t = 0 := by
  obtain ⟨all_back, free⟩ := (sound.reserving i args t _ here).stands.refused up
  constructor
  · rintro ⟨⟨task, at_i, mem, kept⟩, _⟩
    rw [here] at at_i
    cases at_i
    exact kept (all_back ▸ mem)
  · refine List.sum_eq_zero fun x mem => ?_
    obtain ⟨e, e_mem, rfl⟩ := List.mem_map.mp mem
    rw [free e e_mem, ite_self]

/-- The budget store is exact: whatever the interleaving, the reserved amount of
a level is what its holders reserved, the spent amount is what was reconciled,
the limit is kept, and a refused call leaves nothing behind. -/
theorem budget_store_exact (up : svc.available = true) (reach : Reachable svc limit w)
    (once : SettledOnce w) :
    (∀ key, (w.store key).reserved = held w key) ∧
      (∀ key, (w.store key).spent = reconciled w key) ∧
      (ActualsWithin w →
        ∀ key, 0 < limit key → (w.store key).spent + (w.store key).reserved ≤ limit key) ∧
      ∀ (i : Nat) (args : ReserveArgs) (t : Trace Redis Raised) (e : Raised),
        w.tasks[i]? = some ⟨.reserve args, t, .done (.error e)⟩ →
          ∀ key, ¬ Holds w i key ∧ spentAt key t = 0 := by
  have balanced := balanced_of_reachable up reach once
  refine ⟨balanced.reserved, balanced.spent, withinLimits_of_reachable up reach once, ?_⟩
  intro i args t e here key
  exact refused_contributes_nothing up (sound_of_reachable up reach) here key

end

/-! ## A reservation settled twice -/

/-- The reservation that task `i` returned. -/
def World.reservation (w : World) (i : Nat) : Option Reservation :=
  match w.tasks[i]? with
  | some ⟨.reserve _, _, .done (.ok r)⟩ => r
  | _ => none

theorem World.reservation_some {w : World} {i : Nat} {r : Reservation}
    (h : w.reservation i = some r) :
    ∃ args t, w.tasks[i]? = some ⟨.reserve args, t, .done (.ok (some r))⟩ := by
  unfold World.reservation at h
  split at h
  next args t r' here => exact ⟨args, t, h ▸ here⟩
  next => cases h

/-- A request of 5 dollars under a platform limit of 20. -/
def fiveUsd : ReserveArgs where
  limits := { platformUsd := 20 }
  tenantId := "acme"
  estimatedUsd := 5
  requestId := "req"
  window := "2026-08"

def platformKey : String := "neryva:gateway:quota:platform:2026-08"

def platformOnly (key : String) : ℚ := if key = platformKey then 20 else 0

theorem fiveUsd_fixed (level : Level) :
    fiveUsd.limits.levelLimit level = platformOnly (fiveUsd.key {} level) := by
  cases level <;> decide

def fiveUsdReservation : Reservation := ⟨"req", 5, [.platform], [platformKey], "2026-08"⟩

/-- Two such requests have reserved. -/
def bothReserved : World :=
  let reserving : Running := ⟨.reserve fiveUsd, [], (reserve {} fiveUsd).tree {}⟩
  Pool.advance exec (Pool.advance exec ⟨fun _ => ⟨0, 0⟩, [reserving, reserving]⟩ 0) 1

theorem bothReserved_reachable : Reachable {} platformOnly bothReserved := by
  have first : Reachable {} platformOnly
      ⟨fun _ => ⟨0, 0⟩, [⟨.reserve fiveUsd, [], (reserve {} fiveUsd).tree {}⟩]⟩ :=
    Pool.reachable_start .refl (.reserve fiveUsd (by decide +kernel) fiveUsd_fixed)
  have second := Pool.reachable_start first (.reserve fiveUsd (by decide +kernel) fiveUsd_fixed)
  exact Pool.reachable_advance (Pool.reachable_advance second 0) 1

/-- The first of them is reconciled at 3 dollars. -/
def firstReconciled : World :=
  Pool.advance exec { bothReserved with
    tasks := bothReserved.tasks ++
      [⟨.reconcile 0 3, [], settling (reconcile {} (some fiveUsdReservation) 3)⟩] } 2

theorem firstReconciled_reachable : Reachable {} platformOnly firstReconciled := by
  have returned : bothReserved.reservation 0 = some fiveUsdReservation := by decide +kernel
  obtain ⟨args, t, here⟩ := World.reservation_some returned
  exact Pool.reachable_advance (Pool.reachable_start bothReserved_reachable
    (.reconcile 0 args t fiveUsdReservation here 3 (by decide))) 2

theorem firstReconciled_settledOnce : SettledOnce firstReconciled := by
  intro i j task task' rid a a' at_i at_j settles settles'
  have settler : ∀ (m : Nat) (x : Running), firstReconciled.tasks[m]? = some x →
      x.call.settles ≠ none → m = 2 := by
    intro m x at_m
    match m with
    | 0 => cases at_m; simp [Call.settles]
    | 1 => cases at_m; simp [Call.settles]
    | 2 => simp
    | m + 3 => cases at_m
  rw [settler i task at_i (by simp [settles]), settler j task' at_j (by simp [settles'])]

theorem budget_store_exact_firstReconciled :
    (firstReconciled.store platformKey).reserved = held firstReconciled platformKey ∧
      (firstReconciled.store platformKey).reserved = 5 :=
  ⟨(budget_store_exact rfl firstReconciled_reachable firstReconciled_settledOnce).1 _, by decide +kernel⟩

/-- The same reservation is also released. -/
def settledTwice : World :=
  Pool.advance exec { firstReconciled with
    tasks := firstReconciled.tasks ++
      [⟨.release 0, [], settling (release {} (some fiveUsdReservation))⟩] } 3

theorem settledTwice_reachable : Reachable {} platformOnly settledTwice := by
  have returned : firstReconciled.reservation 0 = some fiveUsdReservation := by decide +kernel
  obtain ⟨args, t, here⟩ := World.reservation_some returned
  exact Pool.reachable_advance (Pool.reachable_start firstReconciled_reachable
    (.release 0 args t fiveUsdReservation here)) 3

/-- The second settling takes the other request's 5 dollars. -/
theorem settledTwice_loses_reservation :
    ¬ ∀ w, Reachable {} platformOnly w → ∀ key, (w.store key).reserved = held w key := by
  intro exact_
  have sound := sound_of_reachable rfl settledTwice_reachable
  have open_ : ¬ SettledAt settledTwice 1 platformKey := by
    rintro ⟨m, task, actual, at_m, settles, _⟩
    match m with
    | 0 => cases at_m; cases settles
    | 1 => cases at_m; cases settles
    | 2 => cases at_m; cases settles
    | 3 => cases at_m; cases settles
    | m + 4 => cases at_m
  have holder : Holds settledTwice 1 platformKey :=
    ⟨⟨_, rfl, by decide +kernel, by decide +kernel⟩, open_⟩
  have enough := estimate_le_held sound holder
  rw [← exact_ settledTwice settledTwice_reachable] at enough
  exact absurd enough (by decide +kernel)

end AgentStudio.Quota
