import Mathlib.Data.NNRat.Defs
import Mathlib.Data.Finset.Card
import Mathlib.Data.List.GetD
import Mathlib.Tactic.Linarith
import AgentStudio.Py.Dict

/-!
# Read replicas

`infrastructure/db/replicas.py`: a read that names a key of a recent write is kept on the
primary. The table of recent writes is bounded: what is evicted is chosen by where a key
stands in the table, and a key that is written again keeps its place. So the window holds
exactly as long as no write evicts a key that is still within it.
-/

namespace AgentStudio.Db

def maxTrackedWriteKeys : Nat := 10000

/-- `ReplicaRouter`; the engines are numbered, and `now` is read off the monotonic clock. -/
structure ReplicaRouter where
  replicaUrls : List String
  windowSeconds : ℚ := 5
  replicas : List Nat := []
  unavailable : Finset Nat := ∅
  rrIndex : Nat := 0
  lastWrite : Py.Dict String ℚ := .empty

inductive Served where
  | primary
  | replica (engine : Nat)
  deriving DecidableEq

namespace ReplicaRouter

/-- `configured`. -/
def configured (router : ReplicaRouter) : Bool := router.replicaUrls ≠ []

/-- The table with the keys of a call set. -/
def recorded (now : ℚ) (keys : List String) (table : Py.Dict String ℚ) : Py.Dict String ℚ :=
  keys.foldl (fun table key => if key = "" then table else table.set key now) table

/-- How many entries are too many. -/
def excess (table : Py.Dict String ℚ) : Nat := table.size - maxTrackedWriteKeys

/-- `mark_write`. -/
def markWrite (router : ReplicaRouter) (now : ℚ) (keys : List String) : ReplicaRouter :=
  if router.configured then
    let table := recorded now keys router.lastWrite
    { router with lastWrite := table.drop (excess table) }
  else router

/-- `_within_window`. -/
def withinWindow (router : ReplicaRouter) (now : ℚ) (keys : List String) : Bool :=
  keys.any fun key => key ≠ "" &&
    (router.lastWrite.get? key).any fun writtenAt => now - writtenAt < router.windowSeconds

/-- `replica_eligible`. -/
def replicaEligible (router : ReplicaRouter) (now : ℚ) (keys : List String) : Bool :=
  router.configured &&
    !(router.replicas = [] || router.unavailable.card ≥ router.replicas.length) &&
      !router.withinWindow now keys

/-- `_next_replica`; `none` is its error. -/
def nextReplica (router : ReplicaRouter) : Option Nat :=
  let candidates := router.replicas.filter fun engine => engine ∉ router.unavailable
  candidates[router.rrIndex % candidates.length]?

/-- `get_read_session`: what serves the read. A read that fails marks its replica. -/
def getReadSession (router : ReplicaRouter) (now : ℚ) (keys : List String) (fails : Bool) :
    Option Served × ReplicaRouter :=
  if router.replicaEligible now keys then
    match router.nextReplica with
    | none => (none, router)
    | some engine =>
      (some (.replica engine), { router with
        rrIndex := router.rrIndex + 1
        unavailable := if fails then insert engine router.unavailable else router.unavailable })
  else (some .primary, router)

end ReplicaRouter

/-! ## Runs -/

inductive Op where
  | markWrite (keys : List String)
  | read (keys : List String) (fails : Bool)
  | health (unavailable : Finset Nat)

/-- The router at a time, and every write so far. -/
structure Trial where
  router : ReplicaRouter
  now : ℚ
  writes : List (String × ℚ) := []

namespace Trial

def later (t : Trial) (elapsed : ℚ≥0) : Trial := { t with now := t.now + elapsed }

def perform (t : Trial) : Op → Trial
  | .markWrite keys => { t with
      router := t.router.markWrite t.now keys
      writes := t.writes ++ (keys.filter (· ≠ "")).map fun key => (key, t.now) }
  | .read keys fails => { t with router := (t.router.getReadSession t.now keys fails).2 }
  | .health unavailable => { t with router := { t.router with unavailable := unavailable } }

/-- Time passes, then an operation is performed. -/
def step (t : Trial) (e : ℚ≥0 × Op) : Trial := (t.later e.1).perform e.2

def run (t : Trial) (es : List (ℚ≥0 × Op)) : Trial := es.foldl step t

/-- The key was written less than the window ago. -/
def Fresh (t : Trial) (key : String) : Prop :=
  ∃ writtenAt, (key, writtenAt) ∈ t.writes ∧ t.now - writtenAt < t.router.windowSeconds

/-- The write evicts no key that is still fresh. -/
def EvictsStale (t : Trial) : Op → Prop
  | .markWrite keys =>
    let table := ReplicaRouter.recorded t.now keys t.router.lastWrite
    ∀ e ∈ table.entries.take (ReplicaRouter.excess table),
      t.router.windowSeconds ≤ t.now - e.2
  | _ => True

/-- Whichever replicas are up, a read that names a fresh key is served by the primary, now
and as long as the key is fresh. -/
def ReadsOwnWrites (t : Trial) : Prop :=
  ∀ (elapsed : ℚ≥0) (unavailable : Finset Nat) (keys : List String) (fails : Bool) (key : String),
    key ∈ keys → (t.later elapsed).Fresh key →
      (({ t.router with unavailable := unavailable } : ReplicaRouter).getReadSession
        (t.later elapsed).now keys fails).1 = some .primary

end Trial

/-! ## The table of recent writes -/

namespace ReplicaRouter

theorem mem_recorded {now : ℚ} {keys : List String} {table : Py.Dict String ℚ} {e : String × ℚ} :
    e ∈ (recorded now keys table).entries ↔
      (e.1 ∈ keys ∧ e.1 ≠ "" ∧ e.2 = now) ∨ ((e.1 ∉ keys ∨ e.1 = "") ∧ e ∈ table.entries) := by
  induction keys generalizing table with
  | nil => simp [recorded]
  | cons key keys ih =>
    rw [recorded, List.foldl_cons, ← recorded, ih]
    by_cases blank : key = ""
    · rw [if_pos blank]
      grind
    · rw [if_neg blank, Py.Dict.mem_set, Prod.ext_iff]
      grind

theorem withinWindow_iff {router : ReplicaRouter} {now : ℚ} {keys : List String} :
    router.withinWindow now keys = true ↔ ∃ key ∈ keys, key ≠ "" ∧ ∃ writtenAt,
      (key, writtenAt) ∈ router.lastWrite.entries ∧ now - writtenAt < router.windowSeconds := by
  simp only [withinWindow, List.any_eq_true, Bool.and_eq_true, decide_eq_true_eq,
    Option.any_eq_true, Py.Dict.get?_eq_some]

/-- A read is served by the primary, unless a replica is up and no key is in the window. -/
theorem served_primary (router : ReplicaRouter) (now : ℚ) (keys : List String) (fails : Bool)
    (within : router.withinWindow now keys = true) :
    (router.getReadSession now keys fails).1 = some .primary := by
  rw [getReadSession, if_neg]
  simp [replicaEligible, within]

theorem served_replica (router : ReplicaRouter) (ready : router.configured = true)
    (some_ : router.replicas ≠ []) (now : ℚ) (keys : List String) (fails : Bool)
    (outside : router.withinWindow now keys = false) :
    (({ router with unavailable := ∅ } : ReplicaRouter).getReadSession now keys fails).1 ≠
      some .primary := by
  have eligible : ({ router with unavailable := ∅ } : ReplicaRouter).replicaEligible now keys =
      true := by
    have configured : ({ router with unavailable := ∅ } : ReplicaRouter).configured = true := ready
    have outside : ({ router with unavailable := ∅ } : ReplicaRouter).withinWindow now keys =
      false := outside
    simp [replicaEligible, configured, outside, some_]
  rw [getReadSession, if_pos eligible]
  cases nextReplica _ <;> simp

end ReplicaRouter

namespace Trial
variable {t : Trial}

/-- What holds whatever is evicted: the table says when a key was last written. -/
structure Recorded (t : Trial) : Prop where
  configured : t.router.configured = true
  replicas : t.router.replicas ≠ []
  writes : ∀ e ∈ t.router.lastWrite.entries, e ∈ t.writes
  latest : ∀ e ∈ t.router.lastWrite.entries, ∀ writtenAt, (e.1, writtenAt) ∈ t.writes →
    writtenAt ≤ e.2
  past : ∀ e ∈ t.writes, e.2 ≤ t.now ∧ e.1 ≠ ""

/-- No fresh key is missing from the table. -/
def Tracked (t : Trial) : Prop :=
  ∀ key, t.Fresh key → ∃ writtenAt, (key, writtenAt) ∈ t.router.lastWrite.entries

theorem later_recorded (h : t.Recorded) (elapsed : ℚ≥0) : (t.later elapsed).Recorded := by
  refine ⟨h.configured, h.replicas, h.writes, h.latest, fun e mem => ?_⟩
  have past := h.past e mem
  have positive : (0 : ℚ) ≤ elapsed := elapsed.2
  refine ⟨?_, past.2⟩
  change e.2 ≤ t.now + elapsed
  linarith [past.1]

theorem later_tracked (h : t.Tracked) (elapsed : ℚ≥0) : (t.later elapsed).Tracked := by
  rintro key ⟨writtenAt, mem, fresh⟩
  apply h key
  have positive : (0 : ℚ) ≤ elapsed := elapsed.2
  change t.now + elapsed - writtenAt < t.router.windowSeconds at fresh
  exact ⟨writtenAt, mem, by linarith⟩

theorem getReadSession_table (router : ReplicaRouter) (now : ℚ) (keys : List String)
    (fails : Bool) : (router.getReadSession now keys fails).2.lastWrite = router.lastWrite ∧
      (router.getReadSession now keys fails).2.configured = router.configured ∧
      (router.getReadSession now keys fails).2.replicas = router.replicas ∧
      (router.getReadSession now keys fails).2.windowSeconds = router.windowSeconds := by
  unfold ReplicaRouter.getReadSession
  split
  · cases router.nextReplica <;> exact ⟨rfl, rfl, rfl, rfl⟩
  · exact ⟨rfl, rfl, rfl, rfl⟩

theorem markWrite_eq (h : t.Recorded) (keys : List String) :
    (t.perform (.markWrite keys)).router.lastWrite.entries =
      (ReplicaRouter.recorded t.now keys t.router.lastWrite).entries.drop
        (ReplicaRouter.excess (ReplicaRouter.recorded t.now keys t.router.lastWrite)) := by
  simp only [perform, ReplicaRouter.markWrite]
  rw [if_pos h.configured, Py.Dict.entries_drop]

theorem markWrite_rest (router : ReplicaRouter) (now : ℚ) (keys : List String) :
    (router.markWrite now keys).replicaUrls = router.replicaUrls ∧
      (router.markWrite now keys).replicas = router.replicas ∧
      (router.markWrite now keys).windowSeconds = router.windowSeconds := by
  unfold ReplicaRouter.markWrite
  split
  · exact ⟨rfl, rfl, rfl⟩
  · exact ⟨rfl, rfl, rfl⟩

theorem mem_writes {keys : List String} {e : String × ℚ} :
    e ∈ (t.perform (.markWrite keys)).writes ↔
      e ∈ t.writes ∨ (e.1 ∈ keys ∧ e.1 ≠ "" ∧ e.2 = t.now) := by
  obtain ⟨key, writtenAt⟩ := e
  simp only [perform, List.mem_append, List.mem_map, List.mem_filter, decide_eq_true_eq,
    Prod.mk.injEq]
  grind

theorem perform_recorded (h : t.Recorded) (op : Op) : (t.perform op).Recorded := by
  cases op with
  | markWrite keys =>
    have kept {e : String × ℚ} (mem : e ∈ (t.perform (.markWrite keys)).router.lastWrite.entries) :
        e ∈ (ReplicaRouter.recorded t.now keys t.router.lastWrite).entries := by
      rw [markWrite_eq h] at mem
      exact List.mem_of_mem_drop mem
    obtain ⟨urls, replicas, -⟩ := markWrite_rest t.router t.now keys
    constructor
    · have configured := h.configured
      rw [ReplicaRouter.configured] at configured ⊢
      rw [show (t.perform (.markWrite keys)).router.replicaUrls = _ from urls]
      exact configured
    · rw [show (t.perform (.markWrite keys)).router.replicas = _ from replicas]
      exact h.replicas
    · intro e mem
      rw [mem_writes]
      rcases ReplicaRouter.mem_recorded.mp (kept mem) with new | ⟨-, old⟩
      · exact .inr new
      · exact .inl (h.writes e old)
    · intro e mem writtenAt written
      rw [mem_writes] at written
      rcases ReplicaRouter.mem_recorded.mp (kept mem) with ⟨-, -, now⟩ | ⟨other, old⟩
      · rcases written with written | ⟨-, -, same⟩
        · exact now ▸ (h.past _ written).1
        · exact le_of_eq (same.trans now.symm)
      · rcases written with written | ⟨named, given, -⟩
        · exact h.latest e old writtenAt written
        · exact absurd (other.resolve_right given) (not_not.mpr named)
    · intro e mem
      rw [mem_writes] at mem
      rcases mem with mem | ⟨-, given, now⟩
      · exact h.past e mem
      · exact ⟨le_of_eq now, given⟩
  | read keys fails =>
    obtain ⟨table, configured, replicas, -⟩ := getReadSession_table t.router t.now keys fails
    refine ⟨configured.trans h.configured, replicas ▸ h.replicas, ?_, ?_, h.past⟩
    · exact fun e mem => h.writes e (table ▸ mem)
    · exact fun e mem => h.latest e (table ▸ mem)
  | health unavailable => exact ⟨h.configured, h.replicas, h.writes, h.latest, h.past⟩

/-- What a write evicts is gone; the rest of what is fresh is in the table. -/
theorem perform_tracked (h : t.Recorded) (tracked : t.Tracked) (op : Op) :
    (t.perform op).Tracked ↔ t.EvictsStale op := by
  cases op with
  | markWrite keys =>
    have window : (t.perform (.markWrite keys)).router.windowSeconds = t.router.windowSeconds :=
      (markWrite_rest t.router t.now keys).2.2
    have recorded := perform_recorded h (.markWrite keys)
    constructor
    · intro all e evicted
      by_contra fresh
      have mem := List.mem_of_mem_take evicted
      have written : e ∈ (t.perform (.markWrite keys)).writes := by
        rw [mem_writes]
        rcases ReplicaRouter.mem_recorded.mp mem with new | ⟨-, old⟩
        · exact .inr new
        · exact .inl (h.writes e old)
      obtain ⟨writtenAt, there⟩ := all e.1 ⟨e.2, written, by
        rw [window]
        exact not_le.mp fresh⟩
      rw [markWrite_eq h] at there
      have nodup := (ReplicaRouter.recorded t.now keys t.router.lastWrite).nodup
      rw [← List.take_append_drop (ReplicaRouter.excess
        (ReplicaRouter.recorded t.now keys t.router.lastWrite)) (ReplicaRouter.recorded t.now keys
          t.router.lastWrite).entries, List.map_append, List.nodup_append] at nodup
      exact nodup.2.2 _ (List.mem_map_of_mem evicted) _ (List.mem_map_of_mem there) rfl
    · rintro stale key ⟨writtenAt, written, fresh⟩
      rw [window] at fresh
      have there : ∃ at_, (key, at_) ∈
          (ReplicaRouter.recorded t.now keys t.router.lastWrite).entries := by
        rw [mem_writes] at written
        by_cases named : key ∈ keys ∧ key ≠ ""
        · exact ⟨t.now, ReplicaRouter.mem_recorded.mpr (.inl ⟨named.1, named.2, rfl⟩)⟩
        · rcases written with written | ⟨in_, given, -⟩
          · obtain ⟨at_, there⟩ := tracked key ⟨writtenAt, written, fresh⟩
            exact ⟨at_, ReplicaRouter.mem_recorded.mpr (.inr ⟨by grind, there⟩)⟩
          · exact absurd ⟨in_, given⟩ named
      obtain ⟨at_, there⟩ := there
      refine ⟨at_, ?_⟩
      rw [markWrite_eq h]
      rw [← List.take_append_drop (ReplicaRouter.excess (ReplicaRouter.recorded t.now keys
        t.router.lastWrite)) (ReplicaRouter.recorded t.now keys t.router.lastWrite).entries,
        List.mem_append] at there
      rcases there with evicted | kept
      · -- it would be the last write of the key, which is stale
        have old := stale _ evicted
        have last : writtenAt ≤ at_ := by
          rcases ReplicaRouter.mem_recorded.mp (List.mem_of_mem_take evicted) with
            ⟨-, -, now⟩ | ⟨other, there⟩
          · exact (show at_ = t.now from now) ▸ (recorded.past _ written).1
          · rw [mem_writes] at written
            rcases written with written | ⟨in_, given, -⟩
            · exact h.latest _ there writtenAt written
            · exact absurd (other.resolve_right given) (not_not.mpr in_)
        have now : (t.perform (.markWrite keys)).now = t.now := rfl
        rw [now] at fresh
        dsimp only at old
        linarith
      · exact kept
  | read keys fails =>
    obtain ⟨table, -, -, window⟩ := getReadSession_table t.router t.now keys fails
    constructor
    · exact fun _ => trivial
    · rintro - key ⟨writtenAt, written, fresh⟩
      have fresh : t.now - writtenAt < t.router.windowSeconds := window ▸ fresh
      obtain ⟨at_, there⟩ := tracked key ⟨writtenAt, written, fresh⟩
      exact ⟨at_, table.symm ▸ there⟩
  | health unavailable =>
    constructor
    · exact fun _ => trivial
    · exact fun _ => tracked

/-- Reads see the writes of a time exactly when no fresh key is missing. -/
theorem readsOwnWrites_iff (h : t.Recorded) : t.ReadsOwnWrites ↔ t.Tracked := by
  constructor
  · rintro reads key fresh
    by_contra missing
    have now : t.now = (t.later 0).now := by simp [later]
    have fresh' : (t.later 0).Fresh key := by
      obtain ⟨writtenAt, mem, fresh⟩ := fresh
      exact ⟨writtenAt, mem, now ▸ fresh⟩
    apply ReplicaRouter.served_replica t.router h.configured h.replicas (t.later 0).now [key] false
    · apply Bool.eq_false_of_not_eq_true
      rw [ReplicaRouter.withinWindow_iff]
      rintro ⟨key', mem, -, writtenAt, there, -⟩
      rw [List.mem_singleton.mp mem] at there
      exact missing ⟨writtenAt, there⟩
    · exact reads 0 ∅ [key] false key (List.mem_singleton_self key) fresh'
  · intro tracked elapsed unavailable keys fails key named fresh
    apply ReplicaRouter.served_primary
    rw [ReplicaRouter.withinWindow_iff]
    have h' := later_recorded h elapsed
    obtain ⟨at_, there⟩ := later_tracked tracked elapsed key fresh
    obtain ⟨writtenAt, written, fresh⟩ := fresh
    refine ⟨key, named, (h'.past _ written).2, at_, there, ?_⟩
    have last := h'.latest _ there writtenAt written
    change (t.later elapsed).now - at_ < (t.later elapsed).router.windowSeconds
    linarith

end Trial

/-! ## Every history -/

/-- A router with replicas, before any write. -/
structure Ready (router : ReplicaRouter) : Prop where
  configured : router.configured = true
  replicas : router.replicas ≠ []
  fresh : router.lastWrite.entries = []

/-- The table says when a key was last written, at every point of a history. -/
theorem run_recorded (router : ReplicaRouter) (ready : Ready router) (start : ℚ)
    (past : List (ℚ≥0 × Op)) : (Trial.run ⟨router, start, []⟩ past).Recorded := by
  induction past using List.reverseRecOn with
  | nil =>
    have none_ := ready.fresh
    refine ⟨ready.configured, ready.replicas, ?_, ?_, fun e mem => by cases mem⟩
    · intro e mem
      rw [show (Trial.run ⟨router, start, []⟩ []).router.lastWrite.entries = [] from none_] at mem
      cases mem
    · intro e mem
      rw [show (Trial.run ⟨router, start, []⟩ []).router.lastWrite.entries = [] from none_] at mem
      cases mem
  | append_singleton past e ih =>
    rw [Trial.run, List.foldl_append]
    exact Trial.perform_recorded (Trial.later_recorded ih e.1) e.2

/-- For every history of writes, reads and health checks, at whatever times and of any
number of keys: reads are served by the primary for as long as a key they name is fresh,
at every point of the history, exactly when no write of the history evicts a fresh key. -/
theorem fresh_reads_primary_iff (router : ReplicaRouter) (ready : Ready router) (start : ℚ)
    (history : List (ℚ≥0 × Op)) :
    (∀ past, past <+: history → (Trial.run ⟨router, start, []⟩ past).ReadsOwnWrites) ↔
      ∀ past elapsed op, past ++ [(elapsed, op)] <+: history →
        ((Trial.run ⟨router, start, []⟩ past).later elapsed).EvictsStale op := by
  have recorded := run_recorded router ready start
  constructor
  · intro reads past elapsed op next
    have before := reads past ((List.prefix_append _ _).trans next)
    have after := reads _ next
    rw [Trial.readsOwnWrites_iff (recorded _)] at before after
    rw [Trial.run, List.foldl_append] at after
    exact (Trial.perform_tracked (Trial.later_recorded (recorded past) elapsed)
      (Trial.later_tracked before elapsed) op).mp after
  · intro stale past
    induction past using List.reverseRecOn with
    | nil =>
      intro _
      rw [Trial.readsOwnWrites_iff (recorded _)]
      rintro key ⟨writtenAt, mem, -⟩
      cases mem
    | append_singleton past e ih =>
      intro next
      have before := ih ((List.prefix_append _ _).trans next)
      rw [Trial.readsOwnWrites_iff (recorded _)] at before ⊢
      rw [Trial.run, List.foldl_append]
      exact (Trial.perform_tracked (Trial.later_recorded (recorded past) e.1)
        (Trial.later_tracked before e.1) e.2).mpr (stale past e.1 e.2 next)

/-- A router with one replica, which is up. -/
def single : ReplicaRouter := { replicaUrls := ["r1"], replicas := [0] }

theorem single_ready : Ready single := ⟨rfl, by simp [single], rfl⟩

theorem excess_eq_zero {table : Py.Dict String ℚ} (few : table.entries.length ≤ 1) :
    ReplicaRouter.excess table = 0 := by
  rw [ReplicaRouter.excess, Py.Dict.size, maxTrackedWriteKeys]
  omega

theorem single_recorded (start : ℚ) :
    (ReplicaRouter.recorded start ["k"] single.lastWrite).entries = [("k", start)] := rfl

/-- One write evicts nothing. -/
theorem fresh_reads_primary_single :
    (Trial.run ⟨single, 0, []⟩ [(0, .markWrite ["k"])]).ReadsOwnWrites := by
  apply (fresh_reads_primary_iff single single_ready 0 [(0, .markWrite ["k"])]).mpr _ _
    (List.prefix_refl _)
  intro past elapsed op next
  have length := next.length_le
  have none_ : past = [] := by
    rw [← List.length_eq_zero_iff]
    simpa using length
  subst none_
  obtain ⟨rfl, rfl⟩ : elapsed = 0 ∧ op = .markWrite ["k"] := by
    simpa using next.eq_of_length (by simp)
  have now : ((⟨single, 0, []⟩ : Trial).later 0).now = 0 := by simp [Trial.later]
  change ∀ e ∈ (ReplicaRouter.recorded _ ["k"] single.lastWrite).entries.take
    (ReplicaRouter.excess (ReplicaRouter.recorded _ ["k"] single.lastWrite)), _
  rw [excess_eq_zero (by rw [single_recorded]; simp)]
  simp

/-! ## A write that evicts -/

namespace ReplicaRouter

/-- Keys that are new go last, in the order of the call. -/
theorem recorded_new {now : ℚ} {keys : List String} {table : Py.Dict String ℚ}
    (distinct : keys.Nodup) (new : ∀ key ∈ keys, key ≠ "" ∧ key ∉ table.keys) :
    (recorded now keys table).entries = table.entries ++ keys.map fun key => (key, now) := by
  induction keys generalizing table with
  | nil => simp [recorded]
  | cons key keys ih =>
    obtain ⟨given, absent⟩ := new key List.mem_cons_self
    obtain ⟨apart, distinct⟩ := List.nodup_cons.mp distinct
    have placed := Py.Dict.set_new absent now
    rw [recorded, List.foldl_cons, ← recorded, if_neg given, ih distinct, placed]
    · simp
    · intro key' mem
      obtain ⟨given', absent'⟩ := new key' (List.mem_cons_of_mem _ mem)
      refine ⟨given', ?_⟩
      rw [Py.Dict.keys, placed]
      have other : key' ≠ key := fun same => apart (same ▸ mem)
      simpa [Py.Dict.keys, other] using absent'

end ReplicaRouter

/-- Ten thousand keys, none of them empty. -/
def bulk : List String :=
  (List.range maxTrackedWriteKeys).map fun i => String.ofList (List.replicate (i + 1) 'x')

theorem bulk_nodup : bulk.Nodup := by
  apply List.Nodup.map _ List.nodup_range
  intro i j same
  have lists := String.ofList_injective same
  have lengths := congrArg List.length lists
  simpa using lengths

theorem mem_bulk {key : String} (mem : key ∈ bulk) : key ≠ "" ∧ key ≠ "k" := by
  obtain ⟨i, -, rfl⟩ := List.mem_map.mp mem
  constructor
  · intro same
    have lists := congrArg String.toList same
    simp at lists
  · intro same
    have lists := congrArg String.toList same
    simp [List.replicate_succ] at lists

/-- A key is written, then one call writes ten thousand others: at the same instant a read
of the first key is sent to the replica. -/
theorem own_write_evicted :
    let t := Trial.run ⟨single, 0, []⟩ [(0, .markWrite ["k"]), (0, .markWrite bulk)]
    t.Fresh "k" ∧ (t.router.getReadSession t.now ["k"] false).1 = some (.replica 0) := by
  intro t
  have now : t.now = 0 := by simp [t, Trial.run, Trial.step, Trial.later, Trial.perform]
  let first := Trial.run ⟨single, 0, []⟩ [(0, .markWrite ["k"])]
  have recorded := run_recorded single single_ready 0 [(0, .markWrite ["k"])]
  have one : first.router.lastWrite.entries = [("k", 0 + ((0 : ℚ≥0) : ℚ))] := by
    have marked := Trial.markWrite_eq (Trial.later_recorded (run_recorded single single_ready 0 [])
      0) ["k"]
    refine Eq.trans marked ?_
    change (ReplicaRouter.recorded _ ["k"] single.lastWrite).entries.drop
      (ReplicaRouter.excess (ReplicaRouter.recorded _ ["k"] single.lastWrite)) = _
    rw [excess_eq_zero (by rw [single_recorded]; simp)]
    rfl
  have placed : (ReplicaRouter.recorded (first.later 0).now bulk first.router.lastWrite).entries =
      [("k", 0 + ((0 : ℚ≥0) : ℚ))] ++ bulk.map fun key => (key, (first.later 0).now) := by
    rw [ReplicaRouter.recorded_new bulk_nodup, one]
    intro key mem
    rw [Py.Dict.keys, one]
    simpa using mem_bulk mem
  have excess : ReplicaRouter.excess (ReplicaRouter.recorded (first.later 0).now bulk
      first.router.lastWrite) = 1 := by
    rw [ReplicaRouter.excess, Py.Dict.size, placed, List.length_append, List.length_map, bulk,
      List.length_map, List.length_range, List.length_singleton]
    omega
  have table : t.router.lastWrite.entries = bulk.map fun key => (key, (first.later 0).now) := by
    refine Eq.trans (Trial.markWrite_eq (Trial.later_recorded recorded 0) bulk) ?_
    change (ReplicaRouter.recorded (first.later 0).now bulk first.router.lastWrite).entries.drop
      (ReplicaRouter.excess (ReplicaRouter.recorded (first.later 0).now bulk
        first.router.lastWrite)) = _
    rw [excess, placed]
    rfl
  have outside : t.router.withinWindow t.now ["k"] = false := by
    apply Bool.eq_false_of_not_eq_true
    rw [ReplicaRouter.withinWindow_iff]
    rintro ⟨key, mem, -, writtenAt, there, -⟩
    rw [table, List.mem_map] at there
    obtain ⟨key', mem', same⟩ := there
    have is : key' = "k" := (congrArg Prod.fst same).trans (List.mem_singleton.mp mem)
    exact (mem_bulk mem').2 is
  have configured : t.router.configured = true := rfl
  have replicas : t.router.replicas = [0] := rfl
  have unavailable : t.router.unavailable = ∅ := rfl
  have index : t.router.rrIndex = 0 := rfl
  constructor
  · refine ⟨0 + ((0 : ℚ≥0) : ℚ), ?_, ?_⟩
    · exact List.mem_append_left _ (List.mem_singleton_self _)
    · rw [now]
      change (0 : ℚ) - (0 + 0) < 5
      norm_num
  · have eligible : t.router.replicaEligible t.now ["k"] = true := by
      simp [ReplicaRouter.replicaEligible, configured, replicas, unavailable, outside]
    rw [ReplicaRouter.getReadSession, if_pos eligible, ReplicaRouter.nextReplica]
    simp [replicas, unavailable, index]

end AgentStudio.Db
