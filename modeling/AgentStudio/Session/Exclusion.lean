import AgentStudio.Session.Coordinator

/-!
# How long the thread lock excludes

The turns of one thread, in any number of workers. No turn starts a renewal, so
a lease lasts `lease_seconds` from when it was granted: what it excludes after
that is nobody who tries the lock.
-/

namespace AgentStudio.Session.Coordinator

open Async

/-- A lease that was granted and is not released yet. -/
structure Held where
  token : Token
  ends : Nat
  deriving DecidableEq

/-- What the turns of one thread share: the clock of Redis, the key with its token and expiry,
and the local locks of the workers. -/
structure Slot where
  now : Nat := 0
  key : Option (Token × Nat) := none
  locked : List Worker := []
  renewing : List Token := []
  /-- Every token that was drawn. -/
  drawn : List Token := []
  held : List Held := []

namespace Slot

variable (s : Slot)

/-- The token that the key holds now. -/
def owner : Option Token := (s.key.filter fun entry => s.now < entry.2).map Prod.fst

def grant (token : Token) (px : Nat) : Slot :=
  { s with key := some (token, s.now + px), held := s.held ++ [⟨token, s.now + px⟩] }

/-- The release script: compare and delete. -/
def free (token : Token) : Slot :=
  { s with
    key := if s.owner = some token then none else s.key
    held := s.held.filter fun lease => lease.token ≠ token }

/-- No lease that is held has run out. -/
def Timely : Prop := ∀ lease ∈ s.held, s.now < lease.ends

end Slot

/-- A call that was cancelled. -/
def Cancelled {α : Type} (r : Except Raised α) : Prop := r = .error .cancelled

/-- How the calls are answered while Redis is up. Only where `late` is the lock tried while a
lease that has run out is held. -/
def Answer (late : Prop) : Answers Calls Raised Slot
  | .monotonic, s, r, s' => s' = s ∧ ∃ time, r = .ok time
  | .lockLocal worker _, s, r, s' =>
    worker ∉ s.locked ∧ s' = { s with locked := worker :: s.locked } ∧ r = .ok true ∨
      s' = s ∧ (r = .ok false ∨ Cancelled r)
  | .unlockLocal worker, s, r, s' => s' = { s with locked := s.locked.erase worker } ∧ r = .ok ()
  | .uuid4, s, r, s' => ∃ token ∉ s.drawn, s' = { s with drawn := token :: s.drawn } ∧ r = .ok token
  | .setNx token px, s, r, s' =>
    (late ∨ s.Timely) ∧
        (s.owner = none ∧ (s' = s.grant token px ∧ r = .ok true ∨
            s' = { s with key := some (token, s.now + px) } ∧ Cancelled r) ∨
          s.owner ≠ none ∧ s' = s ∧ r = .ok false) ∨
      s' = s ∧ Cancelled r
  | .sleep _, s, r, s' => s' = s ∧ (r = .ok () ∨ Cancelled r)
  | .releaseScript token, s, r, s' =>
    s' = s.free token ∧ (r = .ok () ∨ Cancelled r) ∨ s' = s ∧ Cancelled r
  | .renewScript token px, s, r, s' =>
    s.owner = some token ∧ s' = { s with key := some (token, s.now + px) } ∧ r = .ok true ∨
      s' = s ∧ (s.owner ≠ some token ∧ r = .ok false ∨ Cancelled r)
  | .createRenewal token, s, r, s' =>
    s' = { s with renewing := token :: s.renewing } ∧ r = .ok ()
  | .cancelRenewal token, s, r, s' =>
    s' = { s with renewing := s.renewing.filter (· ≠ token) } ∧ (r = .ok () ∨ Cancelled r)
  | .admitTenant, s, r, s' => s' = s ∧ (∃ admitted, r = .ok admitted ∨ ∃ e, r = .error e)
  | .run, s, r, s' => s' = s ∧ (r = .ok () ∨ ∃ e, r = .error e)
  | .releaseAdmission, s, r, s' => s' = s ∧ (r = .ok () ∨ ∃ e, r = .error e)

/-- Time passes. -/
def Elapses (s s' : Slot) : Prop := ∃ now, s.now ≤ now ∧ s' = { s with now := now }

/-- Turns and renewals end with one thing or another. -/
abbrev World := Shared Calls Raised (Except Raised Reply × Vars) Slot

/-- A turn starts in any worker at any time, a renewal where it was created. -/
def Starts (config : Config) (s : World) (body : Tree Calls Raised (Except Raised Reply × Vars)) :
    Prop :=
  (∃ rounds worker, body = turn config rounds worker {}) ∨
    ∃ token ∈ s.store.renewing, ∃ rounds,
      body = (do renewLoop config token rounds; pure Reply.done) {}

/-! ## Steps -/

/-- A lease that is held is the one that the key was granted to, and nobody renews it. -/
structure Slot.Valid (s : Slot) : Prop where
  key : s.held = [] ∨ ∃ lease, s.held = [lease] ∧ s.key = some (lease.token, lease.ends)
  unrenewed : s.renewing = []

def Kept (s s' : Slot) : Prop := s.Valid → s'.Valid

variable {s s' : Slot}

theorem Elapses.kept (h : Elapses s s') : Kept s s' := by
  obtain ⟨now, -, rfl⟩ := h
  exact fun valid => ⟨valid.key, valid.unrenewed⟩

/-- While every lease is timely, whoever holds one owns the key. -/
theorem Slot.Valid.owner (valid : s.Valid) (timely : s.Timely) {lease : Held}
    (held : lease ∈ s.held) : s.owner = some lease.token := by
  rcases valid.key with none_ | ⟨only, one, key⟩
  · simp [none_] at held
  · rw [one, List.mem_singleton] at held
    subst held
    have live := timely lease (by simp [one])
    simp [Slot.owner, key, Option.filter, live]

theorem setNx_kept {token : Token} {px : Nat} {r : Except Raised Bool}
    (h : Answer False (.setNx token px) s r s') : Kept s s' := by
  intro valid
  obtain ⟨late | timely, ⟨free, granted⟩ | ⟨-, rfl, -⟩⟩ | ⟨rfl, -⟩ := h
  · exact late.elim
  · exact late.elim
  · have empty : s.held = [] := by
      rw [List.eq_nil_iff_forall_not_mem]
      intro lease held
      rw [valid.owner timely held] at free
      cases free
    rcases granted with ⟨rfl, -⟩ | ⟨rfl, -⟩
    · exact ⟨.inr ⟨⟨token, s.now + px⟩, by simp [Slot.grant, empty], rfl⟩, valid.unrenewed⟩
    · exact ⟨.inl empty, valid.unrenewed⟩
  · exact valid
  · exact valid

theorem free_valid (valid : s.Valid) (token : Token) : (s.free token).Valid := by
  refine ⟨?_, valid.unrenewed⟩
  rcases valid.key with none_ | ⟨lease, one, key⟩
  · exact .inl (by simp [Slot.free, none_])
  · by_cases own : lease.token = token
    · exact .inl (by simp [Slot.free, one, own])
    · refine .inr ⟨lease, by simp [Slot.free, one, own], ?_⟩
      have other : s.owner ≠ some token := by
        intro owns
        simp only [Slot.owner, key, Option.filter] at owns
        split at owns
        · exact own (Option.some.inj owns)
        · cases owns
      simp [Slot.free, other, key]

theorem releaseScript_kept {late : Prop} {token : Token} {r : Except Raised Unit}
    (h : Answer late (.releaseScript token) s r s') : Kept s s' := by
  intro valid
  rcases h with ⟨rfl, -⟩ | ⟨rfl, -⟩
  · exact free_valid valid token
  · exact valid

theorem kept_of_same (key : s'.key = s.key) (held : s'.held = s.held)
    (renewing : s'.renewing = s.renewing) : Kept s s' := fun valid =>
  ⟨by rw [key, held]; exact valid.key, by rw [renewing]; exact valid.unrenewed⟩

/-- The calls that neither touch the key nor start a renewal. -/
def Op.aside : Op → Bool
  | .setNx .. | .releaseScript _ | .renewScript .. | .createRenewal _ => false
  | _ => true

theorem aside_kept {op : Op} {r : Except Raised op.Answer} (aside : op.aside = true)
    (h : Answer False op s r s') : Kept s s' := by
  cases op with
  | setNx | releaseScript | renewScript | createRenewal => cases aside
  | lockLocal worker timeout =>
    rcases h with ⟨-, rfl, -⟩ | ⟨rfl, -⟩
    · exact kept_of_same rfl rfl rfl
    · exact id
  | uuid4 =>
    obtain ⟨token, -, rfl, -⟩ := h
    exact kept_of_same rfl rfl rfl
  | unlockLocal worker =>
    obtain ⟨rfl, -⟩ := h
    exact kept_of_same rfl rfl rfl
  | cancelRenewal token =>
    obtain ⟨rfl, -⟩ := h
    exact fun valid => ⟨valid.key, by simp [valid.unrenewed]⟩
  | monotonic | sleep | admitTenant | run | releaseAdmission =>
    obtain ⟨rfl, -⟩ := h
    exact id

/-! ## Turns -/

/-- What keeps the slot as it must be, whatever it is answered. -/
abbrev Keeps {α : Type} (action : Action α) : Prop := Coro.Keeps (Answer False) Kept action

theorem keeps_aside {op : Op} (aside : op.aside = true) :
    Keeps (Coro.call (I := Calls) op : Action op.Answer) :=
  .call fun _ _ _ answer => aside_kept aside answer

theorem release_keeps (lease : Lease) : Keeps (release lease) := by
  refine .bind .get fun v => ?_
  split
  · exact .pure ()
  · refine .bind (.modify _) fun _ => .bind .get fun v => .bind ?_ fun _ => .bind ?_ fun _ => ?_
    · cases v.renewal with
      | true => exact keeps_aside rfl
      | false => exact .pure ()
    · refine .tryCatch (.call fun _ _ _ => releaseScript_kept) fun e => ?_
      split
      · exact .pure ()
      · exact .throw e
    · exact .post fun _ _ _ answer => aside_kept rfl answer

theorem acquireRedisLock_keeps (config : Config) (token : Token) (deadline rounds : Nat) :
    Keeps (acquireRedisLock config token deadline rounds) := by
  induction rounds with
  | zero => exact .throw _
  | succ rounds ih =>
    refine .bind (keeps_aside rfl) fun now => ?_
    split
    · refine .bind (.call fun _ _ _ => setNx_kept) fun acquired => ?_
      split
      · exact .pure true
      · exact .bind (keeps_aside rfl) fun _ => ih
    · exact .pure false

theorem acquire_keeps (config : Config) (rounds : Nat) (worker : Worker) :
    Keeps (acquire config rounds worker) := by
  refine .bind (keeps_aside rfl) fun start => .bind (keeps_aside rfl) fun locked => ?_
  split
  · refine .bind (keeps_aside rfl) fun token =>
      .bind (acquireRedisLock_keeps config token _ rounds) fun held => ?_
    split
    · exact .pure _
    · exact .bind (.post fun _ _ _ answer => aside_kept rfl answer) fun _ => .pure none
  · exact .pure none

theorem turn_keeps (config : Config) (rounds : Nat) (worker : Worker) :
    Keeps (turn config rounds worker) := by
  refine .bind (acquire_keeps config rounds worker) fun acquired => ?_
  cases acquired with
  | none => exact .pure _
  | some lease =>
    refine .bind (keeps_aside rfl) fun admitted => ?_
    split
    · exact .ensure (.bind (keeps_aside rfl) fun _ => .pure _)
        (.bind (keeps_aside rfl) fun _ => release_keeps lease)
    · exact .bind (release_keeps lease) fun _ => .pure _

/-! ## Runs -/

theorem run_valid {config : Config} {init s : World} (fresh : init.store.Valid)
    (empty : init.tasks = [])
    (run : Relation.ReflTransGen (Shared.Step (Answer False) Elapses (Starts config)) init s) :
    s.store.Valid := by
  have starts (s : World) (body : Tree Calls Raised (Except Raised Reply × Vars))
      (may : Starts config s body) (valid : s.store.Valid) :
      body.Safe (Answer False) Kept Kept (fun _ _ => True) s.store := by
    rcases may with ⟨rounds, worker, rfl⟩ | ⟨token, renewing, -⟩
    · exact turn_keeps config rounds worker {} s.store
    · simp [valid.unrenewed] at renewing
  exact (Shared.concurrent_run Slot.Valid (fun a b (h : Elapses a b) => h.kept) (fun _ => id)
    (fun _ _ _ h h' => h' ∘ h) (fun a b (h : Kept a b) => h) starts empty fresh run).1

/-- While the lock of a thread is tried only where no lease of it that is held has run out,
no two leases are held at a time. -/
theorem one_lease {config : Config} {init s : World} (fresh : init.store.Valid)
    (empty : init.tasks = [])
    (run : Relation.ReflTransGen (Shared.Step (Answer False) Elapses (Starts config)) init s) :
    s.store.held.length ≤ 1 := by
  rcases (run_valid fresh empty run).key with none_ | ⟨lease, one, -⟩
  · simp [none_]
  · simp [one]

/-- Who tries the lock where a lease has run out is granted another. -/
theorem overtaken (valid : s.Valid) (late : ¬ s.Timely) {token : Token} {px : Nat} {acquired : Bool}
    (h : Answer True (.setNx token px) s (.ok acquired) s') : s'.held.length = 2 := by
  rcases valid.key with none_ | ⟨lease, one, key⟩
  · exact absurd (by simp [Slot.Timely, none_]) late
  · have ended : ¬ s.now < lease.ends := by simpa [Slot.Timely, one] using late
    have free : s.owner = none := by simp [Slot.owner, key, Option.filter, ended]
    obtain ⟨-, ⟨-, ⟨rfl, -⟩ | ⟨-, cancelled⟩⟩ | ⟨owned, -⟩⟩ | ⟨-, cancelled⟩ := h
    · simp [Slot.grant, one]
    · cases cancelled
    · exact absurd free owned
    · cases cancelled

/-! ## Two workers -/

/-- Every call is answered at once; with `late` the lock may be tried whatever is held. -/
def granted (late : Bool) : (op : Op) → Slot → Except Raised op.Answer × Slot
  | .monotonic, s => (.ok s.now, s)
  | .lockLocal worker _, s =>
    if worker ∉ s.locked then (.ok true, { s with locked := worker :: s.locked })
    else (.ok false, s)
  | .unlockLocal worker, s => (.ok (), { s with locked := s.locked.erase worker })
  | .uuid4, s => (.ok (s.drawn.sum + 1), { s with drawn := (s.drawn.sum + 1) :: s.drawn })
  | .setNx token px, s =>
    if late = true ∨ ∀ lease ∈ s.held, s.now < lease.ends then
      if s.owner = none then (.ok true, s.grant token px) else (.ok false, s)
    else (.error .cancelled, s)
  | .sleep _, s => (.ok (), s)
  | .releaseScript token, s => (.ok (), s.free token)
  | .renewScript token px, s =>
    if s.owner = some token then (.ok true, { s with key := some (token, s.now + px) })
    else (.ok false, s)
  | .createRenewal token, s => (.ok (), { s with renewing := token :: s.renewing })
  | .cancelRenewal token, s => (.ok (), { s with renewing := s.renewing.filter (· ≠ token) })
  | .admitTenant, s => (.ok true, s)
  | .run, s => (.ok (), s)
  | .releaseAdmission, s => (.ok (), s)

theorem granted_answer (late : Bool) (op : Op) (s : Slot) :
    Answer (late = true) op s (granted late op s).1 (granted late op s).2 := by
  cases op with
  | monotonic => exact ⟨rfl, _, rfl⟩
  | lockLocal worker timeout =>
    simp only [granted]
    split
    next free => exact .inl ⟨free, rfl, rfl⟩
    next => exact .inr ⟨rfl, .inl rfl⟩
  | uuid4 =>
    refine ⟨s.drawn.sum + 1, ?_, rfl, rfl⟩
    intro drawn
    have := List.single_le_sum (fun _ _ => Nat.zero_le _) _ drawn
    omega
  | setNx token px =>
    simp only [granted]
    split
    next may =>
      split
      next free => exact .inl ⟨may, .inl ⟨free, .inl ⟨rfl, rfl⟩⟩⟩
      next taken => exact .inl ⟨may, .inr ⟨taken, rfl, rfl⟩⟩
    next => exact .inr ⟨rfl, rfl⟩
  | renewScript token px =>
    simp only [granted]
    split
    next owns => exact .inl ⟨owns, rfl, rfl⟩
    next other => exact .inr ⟨rfl, .inl ⟨other, rfl⟩⟩
  | releaseScript token => exact .inl ⟨rfl, .inl rfl⟩
  | unlockLocal | createRenewal => exact ⟨rfl, rfl⟩
  | admitTenant => exact ⟨rfl, true, .inl rfl⟩
  | sleep | cancelRenewal | run | releaseAdmission => exact ⟨rfl, .inl rfl⟩

/-- A turn of `worker` up to where it runs under its lease. -/
def running (late : Bool) (worker : Worker) (s : Slot) :
    Tree Calls Raised (Except Raised Reply × Vars) × Slot :=
  (turn {} 1 worker {}).advance (I := Calls) (granted late) 6 s

theorem turn_runs (late : Bool) (worker : Worker) (store : Slot)
    (tasks : List (Tree Calls Raised (Except Raised Reply × Vars))) :
    Relation.ReflTransGen (Shared.Step (Answer (late = true)) Elapses (Starts {}))
      ⟨store, tasks⟩ ⟨(running late worker store).2, tasks ++ [(running late worker store).1]⟩ := by
  have here : (tasks ++ [turn {} 1 worker {}])[tasks.length]? = some (turn {} 1 worker {}) := by simp
  have rest := Shared.advance_steps Elapses (Starts {}) (granted_answer late) 6 _ store here
  rw [List.set_append_right _ _ (Nat.le_refl _), Nat.sub_self, List.set_cons_zero] at rest
  exact .head (.start ⟨store, tasks⟩ _ (.inl ⟨1, worker, rfl⟩)) rest

theorem one_lease_running : ∃ s : World, s.store.held ≠ [] ∧ s.store.held.length ≤ 1 := by
  have run := turn_runs false 0 {} []
  simp only [Bool.false_eq_true] at run
  exact ⟨_, by decide, one_lease ⟨.inl rfl, rfl⟩ rfl run⟩

/-- A turn that runs for two minutes is overtaken by a turn in another worker. -/
theorem two_leases : ∃ s : World,
    Relation.ReflTransGen (Shared.Step (Answer True) Elapses (Starts {})) ⟨{}, []⟩ s ∧
    s.store.held.length = 2 := by
  have first := turn_runs true 0 {} []
  have wait : Shared.Step (Answer (true = true)) Elapses (Starts {})
      ⟨(running true 0 {}).2, [] ++ [(running true 0 {}).1]⟩
      ⟨{ (running true 0 {}).2 with now := 120000 }, [] ++ [(running true 0 {}).1]⟩ :=
    .env _ _ ⟨120000, by decide, rfl⟩
  have second := turn_runs true 1 { (running true 0 {}).2 with now := 120000 }
    ([] ++ [(running true 0 {}).1])
  have run := (first.tail wait).trans second
  simp only [eq_self] at run
  exact ⟨_, run, by decide⟩

end AgentStudio.Session.Coordinator
