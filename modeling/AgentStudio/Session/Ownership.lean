import AgentStudio.Async.Turns
import AgentStudio.Session.Exclusion

/-!
# Who owns the thread lock

Any number of leases of one thread in any number of workers, entered, used and
released in any order, with their renewals, while the key may be lost at any time.
A token is drawn once, and who holds it compares it: what another token holds is
left as it is. A local lock is given back by the task that has it.
-/

namespace AgentStudio.Session.Coordinator.Ownership

open Async

/-! ## Leases -/

/-- What a caller of `acquire` may do with the lease, in any order. -/
inductive Use where
  | enter
  | work
  | release

def useLease (lease : Lease) : List Use → Action Unit
  | [] => pure ()
  | .enter :: uses => do
    enter lease
    useLease lease uses
  | .work :: uses => do
    tryCatch (Coro.call (I := Calls) .run) fun _ => pure ()
    useLease lease uses
  | .release :: uses => do
    release lease
    useLease lease uses

def hold (config : Config) (rounds : Nat) (worker : Worker) (uses : List Use) : Action Reply := do
  match ← acquire config rounds worker with
  | none => pure .busy
  | some lease =>
    useLease lease uses
    pure .done

/-- A lease, a turn of a route, or the renewal task of a token. -/
inductive Call where
  | hold (rounds : Nat) (worker : Worker) (uses : List Use)
  | turn (rounds : Nat) (worker : Worker)
  | renewal (rounds : Nat) (token : Token)

abbrev Outcome := Except Raised Reply × Vars

def body (config : Config) : Call → Tree Calls Raised Outcome
  | .hold rounds worker uses => hold config rounds worker uses {}
  | .turn rounds worker => turn config rounds worker {}
  | .renewal rounds token => (do
      renewLoop config token rounds
      pure Reply.done) {}

/-! ## The store -/

/-- The slot of the thread; for the record, by task: the tokens drawn, the local locks
acquired and not released, and the leases granted and not released. -/
structure Store extends Slot where
  tokens : List (Nat × Token) := []
  holders : List (Nat × Worker) := []
  leases : List (Nat × Token) := []

def tokensAfter (i : Nat) (l : List (Nat × Token)) :
    (op : Op) → Except Raised op.Answer → List (Nat × Token)
  | .uuid4, .ok token => (i, token) :: l
  | _, _ => l

def holdersAfter (i : Nat) (l : List (Nat × Worker)) :
    (op : Op) → Except Raised op.Answer → List (Nat × Worker)
  | .lockLocal worker _, .ok true => (i, worker) :: l
  | .unlockLocal worker, _ => l.erase (i, worker)
  | _, _ => l

def leasesAfter (i : Nat) (l : List (Nat × Token)) :
    (op : Op) → Except Raised op.Answer → List (Nat × Token)
  | .setNx token _, .ok true => (i, token) :: l
  | .releaseScript token, _ => l.erase (i, token)
  | _, _ => l

/-- How the calls are answered, whenever the lock is tried. -/
def Replies : Pool.Replies Call Calls Raised Store := fun i _ op s r s' =>
  Answer True op s.toSlot r s'.toSlot ∧ s'.tokens = tokensAfter i s.tokens op r ∧
    s'.holders = holdersAfter i s.holders op r ∧ s'.leases = leasesAfter i s.leases op r

/-- Time passes, or the key is lost. -/
def Moves (s s' : Store) : Prop :=
  (∃ now, s.now ≤ now ∧ s' = { s with now := now }) ∨ s' = { s with key := none }

abbrev World := Pool Call Calls Raised Outcome Store

abbrev Runs (config : Config) : World → World → Prop := Pool.Turns Replies Moves (body config)

/-- The token is the caller's: it drew it, or it renews it. -/
def Mine (s : Store) (i : Nat) (call : Call) (token : Token) : Prop :=
  match call with
  | .renewal _ own => own = token
  | _ => (i, token) ∈ s.tokens

structure Sound (s : Store) : Prop where
  drawn : ∀ e ∈ s.tokens, e.2 ∈ s.drawn
  tokens : (s.tokens.map Prod.snd).Nodup
  once : (s.tokens.map Prod.fst).Nodup
  leases : ∀ e ∈ s.leases, e ∈ s.tokens
  locked : ∀ e ∈ s.holders, e.2 ∈ s.locked
  holders : (s.holders.map Prod.snd).Nodup

/-- What is recorded of a task is its own. -/
structure Frame (i : Nat) (s s' : Store) : Prop where
  tokens : ∀ token, (i, token) ∈ s'.tokens ↔ (i, token) ∈ s.tokens
  holders : ∀ worker, (i, worker) ∈ s.holders → (i, worker) ∈ s'.holders

/-- What a caller's step leaves of a key that another token holds. -/
def Spares (i : Nat) (call : Call) (s s' : Store) : Prop :=
  ∀ token, s.owner = some token → ¬ Mine s i call token → s'.key = s.key

abbrev Rely := Pool.Rely Sound Frame

abbrev Guar (i : Nat) (call : Call) := Pool.Guar Sound Frame (Spares i call) i

/-! ## Calls -/

/-- What a caller has where it makes a call. -/
def Fits (s : Store) (i : Nat) (call : Call) : Op → Prop
  | .unlockLocal worker => (i, worker) ∈ s.holders
  | .uuid4 => ∀ token, (i, token) ∉ s.tokens
  | .setNx token _ => (i, token) ∈ s.tokens
  | .releaseScript token | .renewScript token _ => Mine s i call token
  | _ => True

variable {s s' : Store} {i : Nat} {call : Call} {worker : Worker} {token : Token}

theorem Frame.refl (i : Nat) (s : Store) : Frame i s s := ⟨fun _ => .rfl, fun _ => id⟩

theorem Frame.trans {a b c : Store} (first : Frame i a b) (next : Frame i b c) : Frame i a c :=
  ⟨fun token => (next.tokens token).trans (first.tokens token),
    fun worker mem => next.holders worker (first.holders worker mem)⟩

/-- Nothing is recorded, the locks and the tokens are as they were, and so is the key where it
is another's. -/
theorem guar_of_same (sound : Sound s) (locked : s'.locked = s.locked) (drawn : s'.drawn = s.drawn)
    (tokens : s'.tokens = s.tokens) (holders : s'.holders = s.holders)
    (leases : ∀ e ∈ s'.leases, e ∈ s.tokens) (spares : Spares i call s s') :
    Guar i call s s' := by
  refine ⟨⟨?_, ?_, ?_, ?_, ?_, ?_⟩, spares, fun j _ => ⟨fun token => ?_, fun worker mem => ?_⟩⟩
  · rw [tokens, drawn]
    exact sound.drawn
  · rw [tokens]
    exact sound.tokens
  · rw [tokens]
    exact sound.once
  · rw [tokens]
    exact leases
  · rw [holders, locked]
    exact sound.locked
  · rw [holders]
    exact sound.holders
  · rw [tokens]
  · rwa [holders]

theorem guar_lockLocal (sound : Sound s) (free : worker ∉ s.locked) (slot : s'.toSlot =
      { s.toSlot with locked := worker :: s.locked }) (tokens : s'.tokens = s.tokens)
    (holders : s'.holders = (i, worker) :: s.holders) (leases : s'.leases = s.leases) :
    Guar i call s s' := by
  have locked : s'.locked = worker :: s.locked := by rw [slot]
  refine ⟨⟨?_, ?_, ?_, ?_, ?_, ?_⟩, ?_, fun j _ => ⟨fun token => ?_, fun worker mem => ?_⟩⟩
  · rw [tokens, show s'.drawn = s.drawn by rw [slot]]
    exact sound.drawn
  · rw [tokens]
    exact sound.tokens
  · rw [tokens]
    exact sound.once
  · rw [leases, tokens]
    exact sound.leases
  · rw [holders, locked]
    intro e mem
    rcases List.mem_cons.mp mem with rfl | mem
    · exact List.mem_cons_self
    · exact List.mem_cons_of_mem _ (sound.locked e mem)
  · rw [holders, List.map_cons, List.nodup_cons]
    refine ⟨fun mem => ?_, sound.holders⟩
    obtain ⟨e, memE, rfl⟩ := List.mem_map.mp mem
    exact free (sound.locked e memE)
  · exact fun _ _ _ => by rw [slot]
  · rw [tokens]
  · rw [holders]
    exact List.mem_cons_of_mem _ mem

/-- The lock that is given back is the caller's own, and nobody else has it. -/
theorem guar_unlockLocal (sound : Sound s) (has : (i, worker) ∈ s.holders) (slot : s'.toSlot =
      { s.toSlot with locked := s.locked.erase worker }) (tokens : s'.tokens = s.tokens)
    (holders : s'.holders = s.holders.erase (i, worker)) (leases : s'.leases = s.leases) :
    Guar i call s s' := by
  have locked : s'.locked = s.locked.erase worker := by rw [slot]
  have nodup : s.holders.Nodup := List.Nodup.of_map _ sound.holders
  have others (e : Nat × Worker) (mem : e ∈ s.holders) (other : e ≠ (i, worker)) :
      e.2 ≠ worker := by
    intro same
    exact other (List.inj_on_of_nodup_map sound.holders mem has same)
  refine ⟨⟨?_, ?_, ?_, ?_, ?_, ?_⟩, ?_, fun j other => ⟨fun token => ?_, fun w mem => ?_⟩⟩
  · rw [tokens, show s'.drawn = s.drawn by rw [slot]]
    exact sound.drawn
  · rw [tokens]
    exact sound.tokens
  · rw [tokens]
    exact sound.once
  · rw [leases, tokens]
    exact sound.leases
  · rw [holders, locked]
    intro e mem
    obtain ⟨other, mem⟩ := nodup.mem_erase_iff.mp mem
    exact (List.mem_erase_of_ne (others e mem other)).mpr (sound.locked e mem)
  · rw [holders]
    exact sound.holders.sublist (List.erase_sublist.map _)
  · exact fun _ _ _ => by rw [slot]
  · rw [tokens]
  · rw [holders]
    refine (List.mem_erase_of_ne ?_).mpr mem
    intro same
    exact other (congrArg Prod.fst same)

theorem guar_uuid4 (sound : Sound s) (first : ∀ token, (i, token) ∉ s.tokens)
    (fresh : token ∉ s.drawn) (slot : s'.toSlot =
      { s.toSlot with drawn := token :: s.drawn }) (tokens : s'.tokens = (i, token) :: s.tokens)
    (holders : s'.holders = s.holders) (leases : s'.leases = s.leases) : Guar i call s s' := by
  refine ⟨⟨?_, ?_, ?_, ?_, ?_, ?_⟩, ?_, fun j other => ⟨fun token => ?_, fun worker mem => ?_⟩⟩
  · rw [tokens, show s'.drawn = token :: s.drawn by rw [slot]]
    intro e mem
    rcases List.mem_cons.mp mem with rfl | mem
    · exact List.mem_cons_self
    · exact List.mem_cons_of_mem _ (sound.drawn e mem)
  · rw [tokens, List.map_cons, List.nodup_cons]
    refine ⟨fun mem => ?_, sound.tokens⟩
    obtain ⟨e, memE, rfl⟩ := List.mem_map.mp mem
    exact fresh (sound.drawn e memE)
  · rw [tokens, List.map_cons, List.nodup_cons]
    refine ⟨fun mem => ?_, sound.once⟩
    obtain ⟨e, memE, its⟩ := List.mem_map.mp mem
    have own : e.1 = i := its
    exact first e.2 (own ▸ memE)
  · rw [leases, tokens]
    exact fun e mem => List.mem_cons_of_mem _ (sound.leases e mem)
  · rw [holders, show s'.locked = s.locked by rw [slot]]
    exact sound.locked
  · rw [holders]
    exact sound.holders
  · exact fun _ _ _ => by rw [slot]
  · rw [tokens, List.mem_cons]
    refine or_iff_right fun same => ?_
    exact other (congrArg Prod.fst same)
  · rwa [holders]

/-- What a call that fits does. -/
theorem replied (op : Op) {r : Except Raised op.Answer} (sound : Sound s) (fits : Fits s i call op)
    (reply : Replies i call op s r s') : Guar i call s s' := by
  obtain ⟨answer, tokens, holders, leases⟩ := reply
  -- the call leaves the slot but for its key and what it says of renewals
  have same (key : Spares i call s s') (locked : s'.locked = s.locked)
      (drawn : s'.drawn = s.drawn) (t : s'.tokens = s.tokens) (h : s'.holders = s.holders)
      (l : s'.leases = s.leases) : Guar i call s s' :=
    guar_of_same sound locked drawn t h (l ▸ sound.leases) key
  have unchanged (slot : s'.toSlot = s.toSlot) (t : s'.tokens = s.tokens)
      (h : s'.holders = s.holders) (l : s'.leases = s.leases) : Guar i call s s' :=
    same (fun _ _ _ => by rw [slot]) (by rw [slot])
      (by rw [slot]) t h l
  cases op with
  | lockLocal worker timeout =>
    rcases answer with ⟨free, slot, rfl⟩ | ⟨slot, rfl | rfl⟩
    · exact guar_lockLocal sound free slot tokens holders leases
    · exact unchanged slot tokens holders leases
    · exact unchanged slot tokens holders leases
  | unlockLocal worker => exact guar_unlockLocal sound fits answer.1 tokens holders leases
  | uuid4 =>
    obtain ⟨token, fresh, slot, rfl⟩ := answer
    exact guar_uuid4 sound fits fresh slot tokens holders leases
  | setNx token px =>
    rcases answer with ⟨-, ⟨free, ⟨slot, rfl⟩ | ⟨slot, rfl⟩⟩ | ⟨-, slot, rfl⟩⟩ | ⟨slot, rfl⟩
    · refine guar_of_same sound (by rw [slot, Slot.grant]) (by rw [slot, Slot.grant]) tokens
        holders ?_ fun other owns => ?_
      · rw [leases]
        intro e mem
        rcases List.mem_cons.mp mem with rfl | mem
        · exact fits
        · exact sound.leases e mem
      · rw [free] at owns
        cases owns
    · refine same (fun other owns => ?_) (by rw [slot]) (by rw [slot])
        tokens holders leases
      rw [free] at owns
      cases owns
    · exact unchanged slot tokens holders leases
    · exact unchanged slot tokens holders leases
  | releaseScript token =>
    have kept : ∀ e ∈ s'.leases, e ∈ s.tokens := by
      rw [leases]
      exact fun e mem => sound.leases e (List.mem_of_mem_erase mem)
    rcases answer with ⟨slot, -⟩ | ⟨slot, -⟩
    · refine guar_of_same sound (by rw [slot, Slot.free]) (by rw [slot, Slot.free]) tokens
        holders kept fun other owns notMine => ?_
      have differs : s.owner ≠ some token := by
        intro own
        rw [own] at owns
        exact notMine (Option.some.inj owns ▸ fits)
      have key : s'.key = (s.free token).key := by rw [slot]
      rw [key, Slot.free, if_neg differs]
    · exact guar_of_same sound (by rw [slot]) (by rw [slot]) tokens
        holders kept fun _ _ _ => by rw [slot]
  | renewScript token px =>
    rcases answer with ⟨own, slot, -⟩ | ⟨slot, -⟩
    · refine same (fun other owns notMine => ?_) (by rw [slot])
        (by rw [slot]) tokens holders leases
      rw [own] at owns
      exact absurd (Option.some.inj owns ▸ fits) notMine
    · exact unchanged slot tokens holders leases
  | createRenewal | cancelRenewal =>
    exact same (fun _ _ _ => by rw [answer.1]) (by rw [answer.1])
      (by rw [answer.1]) tokens holders leases
  | monotonic | sleep | admitTenant | run | releaseAdmission =>
    exact unchanged answer.1 tokens holders leases

/-! ## Tasks -/

abbrev SafeAs {α : Type} (i : Nat) (call : Call) (action : Action α) (v : Vars)
    (Q : Except Raised α → Vars → Store → Prop) (s : Store) : Prop :=
  action.Safe (Replies i call) (Rely i) (Guar i call) v Q s

/-- The local lock and the token of a lease. -/
structure Has (i : Nat) (lease : Lease) (s : Store) : Prop where
  lock : (i, lease.worker) ∈ s.holders
  token : (i, lease.token) ∈ s.tokens

variable {v : Vars} {lease : Lease} {config : Config}

theorem Has.moved (has : Has i lease s) (moved : Rely i s s') : Has i lease s' :=
  ⟨moved.2.holders _ has.lock, (moved.2.tokens _).mpr has.token⟩

/-- The calls that record nothing of tokens and locks. -/
def plain : Op → Bool
  | .lockLocal .. | .unlockLocal _ | .uuid4 => false
  | _ => true

theorem replied_plain {op : Op} {r : Except Raised op.Answer} (aside : plain op = true)
    (reply : Replies i call op s r s') : s'.tokens = s.tokens ∧ s'.holders = s.holders := by
  obtain ⟨-, tokens, holders, -⟩ := reply
  cases op with
  | lockLocal | unlockLocal | uuid4 => cases aside
  | _ => exact ⟨tokens, holders⟩

/-- A call that records nothing: what the caller has, it keeps. -/
theorem safe_plain {α : Type} {op : Op} {k : op.Answer → Action α}
    {Q : Except Raised α → Vars → Store → Prop} (aside : plain op = true)
    (keeps : Store → Prop) (mine : keeps s) (moved : ∀ s s', keeps s → Rely i s s' → keeps s')
    (own : ∀ s s', keeps s → s'.tokens = s.tokens → s'.holders = s.holders → keeps s')
    (fits : ∀ s, keeps s → Fits s i call op)
    (next : ∀ a s', keeps s' → SafeAs i call (k a) v Q s')
    (raised : ∀ e s', keeps s' → Q (.error e) v s') :
    SafeAs i call (Coro.call (I := Calls) op >>= k) v Q s := by
  refine Coro.safe_call_bind (I := Calls) op ?_
  intro s₁ before r s₂ reply
  have here := moved s s₁ mine before
  obtain ⟨tokens, holders⟩ := replied_plain aside reply
  have after := own s₁ s₂ here tokens holders
  exact ⟨replied op before.1 (fits s₁ here) reply, fun a _ => next a s₂ after,
    fun e _ => raised e s₂ after⟩

theorem Has.own (has : Has i lease s) (tokens : s'.tokens = s.tokens)
    (holders : s'.holders = s.holders) : Has i lease s' :=
  ⟨holders ▸ has.lock, tokens ▸ has.token⟩

/-- Not a renewal. -/
def Call.draws : Call → Bool
  | .renewal .. => false
  | _ => true

theorem mine_of_drawn (draws : call.draws = true) (drawn : (i, token) ∈ s.tokens) :
    Mine s i call token := by
  cases call with
  | renewal => cases draws
  | hold | turn => exact drawn

theorem acquireRedisLock_safe (lease : Lease) (deadline rounds : Nat) (has : Has i lease s) :
    SafeAs i call (acquireRedisLock config lease.token deadline rounds) v
      (fun _ v' s' => v' = v ∧ Has i lease s') s := by
  induction rounds generalizing s with
  | zero => exact ⟨rfl, has⟩
  | succ rounds ih =>
    refine safe_plain rfl (Has i lease) has (fun _ _ => Has.moved) (fun _ _ => Has.own)
      (fun _ _ => trivial) (fun (now : Nat) s₁ has₁ => ?_) fun _ _ has' => ⟨rfl, has'⟩
    refine iteInduction (motive := fun action => SafeAs i call action v _ s₁) (fun _ => ?_)
      fun _ => ⟨rfl, has₁⟩
    refine safe_plain rfl (Has i lease) has₁ (fun _ _ => Has.moved) (fun _ _ => Has.own)
      (fun _ has' => has'.token) (fun (acquired : Bool) s₂ has₂ => ?_) fun _ _ has' => ⟨rfl, has'⟩
    refine iteInduction (motive := fun action => SafeAs i call action v _ s₂)
      (fun _ => ⟨rfl, has₂⟩) fun _ => ?_
    exact safe_plain rfl (Has i lease) has₂ (fun _ _ => Has.moved) (fun _ _ => Has.own)
      (fun _ _ => trivial) (fun _ s₃ has₃ => ih has₃) fun _ _ has' => ⟨rfl, has'⟩

/-- A task without a token. -/
def Bare (i : Nat) (s : Store) : Prop := ∀ token, (i, token) ∉ s.tokens

theorem Bare.moved (bare : Bare i s) (moved : Rely i s s') : Bare i s' :=
  fun token mem => bare token ((moved.2.tokens token).mp mem)

theorem Bare.own (bare : Bare i s) (tokens : s'.tokens = s.tokens) : Bare i s' := by
  intro token mem
  rw [tokens] at mem
  exact bare token mem

/-- A lease is of the lock and of the token of the task that acquired it. -/
theorem acquire_safe (rounds : Nat) (worker : Worker) (bare : Bare i s) :
    SafeAs i call (acquire config rounds worker) v
      (fun o v' s' => v' = v ∧ ∀ lease, o = .ok (some lease) → Has i lease s') s := by
  have ends {o : Except Raised (Option Lease)} {s' : Store} (other : ∀ lease, o ≠ .ok (some lease)) :
      v = v ∧ ∀ lease, o = .ok (some lease) → Has i lease s' :=
    ⟨rfl, fun lease is => absurd is (other lease)⟩
  refine safe_plain rfl (Bare i) bare (fun _ _ => Bare.moved)
    (fun _ _ bare tokens _ => bare.own tokens) (fun _ _ => trivial) (fun start s₁ bare₁ => ?_)
    fun e _ _ => ends fun _ is => by cases is
  refine Coro.safe_call_bind (I := Calls) (.lockLocal worker config.wait) ?_
  intro s₂ before r s₃ reply
  refine ⟨replied (.lockLocal worker config.wait) before.1 trivial reply, fun (locked : Bool) is => ?_,
    fun e _ => ends fun _ is => by cases is⟩
  subst is
  refine iteInduction (motive := fun action => SafeAs i call action v _ s₃) (fun yes => ?_)
    fun _ => ends fun _ is => by cases is
  have lock : (i, worker) ∈ s₃.holders := by
    rw [reply.2.2.1, show locked = true from yes]
    exact List.mem_cons_self
  refine Coro.safe_call_bind (I := Calls) .uuid4 ?_
  intro s₄ before' r s₅ reply'
  have bare₄ := ((bare₁.moved before).own reply.2.1).moved before'
  refine ⟨replied .uuid4 before'.1 bare₄ reply', fun (token : Nat) is => ?_,
    fun e _ => ends fun _ is => by cases is⟩
  subst is
  have has : Has i ⟨worker, token⟩ s₅ := by
    constructor
    · rw [reply'.2.2.1]
      exact before'.2.holders _ lock
    · rw [reply'.2.1]
      exact List.mem_cons_self
  refine Coro.Safe.bind (acquireRedisLock_safe ⟨worker, token⟩ _ rounds has) ?_ ?_
  · rintro granted _ s₆ ⟨rfl, has₆⟩
    refine iteInduction (motive := fun action => SafeAs i call action _ _ s₆) (fun _ => ?_)
      fun _ => ?_
    · refine ⟨rfl, fun lease is => ?_⟩
      obtain rfl := Option.some.inj (Except.ok.inj is)
      exact has₆
    · intro s₇ before'' r s₈ reply''
      refine ⟨replied (.unlockLocal worker) before''.1 (has₆.moved before'').lock reply'', ends fun _ is => ?_⟩
      cases is
  · rintro e _ s₆ ⟨rfl, -⟩
    exact ends fun _ is => by cases is

theorem release_safe (draws : call.draws = true)
    (has : v.released = false → Has i lease s) :
    SafeAs i call (release lease) v (fun _ v' _ => v'.released = true) s := by
  unfold release
  refine Coro.safe_get_bind.mpr ?_
  by_cases done : v.released = true
  · rw [if_pos done]
    exact done
  · rw [if_neg done]
    have has := has (by simpa using done)
    refine (Coro.safe_modify_bind _).mpr (Coro.safe_get_bind.mpr ?_)
    refine Coro.Safe.bind (P := fun _ v' s' => v'.released = true ∧ Has i lease s') ?_ ?_ ?_
    · cases v.renewal with
      | false => exact ⟨rfl, has⟩
      | true =>
        refine Coro.safe_call (I := Calls) (.cancelRenewal lease.token) ?_
        intro s₁ before r s₂ reply
        obtain ⟨tokens, holders⟩ := replied_plain rfl reply
        exact ⟨replied (.cancelRenewal lease.token) before.1 trivial reply, rfl, (has.moved before).own tokens holders⟩
    · rintro - v₁ s₁ ⟨released, has₁⟩
      refine Coro.Safe.bind (P := fun _ v' s' => v'.released = true ∧ Has i lease s') ?_ ?_ ?_
      · refine Coro.Safe.tryCatch (P := fun _ v' s' => v'.released = true ∧ Has i lease s') ?_
          (fun _ _ _ => id) fun e v' s' h => ?_
        · refine Coro.safe_call (I := Calls) (.releaseScript lease.token) ?_
          intro s₂ before r s₃ reply
          have has₂ := has₁.moved before
          obtain ⟨tokens, holders⟩ := replied_plain rfl reply
          exact ⟨replied (.releaseScript lease.token) before.1
            (mine_of_drawn draws has₂.token) reply, released,
            has₂.own tokens holders⟩
        · split
          · exact h
          · exact h
      · rintro - v₂ s₂ ⟨released, has₂⟩ s₃ before r s₄ reply
        exact ⟨replied (.unlockLocal lease.worker) before.1 (has₂.moved before).lock reply, released⟩
      · exact fun _ _ _ h => h.1
    · exact fun _ _ _ h => h.1

theorem useLease_safe (draws : call.draws = true) (uses : List Use)
    (has : v.released = false → Has i lease s) :
    SafeAs i call (useLease lease uses) v (fun _ _ _ => True) s := by
  have moved {v : Vars} (s s' : Store) (has : v.released = false → Has i lease s)
      (before : Rely i s s') : v.released = false → Has i lease s' :=
    fun open_ => (has open_).moved before
  have own {v : Vars} (s s' : Store) (has : v.released = false → Has i lease s)
      (tokens : s'.tokens = s.tokens) (holders : s'.holders = s.holders) :
      v.released = false → Has i lease s' :=
    fun open_ => (has open_).own tokens holders
  induction uses generalizing v s with
  | nil => trivial
  | cons use uses ih =>
    cases use with
    | enter =>
      refine Coro.Safe.bind (P := fun _ v' s' => v'.released = false → Has i lease s') ?_
        (fun _ _ _ h => ih h) fun _ _ _ _ => trivial
      refine (Coro.safe_modify_bind _).mpr ?_
      intro s₁ before r s₂ reply
      obtain ⟨tokens, holders⟩ := replied_plain rfl reply
      exact ⟨replied (.createRenewal lease.token) before.1 trivial reply,
        own s₁ s₂ (moved s s₁ has before) tokens holders⟩
    | work =>
      refine Coro.Safe.bind (P := fun _ v' s' => v'.released = false → Has i lease s') ?_
        (fun _ _ _ h => ih h) fun _ _ _ _ => trivial
      refine Coro.Safe.tryCatch (P := fun _ v' s' => v'.released = false → Has i lease s') ?_
        (fun _ _ _ h => h) fun _ _ _ h => h
      refine Coro.safe_call (I := Calls) .run ?_
      intro s₁ before r s₂ reply
      obtain ⟨tokens, holders⟩ := replied_plain rfl reply
      exact ⟨replied .run before.1 trivial reply,
        own s₁ s₂ (moved s s₁ has before) tokens holders⟩
    | release =>
      refine Coro.Safe.bind (release_safe draws has) ?_ fun _ _ _ _ => trivial
      rintro - v₁ s₁ released
      apply ih
      intro open_
      rw [released] at open_
      cases open_

theorem hold_safe (bare : Bare i s) (draws : call.draws = true) (rounds : Nat) (worker : Worker) (uses : List Use) :
    SafeAs i call (hold config rounds worker uses) {} (fun _ _ _ => True) s := by
  refine Coro.Safe.bind (acquire_safe rounds worker bare) ?_ fun _ _ _ _ => trivial
  rintro acquired _ s₁ ⟨rfl, has⟩
  cases acquired with
  | none => trivial
  | some lease =>
    exact Coro.Safe.bind (useLease_safe draws uses fun _ => has lease rfl) (fun _ _ _ _ => trivial)
      fun _ _ _ _ => trivial

theorem turn_safe (bare : Bare i s) (draws : call.draws = true) (rounds : Nat) (worker : Worker) :
    SafeAs i call (turn config rounds worker) {} (fun _ _ _ => True) s := by
  refine Coro.Safe.bind (acquire_safe rounds worker bare) ?_ fun _ _ _ _ => trivial
  rintro acquired _ s₁ ⟨rfl, has⟩
  cases acquired with
  | none => trivial
  | some lease =>
    have finish {s : Store} {v : Vars} (has : Has i lease s) :
        SafeAs i call (release lease) v (fun _ _ _ => True) s :=
      Coro.Safe.mono (release_safe draws fun _ => has) fun _ _ _ _ => trivial
    refine safe_plain rfl (Has i lease) (has lease rfl) (fun _ _ => Has.moved) (fun _ _ => Has.own)
      (fun _ _ => trivial) (fun (admitted : Bool) s₂ has₂ => ?_) fun _ _ _ => trivial
    refine iteInduction (motive := fun action => SafeAs i call action {} _ s₂) (fun _ => ?_)
      fun _ => Coro.Safe.bind (finish has₂) (fun _ _ _ _ => trivial) fun _ _ _ _ => trivial
    refine Coro.Safe.ensure (P := fun _ _ s' => Has i lease s') ?_ fun o v' s' has' => ?_
    · exact safe_plain rfl (Has i lease) has₂ (fun _ _ => Has.moved) (fun _ _ => Has.own)
        (fun _ _ => trivial) (fun _ _ h => h) fun _ _ h => h
    · exact safe_plain rfl (Has i lease) has' (fun _ _ => Has.moved) (fun _ _ => Has.own)
        (fun _ _ => trivial) (fun _ _ h => finish h) fun _ _ _ => trivial

/-- A renewal names no token but its own. -/
theorem renewLoop_safe (limit rounds : Nat) :
    SafeAs i (.renewal limit token) (renewLoop config token rounds) v (fun _ _ _ => True) s := by
  induction rounds generalizing s v with
  | zero => trivial
  | succ rounds ih =>
    refine safe_plain rfl (fun _ => True) trivial (fun _ _ _ _ => trivial)
      (fun _ _ _ _ _ => trivial) (fun _ _ => trivial) (fun _ s₁ _ => ?_) fun _ _ _ => trivial
    refine Coro.Safe.bind (P := fun _ _ _ => True) ?_ ?_ fun _ _ _ _ => trivial
    · refine Coro.Safe.tryCatch (P := fun _ _ _ => True) ?_ (fun _ _ _ _ => trivial) ?_
      · refine Coro.safe_call (I := Calls) (.renewScript token config.lease) ?_
        intro s₂ before r s₃ reply
        exact ⟨replied (.renewScript token config.lease) before.1 rfl reply, trivial⟩
      · intro e v' s' _
        split <;> trivial
    · rintro renewed v' s' -
      refine iteInduction (motive := fun action => SafeAs i _ action v' _ s') (fun _ => ih)
        fun _ => trivial

/-! ## Runs -/

theorem moves_sound (moves : Moves s s') (sound : Sound s) : Sound s' ∧ ∀ i, Frame i s s' := by
  rcases moves with ⟨now, -, rfl⟩ | rfl
  · exact ⟨⟨sound.drawn, sound.tokens, sound.once, sound.leases, sound.locked, sound.holders⟩,
      fun i => ⟨fun _ => .rfl, fun _ => id⟩⟩
  · exact ⟨⟨sound.drawn, sound.tokens, sound.once, sound.leases, sound.locked, sound.holders⟩,
      fun i => ⟨fun _ => .rfl, fun _ => id⟩⟩

theorem framed (config : Config) : Pool.Framed Replies Moves (body config) Sound Frame Spares
    Bare (fun _ _ _ _ => True) where
  refl := Frame.refl
  trans _ _ _ _ := Frame.trans
  env _ _ := moves_sound
  fresh _ _ _ moved bare := bare.moved moved
  ended _ _ _ _ _ _ _ := trivial
  start i call s _ bare := by
    cases call with
    | hold rounds worker uses => exact hold_safe bare rfl rounds worker uses
    | turn rounds worker => exact turn_safe bare rfl rounds worker
    | renewal rounds token =>
      have ends : SafeAs i (.renewal rounds token) (do
          renewLoop config token rounds
          pure Reply.done) {} (fun _ _ _ => True) s :=
        Coro.Safe.bind (renewLoop_safe rounds rounds) (fun _ _ _ _ => trivial)
          fun _ _ _ _ => trivial
      exact ends

def World.empty : World := ⟨{}, []⟩

/-- In every state of every run: no step of a task changes the key while it holds a token that
is not the task's; a task has one token, and no two tasks have the same; of the leases that are
not released at most one is of the token that the key holds; and a local lock has at most one
holder. -/
theorem owner_kept (config : Config) (w : World) (run : Runs config World.empty w) :
    (∀ i call trace op k r s, w.tasks[i]? = some ⟨call, trace, .await op k⟩ →
      Replies i call op w.store r s → ∀ token, w.store.owner = some token →
        ¬ Mine w.store i call token → s.key = w.store.key) ∧
    (∀ a ∈ w.store.tokens, ∀ b ∈ w.store.tokens, a.1 = b.1 ∨ a.2 = b.2 → a = b) ∧
    (∀ a ∈ w.store.leases, ∀ b ∈ w.store.leases, w.store.owner = some a.2 →
      w.store.owner = some b.2 → a = b) ∧
    ∀ a ∈ w.store.holders, ∀ b ∈ w.store.holders, a.2 = b.2 → a = b := by
  have fresh : Sound World.empty.store := by
    refine ⟨?_, List.nodup_nil, List.nodup_nil, ?_, ?_, List.nodup_nil⟩ <;>
      · intro e mem
        cases mem
  obtain ⟨sound, stands⟩ := Pool.turns_framed (framed config) run fresh fun _ _ mem => by
    cases mem
  have tokens : ∀ a ∈ w.store.tokens, ∀ b ∈ w.store.tokens, a.1 = b.1 ∨ a.2 = b.2 → a = b := by
    rintro a memA b memB (same | same)
    · exact List.inj_on_of_nodup_map sound.once memA memB same
    · exact List.inj_on_of_nodup_map sound.tokens memA memB same
  refine ⟨fun i call trace op k r s here reply => ?_, tokens, fun a memA b memB ownsA ownsB => ?_,
    fun a memA b memB => List.inj_on_of_nodup_map sound.holders memA memB⟩
  · have at_ := stands i
    rw [here] at at_
    exact (framed config).own_step sound at_ reply
  · exact tokens a (sound.leases a memA) b (sound.leases b memB)
      (.inr (Option.some.inj (ownsA.symm.trans ownsB)))

/-- Every call is answered at once. -/
def answering (i : Nat) (_ : Call) (op : Op) (s : Store) : Except Raised op.Answer × Store :=
  let (r, slot) := granted true op s.toSlot
  (r, { toSlot := slot
        tokens := tokensAfter i s.tokens op r
        holders := holdersAfter i s.holders op r
        leases := leasesAfter i s.leases op r })

theorem answering_replies (i : Nat) (call : Call) (op : Op) (s : Store) :
    Replies i call op s (answering i call op s).1 (answering i call op s).2 := by
  refine ⟨?_, rfl, rfl, rfl⟩
  have answer := granted_answer true op s.toSlot
  simp only [eq_self] at answer
  exact answer

/-- A lease of worker 0 is granted, and its key is lost. -/
def lost : World :=
  let granted := [0, 0, 0, 0, 0].foldl (Pool.serve answering)
    ⟨{}, [⟨.hold 1 0 [.release], [], body {} (.hold 1 0 [.release])⟩]⟩
  { granted with store := { granted.store with key := none } }

/-- Then one of worker 1, while the first is not released. -/
def retaken : World :=
  [1, 1, 1, 1, 1].foldl (Pool.serve answering)
    { lost with tasks := lost.tasks ++ [⟨.hold 1 1 [.release], [], body {} (.hold 1 1 [.release])⟩] }

theorem retaken_runs : Runs {} World.empty retaken := by
  have first : Runs {} World.empty lost :=
    (Relation.ReflTransGen.single (.start World.empty (.hold 1 0 [.release]))).trans
      ((Pool.turns_serve answering_replies _ [0, 0, 0, 0, 0]).tail (.env _ _ (.inr rfl)))
  exact (first.tail (.start lost (.hold 1 1 [.release]))).trans
    (Pool.turns_serve answering_replies _ [1, 1, 1, 1, 1])

/-- The late release of the first leaves the key to the second. -/
theorem owner_kept_stale : retaken.store.leases = [(1, 2), (0, 1)] ∧
    retaken.store.owner = some 2 ∧
    (answering 0 (.hold 1 0 [.release]) (.releaseScript 1) retaken.store).2.key =
      retaken.store.key := by
  refine ⟨by decide, by decide, ?_⟩
  exact (owner_kept {} retaken retaken_runs).1 0 (.hold 1 0 [.release]) _ (.releaseScript 1) _ _ _
    rfl (answering_replies 0 _ _ _) 2 (by decide) (by
      unfold Mine
      decide)

end AgentStudio.Session.Coordinator.Ownership
