import AgentStudio.Webhooks.Outbox

/-!
# What the queue accepted before a row was acknowledged

Requests and relays run together, on one outbox and one queue, and each call may
fail, or take effect with its reply lost. Where no call of a publication fails,
and a claimed key is found only where its job has been accepted, a row stops
being pending with a job accepted for every subscription that was due.
-/

namespace AgentStudio.Webhooks

open Async Threads

structure Bus where
  subscriptions : List Subscription := []
  outbox : List OutboxRow := []
  events : List WebhookEvent := []
  claimed : List Key := []
  /-- Every job that the queue has accepted. -/
  accepted : List Job := []

def OutboxRow.acknowledge (row : OutboxRow) (status : Status) (due : List Subscription) :
    OutboxRow :=
  { row with
    status := status, attempts := row.attempts + 1
    due := if row.status = .pending then due else row.due }

namespace Bus

variable (s : Bus)

def subscriptionsOf (tenantId : Uuid) : List Subscription :=
  s.subscriptions.filter fun sub => sub.tenantId = tenantId

def pending (limit : Nat) : List OutboxRow :=
  (s.outbox.filter fun row => row.status = .pending).take limit

/-- The subscriptions that an acknowledgement is due to: what its publication found, or what
matches now where it could not read them. -/
def due (row : OutboxRow) (found : Found) : List Subscription :=
  found.getD (matching row.eventType (s.subscriptionsOf row.tenantId))

def update (eventId : Uuid) (f : OutboxRow → OutboxRow) : Bus :=
  { s with outbox := s.outbox.map fun row => if row.eventId = eventId then f row else row }

def markPublished (eventId : Uuid) (found : Found) : Bus :=
  s.update eventId fun row => row.acknowledge .published (s.due row found)

def markFailed (eventId : Uuid) (error : String) (found : Found) : Bus :=
  s.update eventId fun row =>
    { row.acknowledge .failed (s.due row found) with
      lastError := some (String.ofList (error.toList.take 512)) }

def Accepted (work : Work) : Prop := ∃ job ∈ s.accepted, job.work = work

/-- No row stopped being pending before its deliveries had been accepted. -/
def Delivered : Prop :=
  ∀ row ∈ s.outbox, row.status ≠ .pending →
    ∀ sub ∈ row.due, s.Accepted (.deliver row.eventId sub.id sub.tenantId)

end Bus

/-- A call that raised; `fails` says whether it may raise what `except Exception` catches. -/
def Raises {α : Type} (fails : Prop) (r : Except Raised α) : Prop :=
  ∃ e, r = .error e ∧ (e.isException = true → fails)

/-- A step that took effect, with its reply lost perhaps, or one that raised before it did. -/
def Effect {α : Type} (fails : Prop) (s s₁ : Bus) (a : α) (r : Except Raised α) (s' : Bus) : Prop :=
  s' = s₁ ∧ (r = .ok a ∨ Raises fails r) ∨ s' = s ∧ Raises fails r

/-- Whether what is done for a job may fail, given whether deliveries may be lost. -/
def Work.mayFail (lossy : Prop) : Work → Prop
  | .deliver .. => lossy
  | .relay _ => True

/-- How the calls are answered. Only where `lossy` may a call of a publication raise, or a
key be found claimed that has no job. -/
def Answer (lossy : Prop) : Answers Calls Raised Bus
  | .findOutbox eventId, s, r, s' =>
    Effect True s s (s.outbox.any fun row => row.eventId = eventId) r s'
  | .insertOutbox row, s, r, s' => Effect True s { s with outbox := s.outbox ++ [row] } () r s'
  | .listPending limit, s, r, s' => Effect True s s (s.pending limit) r s'
  | .listSubscriptions tenantId, s, r, s' => Effect lossy s s (s.subscriptionsOf tenantId) r s'
  | .findEvent eventId, s, r, s' =>
    Effect lossy s s (s.events.any fun event => event.id = eventId) r s'
  | .insertEvent event, s, r, s' =>
    (∀ old ∈ s.events, old.id ≠ event.id) ∧
        Effect lossy s { s with events := s.events ++ [event] } () r s' ∨
      s' = s ∧ Raises lossy r
  | .claim key work, s, r, s' =>
    key ∉ s.claimed ∧
        Effect (work.mayFail lossy) s { s with claimed := key :: s.claimed } true r s' ∨
      key ∈ s.claimed ∧ (work.mayFail lossy ∨ s.Accepted work) ∧
        Effect (work.mayFail lossy) s s false r s' ∨
      s' = s ∧ Raises (work.mayFail lossy) r
  | .push job, s, r, s' =>
    s' = { s with accepted := s.accepted ++ [job] } ∧ (r = .ok () ∨ Raises True r) ∨
      s' = s ∧ Raises (job.work.mayFail lossy) r
  | .markPublished eventId found, s, r, s' =>
    Effect True s (s.markPublished eventId found) () r s'
  | .markFailed eventId error found, s, r, s' =>
    Effect True s (s.markFailed eventId error found) () r s'

/-- What else moves the bus: subscriptions change, keys expire, jobs are accepted, and rows
are added or purged. -/
structure Elsewhere (s s' : Bus) : Prop where
  accepted : s.accepted ⊆ s'.accepted
  outbox : ∀ row ∈ s'.outbox, row.status = .pending ∨ row ∈ s.outbox

/-- Requests, relays and the bus they share. -/
abbrev World := Shared Calls Raised (Except Raised Unit × Found) Bus

/-- A request that publishes, or a relay, starts at any time. -/
def Starts (_ : World) (body : Tree Calls Raised (Except Raised Unit × Found)) : Prop :=
  (∃ limit, body = handleOutboxRelay limit none) ∨
    ∃ eventType tenantId data sessionId eventId,
      body = publishWebhookEvent eventType tenantId data sessionId eventId none

/-! ## Steps of the bus -/

/-- What every step keeps. -/
structure Kept (s s' : Bus) : Prop where
  accepted : s.accepted ⊆ s'.accepted
  delivered : s.Delivered → s'.Delivered

namespace Kept

variable {s s' s'' : Bus}

theorem refl (s : Bus) : Kept s s := ⟨List.Subset.refl _, id⟩

theorem trans (h : Kept s s') (h' : Kept s' s'') : Kept s s'' :=
  ⟨List.Subset.trans h.accepted h'.accepted, fun d => h'.delivered (h.delivered d)⟩

theorem has {work : Work} (h : Kept s s') (accepted : s.Accepted work) : s'.Accepted work := by
  obtain ⟨job, mem, same⟩ := accepted
  exact ⟨job, h.accepted mem, same⟩

end Kept

theorem Elsewhere.kept {s s' : Bus} (h : Elsewhere s s') : Kept s s' := by
  refine ⟨h.accepted, fun delivered row mem settled sub due => ?_⟩
  rcases h.outbox row mem with pending | old
  · exact absurd pending settled
  · obtain ⟨job, here, same⟩ := delivered row old settled sub due
    exact ⟨job, h.accepted here, same⟩

/-- Rows that are acknowledged as `status` keep their event. -/
theorem update_kept {s : Bus} {eventId : Uuid} {f : OutboxRow → OutboxRow}
    (same : ∀ row, (f row).eventId = row.eventId)
    (due : ∀ row, row.eventId = eventId → ∀ sub ∈ (f row).due,
      s.Accepted (.deliver eventId sub.id sub.tenantId) ∨ row.status ≠ .pending ∧ sub ∈ row.due) :
    Kept s (s.update eventId f) := by
  refine ⟨List.Subset.refl _, fun delivered row mem settled sub here => ?_⟩
  obtain ⟨old, oldMem, rfl⟩ := List.mem_map.mp mem
  by_cases named : old.eventId = eventId
  · rw [if_pos named] at here ⊢
    rw [same]
    rcases due old named sub here with accepted | ⟨done, before⟩
    · rw [named]
      exact accepted
    · exact delivered old oldMem done sub before
  · rw [if_neg named] at settled here ⊢
    exact delivered old oldMem settled sub here

/-- An acknowledgement whose deliveries have all been accepted. -/
theorem acknowledge_due {s : Bus} {row : OutboxRow} (status : Status) {eventId : Uuid}
    {found : List Subscription}
    (accepted : ∀ sub ∈ found, s.Accepted (.deliver eventId sub.id sub.tenantId))
    (sub : Subscription) (here : sub ∈ (row.acknowledge status (s.due row (some found))).due) :
    s.Accepted (.deliver eventId sub.id sub.tenantId) ∨
      row.status ≠ .pending ∧ sub ∈ row.due := by
  simp only [OutboxRow.acknowledge, Bus.due, Option.getD_some] at here
  split at here
  · exact .inl (accepted sub here)
  next done => exact .inr ⟨done, here⟩

/-! ## What each part of a relay does -/

variable {α β : Type}

/-- What an action does where nothing is lost, while the others keep what they must. -/
abbrev Does (action : Action α) (v : Found) (Q : Except Raised α → Found → Bus → Prop)
    (s : Bus) : Prop :=
  action.Safe (Answer False) Kept Kept v Q s

/-- An action that keeps what it must, whatever it returns. -/
abbrev Keeps (action : Action α) : Prop := Coro.Keeps (Answer False) Kept action

/-- What holds of a result; what `except Exception` catches does not come. -/
def Sure (P : α → Prop) : Except Raised α → Prop
  | .ok a => P a
  | .error e => e.isException = false

theorem Sure.ok {P : α → Prop} {a : α} (h : P a) : Sure P (.ok a) := h

theorem Raises.sure {P : α → Prop} {r : Except Raised α} (h : Raises False r) : Sure P r := by
  obtain ⟨e, rfl, caught⟩ := h
  exact Bool.eq_false_iff.mpr caught

theorem Effect.kept {fails : Prop} {s s₁ s' : Bus} {a : α} {r : Except Raised α}
    (h : Effect fails s s₁ a r s') (kept : Kept s s₁) : Kept s s' := by
  rcases h with ⟨rfl, -⟩ | ⟨rfl, -⟩
  · exact kept
  · exact .refl s'

theorem Effect.sure {s s₁ s' : Bus} {a : α} {r : Except Raised α} {P : α → Prop}
    (h : Effect False s s₁ a r s') (p : P a) : Sure P r := by
  rcases h with ⟨-, rfl | raises⟩ | ⟨-, raises⟩
  · exact p
  · exact raises.sure
  · exact raises.sure

theorem Effect.answered {fails : Prop} {s s₁ s' : Bus} {a b : α}
    (h : Effect fails s s₁ a (.ok b) s') : b = a := by
  rcases h with ⟨-, ok | ⟨e, raised, -⟩⟩ | ⟨-, e, raised, -⟩
  · exact Except.ok.inj ok
  · cases raised
  · cases raised

theorem swallow_keeps (e : Raised) : Keeps (swallow e) := by
  unfold swallow
  split
  · exact .pure ()
  · exact .throw e

/-! ## Publishing -/

theorem push_kept {lossy : Prop} {s s' : Bus} {job : Job} {r : Except Raised Unit}
    (h : Answer lossy (.push job) s r s') : Kept s s' := by
  rcases h with ⟨rfl, -⟩ | ⟨rfl, -⟩
  · refine ⟨List.subset_append_left _ _, fun delivered row mem settled sub due => ?_⟩
    obtain ⟨old, here, same⟩ := delivered row mem settled sub due
    exact ⟨old, List.mem_append_left _ here, same⟩
  · exact .refl s'

theorem push_accepted {s s' : Bus} {job : Job} {r : Except Raised Unit}
    (delivery : job.work.mayFail False → False) (h : Answer False (.push job) s r s')
    (caught : ∀ e, r = .error e → e.isException = true) : s'.Accepted job.work := by
  rcases h with ⟨rfl, -⟩ | ⟨-, e, rfl, fails⟩
  · exact ⟨job, List.mem_append_right _ (List.mem_singleton_self _), rfl⟩
  · exact absurd (fails (caught e rfl)) delivery

theorem claim_kept {lossy : Prop} {s s' : Bus} {key : Key} {work : Work} {r : Except Raised Bool}
    (h : Answer lossy (.claim key work) s r s') : Kept s s' := by
  rcases h with ⟨-, effect⟩ | ⟨-, -, effect⟩ | ⟨rfl, -⟩
  · exact effect.kept ⟨List.Subset.refl _, id⟩
  · exact effect.kept (.refl s)
  · exact .refl s'

/-- Either the caller has claimed the key, or its job has been accepted. -/
theorem claim_sure {s s' : Bus} {key : Key} {work : Work} {r : Except Raised Bool}
    (delivery : work.mayFail False → False) (h : Answer False (.claim key work) s r s') :
    Sure (fun claimed => claimed = false → s'.Accepted work) r := by
  have certain : work.mayFail False = False := eq_false delivery
  have kept := claim_kept h
  simp only [Answer, certain, false_or] at h
  rcases h with ⟨-, effect⟩ | ⟨-, accepted, effect⟩ | ⟨-, raises⟩
  · exact effect.sure fun lost => absurd lost (by decide)
  · exact effect.sure fun _ => kept.has accepted
  · exact raises.sure

/-- A delivery that was enqueued has been accepted. -/
theorem enqueue_does (eventId subscriptionId tenantId : Uuid) (key : Key) (v : Found) (s : Bus) :
    Does (enqueue (.deliver eventId subscriptionId tenantId) key) v
      (fun r v' s' => v' = v ∧
        Sure (fun _ => s'.Accepted (.deliver eventId subscriptionId tenantId)) r) s := by
  unfold enqueue
  apply Coro.safe_call_bind (I := Calls)
  intro s₁ _ r s₂ answer
  have claimed := claim_sure id answer
  refine ⟨claim_kept answer, ?_, ?_⟩
  · rintro won rfl
    cases won with
    | false => exact ⟨rfl, claimed rfl⟩
    | true =>
      -- the push may be accepted and its reply lost
      refine Coro.Safe.tryCatch (P := fun r v' s' => v' = v ∧
        ((∀ e, r = .error e → e.isException = true) →
          s'.Accepted (.deliver eventId subscriptionId tenantId))) ?_ ?_ ?_
      · apply Coro.safe_call_bind (I := Calls)
        intro s₃ _ pushed s₄ answer'
        refine ⟨push_kept answer', ?_, ?_⟩
        · rintro _ rfl
          exact ⟨rfl, fun _ => push_accepted id answer' fun e failed => by cases failed⟩
        · rintro e rfl
          refine ⟨rfl, fun caught => push_accepted id answer' ?_⟩
          rintro e' failed
          cases failed
          exact caught e rfl
      · rintro a v' s' ⟨rfl, accepted⟩
        exact ⟨rfl, accepted fun e failed => by cases failed⟩
      · rintro e v' s' ⟨rfl, accepted⟩
        split
        next caught =>
          refine ⟨rfl, accepted fun e' same => ?_⟩
          cases same
          exact caught
        next passes => exact ⟨rfl, Bool.eq_false_iff.mpr passes⟩
  · rintro e rfl
    exact ⟨rfl, claimed⟩

theorem enqueue_keeps (work : Work) (key : Key) : Keeps (enqueue work key) := by
  unfold enqueue
  refine .bind (.call fun s r s' => claim_kept) fun claimed => ?_
  split
  · refine .tryCatch (.bind (.call fun s r s' => push_kept) fun _ => .pure true) fun e => ?_
    split
    · exact .pure false
    · exact .throw e
  · exact .pure true

theorem recordEvent_does (event : WebhookEvent) (v : Found) (s : Bus) :
    Does (recordEvent event) v (fun r v' _ => v' = v ∧ Sure (fun _ => True) r) s := by
  unfold recordEvent
  apply Coro.safe_call_bind (I := Calls)
  intro s₁ _ r s₂ found
  refine ⟨found.kept (.refl s₁), ?_, ?_⟩
  · rintro existing rfl
    cases existing with
    | true => exact ⟨rfl, trivial⟩
    | false =>
      apply Coro.safe_call (I := Calls)
      intro s₃ _ r s₄ inserted
      rcases inserted with ⟨-, effect⟩ | ⟨rfl, raises⟩
      · exact ⟨effect.kept ⟨List.Subset.refl _, id⟩, rfl, effect.sure trivial⟩
      · exact ⟨.refl s₄, rfl, raises.sure⟩
  · rintro e rfl
    exact ⟨rfl, found.sure (P := fun _ => True) trivial⟩

theorem enqueueAll_does (eventId tenantId : Uuid) (found : List Subscription) (v : Found)
    (s : Bus) : Does (enqueueAll eventId tenantId found) v (fun r v' s' => v' = v ∧
      Sure (fun _ => ∀ sub ∈ found, s'.Accepted (.deliver eventId sub.id tenantId)) r) s := by
  induction found generalizing s with
  | nil => exact ⟨rfl, by simp [Sure]⟩
  | cons sub rest ih =>
    unfold enqueueAll
    refine Coro.Safe.bind (enqueue_does eventId sub.id tenantId _ v s) ?_ ?_
    · rintro _ _ s₁ ⟨rfl, accepted⟩
      have kept (a b : Bus) (h : Kept a b) : a.Accepted (.deliver eventId sub.id tenantId) →
          b.Accepted (.deliver eventId sub.id tenantId) := h.has
      refine ((ih s₁).frame kept kept accepted).mono ?_
      rintro r v' s' ⟨⟨rfl, others⟩, first⟩
      refine ⟨rfl, ?_⟩
      cases r with
      | error e => exact others
      | ok _ => exact List.forall_mem_cons.mpr ⟨first, others⟩
    · rintro e v' s₁ done
      exact done

/-- A publication that returned has found its subscriptions, and put a job for each on the
queue. -/
theorem publish_does (row : OutboxRow) (v : Found) (s : Bus) :
    Does (publish row.eventType row.tenantId row.payload row.sessionId row.eventId) v
      (fun r v' s' => Sure (fun _ => ∃ found, v' = some found ∧
        ∀ sub ∈ found, s'.Accepted (.deliver row.eventId sub.id sub.tenantId)) r) s := by
  unfold publish
  apply Coro.safe_call_bind (I := Calls)
  intro s₁ _ r s₂ listed
  refine ⟨listed.kept (.refl s₁), ?_, ?_⟩
  · rintro subscriptions rfl
    have own : subscriptions = s₁.subscriptionsOf row.tenantId := listed.answered
    have same : ∀ sub ∈ matching row.eventType subscriptions, sub.tenantId = row.tenantId := by
      intro sub mem
      rw [own] at mem
      have mem := (List.mem_filter.mp mem).1
      exact of_decide_eq_true (List.mem_filter.mp mem).2
    rw [Coro.safe_set_bind]
    split
    next none_ =>
      rw [List.isEmpty_iff] at none_
      exact ⟨_, rfl, by simp [none_]⟩
    next some_ =>
      refine Coro.Safe.bind (recordEvent_does _ _ s₂) ?_ ?_
      · rintro _ _ s₃ ⟨rfl, -⟩
        refine Coro.Safe.bind (enqueueAll_does _ _ _ _ s₃) ?_ ?_
        · rintro _ _ s₄ ⟨rfl, accepted⟩
          refine ⟨_, rfl, fun sub mem => ?_⟩
          rw [same sub mem]
          exact accepted sub mem
        · rintro e _ s₄ ⟨rfl, caught⟩
          exact caught
      · rintro e _ s₃ ⟨rfl, caught⟩
        exact caught
  · rintro e rfl
    exact listed.sure (P := fun _ => True) trivial

/-! ## Draining -/

/-- What a publication found has been put on the queue. -/
def Ready (eventId : Uuid) (v : Found) (s : Bus) : Prop :=
  ∃ found, v = some found ∧ ∀ sub ∈ found, s.Accepted (.deliver eventId sub.id sub.tenantId)

theorem Kept.ready {s s' : Bus} {eventId : Uuid} {v : Found} (h : Kept s s')
    (ready : Ready eventId v s) : Ready eventId v s' := by
  obtain ⟨found, rfl, accepted⟩ := ready
  exact ⟨found, rfl, fun sub mem => h.has (accepted sub mem)⟩

theorem markPublished_kept {lossy : Prop} {s s' : Bus} {eventId : Uuid} {v : Found}
    {r : Except Raised Unit} (ready : Ready eventId v s)
    (h : Answer lossy (.markPublished eventId v) s r s') : Kept s s' := by
  obtain ⟨found, rfl, accepted⟩ := ready
  exact h.kept (update_kept (fun _ => rfl) fun _ _ => acknowledge_due _ accepted)

theorem markFailed_kept {lossy : Prop} {s s' : Bus} {eventId : Uuid} {error : String} {v : Found}
    {r : Except Raised Unit} (ready : Ready eventId v s)
    (h : Answer lossy (.markFailed eventId error v) s r s') : Kept s s' := by
  obtain ⟨found, rfl, accepted⟩ := ready
  exact h.kept (update_kept (fun _ => rfl) fun _ _ => acknowledge_due .failed accepted)

/-- Whichever way a row is acknowledged, its deliveries have been accepted. -/
theorem drainRow_keeps (row : OutboxRow) : Keeps (drainRow row) := by
  intro v s
  unfold drainRow
  refine (Coro.safe_set_bind none).mpr ?_
  refine Coro.Safe.tryCatch (P := fun r v' s' => ∀ e, r = .error e → e.isException = true →
    Ready row.eventId v' s') ?_ ?_ ?_
  · refine Coro.Safe.bind (publish_does row none s) ?_ ?_
    · intro _ v₁ s₁ ready
      rw [Coro.safe_get_bind]
      apply Coro.safe_call_bind (I := Calls)
      intro s₂ kept r s₃ marked
      have ready₂ : Ready row.eventId v₁ s₂ := kept.ready ready
      have own := markPublished_kept ready₂ marked
      refine ⟨own, ?_, ?_⟩
      · rintro _ rfl e raised
        cases raised
      · rintro e rfl _ raised _
        exact own.ready ready₂
    · intro e v₁ s₁ passes e' raised caught
      cases raised
      rw [passes] at caught
      cases caught
  · intro _ _ _ _
    trivial
  · intro e v₁ s₁ ready
    split
    next caught =>
      rw [Coro.safe_get_bind]
      apply Coro.safe_call_bind (I := Calls)
      intro s₂ kept r s₃ marked
      refine ⟨markFailed_kept (kept.ready (ready e rfl caught)) marked, ?_, ?_⟩
      · rintro _ rfl
        trivial
      · rintro e rfl
        trivial
    next => trivial

theorem drainRows_keeps (rows : List OutboxRow) (published : Nat) :
    Keeps (drainRows rows published) := by
  induction rows generalizing published with
  | nil => exact .pure published
  | cons row rest ih => exact .bind (drainRow_keeps row) fun _ => ih _

theorem drain_keeps (limit : Nat) : Keeps (drain limit) :=
  .bind (.call fun s _ _ listed => listed.kept (.refl s)) fun _ => drainRows_keeps _ _

theorem handleOutboxRelay_keeps (limit : Nat) : Keeps (handleOutboxRelay limit) :=
  .bind (drain_keeps limit) fun _ => .pure ()

/-! ## Requests -/

theorem record_keeps (eventId tenantId : Uuid) (eventType : String) (payload : Data)
    (sessionId : Option String) : Keeps (record eventId tenantId eventType payload sessionId) := by
  unfold record
  refine .bind (.call fun s _ _ found => found.kept (.refl s)) fun existing => ?_
  cases existing with
  | true => exact .pure ()
  | false =>
    refine .call fun s _ _ inserted => inserted.kept ⟨List.Subset.refl _, ?_⟩
    intro delivered row mem settled
    rcases List.mem_append.mp mem with old | new
    · exact delivered row old settled
    · rw [List.mem_singleton.mp new] at settled
      exact absurd rfl settled

theorem publishWebhookEvent_keeps (eventType : String) (tenantId : Uuid) (data : Data)
    (sessionId : String) (eventId : Uuid) :
    Keeps (publishWebhookEvent eventType tenantId data sessionId eventId) := by
  refine .tryCatch (.bind (record_keeps _ _ _ _ _) fun _ => .bind ?_ fun _ => ?_) swallow_keeps
  · exact .tryCatch (.bind (enqueue_keeps _ _) fun _ => .pure ()) swallow_keeps
  · exact .tryCatch (.bind (drain_keeps 50) fun _ => .pure ()) swallow_keeps

/-! ## Runs -/

/-- While no call of a publication fails, and a key is found claimed only where its job has
been accepted, no row of the outbox stops being pending before every delivery it was due has
been accepted. -/
theorem acknowledged_delivered {init s : World} (delivered : init.store.Delivered)
    (empty : init.tasks = [])
    (run : Relation.ReflTransGen (Shared.Step (Answer False) Elsewhere Starts) init s) :
    s.store.Delivered := by
  have starts (s : World) (body : Tree Calls Raised (Except Raised Unit × Found))
      (may : Starts s body) (_ : s.store.Delivered) :
      body.Safe (Answer False) Kept Kept (fun _ _ => True) s.store := by
    rcases may with ⟨limit, rfl⟩ | ⟨eventType, tenantId, data, sessionId, eventId, rfl⟩
    · exact handleOutboxRelay_keeps limit none s.store
    · exact publishWebhookEvent_keeps eventType tenantId data sessionId eventId none s.store
  exact (Shared.concurrent_run Bus.Delivered (fun a b (h : Elsewhere a b) => h.kept) Kept.refl
    (fun _ _ _ => Kept.trans) (fun a b (h : Kept a b) => h.delivered) starts empty delivered run).1

/-! ## One request -/

/-- A caller is cancelled where its key or its event is there already; with the queue not `up`,
no push is accepted. -/
def answered (up : Bool) : (op : Op) → Bus → Except Raised op.Answer × Bus
  | .findOutbox eventId, s => (.ok (s.outbox.any fun row => row.eventId = eventId), s)
  | .insertOutbox row, s => (.ok (), { s with outbox := s.outbox ++ [row] })
  | .listPending limit, s => (.ok (s.pending limit), s)
  | .listSubscriptions tenantId, s => (.ok (s.subscriptionsOf tenantId), s)
  | .findEvent eventId, s => (.ok (s.events.any fun event => event.id = eventId), s)
  | .insertEvent event, s =>
    if ∀ old ∈ s.events, old.id ≠ event.id then
      (.ok (), { s with events := s.events ++ [event] })
    else (.error .cancelled, s)
  | .claim key _, s =>
    if key ∉ s.claimed then (.ok true, { s with claimed := key :: s.claimed })
    else (.error .cancelled, s)
  | .push job, s =>
    if up then (.ok (), { s with accepted := s.accepted ++ [job] })
    else (.error (.exception "Circuit breaker 'queue' is open"), s)
  | .markPublished eventId found, s => (.ok (), s.markPublished eventId found)
  | .markFailed eventId error found, s => (.ok (), s.markFailed eventId error found)

theorem raises_cancelled {fails : Prop} : Raises fails (.error .cancelled : Except Raised α) :=
  ⟨.cancelled, rfl, fun caught => by cases caught⟩

theorem answered_answer {up : Bool} {lossy : Prop} (down : up = false → lossy) (op : Op)
    (s : Bus) : Answer lossy op s (answered up op s).1 (answered up op s).2 := by
  cases op with
  | insertEvent event =>
    simp only [answered]
    split
    next fresh => exact .inl ⟨fresh, .inl ⟨rfl, .inl rfl⟩⟩
    next => exact .inr ⟨rfl, raises_cancelled⟩
  | claim key work =>
    simp only [answered]
    split
    next fresh => exact .inl ⟨fresh, .inl ⟨rfl, .inl rfl⟩⟩
    next => exact .inr (.inr ⟨rfl, raises_cancelled⟩)
  | push job =>
    simp only [answered]
    split
    next => exact .inl ⟨rfl, .inl rfl⟩
    next closed =>
      refine .inr ⟨rfl, _, rfl, fun _ => ?_⟩
      cases job.work with
      | deliver => exact down (Bool.eq_false_iff.mpr closed)
      | relay => trivial
  | findOutbox | insertOutbox | listPending | listSubscriptions | findEvent | markPublished
  | markFailed => exact .inl ⟨rfl, .inl rfl⟩

def subscriber : Subscription := ⟨1, 0, true, ["conversation.completed"]⟩

/-- A request that publishes one event to the subscriber. -/
def request (up : Bool) : Bus :=
  (Tree.drive (I := Calls) (answered up)
    (publishWebhookEvent "conversation.completed" 0 [] "s1" 7 none)
    { subscriptions := [subscriber] }).2

theorem request_run (up : Bool) (lossy : Prop) (down : up = false → lossy) :
    ∃ s : World, s.store = request up ∧
      Relation.ReflTransGen (Shared.Step (Answer lossy) Elsewhere Starts)
        ⟨{ subscriptions := [subscriber] }, []⟩ s := by
  have ends : Tree.Ends (Answer lossy) Eq
      (publishWebhookEvent "conversation.completed" 0 [] "s1" 7 none)
      { subscriptions := [subscriber] } _ (request up) :=
    Tree.drive_ends (I := Calls) (fun _ => rfl) (answered_answer down) _ _
  have here : [publishWebhookEvent "conversation.completed" 0 [] "s1" 7 none][0]? =
      some (publishWebhookEvent "conversation.completed" 0 [] "s1" 7 none) := rfl
  have rest := Shared.ends_steps Elsewhere Starts ends here
  exact ⟨_, rfl, .head (.start _ _ (.inr ⟨_, _, _, _, _, rfl⟩)) rest⟩

theorem acknowledged_delivered_request : ∃ s : World,
    (∃ row ∈ s.store.outbox, row.status = .published ∧ row.due = [subscriber]) ∧
      s.store.Delivered := by
  obtain ⟨s, store, run⟩ := request_run true False (by decide)
  refine ⟨s, ?_, acknowledged_delivered (by simp [Bus.Delivered]) rfl run⟩
  rw [store]
  decide

/-- The queue takes no job, and the event is published. -/
theorem published_undelivered : ∃ s : World,
    Relation.ReflTransGen (Shared.Step (Answer True) Elsewhere Starts)
      ⟨{ subscriptions := [subscriber] }, []⟩ s ∧
    (∃ row ∈ s.store.outbox, row.status = .published ∧ row.due = [subscriber]) ∧
    s.store.accepted = [] ∧ ¬ s.store.Delivered := by
  obtain ⟨s, store, run⟩ := request_run false True fun _ => trivial
  have published : ∃ row ∈ (request false).outbox,
      row.status = .published ∧ row.due = [subscriber] := by decide
  have accepted : (request false).accepted = [] := by decide
  refine ⟨s, run, store ▸ published, store ▸ accepted, fun delivered => ?_⟩
  obtain ⟨row, mem, status, due⟩ := published
  rw [store] at delivered
  have settled : row.status ≠ .pending := by simp [status]
  obtain ⟨job, here, -⟩ := delivered row mem settled subscriber (by simp [due])
  rw [accepted] at here
  cases here

end AgentStudio.Webhooks
