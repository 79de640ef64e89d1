import AgentStudio.Async.Logged
import AgentStudio.Gateway.Spend

/-!
# The exact cache

`ExactCache` of `gateway/cache.py`, shared by any number of calls of the gateway. A
call looks up and stores under one key, a digest of its messages, tools and output
schema; what the request asks of the model is not in it.
-/

namespace AgentStudio.Gateway
open Async Quota

/-! ## The calls of one run -/

section
variable (request : Request) (tenant : TenantConfig) (cfg : Cfg)

/-- An answer is kept under the request's key, when it may be; nothing is looked up. -/
def Keeping : Op → Prop
  | .getExact .. => False
  | .setExact tenantId promptVersion key _ => cacheable request cfg = true ∧
      tenantId = request.tenantId ∧ promptVersion = cfg.promptVersion ∧ key = requestKey request
  | _ => True

/-- The cache is not used. -/
def Uncached : Op → Prop
  | .getExact .. | .setExact .. => False
  | _ => True

/-- A call uses the cache under its own key, and keeps what a deployment answered. Only
`generate` looks up. -/
def Own (looks : Bool) (pre : Run) : Op → Prop
  | .getExact tenantId promptVersion key => looks = true ∧ cacheable request cfg = true ∧
      tenantId = tenant.id ∧ promptVersion = cfg.promptVersion ∧ key = requestKey request
  | .setExact tenantId promptVersion key entry =>
      Keeping request cfg (.setExact tenantId promptVersion key entry) ∧
        ∃ d, (⟨.recordSuccess d, .ok ()⟩ : Ev) ∈ pre
  | _ => True

variable {request tenant cfg} {looks : Bool} {σ : Type}

theorem own_additive : Coro.Additive (Following (Own request tenant cfg looks)) := by
  apply additive_following
  intro earlier pre op own
  cases op with
  | setExact => exact ⟨own.1, own.2.imp fun d mem => List.mem_append_right _ mem⟩
  | _ => exact own

theorem own_uncached {pre : Run} {op : Op} (h : Uncached op) : Own request tenant cfg looks pre op := by
  cases op with
  | getExact => exact h.elim
  | setExact => exact h.elim
  | _ => trivial

theorem leaves_uncached {α : Type} {c : Coro Calls Raised σ α} (calls : Coro.Emits Uncached c) :
    Coro.Leaves (Following (Own request tenant cfg looks)) c :=
  fun s => (calls s).mono fun _ _ _ made => following_of_calls made fun _ _ => own_uncached

theorem call_own {op : Op} (h : Uncached op := by trivial) :
    Coro.Leaves (Following (Own request tenant cfg looks))
      (Coro.call (I := Calls) op : Coro Calls Raised σ (Calls.Ans op)) :=
  leaves_call (own_uncached h)

/-- Once a success is recorded, an answer may be kept. -/
theorem own_recorded {d : Deployment} {t : Run} (calls : ∀ ev ∈ t, Keeping request cfg ev.op) :
    Following (Own request tenant cfg looks) (⟨.recordSuccess d, .ok ()⟩ :: t) := by
  refine following_cons (Q := Keeping request cfg) trivial calls ?_
  intro pre op mem keeping
  cases op with
  | getExact => exact keeping.elim
  | setExact => exact ⟨keeping, d, mem⟩
  | _ => trivial

/-- A success is recorded, and what follows keeps the answer. -/
theorem recorded_own {α : Type} {d : Deployment} {k : Unit → Coro Calls Raised σ α}
    (calls : Coro.Emits (Keeping request cfg) (k ())) :
    Coro.Leaves (Following (Own request tenant cfg looks))
      (Coro.call (I := Calls) (.recordSuccess d) >>= k) := by
  intro s
  rw [Coro.all_call_bind]
  constructor
  · exact fun _ => (calls s).mono fun _ _ _ made => own_recorded made
  · exact fun e => following_cons (Q := fun _ => False) trivial (by simp) fun _ _ _ => False.elim

theorem afterSuccess_keeping (gw : Service) (result : Result) :
    Coro.Emits (Keeping request cfg)
      (afterSuccess gw request cfg result : Coro Calls Raised σ _) := by
  apply Coro.Emits.bind (suppress_emits (Coro.emits_call trivial))
  intro _
  split
  next may => exact suppress_emits (Coro.emits_call ⟨may, rfl, rfl, rfl⟩)
  next => exact Coro.emits_pure ()

variable (gw : Service)

/-! ### `generate` -/

theorem attempt_uncached (apiKey : String) (d : Deployment) :
    Coro.Emits Uncached (attempt request tenant apiKey d : Coro Calls Raised σ _) := by
  apply Coro.Emits.tryCatch
  · apply (Coro.emits_call trivial).bind
    exact fun _ => (Coro.emits_call trivial).bind fun response => Coro.emits_pure _
  · intro e
    split
    · exact Coro.emits_throw e
    · split
      · exact Coro.emits_pure _
      · exact Coro.emits_throw e

theorem chainRound_own (chain : FallbackChain) (apiKey : String) (reservation : Option Reservation) :
    Coro.Leaves (Following (Own request tenant cfg looks))
      (chainRound gw request tenant cfg chain apiKey reservation) := by
  apply own_additive.bind (leaves_uncached Coro.emits_get)
  intro v
  cases v.targets with
  | nil => exact leaves_uncached (Coro.emits_pure _)
  | cons d rest =>
    apply own_additive.bind (leaves_uncached (Coro.emits_modify _))
    intro _
    apply own_additive.bind (leaves_uncached Coro.emits_get)
    intro v
    split
    · exact leaves_uncached (Coro.emits_pure _)
    · apply own_additive.bind (leaves_uncached (Coro.emits_modify _))
      intro _
      apply own_additive.bind (leaves_uncached (attempt_uncached apiKey d))
      intro outcome
      cases outcome with
      | ok result =>
        apply recorded_own
        apply (Coro.emits_call trivial).bind
        intro _
        exact (afterSuccess_keeping gw result).bind fun _ => Coro.emits_pure _
      | error failure =>
        apply leaves_uncached
        apply (Coro.emits_modify _).bind
        intro _
        apply (Coro.emits_call trivial).bind
        exact fun _ => (Coro.emits_modify _).bind fun _ => Coro.emits_pure _

variable (request tenant cfg) in
theorem generate_own : Coro.Leaves (Following (Own request tenant cfg true))
    (generate gw request tenant cfg) := by
  have looked : Coro.Leaves (Following (Own request tenant cfg true))
      (lookupExact request tenant cfg) := by
    unfold lookupExact
    split
    next may => exact leaves_call ⟨rfl, may, rfl, rfl, rfl⟩
    next => exact leaves_uncached (Coro.emits_pure none)
  apply own_additive.bind call_own
  intro reservation
  apply own_additive.bind looked
  intro found
  cases found with
  | some entry =>
    exact leaves_uncached ((Coro.emits_call trivial).bind fun _ => Coro.emits_pure _)
  | none =>
    apply own_additive.bind call_own
    intro apiKey
    apply own_additive.bind (leaves_uncached (decide_emits (fun _ => trivial) gw request cfg))
    intro decision
    apply Coro.Leaves.scope
    apply own_additive.bind
    · apply own_additive.tryCatch
      · apply own_additive.bind (own_additive.iterate (chainRound_own gw _ apiKey reservation) _)
        intro found
        apply leaves_uncached
        cases found with
        | none => exact Coro.emits_throw _
        | some found => exact Coro.emits_pure _
      · intro e
        apply leaves_uncached
        split
        · exact (Coro.emits_call trivial).bind fun _ => Coro.emits_throw e
        · exact Coro.emits_throw e
    · intro found
      apply leaves_uncached
      cases found with
      | some result => exact Coro.emits_pure _
      | none => exact (Coro.emits_call trivial).bind fun _ => Coro.emits_get.bind fun _ => Coro.emits_throw _

/-! ### `_stream_impl` -/

theorem forwardEvents_uncached (d : Deployment) (events : List LLMStreamEvent) :
    Coro.Emits Uncached (forwardEvents gw d events) := by
  have silent (ev : LLMStreamEvent) : Coro.Emits Uncached (handle gw d ev) := by
    intro v
    apply (handle_spec gw d ev).mono
    rintro t o v' ⟨rfl, -⟩
    exact (Coro.additive_calls _).nil
  induction events with
  | nil => exact Coro.emits_pure ()
  | cons ev rest ih =>
    apply (silent ev).bind
    intro out
    cases out with
    | some out => exact (Coro.emits_call trivial).bind fun _ => ih
    | none => exact (Coro.emits_pure ()).bind fun _ => ih

theorem attemptStream_uncached (chain : FallbackChain) (d : Deployment) :
    Coro.Emits Uncached (attemptStream gw request tenant chain d) := by
  apply Coro.Emits.tryCatch
  · apply Coro.Emits.bind ?_ fun _ => Coro.emits_pure _
    apply (Coro.emits_call trivial).bind
    intro script
    apply (Coro.emits_modify _).bind
    intro _
    apply (forwardEvents_uncached gw d script.events).bind
    intro _
    split
    · exact Coro.emits_throw _
    · split
      · exact Coro.emits_throw _
      · exact Coro.emits_pure _
  · intro e
    have failed : Coro.Emits Uncached (failAttempt chain d e) := by
      apply (Coro.emits_modify _).bind
      intro _
      apply (Coro.emits_call trivial).bind
      intro _
      apply Coro.emits_get.bind
      intro v
      split
      · apply (Coro.emits_call trivial).bind
        exact fun _ => (releaseOnce_emits fun _ => trivial).bind fun _ => Coro.emits_pure _
      · exact (Coro.emits_modify _).bind fun _ => Coro.emits_pure _
    unfold onAttemptRaise
    split
    · exact abandon_emits trivial (fun _ => trivial) _
    · exact abandon_emits trivial (fun _ => trivial) _
    · split
      · exact failed
      · exact Coro.emits_throw _

theorem streamRound_own (chain : FallbackChain) (apiKey : String) :
    Coro.Leaves (Following (Own request tenant cfg looks))
      (streamRound gw request tenant cfg chain apiKey) := by
  have completed (d : Deployment) : Coro.Leaves (Following (Own request tenant cfg looks))
      (complete gw request cfg d) := by
    apply recorded_own
    apply Coro.emits_get.bind
    intro v
    apply (Coro.emits_call trivial).bind
    intro _
    apply (Coro.emits_modify _).bind
    intro _
    apply (afterSuccess_keeping gw _).bind
    exact fun _ => (Coro.emits_call trivial).bind fun _ => Coro.emits_call trivial
  apply own_additive.bind (leaves_uncached Coro.emits_get)
  intro v
  cases v.targets with
  | nil => exact leaves_uncached (Coro.emits_pure _)
  | cons d rest =>
    apply own_additive.bind (leaves_uncached (Coro.emits_modify _))
    intro _
    apply own_additive.bind (leaves_uncached Coro.emits_get)
    intro v
    split
    · exact leaves_uncached (Coro.emits_pure _)
    · apply own_additive.bind (leaves_uncached (Coro.emits_modify _))
      intro _
      apply own_additive.bind call_own
      intro _
      apply own_additive.bind (leaves_uncached (Coro.emits_modify _))
      intro _
      apply own_additive.bind (leaves_uncached (attemptStream_uncached gw chain d))
      intro flow
      cases flow with
      | completed => exact own_additive.bind (completed d) fun _ => leaves_uncached (Coro.emits_pure _)
      | again => exact leaves_uncached (Coro.emits_pure _)
      | left => exact leaves_uncached (Coro.emits_pure _)

variable (request tenant cfg) in
theorem streamImpl_own : Coro.Leaves (Following (Own request tenant cfg false))
    (streamImpl gw request tenant cfg) := by
  apply own_additive.tryCatch
  · apply own_additive.bind call_own
    intro reservation
    apply own_additive.bind (leaves_uncached (Coro.emits_modify _))
    intro _
    apply own_additive.bind call_own
    intro apiKey
    apply own_additive.bind (leaves_uncached (decide_emits (fun _ => trivial) gw request cfg))
    intro decision
    apply own_additive.bind (leaves_uncached (Coro.emits_modify _))
    intro _
    apply own_additive.bind (own_additive.iterate (streamRound_own gw _ apiKey) _)
    intro found
    apply leaves_uncached
    split
    · exact Coro.emits_throw _
    · exact Coro.emits_pure _
    · apply (releaseOnce_emits fun _ => trivial).bind
      exact fun _ => Coro.emits_get.bind fun _ => Coro.emits_throw _
  · intro e
    exact leaves_uncached (onStreamRaise_emits trivial (fun _ => trivial) (fun _ _ => trivial) e)

end

/-! ## The calls that share a cache -/

/-- A call of a gateway: of `stream`, or of `generate`. -/
structure Asked where
  gw : Service
  request : Request
  tenant : TenantConfig
  cfg : Cfg
  stream : Bool

namespace Asked

def body (a : Asked) : Tree Calls Raised Unit :=
  if a.stream then (streamImpl a.gw a.request a.tenant a.cfg {}).bind fun _ => .done ()
  else (generate a.gw a.request a.tenant a.cfg ()).bind fun _ => .done ()

/-- The chain it goes along. -/
def chain (a : Asked) : FallbackChain :=
  fallbackChain a.gw a.request a.cfg
    (candidatesAt a.gw a.request a.cfg (if a.stream then 0 else 3))

/-- Its answer may be kept. -/
def kept (a : Asked) : Bool := cacheable a.request a.cfg

/-- It may be answered from the cache. -/
def looksUp (a : Asked) : Bool := !a.stream && cacheable a.request a.cfg

end Asked

/-- `ExactCache`: a digest and the canonical JSON of a request. -/
structure ExactCache where
  keyPrefix : String := "neryva:gateway:exact:"
  sha256 : String → String
  dumps : RequestKey → String

/-- `_key`. -/
def ExactCache.key (cache : ExactCache) (tenantId promptVersion : String) (canonical : RequestKey) :
    String :=
  let digest := (cache.sha256 (tenantId ++ ":" ++ promptVersion ++ ":" ++ cache.dumps canonical)).take 32
  cache.keyPrefix ++ tenantId ++ ":" ++ digest.toString

namespace Asked
variable (cache : ExactCache) (a : Asked)

/-- The key under which its answer is kept. -/
def keepsAt : String := cache.key a.request.tenantId a.cfg.promptVersion (requestKey a.request)

/-- The key under which it looks up. -/
def looksAt : String := cache.key a.tenant.id a.cfg.promptVersion (requestKey a.request)

end Asked

/-- What the cache holds, each entry with the call that stored it and what that call had
done before; and which call was answered by whose entry. -/
structure Shelf where
  entries : String → Option (Asked × Run × CachedEntry) := fun _ => none
  hits : List (Asked × Run × Asked) := []

/-- `setex`. -/
def Shelf.set (s : Shelf) (key : String) (entry : Asked × Run × CachedEntry) : Shelf :=
  { s with entries := Function.update s.entries key (some entry) }

/-- `get` and `set` of the cache; both fail silently. -/
def ExactCache.answers (cache : ExactCache) : Async.Answers (Logged Asked Calls Raised) Raised Shelf
  | (who, _, .getExact tenantId promptVersion canonical), s, .ok (some entry), s' =>
    ∃ a earlier, s.entries (cache.key tenantId promptVersion canonical) = some (a, earlier, entry) ∧
      s' = { s with hits := (a, earlier, who) :: s.hits }
  | (who, t, .setExact tenantId promptVersion canonical entry), s, _, s' =>
    s' = s ∨ s' = s.set (cache.key tenantId promptVersion canonical) (who, t, entry)
  | _, s, _, s' => s' = s

/-- Entries expire, and are purged. -/
structure Expires (s s' : Shelf) : Prop where
  hits : s'.hits = s.hits
  entries : ∀ key entry, s'.entries key = some entry → s.entries key = some entry

abbrev Gateways := Shared (Logged Asked Calls Raised) Raised Unit Shelf

/-- Any call may be made at any time. -/
def MayAsk (_ : Gateways) (c : Tree (Logged Asked Calls Raised) Raised Unit) : Prop :=
  ∃ a : Asked, c = a.body.logged a []

def CacheReachable (cache : ExactCache) (w : Gateways) : Prop :=
  Relation.ReflTransGen (Shared.Step cache.answers Expires MayAsk) { store := {} } w

/-! ## Entries and hits -/

theorem runs_dropped {ω : Type} {c : Tree Calls Raised ω} {t : Run} {u : Unit} :
    (c.bind fun _ => .done ()).Runs t u ↔ ∃ w, c.Runs t w := by
  constructor
  · intro run
    have all : (c.bind fun _ => .done ()).All fun t _ => ∃ w, c.Runs t w := by
      rw [Tree.all_bind, Tree.all_iff]
      intro t w run
      exact ⟨w, by simpa using run⟩
    exact (Tree.all_iff _ _).mp all t u run
  · rintro ⟨w, run⟩
    induction run with
    | done w => exact .done ()
    | await op k r rest ih => exact .await op _ r ih

namespace Asked
variable {a : Asked} {t : Run} {u : Unit}

theorem runs_iff : a.body.Runs t u ↔
    if a.stream then ∃ o v, (streamImpl a.gw a.request a.tenant a.cfg).Runs {} t o v
    else ∃ o, (generate a.gw a.request a.tenant a.cfg).Runs () t o () := by
  unfold body
  split
  · rw [runs_dropped]
    exact Prod.exists
  · rw [runs_dropped]
    exact ⟨fun ⟨⟨o, _⟩, run⟩ => ⟨o, run⟩, fun ⟨o, run⟩ => ⟨(o, ()), run⟩⟩

theorem body_own (run : a.body.Runs t u) :
    Following (Own a.request a.tenant a.cfg (!a.stream)) t := by
  rw [runs_iff] at run
  split at run
  next is =>
    obtain ⟨o, v, run⟩ := run
    rw [is]
    exact Coro.all_iff.mp (streamImpl_own a.request a.tenant a.cfg a.gw {}) t o v run
  next is =>
    obtain ⟨o, run⟩ := run
    rw [Bool.eq_false_of_not_eq_true is]
    exact Coro.all_iff.mp (generate_own a.request a.tenant a.cfg a.gw ()) t o () run

/-- A call goes along its chain. -/
theorem body_marks (run : a.body.Runs t u) {d : Deployment} (served : .served d ∈ marks t) :
    ∃ up, RunMarks a.chain (Router.decide (candidatesAt a.gw a.request a.cfg 2) up)
      (fun _ _ => True) (marks t) := by
  have all : ∀ ev : Ev, True → ∀ d failureClass, Tells ev d failureClass → True :=
    fun _ _ _ _ _ => trivial
  rw [runs_iff] at run
  unfold chain
  split at run
  next is =>
    obtain ⟨o, v, run⟩ := run
    obtain ⟨up, -, h⟩ := (streamImpl_marks all run fun _ _ => trivial).resolve_left
      (List.ne_nil_of_mem served)
    exact ⟨up, by rwa [if_pos is]⟩
  next is =>
    obtain ⟨o, run⟩ := run
    obtain ⟨up, -, h⟩ := (generate_marks all run fun _ _ => trivial).resolve_left
      (List.ne_nil_of_mem served)
    exact ⟨up, by rwa [if_neg is]⟩

end Asked

instance : Nonempty Raised := ⟨.cancelled⟩

/-- The entry under `key` is one that the call keeps there. -/
structure Asked.Stored (cache : ExactCache) (key : String) (a : Asked) (t : Run) : Prop where
  kept : a.kept = true
  key : key = a.keepsAt cache
  begun : ∃ c, a.body.After t c

structure Shelf.Sound (cache : ExactCache) (s : Shelf) : Prop where
  entries : ∀ key a t entry, s.entries key = some (a, t, entry) → a.Stored cache key t
  hits : ∀ a t b, (a, t, b) ∈ s.hits → b.looksUp = true ∧ a.Stored cache (b.looksAt cache) t

section
variable {cache : ExactCache} {a b : Asked} {t : Run} {s s' : Shelf} {d : Deployment}

theorem Asked.Stored.names {key : String} (h : a.Stored cache key t) (served : .served d ∈ marks t) :
    a.chain.Names d := by
  obtain ⟨c, after⟩ := h.begun
  obtain ⟨t', w, run⟩ := after.whole
  have whole : .served d ∈ marks (t ++ t') := by
    rw [marks, List.foldl_append]
    exact marks_grow _ _ served
  obtain ⟨up, h⟩ := Asked.body_marks run whole
  exact served_names h whole

/-- What the cache answers and keeps is under the keys of the calls. -/
theorem answers_sound {op : Op} {k : Except Raised (Calls.Ans op) → Tree Calls Raised Unit}
    (after : a.body.After t (.await op k)) (r : Except Raised (Calls.Ans op))
    (answer : cache.answers (a, t, op) s r s') (sound : s.Sound cache) : s'.Sound cache := by
  have own : Own a.request a.tenant a.cfg (!a.stream) t op :=
    after.judged fun t w run => Asked.body_own run
  cases op with
  | getExact tenantId promptVersion canonical =>
    obtain ⟨looks, may, rfl, rfl, rfl⟩ := own
    cases r with
    | error e =>
      obtain rfl : s' = s := answer
      exact sound
    | ok found =>
      cases found with
      | none =>
        obtain rfl : s' = s := answer
        exact sound
      | some entry =>
        obtain ⟨first, earlier, here, rfl⟩ := answer
        refine ⟨sound.entries, fun x t' y mem => ?_⟩
        rcases List.mem_cons.mp mem with is | mem
        · cases is
          refine ⟨?_, sound.entries _ _ _ _ here⟩
          rw [Asked.looksUp, looks, may]
          rfl
        · exact sound.hits x t' y mem
  | setExact tenantId promptVersion canonical entry =>
    obtain ⟨⟨may, rfl, rfl, rfl⟩, -⟩ := own
    rcases answer with rfl | rfl
    · exact sound
    · refine ⟨fun key x t' kept at_ => ?_, sound.hits⟩
      simp only [Shelf.set, Function.update_apply] at at_
      split at at_
      next here =>
        cases at_
        exact ⟨may, here, _, after⟩
      next => exact sound.entries key x t' kept at_
  | _ =>
    obtain rfl : s' = s := answer
    exact sound

theorem reachable_sound {w : Gateways} (reach : CacheReachable cache w) : w.store.Sound cache := by
  apply (Shared.logged_run Asked.body (fun _ _ may => may) rfl (Shelf.Sound cache) ?_ ?_ ?_ reach).1
  · exact ⟨by simp, by simp⟩
  · exact fun s s' moved sound =>
      ⟨fun key a t entry here => sound.entries key a t entry (moved.entries key _ here),
        moved.hits ▸ sound.hits⟩
  · exact fun a t op k r s s' after answer => answers_sound after r answer

/-! ## Staged hits -/

theorem answers_still {ev : Ev}
    (missed : ∀ tenantId promptVersion canonical entry,
      ev ≠ ⟨.getExact tenantId promptVersion canonical, .ok (some entry)⟩) :
    cache.answers (a, t, ev.op) s ev.reply s := by
  obtain ⟨op, r⟩ := ev
  cases op with
  | getExact tenantId promptVersion canonical =>
    cases r with
    | error e => rfl
    | ok found =>
      cases found with
      | none => rfl
      | some entry => exact absurd rfl (missed _ _ _ entry)
  | setExact => exact .inl rfl
  | _ => rfl

/-- A staged run keeps its answer, if it may. -/
theorem Serves.keeps {terms : Terms} {usage : Usage} {reservation : Option Reservation}
    {x : Assignment} {place : String × String × RequestKey} (serves : Serves t d usage reservation x)
    (billed : Billed (· ∈ t) terms (account t)) (slot : terms.slot = some place) :
    ∃ entry r, (⟨.setExact place.1 place.2.1 place.2.2 entry, r⟩ : Ev) ∈ t := by
  cases billed with
  | idle idle =>
    obtain ⟨r, recorded⟩ := recorded_of_served serves.served
    have ok : r = .ok () := serves.answered _ recorded
    have done := succeeded_mem (ok ▸ recorded)
    rw [idle.succeeded] at done
    cases done
  | reconciled _ _ _ failed =>
    obtain ⟨usd, e, mem⟩ := failed
    have ok : (.error e : Except Raised Unit) = .ok () := serves.answered _ mem
    cases ok
  | paid paid =>
    rcases paid.kept place slot with ⟨entry, r, mem⟩ | ⟨record, e, mem⟩
    · exact ⟨entry, r, mem⟩
    · have ok : (.error e : Except Raised Unit) = .ok () := serves.answered _ mem
      cases ok

/-- What a call keeps of a run. -/
def Asked.keepEvent (a : Asked) (entry : CachedEntry) (r : Except Raised Unit) : Ev :=
  ⟨.setExact a.request.tenantId a.cfg.promptVersion (requestKey a.request) entry, r⟩

/-- A run that is served by a deployment that the chain names, and keeps its answer. -/
theorem Asked.run_keeps (kept : a.kept = true) (names : a.chain.Names d) : ∃ pre entry r post,
    a.body.Runs (pre ++ a.keepEvent entry r :: post) () ∧ .served d ∈ marks pre ∧
      ∀ ev ∈ pre ++ a.keepEvent entry r :: post, ∀ tenantId promptVersion canonical found,
        ev ≠ ⟨.getExact tenantId promptVersion canonical, .ok (some found)⟩ := by
  have place : slot a.request a.cfg =
      some (a.request.tenantId, a.cfg.promptVersion, requestKey a.request) := if_pos kept
  obtain ⟨t, x, run, serves, entry, r, mem⟩ : ∃ t x, a.body.Runs t () ∧ Serves t d [] none x ∧
      ∃ entry r, a.keepEvent entry r ∈ t := by
    unfold chain at names
    split at names
    next is =>
      obtain ⟨t, v, x, run, serves⟩ := streamImpl_serves a.gw a.request a.cfg a.tenant names [] none
      have billed := Coro.all_iff.mp (streamImpl_billed (· ∈ t) a.gw a.request a.tenant a.cfg) t _ v
        run fun _ mem => mem
      exact ⟨t, x, runs_iff.mpr (by rw [if_pos is]; exact ⟨_, v, run⟩), serves,
        serves.keeps billed place⟩
    next is =>
      obtain ⟨t, x, run, serves⟩ := generate_serves a.gw a.request a.cfg a.tenant names [] none
      have billed := Coro.all_iff.mp (generate_billed (· ∈ t) a.gw a.request a.tenant a.cfg) t _ ()
        run fun _ mem => mem
      exact ⟨t, x, runs_iff.mpr (by rw [if_neg is]; exact ⟨_, run⟩), serves,
        serves.keeps billed.1 place⟩
  obtain ⟨pre, post, rfl⟩ := List.append_of_mem mem
  refine ⟨pre, entry, r, post, run, ?_, ?_⟩
  · -- a success is recorded before the answer is kept, and only one deployment is served
    obtain ⟨-, d', recorded⟩ := body_own run pre (a.keepEvent entry r) post rfl
    have served := served_mem recorded
    have whole : .served d' ∈ marks (pre ++ a.keepEvent entry r :: post) :=
      served_mem (List.mem_append_left _ recorded)
    obtain ⟨up, h⟩ := body_marks run whole
    rwa [h.served_once whole serves.served] at served
  · rintro ev mem tenantId promptVersion canonical found rfl
    have missed : (.ok (some found) : Except Raised (Option CachedEntry)) = .ok none :=
      serves.answered _ mem
    cases missed

/-- The run of a call that is answered from the cache. -/
theorem Asked.run_hits (looks : b.looksUp = true) (entry : CachedEntry) :
    b.body.Runs [⟨.reserve (reserveArgs b.gw b.request b.tenant b.cfg), .ok none⟩,
      ⟨.getExact b.tenant.id b.cfg.promptVersion (requestKey b.request), .ok (some entry)⟩,
      ⟨.release none, .ok ()⟩] () := by
  simp only [looksUp, Bool.and_eq_true, Bool.not_eq_true'] at looks
  have hit : (generate b.gw b.request b.tenant b.cfg).Runs ()
      [⟨.reserve (reserveArgs b.gw b.request b.tenant b.cfg), .ok none⟩,
        ⟨.getExact b.tenant.id b.cfg.promptVersion (requestKey b.request), .ok (some entry)⟩,
        ⟨.release none, .ok ()⟩] (.ok (fromCache entry)) () := by
    unfold generate lookupExact
    rw [if_pos looks.2]
    apply Tree.Runs.await (I := Calls) (.reserve _) _ (.ok none)
    apply Tree.Runs.await (I := Calls) (.getExact _ _ _) _ (.ok (some entry))
    apply Tree.Runs.await (I := Calls) (.release none) _ (.ok ())
    exact .done _
  rw [runs_iff, looks.1]
  exact ⟨_, hit⟩

/-- Two calls, one after the other, of which the first answers the second. -/
theorem hit_reached (kept : a.kept = true) (looks : b.looksUp = true)
    (same : a.keepsAt cache = b.looksAt cache) (names : a.chain.Names d) :
    ∃ w t, CacheReachable cache w ∧ (a, t, b) ∈ w.store.hits ∧ .served d ∈ marks t := by
  obtain ⟨pre, entry, r, post, run, served, missed⟩ := a.run_keeps kept names
  let shelf : Shelf := ({} : Shelf).set (a.keepsAt cache) (a, pre, entry)
  let shelf' : Shelf := { shelf with hits := [(a, pre, b)] }
  have first : Async.Told cache.answers a [] (pre ++ a.keepEvent entry r :: post) {} shelf := by
    apply Async.Told.append (told_still fun ev mem t => answers_still (missed ev (by simp [mem])))
    refine .cons (.inr rfl) (told_still fun ev mem t => answers_still (missed ev (by simp [mem])))
  have here : shelf.entries (b.looksAt cache) = some (a, pre, entry) := by
    simp [shelf, Shelf.set, same]
  have second : Async.Told cache.answers b []
      [⟨.reserve (reserveArgs b.gw b.request b.tenant b.cfg), .ok none⟩,
      ⟨.getExact b.tenant.id b.cfg.promptVersion (requestKey b.request), .ok (some entry)⟩,
      ⟨.release none, .ok ()⟩] shelf shelf' :=
    .cons rfl (.cons ⟨a, pre, here, rfl⟩ (.cons rfl (.nil _ _)))
  have steps : CacheReachable cache ⟨shelf', [.done (), .done ()]⟩ := by
    have reach : CacheReachable cache ⟨shelf, [.done ()]⟩ :=
      .head (.start _ _ ⟨a, rfl⟩) (Shared.ends_steps Expires MayAsk (first.ends run) (i := 0) rfl)
    exact reach.trans (.head (.start _ _ ⟨b, rfl⟩)
      (Shared.ends_steps Expires MayAsk (second.ends (Asked.run_hits looks entry)) (i := 1) rfl))
  exact ⟨_, pre, steps, List.mem_cons_self, served⟩

end

/-! ## Which pairs are answered rightly -/

/-- The first call's entries are for the second's tenant and prompt version. -/
structure Asked.OneTenant (a b : Asked) : Prop where
  tenant : a.request.tenantId = b.tenant.id
  promptVersion : a.cfg.promptVersion = b.cfg.promptVersion

/-- The two ask the same of the model. -/
structure SameIntent (r r' : Request) : Prop where
  provider : r.provider = r'.provider
  model : r.model = r'.model
  pinned : r.pinned = r'.pinned
  temperature : r.temperature = r'.temperature
  maxTokens : r.maxTokens = r'.maxTokens

/-- `d` is the pinned deployment, if one is pinned. -/
def Request.Takes (r : Request) (d : Deployment) : Prop :=
  ∀ entry, nonEmpty r.pinned = some entry → d = splitDeployment entry

/-- An entry that the first call stored after the calls `t` is an answer to the second. -/
structure Asked.Answers (a : Asked) (t : Run) (b : Asked) : Prop where
  messages : a.request.messages = b.request.messages
  intent : SameIntent a.request b.request
  deployment : ∀ d, .served d ∈ marks t → b.request.Takes d

/-- Requests that may be cached differ in their keys only where their messages do. -/
theorem Asked.same_key (a : Asked) {b : Asked} (messages : a.request.messages = b.request.messages)
    (kept : a.kept = true) (looks : b.looksUp = true) : requestKey a.request = requestKey b.request := by
  simp only [Asked.kept, looksUp, cacheable, Bool.and_eq_true, List.isEmpty_iff,
    Option.isNone_iff_eq_none] at kept looks
  simp only [requestKey, messages, kept, looks]

theorem Asked.chain_names (a : Asked) : ∃ d, a.chain.Names d := by
  have some_ : candidatesAt a.gw a.request a.cfg (if a.stream then 0 else 3) ≠ [] :=
    candidatesAt_ne_nil _
  obtain ⟨d, rest, is⟩ := List.exists_cons_of_ne_nil some_
  refine ⟨d, .general, candidate_target a.chain .general ?_⟩
  change d ∈ candidatesAt _ _ _ _
  rw [is]
  exact List.mem_cons_self

/-- For every cache and every two calls, however many others there are: in every state
that any interleaving reaches, the entries of the first that answered the second are
answers to it, exactly when the two, where they may share an entry at all, either have
different messages and digests, or ask the same of the model, and no deployment that
the chain of the first names is barred by the second. -/
theorem answered_rightly_iff (cache : ExactCache) (a b : Asked) :
    (∀ w, CacheReachable cache w → a.OneTenant b → ∀ t, (a, t, b) ∈ w.store.hits → a.Answers t b) ↔
      (a.OneTenant b → a.kept = true → b.looksUp = true →
        if a.request.messages = b.request.messages then
          SameIntent a.request b.request ∧ ∀ d, a.chain.Names d → b.request.Takes d
        else a.keepsAt cache ≠ b.looksAt cache) := by
  constructor
  · intro claim one kept looks
    split
    next messages =>
      have same : a.keepsAt cache = b.looksAt cache := by
        rw [Asked.keepsAt, Asked.looksAt, one.tenant, one.promptVersion, a.same_key messages kept looks]
      have each (d : Deployment) (names : a.chain.Names d) :
          SameIntent a.request b.request ∧ b.request.Takes d := by
        obtain ⟨w, t, reach, mem, served⟩ := hit_reached kept looks same names
        have rightly := claim w reach one t mem
        exact ⟨rightly.intent, rightly.deployment d served⟩
      obtain ⟨d, names⟩ := a.chain_names
      exact ⟨(each d names).1, fun d names => (each d names).2⟩
    next other =>
      intro same
      obtain ⟨d, names⟩ := a.chain_names
      obtain ⟨w, t, reach, mem, -⟩ := hit_reached kept looks same names
      exact other (claim w reach one t mem).messages
  · intro apart w reach one t mem
    obtain ⟨looks, stored⟩ := (reachable_sound reach).hits a t b mem
    have apart := apart one stored.kept looks
    split at apart
    next messages => exact ⟨messages, apart.1, fun d served => apart.2 d (stored.names served)⟩
    next => exact absurd stored.key.symm apart

/-- "hi", to whichever deployment the router takes or to the pinned one. -/
def greeting (pinned : Option String) : Asked where
  gw := {}
  request := { tenantId := "acme", messages := [{ content := "hi" }], pinned }
  tenant := { id := "acme" }
  cfg := {}
  stream := false

/-- What `gpt-4o-mini` answered is the answer to a request that pins `gpt-4o`. -/
theorem pin_answered_by_other : (∀ cache, ∃ w t, CacheReachable cache w ∧
      (greeting none, t, greeting (some "openai:gpt-4o")) ∈ w.store.hits ∧
        .served ("openai", "gpt-4o-mini") ∈ marks t) ∧
    ¬ ∀ (cache : ExactCache) (a b : Asked) (w : Gateways), CacheReachable cache w → a.OneTenant b →
      ∀ t, (a, t, b) ∈ w.store.hits → a.Answers t b := by
  have hit (cache : ExactCache) : ∃ w t, CacheReachable cache w ∧
      (greeting none, t, greeting (some "openai:gpt-4o")) ∈ w.store.hits ∧
        .served ("openai", "gpt-4o-mini") ∈ marks t :=
    hit_reached rfl rfl rfl ⟨.general, by decide +kernel⟩
  refine ⟨hit, fun claim => ?_⟩
  obtain ⟨w, t, reach, mem, served⟩ := hit ⟨"", id, fun _ => ""⟩
  have rightly := claim _ (greeting none) (greeting (some "openai:gpt-4o")) w reach ⟨rfl, rfl⟩ t mem
  have wrong : ("openai", "gpt-4o-mini") = splitDeployment "openai:gpt-4o" :=
    rightly.deployment _ served _ rfl
  exact absurd wrong (by decide +kernel)

end AgentStudio.Gateway
