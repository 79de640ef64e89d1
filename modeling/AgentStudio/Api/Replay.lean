import Mathlib.Data.List.Induction
import Mathlib.Logic.Function.Basic

/-!
# Responses that are replayed

`process_conversation` of `conversations.py` with `IdempotencyGuard`: the response stored under
the `Idempotency-Key` and the slug of a request is sent again, before the tenant is looked up and
the principal is checked against it.
-/

namespace AgentStudio.Api.Replay

abbrev Uuid := Nat

/-- A SHA-256 digest in hexadecimal digits. -/
structure Digest where
  text : String
  hex : text.length = 64

structure Principal where
  tenantId : Option Uuid

/-- A request; without the header its key is empty. -/
structure Request where
  tenantSlug : String
  idempotencyKey : String
  principal : Principal

structure Response where
  status : Nat
  content : String
  deriving DecidableEq

/-- A stored response; `owner` is for the record. -/
structure Stored where
  statusCode : Nat
  body : String
  owner : Uuid

abbrev Cache := String → Option Stored

/-- What the handler comes to after its checks: rate limits, guardrails, generation. None of this
reads a stored response. -/
inductive Outcome where
  | raised (status : Nat) (detail : String)
  | response (body : String)

variable (sha256 : String → Digest) (tenants : String → Option Uuid)

/-- `_key`, of the scope `conv:{tenant_slug}`. -/
def key (slug idempotencyKey : String) : String :=
  "idem:conv:" ++ slug ++ ":" ++ (sha256 idempotencyKey).text

def getResponse (cache : Cache) (r : Request) : Option Stored :=
  if r.idempotencyKey = "" then none else cache (key sha256 r.tenantSlug r.idempotencyKey)

def storeResponse (cache : Cache) (r : Request) (stored : Stored) : Cache :=
  if r.idempotencyKey = "" then cache
  else Function.update cache (key sha256 r.tenantSlug r.idempotencyKey) (some stored)

/-- `_assert_conversation_tenant`. -/
def forbidden : Response := ⟨403, "principal is scoped to a different tenant"⟩

/-- The handler from the lookup of the tenant on, with the cache that it then stores into. -/
def proceed (cache : Cache) (r : Request) (outcome : Outcome) : Response × Cache :=
  match tenants r.tenantSlug with
  | none => (⟨404, "Tenant not found: " ++ r.tenantSlug⟩, cache)
  | some tenant =>
    if r.principal.tenantId.any (· ≠ tenant) then (forbidden, cache)
    else
      match outcome with
      | .raised status detail => (⟨status, detail⟩, cache)
      | .response body => (⟨200, body⟩, storeResponse sha256 cache r ⟨200, body, tenant⟩)

/-- The response of `process_conversation`, where this is what is stored when it looks. -/
def processConversation (cache : Cache) (r : Request) (outcome : Outcome) : Response :=
  match getResponse sha256 cache r with
  | some cached => ⟨cached.statusCode, cached.body⟩
  | none => (proceed sha256 tenants cache r outcome).1

/-- What becomes of the stored responses: a request that was not answered from them comes to its
end, or the TTL of one is over. -/
inductive Action where
  | finish (r : Request) (outcome : Outcome)
  | expire (key : String)

def next (cache : Cache) : Action → Cache
  | .finish r outcome => (proceed sha256 tenants cache r outcome).2
  | .expire key => Function.update cache key none

/-- What is stored after a history, from nothing. -/
def after (history : List Action) : Cache := history.foldl (next sha256 tenants) fun _ => none

/-- The same is stored of every tenant but this one. -/
def Alike (b : Uuid) (cache cache' : Cache) : Prop :=
  ∀ key, cache key = cache' key ∨
    (∀ stored, cache key = some stored → stored.owner = b) ∧
      ∀ stored, cache' key = some stored → stored.owner = b

/-- Every stored response lies under the slug of its tenant. -/
def Kept (cache : Cache) : Prop :=
  ∀ place stored, cache place = some stored → stored.statusCode = 200 ∧
    ∃ slug idempotencyKey, place = key sha256 slug idempotencyKey ∧
      tenants slug = some stored.owner

variable {sha256 tenants} {cache cache' : Cache} {r : Request}

/-- Digests are of one length, so the slug can be read off. -/
theorem slug_of_key {slug slug' k k' : String} (same : key sha256 slug k = key sha256 slug' k') :
    slug = slug' := by
  have chars := congrArg String.toList same
  simp only [key, String.toList_append, List.append_assoc, List.append_cancel_left_eq] at chars
  have tails : (":".toList ++ (sha256 k).text.toList).length =
      (":".toList ++ (sha256 k').text.toList).length := by
    simp [String.length_toList, (sha256 k).hex, (sha256 k').hex]
  exact String.toList_inj.mp (List.append_inj' chars tails).1

/-- All that a request may do to what is stored. -/
theorem proceed_stores (cache : Cache) (r : Request) (outcome : Outcome) :
    (proceed sha256 tenants cache r outcome).2 = cache ∨
      ∃ stored, stored.statusCode = 200 ∧ tenants r.tenantSlug = some stored.owner ∧
        (proceed sha256 tenants cache r outcome).2 =
          Function.update cache (key sha256 r.tenantSlug r.idempotencyKey) (some stored) := by
  rw [proceed]
  split
  · exact .inl rfl
  · rename_i tenant found
    split
    · exact .inl rfl
    · split
      · exact .inl rfl
      · rename_i body
        rw [storeResponse]
        split
        · exact .inl rfl
        · exact .inr ⟨⟨200, body, tenant⟩, rfl, found, rfl⟩

theorem proceed_kept (kept : Kept sha256 tenants cache) (outcome : Outcome) :
    Kept sha256 tenants (proceed sha256 tenants cache r outcome).2 := by
  obtain same | ⟨stored, status, owner, stores⟩ := proceed_stores cache r outcome
  · rw [same]
    exact kept
  · intro place stored' there
    rw [stores] at there
    obtain rfl | elsewhere := eq_or_ne place (key sha256 r.tenantSlug r.idempotencyKey)
    · rw [Function.update_self] at there
      obtain rfl := Option.some.inj there
      exact ⟨status, _, _, rfl, owner⟩
    · rw [Function.update_of_ne elsewhere] at there
      exact kept place stored' there

theorem next_kept (kept : Kept sha256 tenants cache) (action : Action) :
    Kept sha256 tenants (next sha256 tenants cache action) := by
  cases action with
  | finish r outcome => exact proceed_kept kept outcome
  | expire place =>
    intro place' stored there
    obtain rfl | elsewhere := eq_or_ne place' place
    · rw [next, Function.update_self] at there
      cases there
    · rw [next, Function.update_of_ne elsewhere] at there
      exact kept place' stored there

theorem after_kept (history : List Action) :
    Kept sha256 tenants (after sha256 tenants history) := by
  induction history using List.reverseRecOn with
  | nil =>
    intro place stored there
    cases there
  | append_singleton history action ih =>
    rw [after, List.foldl_append]
    exact next_kept ih action

theorem Kept.owner (kept : Kept sha256 tenants cache) {stored : Stored}
    (found : getResponse sha256 cache r = some stored) :
    stored.statusCode = 200 ∧ tenants r.tenantSlug = some stored.owner := by
  rw [getResponse] at found
  split at found
  · cases found
  · obtain ⟨status, slug, k, place, owner⟩ := kept _ _ found
    exact ⟨status, slug_of_key place ▸ owner⟩

/-- Past the stored responses nothing is read of them. -/
theorem proceed_response (cache cache' : Cache) (r : Request) (outcome : Outcome) :
    (proceed sha256 tenants cache r outcome).1 = (proceed sha256 tenants cache' r outcome).1 := by
  simp only [proceed]
  split
  · rfl
  · split
    · rfl
    · split
      · rfl
      · rfl

/-- Of another tenant's slug the same is found. -/
theorem getResponse_alike {b : Uuid} (kept : Kept sha256 tenants cache)
    (kept' : Kept sha256 tenants cache') (alike : Alike b cache cache')
    (elsewhere : r.idempotencyKey = "" ∨ tenants r.tenantSlug ≠ some b) :
    getResponse sha256 cache r = getResponse sha256 cache' r := by
  obtain none_ | elsewhere := elsewhere
  · rw [getResponse, getResponse, if_pos none_, if_pos none_]
  · have absent {cache : Cache} (kept : Kept sha256 tenants cache)
        (own : ∀ stored, getResponse sha256 cache r = some stored → stored.owner = b) :
        getResponse sha256 cache r = none := by
      by_contra found
      obtain ⟨stored, found⟩ := Option.ne_none_iff_exists'.mp found
      exact elsewhere (own stored found ▸ (kept.owner found).2)
    by_cases none_ : r.idempotencyKey = ""
    · rw [getResponse, getResponse, if_pos none_, if_pos none_]
    · obtain same | ⟨own, own'⟩ := alike (key sha256 r.tenantSlug r.idempotencyKey)
      · rw [getResponse, getResponse, if_neg none_, if_neg none_, same]
      · rw [absent kept, absent kept']
        · rwa [getResponse, if_neg none_]
        · rwa [getResponse, if_neg none_]

theorem proceed_forbidden {a b : Uuid} (isOf : r.principal.tenantId = some a) (other : a ≠ b)
    (slug : tenants r.tenantSlug = some b) (outcome : Outcome) :
    (proceed sha256 tenants cache r outcome).1 = forbidden := by
  simp [proceed, slug, isOf, other]

/-- The refusal is sent exactly if nothing is found. -/
theorem forbidden_iff {a b : Uuid} (kept : Kept sha256 tenants cache)
    (isOf : r.principal.tenantId = some a) (other : a ≠ b)
    (slug : tenants r.tenantSlug = some b) (outcome : Outcome) :
    processConversation sha256 tenants cache r outcome = forbidden ↔
      getResponse sha256 cache r = none := by
  rw [processConversation]
  cases found : getResponse sha256 cache r with
  | none => exact iff_of_true (proceed_forbidden isOf other slug outcome) rfl
  | some stored =>
    refine iff_of_false (fun same => ?_) nofun
    have status : stored.statusCode = 403 := congrArg Response.status same
    rw [(kept.owner found).1] at status
    cases status

/-- What is stored for a request at the slug of a tenant is of that tenant. -/
theorem alike_finish {b : Uuid} (slug : tenants r.tenantSlug = some b) (outcome : Outcome) :
    Alike b (after sha256 tenants []) (after sha256 tenants [.finish r outcome]) := by
  intro place
  refine .inr ⟨nofun, fun stored' there => ?_⟩
  change (proceed sha256 tenants (fun _ => none) r outcome).2 place = some stored' at there
  obtain same | ⟨stored, -, owner, stores⟩ := proceed_stores (fun _ => none) r outcome
  · rw [same] at there
    cases there
  · rw [stores, Function.update_apply] at there
    split at there
    · rw [← Option.some.inj there]
      exact Option.some.inj (owner.symm.trans slug)
    · cases there

/-- Of a principal scoped to one tenant: the response to a request is the same whatever is stored of
another tenant exactly if the request has no key or is not of the other's slug; and at the other's
slug the principal is refused exactly if no response is stored under the key. -/
theorem same_iff (sha256 : String → Digest) (tenants : String → Option Uuid) {a b : Uuid}
    (r : Request) (isOf : r.principal.tenantId = some a) (other : a ≠ b) :
    ((∀ history history' outcome,
        Alike b (after sha256 tenants history) (after sha256 tenants history') →
        processConversation sha256 tenants (after sha256 tenants history) r outcome =
          processConversation sha256 tenants (after sha256 tenants history') r outcome) ↔
      r.idempotencyKey = "" ∨ tenants r.tenantSlug ≠ some b) ∧
    (tenants r.tenantSlug = some b → ∀ history outcome,
      (processConversation sha256 tenants (after sha256 tenants history) r outcome = forbidden ↔
        getResponse sha256 (after sha256 tenants history) r = none)) := by
  refine ⟨⟨?_, ?_⟩, fun slug history outcome =>
    forbidden_iff (after_kept history) isOf other slug outcome⟩
  · intro same
    by_contra neither
    obtain ⟨some_, slug⟩ := not_or.mp neither
    have slug := not_not.mp slug
    have stored : after sha256 tenants [.finish { r with principal := ⟨some b⟩ } (.response "")] =
        Function.update (fun _ => none) (key sha256 r.tenantSlug r.idempotencyKey)
          (some ⟨200, "", b⟩) := by
      simp [after, next, proceed, slug, storeResponse, some_]
    have refused : processConversation sha256 tenants (after sha256 tenants []) r (.response "") =
        forbidden := by
      rw [forbidden_iff (after_kept []) isOf other slug, getResponse, if_neg some_]
      rfl
    rw [same _ _ _ (alike_finish (r := { r with principal := ⟨some b⟩ }) slug (.response "")),
      forbidden_iff (after_kept _) isOf other slug, getResponse,
      if_neg some_, stored, Function.update_self] at refused
    cases refused
  · intro elsewhere history history' outcome alike
    rw [processConversation, processConversation,
      getResponse_alike (after_kept history) (after_kept history') alike elsewhere]
    split
    · rfl
    · exact proceed_response ..

/-- At its own slug tenant 1 sees nothing of tenant 2. -/
theorem same_iff_own :
    let sha256 : String → Digest := fun _ =>
      ⟨"7c35c5a1785d20704e44d5de4beb81c1fce91b6fe48ed7c3159af6f7f832078b", by decide⟩
    let tenants : String → Option Uuid := fun slug =>
      if slug = "acme" then some 1 else if slug = "globex" then some 2 else none
    ∀ history history' outcome,
      Alike 2 (after sha256 tenants history) (after sha256 tenants history') →
      processConversation sha256 tenants (after sha256 tenants history) ⟨"acme", "k-1", ⟨some 1⟩⟩
          outcome =
        processConversation sha256 tenants (after sha256 tenants history')
          ⟨"acme", "k-1", ⟨some 1⟩⟩ outcome :=
  (same_iff _ _ ⟨"acme", "k-1", ⟨some 1⟩⟩ rfl (by decide)).1.mpr (.inr (by decide))

/-- Tenant 1 asks at the slug of tenant 2 with a key that tenant 2 has used. -/
theorem other_tenant :
    ¬ ∀ (sha256 : String → Digest) (tenants : String → Option Uuid) (a b : Uuid) (r : Request),
      r.principal.tenantId = some a → a ≠ b → ∀ history history' outcome,
        Alike b (after sha256 tenants history) (after sha256 tenants history') →
        processConversation sha256 tenants (after sha256 tenants history) r outcome =
          processConversation sha256 tenants (after sha256 tenants history') r outcome := by
  intro all
  have same := all
    (fun _ => ⟨"7c35c5a1785d20704e44d5de4beb81c1fce91b6fe48ed7c3159af6f7f832078b", by decide⟩)
    (fun slug => if slug = "acme" then some 1 else if slug = "globex" then some 2 else none) 1 2
    ⟨"globex", "k-1", ⟨some 1⟩⟩ rfl (by decide) []
    [.finish ⟨"globex", "k-1", ⟨some 2⟩⟩ (.response "Your balance is 10.")] (.response "")
    (alike_finish rfl _)
  revert same
  decide

end AgentStudio.Api.Replay
