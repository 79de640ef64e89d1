import AgentStudio.Audit.Trail

/-!
# When the trail verifies

A row links to the row before it in the order of `(created_at, id)` when it is
added, and is verified against the row before it when the trail is read. Ids are
random, so a row can be put before one with the same timestamp; and the rows of
one tenant are verified as if they were the whole trail.
-/

namespace AgentStudio.Audit

/-- What SHA-256 is relied on for: no collisions, and hexadecimal digits. -/
structure CollisionFree (sha256 : String → String) : Prop where
  injective : Function.Injective sha256
  hex : ∀ text, sha256 text ≠ "" ∧ '|' ∉ (sha256 text).toList

def Intact (sha256 : String → String) (trail : List Row) : Prop :=
  (verifyChain sha256 trail none).1 ∧ ∀ tenant, (verifyChain sha256 trail (some tenant)).1

/-- Rows of one timestamp were added in the order of their ids. -/
def Ascending (trail : List Row) : Prop :=
  trail.Pairwise fun a b => a.createdAt = b.createdAt → a.id < b.id

/-- No other row was added before one of this tenant. -/
def Leading (tenant : String) (trail : List Row) : Prop :=
  trail.Pairwise fun a b => b.tenantId = some tenant → a.tenantId = some tenant

def Row.hash (r : Row) : String := r.eventHash.getD ""

/-- What `add` keeps of the trail. -/
structure Sealed (sha256 : String → String) (trail : List Row) : Prop where
  hashed : ∀ r ∈ trail, r.eventHash = some (computeHash sha256 r.prevHash r.toEvent)
  linked : ∀ r ∈ trail, ∀ hash, r.prevHash = some hash → ∃ text, hash = sha256 text
  distinct : (trail.map fun r => r.id).Nodup
  recorded : Log.Recorded (fun r => r.key) Row.hash Row.prevHash trail

variable {sha256 : String → String} {trail : List Row} {r a : Row} {event : Event}

/-! ## Hashed texts -/

theorem list_bar {l m : List Char} {x y : List Char} (hl : '|' ∉ l) (hm : '|' ∉ m)
    (same : l ++ '|' :: x = m ++ '|' :: y) : l = m ∧ x = y := by
  induction l generalizing m with
  | nil =>
    cases m with
    | nil => exact ⟨rfl, (List.cons.inj same).2⟩
    | cons c m =>
      have head := (List.cons.inj same).1
      exact absurd (head ▸ List.mem_cons_self) hm
  | cons c l ih =>
    cases m with
    | nil =>
      have head := (List.cons.inj same).1
      exact absurd (head ▸ List.mem_cons_self) hl
    | cons d m =>
      obtain ⟨rfl, tail⟩ := List.cons.inj same
      obtain ⟨rfl, rest⟩ := ih (fun h => hl (List.mem_cons_of_mem _ h))
        (fun h => hm (List.mem_cons_of_mem _ h)) tail
      exact ⟨rfl, rest⟩

/-- A field without a bar can be read off what is hashed. -/
theorem join_bar {a b : String} {rest more : List String} (barA : '|' ∉ a.toList)
    (barB : '|' ∉ b.toList) (some_ : rest ≠ []) (some' : more ≠ [])
    (same : Py.join "|" (a :: rest) = Py.join "|" (b :: more)) :
    a = b ∧ Py.join "|" rest = Py.join "|" more := by
  obtain ⟨c, rest, rfl⟩ := List.exists_cons_of_ne_nil some_
  obtain ⟨d, more, rfl⟩ := List.exists_cons_of_ne_nil some'
  have lists := congrArg String.toList same
  simp only [Py.join, String.toList_append, List.append_assoc] at lists
  obtain ⟨front, back⟩ := list_bar barA barB lists
  exact ⟨String.toList_injective front, String.toList_injective (by simpa using back)⟩

/-- The hash that a row links to, or none. -/
def OfHash (sha256 : String → String) (prevHash : Option String) : Prop :=
  ∀ hash, prevHash = some hash → ∃ text, hash = sha256 text

namespace CollisionFree

variable {p q : Option String} {e : Event}

theorem bar (free : CollisionFree sha256) (ofP : OfHash sha256 p) : '|' ∉ (p.getD "").toList := by
  cases p with
  | none => simp
  | some hash =>
    obtain ⟨text, rfl⟩ := ofP hash rfl
    exact (free.hex text).2

theorem getD_inj (free : CollisionFree sha256) (ofP : OfHash sha256 p) (ofQ : OfHash sha256 q)
    (same : p.getD "" = q.getD "") : p = q := by
  cases p with
  | none =>
    cases q with
    | none => rfl
    | some hash =>
      obtain ⟨text, rfl⟩ := ofQ hash rfl
      exact absurd same.symm (free.hex text).1
  | some hash =>
    obtain ⟨text, rfl⟩ := ofP hash rfl
    cases q with
    | none => exact absurd same (free.hex text).1
    | some other => exact congrArg some same

/-- A hash commits to the link and to the id. -/
theorem computeHash_inj (free : CollisionFree sha256) (ofP : OfHash sha256 p)
    (ofQ : OfHash sha256 q)
    (same : computeHash sha256 p event = computeHash sha256 q e) : p = q ∧ event.id = e.id := by
  obtain ⟨links, rest⟩ := join_bar (free.bar ofP) (free.bar ofQ) (by simp) (by simp)
    (free.injective same)
  obtain ⟨ids, -⟩ := join_bar event.id.property e.id.property (by simp) (by simp) rest
  exact ⟨free.getD_inj ofP ofQ links, Subtype.ext ids⟩

end CollisionFree

/-! ## Adding -/

theorem previousHash_eq (trail : List Row) (event : Event) :
    previousHash trail event.id event.createdAt =
      (Log.predecessor (fun r : Row => r.key) event.key trail).bind Row.eventHash := by
  unfold previousHash Log.predecessor canonical
  congr 4
  funext r
  congr 1
  apply propext
  simp [Event.key, Prod.Lex.toLex_lt_toLex]

theorem add_eq {after : List Row} (h : add sha256 trail event = some after) :
    (∀ r ∈ trail, r.id ≠ event.id) ∧ ∃ r : Row, after = trail ++ [r] ∧ r.toEvent = event ∧
      r.prevHash = previousHash trail event.id event.createdAt ∧
      r.eventHash = some (computeHash sha256 r.prevHash r.toEvent) := by
  unfold add at h
  split at h
  · cases h
  next new =>
    push Not at new
    exact ⟨new, _, (Option.some.inj h).symm, rfl, rfl, rfl⟩

namespace Sealed

theorem nil : Sealed sha256 [] := by
  refine ⟨?_, ?_, List.nodup_nil, Log.recorded_nil⟩
  · intro r mem
    cases mem
  · intro r mem
    cases mem

theorem hash_eq (sealed_ : Sealed sha256 trail) (mem : r ∈ trail) :
    r.eventHash = some r.hash ∧ r.hash = computeHash sha256 r.prevHash r.toEvent := by
  simp [Row.hash, sealed_.hashed r mem]

theorem add {after : List Row} (sealed_ : Sealed sha256 trail)
    (h : add sha256 trail event = some after) : Sealed sha256 after := by
  obtain ⟨new, r, rfl, rfl, prev, hash⟩ := add_eq h
  have link : r.prevHash =
      (Log.predecessor (fun r : Row => r.key) r.key trail).map Row.hash := by
    rw [prev, previousHash_eq]
    cases found : Log.predecessor (fun r : Row => r.key) r.key trail with
    | none => rfl
    | some p => exact (sealed_.hash_eq (Log.predecessor_mem found).1).1
  refine ⟨fun a mem => ?_, fun a mem text is => ?_, ?_, sealed_.recorded.snoc link⟩
  · rcases List.mem_append.mp mem with old | last
    · exact sealed_.hashed a old
    · rw [List.mem_singleton.mp last]
      exact hash
  · rcases List.mem_append.mp mem with old | last
    · exact sealed_.linked a old text is
    · rw [List.mem_singleton.mp last, link] at is
      obtain ⟨p, found, rfl⟩ := Option.map_eq_some_iff.mp is
      exact ⟨_, (sealed_.hash_eq (Log.predecessor_mem found).1).2⟩
  · rw [List.map_append]
    refine List.Nodup.append sealed_.distinct (List.nodup_singleton _) ?_
    intro id mem last
    obtain ⟨a, memA, rfl⟩ := List.mem_map.mp mem
    exact new a memA (List.mem_singleton.mp last)

end Sealed

theorem run_sealed (calls : List Event) : Sealed sha256 (run sha256 calls) := by
  unfold run
  have step (trail : List Row) (sealed_ : Sealed sha256 trail) : Sealed sha256
      (calls.foldl (fun trail event => (add sha256 trail event).getD trail) trail) := by
    induction calls generalizing trail with
    | nil => exact sealed_
    | cons event calls ih =>
      apply ih
      beta_reduce
      cases added : add sha256 trail event with
      | none => exact sealed_
      | some after => exact sealed_.add added
  exact step [] Sealed.nil

/-- The rows are the calls that did not raise. -/
theorem run_sublist (calls : List Event) :
    (run sha256 calls).map Row.toEvent |>.Sublist calls := by
  have step (trail : List Row) : ∃ more : List Row,
      calls.foldl (fun trail event => (add sha256 trail event).getD trail) trail = trail ++ more ∧
        (more.map Row.toEvent).Sublist calls := by
    induction calls generalizing trail with
    | nil => exact ⟨[], by simp⟩
    | cons event calls ih =>
      rw [List.foldl_cons]
      obtain ⟨more, is, sub⟩ := ih ((add sha256 trail event).getD trail)
      cases added : add sha256 trail event with
      | none =>
        rw [added, Option.getD_none] at is
        exact ⟨more, is, sub.cons event⟩
      | some after =>
        obtain ⟨-, r, rfl, rfl, -⟩ := add_eq added
        rw [added, Option.getD_some] at is
        exact ⟨r :: more, by simp [is], sub.cons_cons r.toEvent⟩
  obtain ⟨more, is, sub⟩ := step []
  rw [run, is]
  exact sub

/-! ## Verifying -/

variable {rows : List Row} {before : Option String}

theorem verifyFrom_linked (sealed_ : Sealed sha256 trail) (sub : ∀ r ∈ rows, r ∈ trail)
    (chain : Log.Linked Row.hash Row.prevHash before rows) :
    (verifyFrom sha256 before rows).1 = true := by
  induction rows generalizing before with
  | nil => rfl
  | cons r rest ih =>
    obtain ⟨link, chain⟩ := chain
    obtain ⟨hash, is⟩ := sealed_.hash_eq (sub r List.mem_cons_self)
    rw [verifyFrom, hash]
    dsimp only
    rw [if_neg (not_not.mpr (link ▸ is))]
    exact ih (fun a mem => sub a (List.mem_cons_of_mem _ mem)) chain

theorem linked_of_verifyFrom (free : CollisionFree sha256) (sealed_ : Sealed sha256 trail)
    (sub : ∀ r ∈ rows, r ∈ trail) (ofBefore : OfHash sha256 before)
    (ok : (verifyFrom sha256 before rows).1 = true) :
    Log.Linked Row.hash Row.prevHash before rows := by
  induction rows generalizing before with
  | nil => trivial
  | cons r rest ih =>
    have memR := sub r List.mem_cons_self
    obtain ⟨hash, is⟩ := sealed_.hash_eq memR
    rw [verifyFrom, hash] at ok
    dsimp only at ok
    split at ok
    next => cases ok
    next same =>
      have commits := free.computeHash_inj (sealed_.linked r memR) ofBefore
        (is.symm.trans (not_not.mp same))
      refine ⟨commits.1, ih (fun a mem => sub a (List.mem_cons_of_mem _ mem)) ?_ ok⟩
      intro text here
      exact ⟨_, (Option.some.inj here).symm.trans is⟩

theorem OfHash.none : OfHash sha256 none := fun _ is => nomatch is

namespace Sealed

theorem keys (sealed_ : Sealed sha256 trail) : (trail.map fun r => r.key).Nodup := by
  have ids := List.pairwise_map.mp sealed_.distinct
  refine List.pairwise_map.mpr (ids.imp ?_)
  intro a b apart same
  exact apart (congrArg (fun k => (ofLex k).2) same)

/-- Rows of one hash are one row. -/
theorem hash_inj (sealed_ : Sealed sha256 trail) (free : CollisionFree sha256) :
    ∀ a ∈ trail, ∀ b ∈ trail, a.hash = b.hash → a = b := by
  intro a memA b memB same
  rw [(sealed_.hash_eq memA).2, (sealed_.hash_eq memB).2] at same
  have ids := (free.computeHash_inj (sealed_.linked a memA) (sealed_.linked b memB) same).2
  exact List.inj_on_of_nodup_map sealed_.distinct memA memB ids

end Sealed

/-- Under a clock that does not go back, `Ascending` is the order of the keys. -/
theorem ascending_iff (clock : trail.Pairwise fun a b => a.createdAt ≤ b.createdAt) :
    Ascending trail ↔ trail.Pairwise fun a b => a.key < b.key := by
  constructor
  · intro ascending
    refine (clock.and ascending).imp ?_
    intro a b ⟨le, ties⟩
    rw [Event.key, Event.key, Prod.Lex.toLex_lt_toLex]
    rcases Nat.lt_or_eq_of_le le with less | same
    · exact .inl less
    · exact .inr ⟨same, ties same⟩
  · intro increasing
    refine increasing.imp ?_
    intro a b less same
    rw [Event.key, Event.key, Prod.Lex.toLex_lt_toLex] at less
    rcases less with less | ⟨-, less⟩
    · exact absurd same (Nat.ne_of_lt less)
    · exact less

theorem verifyChain_all (tenantId : Option String) (all : tenantId.getD "" = "") :
    verifyChain sha256 trail tenantId = verifyFrom sha256 none (canonical trail) := by
  cases tenantId with
  | none => rfl
  | some tenant =>
    obtain rfl : tenant = "" := all
    rfl

theorem verifyChain_tenant {tenant : String} (named : tenant ≠ "")
    (increasing : trail.Pairwise fun a b => a.key < b.key) :
    verifyChain sha256 trail (some tenant) =
      verifyFrom sha256 none (trail.filter fun r => r.tenantId = some tenant) := by
  simp only [verifyChain, if_neg named, canonical]
  rw [Log.inOrder_eq (increasing.sublist List.filter_sublist)]

/-- The verifier accepts a trail written in the order it is read. -/
theorem intact_of_ascending (sealed_ : Sealed sha256 trail)
    (clock : trail.Pairwise fun a b => a.createdAt ≤ b.createdAt) (ascending : Ascending trail)
    (leading : ∀ tenant, tenant ≠ "" → Leading tenant trail) : Intact sha256 trail := by
  have increasing := (ascending_iff clock).mp ascending
  have chain := sealed_.recorded.linked increasing
  have whole : (verifyFrom sha256 none (canonical trail)).1 = true :=
    verifyFrom_linked sealed_ (fun r mem => Log.mem_inOrder.mp mem) chain
  refine ⟨whole, fun tenant => ?_⟩
  by_cases named : tenant = ""
  · rw [verifyChain_all (some tenant) named]
    exact whole
  · rw [verifyChain_tenant named increasing]
    rw [Log.inOrder_eq increasing] at chain
    refine verifyFrom_linked sealed_ (fun r mem => (List.mem_filter.mp mem).1) (chain.filter ?_)
    exact (leading tenant named).imp fun h is => by simpa using h (by simpa using is)

/-- It accepts no other. -/
theorem ascending_of_intact (free : CollisionFree sha256) (sealed_ : Sealed sha256 trail)
    (clock : trail.Pairwise fun a b => a.createdAt ≤ b.createdAt) (intact : Intact sha256 trail) :
    Ascending trail ∧ ∀ tenant, tenant ≠ "" → Leading tenant trail := by
  have whole : Log.Linked Row.hash Row.prevHash none (canonical trail) :=
    linked_of_verifyFrom free sealed_ (fun r mem => Log.mem_inOrder.mp mem) .none intact.1
  have increasing := sealed_.recorded.increasing sealed_.keys (sealed_.hash_inj free) whole
  refine ⟨(ascending_iff clock).mpr increasing, fun tenant named => ?_⟩
  have ok := intact.2 tenant
  rw [verifyChain_tenant named increasing] at ok
  have part := linked_of_verifyFrom free sealed_ (fun r mem => (List.mem_filter.mp mem).1) .none ok
  rw [canonical, Log.inOrder_eq increasing] at whole
  have hashes : (trail.map Row.hash).Nodup := by
    refine List.Nodup.map_on (fun a memA b memB => sealed_.hash_inj free a memA b memB) ?_
    exact List.Nodup.of_map _ sealed_.distinct
  have first := whole.first_of_filter (fun _ _ is => nomatch is) hashes part
  exact first.imp fun h is => by simpa using h (by simpa using is)

/-- A trail verifies, for all tenants and for each, when the rows of a timestamp
were added by id and each tenant's rows before all others; where digests do not
collide, only then. -/
theorem intact_iff (sha256 : String → String) (calls : List Event)
    (clock : calls.Pairwise fun a b => a.createdAt ≤ b.createdAt) :
    (Ascending (run sha256 calls) ∧
      (∀ tenant, tenant ≠ "" → Leading tenant (run sha256 calls)) →
        Intact sha256 (run sha256 calls)) ∧
    (CollisionFree sha256 → Intact sha256 (run sha256 calls) →
      Ascending (run sha256 calls) ∧
        ∀ tenant, tenant ≠ "" → Leading tenant (run sha256 calls)) := by
  have sealed_ := @run_sealed sha256 calls
  have times := List.pairwise_map.mp (clock.sublist (@run_sublist sha256 calls))
  constructor
  · intro ⟨ascending, leading⟩
    exact intact_of_ascending sealed_ times ascending leading
  · intro free intact
    exact ascending_of_intact free sealed_ times intact

/-- A digest in two characters for each of the text's. -/
def pairs (text : String) : String :=
  String.ofList ('h' :: text.toList.flatMap fun c => if c = '|' then ['0', 'b'] else ['1', c])

theorem pairs_collisionFree : CollisionFree pairs where
  injective a b same := by
    have lists := (List.cons.inj (String.ofList_injective same)).2
    apply String.toList_injective
    generalize a.toList = l at lists
    generalize b.toList = m at lists
    induction l generalizing m with
    | nil =>
      cases m with
      | nil => rfl
      | cons c m => by_cases bar : c = '|' <;> simp [bar] at lists
    | cons c l ih =>
      cases m with
      | nil => by_cases bar : c = '|' <;> simp [bar] at lists
      | cons d m =>
        by_cases barC : c = '|' <;> by_cases barD : d = '|' <;> simp [barC, barD] at lists
        · rw [barC, barD, ih m lists]
        · rw [lists.1, ih m lists.2]
  hex text := by
    constructor
    · intro empty
      have lists := congrArg String.toList empty
      simp only [pairs, String.toList_ofList, String.toList_empty] at lists
      cases lists
    · simp only [pairs, String.toList_ofList, List.mem_cons, List.mem_flatMap, not_or, not_exists]
      refine ⟨by decide, fun c h => ?_⟩
      by_cases bar : c = '|'
      · simp [bar] at h
      · simp [bar] at h
        exact bar h.2.symm

def first : Event :=
  { id := ⟨"1b", by decide⟩, tenantId := some "t", action := "add", resourceType := "key",
    createdAt := 5 }

/-- At the same time, under a smaller id. -/
def second : Event := { first with id := ⟨"1a", by decide⟩ }

/-- Later, for another tenant. -/
def third : Event := { first with id := ⟨"1c", by decide⟩, tenantId := some "u", createdAt := 6 }

theorem intact_iff_two :
    Intact pairs (run pairs [first, { third with tenantId := some "t" }]) := by
  refine (intact_iff pairs [first, { third with tenantId := some "t" }] (by decide)).1 ⟨?_, ?_⟩
  · unfold Ascending
    decide +kernel
  · intro tenant _
    have is : run pairs [first, { third with tenantId := some "t" }] =
        [_, _] := rfl
    rw [is]
    refine List.pairwise_pair.mpr id

/-- A tie, and two tenants: neither trail verifies. -/
theorem not_intact :
    verifyChain pairs (run pairs [first, second]) none = (false, some first.id) ∧
      verifyChain pairs (run pairs [first, third]) (some "u") = (false, some third.id) ∧
      ¬ Intact pairs (run pairs [first, second]) ∧ ¬ Intact pairs (run pairs [first, third]) := by
  have tie : verifyChain pairs (run pairs [first, second]) none = (false, some first.id) := by
    decide +kernel
  have tenants : verifyChain pairs (run pairs [first, third]) (some "u") =
      (false, some third.id) := by
    decide +kernel
  refine ⟨tie, tenants, fun intact => ?_, fun intact => ?_⟩
  · have ok := intact.1
    rw [tie] at ok
    cases ok
  · have ok := intact.2 "u"
    rw [tenants] at ok
    cases ok

end AgentStudio.Audit
