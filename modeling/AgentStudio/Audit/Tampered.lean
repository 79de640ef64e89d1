import AgentStudio.Audit.Intact
import AgentStudio.Py.Iso

/-!
# What a changed row shows

The content of a row is hashed as one text, its fields joined with a bar that they
may contain, an absent one as the empty text. What the digest fixes is what is
between two bars, and the instant.
-/

namespace Py

/-- The texts between two bars of a joined text. -/
theorem join_splitOn {parts : List String} (some_ : parts ≠ []) :
    (join "|" parts).toList.splitOn '|' = parts.flatMap fun part => part.toList.splitOn '|' := by
  induction parts with
  | nil => exact absurd rfl some_
  | cons part rest ih =>
    cases rest with
    | nil => simp [join]
    | cons next rest =>
      have text : (join "|" (part :: next :: rest)).toList =
          part.toList ++ '|' :: (join "|" (next :: rest)).toList := by
        simp [join]
      rw [text, List.splitOn_append_cons_self, ih (List.cons_ne_nil _ _)]
      exact (List.flatMap_cons (f := fun part : String => part.toList.splitOn '|')).symm

theorem join_inj {parts others : List String} (some_ : parts ≠ []) (some' : others ≠ []) :
    join "|" parts = join "|" others ↔
      (parts.flatMap fun part => part.toList.splitOn '|') =
        others.flatMap fun part => part.toList.splitOn '|' := by
  rw [← join_splitOn some_, ← join_splitOn some']
  constructor
  · intro same
    rw [same]
  · intro same
    have texts := congrArg (List.intercalate ['|']) same
    rw [List.intercalate_splitOn, List.intercalate_splitOn] at texts
    exact String.toList_injective texts

end Py

namespace AgentStudio.Audit

/-- What is joined between the id and the instant. -/
def Event.fields (event : Event) : List String :=
  [event.tenantId.getD "", event.actorType, event.actorId.getD "", event.action,
    event.resourceType, event.resourceId.getD "", event.details]

def Event.pieces (event : Event) : List (List Char) :=
  event.fields.flatMap fun field => field.toList.splitOn '|'

/-- The trail with the row of that id replaced. -/
def alter (trail : List Row) (row : Row) : List Row :=
  trail.map fun r => if r.id = row.id then row else r

/-- The same row with other content: its id and its hashes are left as they are. -/
structure Alters (row r : Row) : Prop where
  id : row.id = r.id
  prevHash : row.prevHash = r.prevHash
  eventHash : row.eventHash = r.eventHash

variable {sha256 : String → String} {trail : List Row} {r row a : Row} {event e : Event}
  {p q : Option String}

/-! ## Digests -/

/-- Digests are the same only where nothing that is shown is changed. -/
theorem CollisionFree.computeHash_iff (free : CollisionFree sha256) (ofP : OfHash sha256 p)
    (ofQ : OfHash sha256 q) :
    computeHash sha256 p event = computeHash sha256 q e ↔
      p = q ∧ event.id = e.id ∧ event.pieces = e.pieces ∧ event.createdAt = e.createdAt := by
  have split (link : Option String) (ev : Event) (ofLink : OfHash sha256 link) :
      ([link.getD "", ev.id.val, ev.tenantId.getD "", ev.actorType, ev.actorId.getD "", ev.action,
        ev.resourceType, ev.resourceId.getD "", ev.details, Py.isoformat ev.createdAt].flatMap
          fun part => part.toList.splitOn '|') =
        (link.getD "").toList :: ev.id.val.toList ::
          (ev.pieces ++ [(Py.isoformat ev.createdAt).toList]) := by
    simp [Event.pieces, Event.fields, List.splitOn_eq_singleton (free.bar ofLink),
      List.splitOn_eq_singleton ev.id.property, List.splitOn_eq_singleton (Py.isoformat_bar _)]
  unfold computeHash
  rw [free.injective.eq_iff, Py.join_inj (List.cons_ne_nil _ _) (List.cons_ne_nil _ _),
    split p event ofP, split q e ofQ]
  constructor
  · intro same
    obtain ⟨links, rest⟩ := List.cons.inj same
    obtain ⟨ids, rest⟩ := List.cons.inj rest
    obtain ⟨pieces, instants⟩ := List.append_inj' rest (by simp only [List.length_singleton])
    have instant : (Py.isoformat event.createdAt).toList = (Py.isoformat e.createdAt).toList :=
      (List.cons.inj instants).1
    refine ⟨free.getD_inj ofP ofQ (String.toList_injective links), ?_, pieces, ?_⟩
    · exact Subtype.ext (String.toList_injective ids)
    · exact Py.isoformat_inj (String.toList_injective instant)
  · rintro ⟨rfl, ids, pieces, instants⟩
    rw [ids, pieces, instants]

/-! ## Verifying -/

/-- Each hashed row is verified under the hash of the row that comes before it. -/
theorem verifyFrom_iff {before : Option String} {rows : List Row} :
    (verifyFrom sha256 before rows).1 = true ↔
      ∀ pre r post, rows = pre ++ r :: post → ∀ hash, r.eventHash = some hash →
        hash = computeHash sha256 ((pre.getLast?.map Row.eventHash).getD before) r.toEvent := by
  induction rows generalizing before with
  | nil => simp [verifyFrom]
  | cons r rest ih =>
    have last (pre : List Row) (link : Option String) :
        (((r :: pre).getLast?.map Row.eventHash).getD link) =
          (pre.getLast?.map Row.eventHash).getD r.eventHash := by
      cases pre with
      | nil => rfl
      | cons b pre => simp [List.getLast?_cons]
    have cases_ : (verifyFrom sha256 before (r :: rest)).1 = true ↔
        (∀ hash, r.eventHash = some hash → hash = computeHash sha256 before r.toEvent) ∧
          (verifyFrom sha256 r.eventHash rest).1 = true := by
      rw [verifyFrom]
      cases stored : r.eventHash with
      | none => simp
      | some hash =>
        dsimp only
        split
        next differs =>
          constructor
          · intro is
            cases is
          · rintro ⟨same, -⟩
            exact absurd (same hash rfl) differs
        next same =>
          rw [not_not] at same
          simp [← same]
    rw [cases_, ih]
    constructor
    · rintro ⟨first, later⟩ pre b post is
      cases pre with
      | nil =>
        obtain ⟨rfl, -⟩ := List.cons.inj is
        exact first
      | cons c pre =>
        obtain ⟨rfl, tail⟩ := List.cons.inj is
        rw [last]
        exact later pre b post tail
    · intro all
      refine ⟨all [] r rest rfl, fun pre b post is => ?_⟩
      have here := all (r :: pre) b post (by rw [is, List.cons_append])
      rwa [last] at here

/-- The row before one in the order of the trail. -/
theorem previousHash_split {pre post : List Row} (distinct : (trail.map fun r => r.id).Nodup)
    (is : canonical trail = pre ++ r :: post) :
    previousHash trail r.id r.createdAt = pre.getLast?.bind Row.eventHash := by
  have keys : (trail.map fun r : Row => r.key).Nodup := by
    refine List.pairwise_map.mpr ((List.pairwise_map.mp distinct).imp ?_)
    intro a b apart same
    exact apart (congrArg (fun k => (ofLex k).2) same)
  have increasing := Log.inOrder_increasing keys
  rw [show Log.inOrder (fun r : Row => r.key) trail = pre ++ r :: post from is] at increasing
  obtain ⟨low, high, across⟩ := List.pairwise_append.mp increasing
  have above := (List.pairwise_cons.mp high).1
  have before : Log.inOrder (fun r : Row => r.key) (trail.filter fun a => a.key < r.key) = pre := by
    have part : (canonical trail).filter (fun a => a.key < r.key) = pre := by
      have these : pre.filter (fun a => a.key < r.key) = pre :=
        List.filter_eq_self.mpr fun a mem => by simpa using across a mem r List.mem_cons_self
      have those : post.filter (fun a => a.key < r.key) = [] :=
        List.filter_eq_nil_iff.mpr fun a mem => by simpa using le_of_lt (above a mem)
      rw [is, List.filter_append, List.filter_cons_of_neg (by simp), these, those, List.append_nil]
    have same : (Log.inOrder (fun r : Row => r.key) (trail.filter fun a => a.key < r.key)).Perm
        pre := by
      rw [← part]
      exact (List.perm_insertionSort _ _).trans
        ((List.perm_insertionSort _ trail).symm.filter _)
    have some_ : ((trail.filter fun a => a.key < r.key).map fun r : Row => r.key).Nodup :=
      keys.sublist (List.filter_sublist.map _)
    have sorted := Log.inOrder_increasing some_
    exact same.eq_of_pairwise (fun a b _ _ less more => absurd less (lt_asymm more)) sorted low
  rw [previousHash_eq, Log.predecessor]
  exact congrArg (fun l : List Row => l.getLast?.bind Row.eventHash) before

/-- A trail is accepted whose hashed rows are each hashed under the row before. -/
theorem verifyChain_iff (distinct : (trail.map fun r => r.id).Nodup) :
    (verifyChain sha256 trail none).1 = true ↔
      ∀ r ∈ trail, ∀ hash, r.eventHash = some hash →
        hash = computeHash sha256 (previousHash trail r.id r.createdAt) r.toEvent := by
  have links (pre : List Row) : (pre.getLast?.map Row.eventHash).getD none =
      pre.getLast?.bind Row.eventHash := by
    cases pre.getLast? <;> rfl
  rw [verifyChain_all none rfl, verifyFrom_iff]
  constructor
  · intro all r mem hash stored
    have here : r ∈ canonical trail := Log.mem_inOrder.mpr mem
    obtain ⟨pre, post, is⟩ := List.append_of_mem here
    rw [previousHash_split distinct is, ← links]
    exact all pre r post is hash stored
  · intro all pre r post is hash stored
    have mem : r ∈ trail := by
      have here : r ∈ canonical trail := by simp [is]
      exact Log.mem_inOrder.mp here
    rw [links, ← previousHash_split distinct is]
    exact all r mem hash stored

/-! ## Altered rows -/

/-- The alteration shows: in what is hashed of the row, or, where the row has no hash, in
what a hashed row comes to stand under. -/
def Detectable (trail : List Row) (r row : Row) : Prop :=
  (r.eventHash ≠ none ∧ (row.pieces ≠ r.pieces ∨ row.createdAt ≠ r.createdAt)) ∨
    (r.eventHash = none ∧ ∃ a ∈ trail, a.eventHash ≠ none ∧
      previousHash (alter trail row) a.id a.createdAt ≠ previousHash trail a.id a.createdAt)

theorem alter_ids : (alter trail row).map (fun r => r.id) = trail.map fun r => r.id := by
  rw [alter, List.map_map]
  refine List.map_congr_left fun r _ => ?_
  by_cases its : r.id = row.id <;> simp [its]

theorem mem_alter (alters : Alters row r) (mem : r ∈ trail)
    (distinct : (trail.map fun r => r.id).Nodup) :
    a ∈ alter trail row ↔ a = row ∨ a ∈ trail ∧ a ≠ r := by
  unfold alter
  rw [List.mem_map]
  have its (b : Row) (memB : b ∈ trail) : b.id = row.id ↔ b = r := by
    rw [alters.id]
    constructor
    · intro same
      exact List.inj_on_of_nodup_map distinct memB mem same
    · rintro rfl
      rfl
  constructor
  · rintro ⟨b, memB, rfl⟩
    by_cases this : b = r
    · exact .inl (if_pos ((its b memB).mpr this))
    · rw [if_neg fun same => this ((its b memB).mp same)]
      exact .inr ⟨memB, this⟩
  · rintro (rfl | ⟨memA, other⟩)
    · exact ⟨r, mem, if_pos alters.id.symm⟩
    · exact ⟨a, memA, if_neg fun same => other ((its a memA).mp same)⟩

/-- What is linked to is stored, not read off the content. -/
theorem previousHash_ofHash (stored : ∀ a ∈ trail, OfHash sha256 a.eventHash) (id : EventId)
    (createdAt : Nat) : OfHash sha256 (previousHash trail id createdAt) := by
  intro hash is
  unfold previousHash at is
  obtain ⟨a, last, its⟩ := Option.bind_eq_some_iff.mp is
  have mem := Log.mem_inOrder.mp (List.mem_of_getLast? last)
  exact stored a (List.mem_filter.mp mem).1 hash its

/-- The rows stand where they stood. -/
theorem previousHash_alter (alters : Alters row r) (mem : r ∈ trail)
    (distinct : (trail.map fun r => r.id).Nodup) (instant : row.createdAt = r.createdAt)
    (event : Event) : previousHash (alter trail row) event.id event.createdAt =
      previousHash trail event.id event.createdAt := by
  have keeps (b : Row) (memB : b ∈ trail) :
      (if b.id = row.id then row else b).key = b.key ∧
        (if b.id = row.id then row else b).eventHash = b.eventHash := by
    by_cases its : b.id = row.id
    · obtain rfl := List.inj_on_of_nodup_map distinct memB mem (its.trans alters.id)
      rw [if_pos its]
      exact ⟨congrArg toLex (Prod.ext instant alters.id), alters.eventHash⟩
    · rw [if_neg its]
      exact ⟨rfl, rfl⟩
  rw [previousHash_eq, previousHash_eq, alter, Log.predecessor_map fun b memB => (keeps b memB).1]
  cases found : Log.predecessor (fun r : Row => r.key) event.key trail with
  | none => rfl
  | some b => exact (keeps b (Log.predecessor_mem found).1).2

section Accepted

variable (distinct : (trail.map fun r => r.id).Nodup)
  (ok : (verifyChain sha256 trail none).1 = true) (mem : r ∈ trail) (alters : Alters row r)

include distinct ok mem alters

theorem ofHash_of_accepted :
    (∀ a ∈ trail, OfHash sha256 a.eventHash) ∧ ∀ a ∈ alter trail row, OfHash sha256 a.eventHash := by
  have stored (a : Row) (memA : a ∈ trail) : OfHash sha256 a.eventHash := by
    intro hash is
    exact ⟨_, (verifyChain_iff distinct).mp ok a memA hash is⟩
  refine ⟨stored, fun a memA => ?_⟩
  rcases (mem_alter alters mem distinct).mp memA with rfl | ⟨memA, -⟩
  · rw [alters.eventHash]
    exact stored r mem
  · exact stored a memA

variable (free : CollisionFree sha256)

include free

/-- A hashed row is read again: the trail is accepted if nothing that is hashed is changed. -/
theorem accepted_hashed (hashed : r.eventHash ≠ none) :
    (verifyChain sha256 (alter trail row) none).1 = true ↔
      row.pieces = r.pieces ∧ row.createdAt = r.createdAt := by
  obtain ⟨hash, is⟩ := Option.ne_none_iff_exists'.mp hashed
  obtain ⟨stored, altered⟩ := ofHash_of_accepted distinct ok mem alters
  have before := (verifyChain_iff distinct).mp ok
  have distinct' : ((alter trail row).map fun r => r.id).Nodup := by rwa [alter_ids]
  rw [verifyChain_iff distinct']
  have links (e : Event) := previousHash_ofHash stored e.id e.createdAt
  have linksA (e : Event) := previousHash_ofHash altered e.id e.createdAt
  constructor
  · intro all
    have here := all row ((mem_alter alters mem distinct).mpr (.inl rfl)) hash
      (alters.eventHash.trans is)
    have there := before r mem hash is
    exact ((free.computeHash_iff (linksA row.toEvent) (links r.toEvent)).mp
      (here.symm.trans there)).2.2
  · intro ⟨pieces, instant⟩ a memA stored' isA
    rw [previousHash_alter alters mem distinct instant a.toEvent]
    rcases (mem_alter alters mem distinct).mp memA with rfl | ⟨memA, -⟩
    · rw [before r mem stored' (alters.eventHash.symm.trans isA), alters.id, instant]
      exact (free.computeHash_iff (links r.toEvent) (links r.toEvent)).mpr
        ⟨rfl, alters.id.symm, pieces.symm, instant.symm⟩
    · exact before a memA stored' isA

/-- A row without a hash is not read: its instant alone matters, to the others. -/
theorem accepted_legacy (legacy : r.eventHash = none) :
    (verifyChain sha256 (alter trail row) none).1 = true ↔ ∀ a ∈ trail, a.eventHash ≠ none →
      previousHash (alter trail row) a.id a.createdAt = previousHash trail a.id a.createdAt := by
  obtain ⟨stored, altered⟩ := ofHash_of_accepted distinct ok mem alters
  have before := (verifyChain_iff distinct).mp ok
  have distinct' : ((alter trail row).map fun r => r.id).Nodup := by rwa [alter_ids]
  rw [verifyChain_iff distinct']
  have links (e : Event) := previousHash_ofHash stored e.id e.createdAt
  have linksA (e : Event) := previousHash_ofHash altered e.id e.createdAt
  constructor
  · intro all a memA hashed
    obtain ⟨hash, is⟩ := Option.ne_none_iff_exists'.mp hashed
    have other : a ≠ r := by
      rintro rfl
      exact hashed legacy
    have here := all a ((mem_alter alters mem distinct).mpr (.inr ⟨memA, other⟩)) hash is
    have there := before a memA hash is
    exact ((free.computeHash_iff (linksA a.toEvent) (links a.toEvent)).mp
      (here.symm.trans there)).1
  · intro all a memA hash is
    rcases (mem_alter alters mem distinct).mp memA with rfl | ⟨memA, -⟩
    · rw [alters.eventHash, legacy] at is
      cases is
    · rw [all a memA (by simp [is])]
      exact before a memA hash is

end Accepted

/-- A digest fixes the pieces and the instant, and no more. An altered trail is rejected
exactly where the alteration shows in them. -/
theorem rejected_iff (free : CollisionFree sha256) :
    (∀ (prevHash : Option String) (event e : Event), OfHash sha256 prevHash →
      (computeHash sha256 prevHash event = computeHash sha256 prevHash e ↔
        event.id = e.id ∧ event.pieces = e.pieces ∧ event.createdAt = e.createdAt)) ∧
    ∀ (trail : List Row) (r row : Row), (trail.map fun r => r.id).Nodup →
      (verifyChain sha256 trail none).1 = true → r ∈ trail → Alters row r →
      ((verifyChain sha256 (alter trail row) none).1 = false ↔ Detectable trail r row) := by
  constructor
  · intro prevHash event e ofHash
    rw [free.computeHash_iff ofHash ofHash]
    exact and_iff_right rfl
  · intro trail r row distinct ok mem alters
    rw [← Bool.not_eq_true]
    unfold Detectable
    by_cases legacy : r.eventHash = none
    · rw [accepted_legacy distinct ok mem alters free legacy]
      simp [legacy]
    · rw [accepted_hashed distinct ok mem alters free legacy]
      simp only [ne_eq, legacy, not_false_eq_true, true_and, false_and, or_false, not_and_or]

/-- By an actor whose name has a bar in it. -/
def barred : Event := { first with actorId := some "ann|root", action := "view" }

def barredRow : Row :=
  { barred with prevHash := none, eventHash := some (computeHash pairs none barred) }

/-- The end of the name is read as the beginning of the action. -/
def shiftedRow : Row := { barredRow with actorId := some "ann", action := "root|view" }

theorem rejected_iff_renamed :
    (verifyChain pairs (alter [barredRow] { barredRow with actorId := some "bob|root" }) none).1 =
      false := by
  refine ((rejected_iff pairs_collisionFree).2 [barredRow] barredRow
    { barredRow with actorId := some "bob|root" } (by decide) (by decide +kernel)
    List.mem_cons_self ⟨rfl, rfl, rfl⟩).mpr (.inl ⟨by simp [barredRow], .inl ?_⟩)
  decide +kernel

/-- Other content, the same digest; so too an empty text where there was none. -/
theorem accepted_shifted :
    run pairs [barred] = [barredRow] ∧ (verifyChain pairs [barredRow] none).1 = true ∧
      computeHash pairs none { barred with resourceId := some "" } =
        computeHash pairs none barred ∧ Alters shiftedRow barredRow ∧
      shiftedRow.actorId ≠ barredRow.actorId ∧ shiftedRow.action ≠ barredRow.action ∧
      computeHash pairs none shiftedRow.toEvent = computeHash pairs none barredRow.toEvent ∧
      (verifyChain pairs (alter [barredRow] shiftedRow) none).1 = true ∧
      ¬ ∀ (trail : List Row) (r row : Row), (trail.map fun r => r.id).Nodup →
        (verifyChain pairs trail none).1 = true → r ∈ trail → Alters row r → row ≠ r →
        (verifyChain pairs (alter trail row) none).1 = false := by
  have alters : Alters shiftedRow barredRow := ⟨rfl, rfl, rfl⟩
  have before : (verifyChain pairs [barredRow] none).1 = true := by decide +kernel
  have after : (verifyChain pairs (alter [barredRow] shiftedRow) none).1 = true := by
    decide +kernel
  refine ⟨rfl, before, rfl, alters, by decide, by decide, by decide +kernel, after,
    fun all => ?_⟩
  have rejected := all [barredRow] barredRow shiftedRow (by decide) before List.mem_cons_self
    alters (by decide +kernel)
  rw [after] at rejected
  cases rejected

end AgentStudio.Audit
