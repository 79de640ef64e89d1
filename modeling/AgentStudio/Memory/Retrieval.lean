import AgentStudio.Memory.Facts
import AgentStudio.Packing.Ranking
import AgentStudio.Py.Text

/-!
# Facts for a message

`retrieve_facts`: the database gives the newest facts of a user, up to a number of rows, and of these
the ones with most words of the message are taken. The number of rows is a multiple of the limit, so
what is relevant may be older than all of them.
-/

namespace AgentStudio.Memory

open Threads

/-- A row of memory with the time of its creation. -/
structure Fact extends MemoryRow where
  createdAt : ℚ
  deriving DecidableEq

/-- The `where` of `retrieve`. -/
def MemoryRow.readable (row : MemoryRow) (now : ℚ) (tenantId : Uuid) (endUserId : Option String) :
    Bool :=
  row.tenantId == tenantId && !row.erased && row.endUserId == endUserId &&
    match row.expiresAt with
    | none => true
    | some expiresAt => decide (now < expiresAt)

/-- `order_by(created_at.desc())`: rows that were created at one time come in any order. -/
structure Database where
  newestFirst : List Fact → List Fact
  perm : ∀ facts, (newestFirst facts).Perm facts
  sorted : ∀ facts, (newestFirst facts).Pairwise fun a b => b.createdAt ≤ a.createdAt

/-- `str.lower` and `\w`. -/
structure Unicode where
  lower : String → String
  isWord : Char → Bool

/-- `s[:limit]`. -/
def upTo {α : Type} (l : List α) (limit : Int) : List α :=
  l.take (if limit < 0 then (l.length + limit).toNat else limit.toNat)

/-- The rows that a user may read now. -/
structure Reader where
  now : ℚ
  tenantId : Uuid
  endUserId : Option String

/-- What `retrieve` would return without its limit. -/
def Reader.inScope (reader : Reader) (db : Database) (facts : List Fact) : List Fact :=
  db.newestFirst (facts.filter fun fact =>
    fact.readable reader.now reader.tenantId reader.endUserId)

/-- `retrieve`. -/
def Reader.retrieve (reader : Reader) (db : Database) (facts : List Fact) (limit : Int) :
    List Fact :=
  (reader.inScope db facts).take limit.toNat

namespace Unicode

variable (unicode : Unicode)

/-- The `tokens` of `_score_facts`: the words of three letters or more. -/
def tokens (query : Option String) : List String :=
  if query.getD "" = "" then []
  else (((unicode.lower (query.getD "")).toList.splitOnP fun c => !unicode.isWord c).filter
    (3 ≤ ·.length)).map String.ofList

/-- The score of a row. -/
def hits (query : Option String) (fact : Fact) : Nat :=
  (unicode.tokens query).eraseDups.countP fun token => Py.contains (unicode.lower fact.content) token

def relevant (query : Option String) (fact : Fact) : Bool :=
  unicode.tokens query == [] || decide (0 < unicode.hits query fact)

/-- `_score_facts`. -/
def scoreFacts (rows : List Fact) (query : Option String) (limit : Int) : List Fact :=
  upTo (Ranking.rank (unicode.hits query) (rows.filter (unicode.relevant query))) limit

/-- `retrieve_facts`. -/
def retrieveFacts (db : Database) (facts : List Fact) (reader : Reader) (query : Option String)
    (limit : Int) : List String :=
  (unicode.scoreFacts (reader.retrieve db facts (max (limit * 3) 30)) query limit).map
    fun fact => fact.content

/-- The facts that a user may read and that are relevant, those with most hits first and among
equals the newer ones; of these the first up to the limit. -/
def TopFacts (facts : List Fact) (reader : Reader) (query : Option String) (limit : Int)
    (result : List String) : Prop :=
  ∃ ranked : List Fact,
    ranked.Perm (facts.filter fun fact =>
      fact.readable reader.now reader.tenantId reader.endUserId && unicode.relevant query fact) ∧
    ranked.Pairwise (Ranking.Precedes (unicode.hits query) Fact.createdAt) ∧
    result = (ranked.take limit.toNat).map fun fact => fact.content

/-- What is relevant of the rows that are read. -/
def window (db : Database) (facts : List Fact) (reader : Reader) (query : Option String)
    (limit : Int) : List Fact :=
  ((reader.inScope db facts).take (max (limit * 3) 30).toNat).filter (unicode.relevant query)

/-- What is relevant of the older rows. -/
def beyond (db : Database) (facts : List Fact) (reader : Reader) (query : Option String)
    (limit : Int) : List Fact :=
  ((reader.inScope db facts).drop (max (limit * 3) 30).toNat).filter (unicode.relevant query)

/-- Where a relevant fact is older than the rows that are read, enough of these have as many hits;
and below zero, where a slice counts from the end, there are no more of them than it leaves out. -/
def Suffices (db : Database) (facts : List Fact) (reader : Reader) (query : Option String)
    (limit : Int) : Prop :=
  if limit < 0 then (unicode.window db facts reader query limit).length ≤ -limit
  else Ranking.Enough (unicode.hits query) limit.toNat (unicode.window db facts reader query limit)
    (unicode.beyond db facts reader query limit)

variable {unicode} {db : Database} {facts : List Fact} {reader : Reader} {query : Option String}
  {limit : Int}

theorem window_append_beyond :
    unicode.window db facts reader query limit ++ unicode.beyond db facts reader query limit =
      (reader.inScope db facts).filter (unicode.relevant query) := by
  rw [window, beyond, ← List.filter_append, List.take_append_drop]

theorem window_beyond_perm :
    (unicode.window db facts reader query limit ++
      unicode.beyond db facts reader query limit).Perm
      (facts.filter fun fact => fact.readable reader.now reader.tenantId reader.endUserId &&
        unicode.relevant query fact) := by
  rw [window_append_beyond]
  have perm := (db.perm (facts.filter fun fact =>
    fact.readable reader.now reader.tenantId reader.endUserId)).filter (unicode.relevant query)
  rw [List.filter_filter] at perm
  simpa only [Reader.inScope, Bool.and_comm] using perm

theorem window_beyond_newest :
    (unicode.window db facts reader query limit ++
      unicode.beyond db facts reader query limit).Pairwise
      fun a b => b.createdAt ≤ a.createdAt := by
  rw [window_append_beyond]
  exact (db.sorted _).filter _

/-- Facts of the same contents have the same hits. -/
theorem map_hits_eq {l l' : List Fact}
    (same : (l.map fun fact => fact.content) = l'.map fun fact => fact.content) :
    l.map (unicode.hits query) = l'.map (unicode.hits query) := by
  have hits : unicode.hits query = (fun content => (unicode.tokens query).eraseDups.countP
      fun token => Py.contains (unicode.lower content) token) ∘ fun fact => fact.content := rfl
  rw [hits, ← List.map_map, ← List.map_map, same]

theorem retrieveFacts_of_nonneg (nonneg : ¬limit < 0) :
    unicode.retrieveFacts db facts reader query limit =
      ((Ranking.rank (unicode.hits query) (unicode.window db facts reader query limit)).take
        limit.toNat).map fun fact => fact.content := by
  rw [retrieveFacts, scoreFacts, upTo, if_neg nonneg]
  rfl

theorem enough_of_topFacts (nonneg : ¬limit < 0)
    (top : unicode.TopFacts facts reader query limit
      (unicode.retrieveFacts db facts reader query limit)) :
    Ranking.Enough (unicode.hits query) limit.toNat (unicode.window db facts reader query limit)
      (unicode.beyond db facts reader query limit) := by
  obtain ⟨ranked, perm, precedes, same⟩ := top
  rw [retrieveFacts_of_nonneg nonneg] at same
  exact Ranking.enough_of_ranked (perm.trans window_beyond_perm.symm) precedes
    (map_hits_eq same.symm)

theorem topFacts_of_enough (nonneg : ¬limit < 0)
    (enough : Ranking.Enough (unicode.hits query) limit.toNat
      (unicode.window db facts reader query limit) (unicode.beyond db facts reader query limit)) :
    unicode.TopFacts facts reader query limit
      (unicode.retrieveFacts db facts reader query limit) := by
  obtain ⟨ranked, perm, precedes, same⟩ := enough.exists_ranked window_beyond_newest
  refine ⟨ranked, perm.trans window_beyond_perm, precedes, ?_⟩
  rw [retrieveFacts_of_nonneg nonneg, same]

/-- Below zero no facts are asked for. -/
theorem topFacts_of_neg (neg : limit < 0) :
    unicode.TopFacts facts reader query limit
        (unicode.retrieveFacts db facts reader query limit) ↔
      unicode.retrieveFacts db facts reader query limit = [] := by
  have none_ : limit.toNat = 0 := Int.toNat_of_nonpos neg.le
  constructor
  · rintro ⟨ranked, -, -, same⟩
    rw [same, none_, List.take_zero, List.map_nil]
  · intro empty
    have enough : Ranking.Enough (unicode.hits query) 0
        (unicode.window db facts reader query limit)
        (unicode.beyond db facts reader query limit) := fun _ _ => Nat.zero_le _
    obtain ⟨ranked, perm, precedes, -⟩ := enough.exists_ranked window_beyond_newest
    refine ⟨ranked, perm.trans window_beyond_perm, precedes, ?_⟩
    rw [empty, none_, List.take_zero, List.map_nil]

theorem retrieveFacts_nil_iff (neg : limit < 0) :
    unicode.retrieveFacts db facts reader query limit = [] ↔
      (unicode.window db facts reader query limit).length ≤ -limit := by
  have length := (Ranking.rank_perm (unicode.hits query)
    (unicode.window db facts reader query limit)).length_eq
  have whole : unicode.retrieveFacts db facts reader query limit =
      (upTo (Ranking.rank (unicode.hits query) (unicode.window db facts reader query limit))
        limit).map fun fact => fact.content := rfl
  rw [whole, List.map_eq_nil_iff, upTo, if_pos neg, List.take_eq_nil_iff,
    ← List.length_eq_zero_iff, length]
  omega

/-- `retrieve_facts` returns the top facts exactly when the rows that are read suffice. -/
theorem topFacts_iff (unicode : Unicode) (db : Database) (facts : List Fact) (reader : Reader)
    (query : Option String) (limit : Int) :
    unicode.TopFacts facts reader query limit
        (unicode.retrieveFacts db facts reader query limit) ↔
      unicode.Suffices db facts reader query limit := by
  rw [Suffices]
  split
  · rename_i neg
    rw [topFacts_of_neg neg, retrieveFacts_nil_iff neg]
  · rename_i nonneg
    exact ⟨enough_of_topFacts nonneg, topFacts_of_enough nonneg⟩

end Unicode

/-- Sorting by time, stable. -/
def stable : Database where
  newestFirst facts := facts.mergeSort fun a b => decide (b.createdAt ≤ a.createdAt)
  perm facts := List.mergeSort_perm facts _
  sorted facts := (List.pairwise_mergeSort
    (by simp; exact fun _ _ _ newer older => older.trans newer)
    (by simp; exact fun a b => le_total b.createdAt a.createdAt) facts).imp of_decide_eq_true

def ascii : Unicode where
  lower := Py.lower
  isWord := Char.isAlphanum

def remark (content : String) (createdAt : ℚ) : Fact where
  tenantId := 1
  endUserId := some "u"
  threadId := 1
  sourceSeq := 1
  content := content
  expiresAt := none
  createdAt := createdAt

/-- One fact about tea, and thirty later ones. -/
def remarks : List Fact := List.replicate 30 (remark "has a dog" 1) ++ [remark "likes tea" 0]

def someone : Reader := ⟨0, 1, some "u"⟩

theorem inScope_remarks : someone.inScope stable remarks = remarks := by
  have all : (remarks.filter fun fact =>
      fact.readable someone.now someone.tenantId someone.endUserId) = remarks := by decide
  rw [Reader.inScope, all]
  exact List.mergeSort_of_pairwise (by decide)

/-- The fact about tea is older than the thirty rows that are read. -/
theorem older_than_read : ¬ ∀ (unicode : Unicode) (db : Database) (facts : List Fact)
    (reader : Reader) (query : Option String) (limit : Int),
      unicode.TopFacts facts reader query limit
        (unicode.retrieveFacts db facts reader query limit) := by
  intro claim
  have enough := Unicode.enough_of_topFacts (by decide)
    (claim ascii stable remarks someone (some "tea?") 10)
  rw [Unicode.window, Unicode.beyond, inScope_remarks] at enough
  have tea := enough (remark "likes tea" 0) (by decide)
  exact absurd tea (by decide)

end AgentStudio.Memory
