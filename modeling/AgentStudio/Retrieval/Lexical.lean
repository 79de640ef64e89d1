import Mathlib.Data.Rat.Floor
import Mathlib.Data.List.SplitOn
import AgentStudio.Py.Tally
import AgentStudio.Py.Text

/-!
# The lexical index

`application/retrieval/hybrid.py`: Okapi BM25 over the texts of chunks. One index holds the
chunks of all tenants; the postings, the lengths and their average follow the documents.
-/

namespace AgentStudio.Retrieval

/-- `[a-z0-9]`. -/
def isTermChar (c : Char) : Bool := ('a' ≤ c && c ≤ 'z') || ('0' ≤ c && c ≤ '9')

/-- `tokenize`. -/
def tokenize (text : String) : List String :=
  (((Py.lower text).toList.splitOnP fun c => !isTermChar c).filter (· ≠ [])).map String.ofList

structure Metadata where
  tenantId : String
  documentId : String
  source : String
  deriving DecidableEq

structure Document where
  text : String
  tenantId : String
  metadata : Metadata
  deriving DecidableEq

/-- `BM25Index`. -/
structure BM25Index where
  k1 : ℚ := 3 / 2
  b : ℚ := 3 / 4
  docs : Py.Dict String Document := .empty
  docLen : Py.Dict String Nat := .empty
  freq : Py.Dict String (Py.Dict String Nat) := .empty
  avgdl : ℚ := 0
  n : Nat := 0

namespace BM25Index

/-- The postings without a document; a term with none left goes. -/
def dropPostings (docId : String) (freq : Py.Dict String (Py.Dict String Nat)) :
    Py.Dict String (Py.Dict String Nat) :=
  freq.filterMap fun perDoc =>
    if (perDoc.erase docId).entries = [] then none else some (perDoc.erase docId)

/-- `_remove`. -/
def remove (index : BM25Index) (docId : String) : Bool × BM25Index :=
  match index.docs.get? docId with
  | none => (false, index)
  | some _ =>
    let length := (index.docLen.get? docId).getD 0
    (true, { index with
      docLen := index.docLen.erase docId
      freq := dropPostings docId index.freq
      docs := index.docs.erase docId
      avgdl := if 1 < index.n then (index.avgdl * index.n - length) / (index.n - 1) else 0
      n := index.n - 1 })

/-- One more occurrence of a term in a document. -/
def post (docId : String) (freq : Py.Dict String (Py.Dict String Nat)) (token : String) :
    Py.Dict String (Py.Dict String Nat) :=
  let perDoc := (freq.get? token).getD .empty
  freq.set token (perDoc.set docId ((perDoc.get? docId).getD 0 + 1))

/-- `upsert`. -/
def upsert (index : BM25Index) (docId : String) (document : Document) : BM25Index :=
  let index := (index.remove docId).2
  let tokens := tokenize document.text
  { index with
    docs := index.docs.set docId document
    docLen := index.docLen.set docId tokens.length
    n := index.n + 1
    freq := tokens.foldl (post docId) index.freq
    avgdl := (index.avgdl * index.n + tokens.length) / (index.n + 1 : Nat) }

section Search
variable (ln : ℚ → ℚ)

/-- What a document is scored for a term. -/
def scoreOf (index : BM25Index) (docId : String) (df count : Nat) : ℚ :=
  let idf := ln (1 + (index.n - df + 1 / 2) / (df + 1 / 2))
  let length := (index.docLen.get? docId).getD 0
  let denom := count + index.k1 * (1 - index.b + index.b * length / index.avgdl)
  idf * (count * (index.k1 + 1)) / denom

/-- A posting counts unless the search is of another tenant. -/
def shown (index : BM25Index) (tenantId : Option String) (docId : String) : Bool :=
  tenantId.all fun tenant => (index.docs.get? docId).any fun document => document.tenantId = tenant

def scoreTerm (index : BM25Index) (tenantId : Option String) (scores : Py.Dict String ℚ)
    (term : String) : Py.Dict String ℚ :=
  let perDoc := (index.freq.get? term).getD .empty
  perDoc.entries.foldl (fun scores (docId, count) =>
    if index.shown tenantId docId then
      scores.set docId ((scores.get? docId).getD 0 + index.scoreOf ln docId perDoc.size count)
    else scores) scores

/-- The scores of a search; the order of `set(terms)` is not that of the query. -/
def scores (index : BM25Index) (query : String) (tenantId : Option String) :
    Py.Dict String ℚ :=
  if index.n = 0 then .empty
  else (tokenize query).dedup.foldl (index.scoreTerm ln tenantId) .empty

/-- The scores, best first. -/
def ranked (index : BM25Index) (query : String) (tenantId : Option String) :
    List (String × ℚ) :=
  (index.scores ln query tenantId).entries.mergeSort fun a b => decide (b.2 ≤ a.2)

/-- `search`. -/
def search (index : BM25Index) (query : String) (tenantId : Option String) (topK : Nat) :
    List (String × ℚ) :=
  (index.ranked ln query tenantId).take topK

/-- The documents a search finds, when nothing is cut off. -/
def found (index : BM25Index) (query : String) (tenantId : Option String) :
    Set (String × Document) :=
  {e | ∃ score, (e.1, score) ∈ index.ranked ln query tenantId ∧ index.docs.get? e.1 = some e.2}

end Search

/-! ## What the index holds -/

/-- How often a term is posted for a document. -/
def posted (freq : Py.Dict String (Py.Dict String Nat)) (term docId : String) : Option Nat :=
  (freq.get? term).bind fun perDoc => perDoc.get? docId

/-- How often a term occurs, when it does. -/
def occurrences (document : Document) (term : String) : Option Nat :=
  let count := (tokenize document.text).count term
  if count = 0 then none else some count

/-- The postings, the lengths and their average are those of the documents. -/
structure Sound (index : BM25Index) : Prop where
  lengths : ∀ docId, index.docLen.get? docId =
    (index.docs.get? docId).map fun document => (tokenize document.text).length
  postings : ∀ term docId, posted index.freq term docId =
    (index.docs.get? docId).bind fun document => occurrences document term
  number : index.n = index.docs.size
  average : index.avgdl * index.n =
    (index.docs.total fun document => (tokenize document.text).length : Nat)

theorem sound_empty : ({} : BM25Index).Sound :=
  ⟨fun _ => rfl, fun _ _ => rfl, rfl, by norm_num [Py.Dict.total, Py.Dict.empty]⟩

theorem posted_dropPostings (freq : Py.Dict String (Py.Dict String Nat))
    (docId term docId' : String) :
    posted (dropPostings docId freq) term docId' =
      if docId' = docId then none else posted freq term docId' := by
  rw [posted, posted, dropPostings, Py.Dict.get?_filterMap]
  cases freq.get? term with
  | none => simp
  | some perDoc =>
    have erased := Py.Dict.get?_erase perDoc docId docId'
    rw [Option.bind_some, Option.bind_some]
    by_cases last : (perDoc.erase docId).entries = []
    · rw [if_pos last, Option.bind_none, ← erased, Eq.comm, Py.Dict.get?_eq_none, Py.Dict.keys, last]
      simp
    · rw [if_neg last, Option.bind_some, erased]

theorem posted_post (freq : Py.Dict String (Py.Dict String Nat)) (docId token term docId' : String) :
    posted (post docId freq token) term docId' =
      if term = token ∧ docId' = docId then some ((posted freq term docId').getD 0 + 1)
      else posted freq term docId' := by
  rw [posted, post, Py.Dict.get?_set]
  by_cases same : term = token
  · subst same
    rw [if_pos rfl, Option.bind_some, Py.Dict.get?_set]
    by_cases here : docId' = docId
    · subst here
      rw [if_pos rfl, if_pos ⟨rfl, rfl⟩, posted]
      cases freq.get? term <;> rfl
    · rw [if_neg here, if_neg fun both => here both.2, posted]
      cases freq.get? term <;> rfl
  · rw [if_neg same, if_neg fun both => same both.1, posted]

/-- The postings after those of a text are added. -/
theorem posted_tokens (docId : String) (tokens : List String)
    (freq : Py.Dict String (Py.Dict String Nat)) (term docId' : String) :
    posted (tokens.foldl (post docId) freq) term docId' =
      if docId' = docId ∧ tokens.count term ≠ 0 then
        some ((posted freq term docId').getD 0 + tokens.count term)
      else posted freq term docId' := by
  induction tokens generalizing freq with
  | nil => simp
  | cons token tokens ih =>
    rw [List.foldl_cons, ih, posted_post, List.count_cons]
    by_cases here : docId' = docId
    · by_cases same : term = token
      · subst same
        by_cases rest : tokens.count term = 0
        · simp [here, rest]
        · simp [here, rest]
          omega
      · have other : ¬ token = term := fun is => same is.symm
        simp [here, same, other]
    · simp [here]

/-- The running average without one of `n` lengths. -/
theorem average_without {avgdl : ℚ} {n total length : Nat}
    (average : avgdl * n = (total : ℚ) + length) (some_ : 0 < n) (last : n = 1 → total = 0) :
    (if 1 < n then (avgdl * n - length) / (n - 1) else 0) * (n - 1 : Nat) = (total : ℚ) := by
  by_cases several : 1 < n
  · have positive : (1 : ℚ) < n := by exact_mod_cast several
    have apart : (n : ℚ) - 1 ≠ 0 := by linarith
    rw [if_pos several, average, Nat.cast_sub several.le, Nat.cast_one]
    field_simp
    ring
  · have one : n = 1 := by omega
    rw [if_neg several, last one]
    simp

theorem sound_remove {index : BM25Index} (sound : index.Sound) (docId : String) :
    (index.remove docId).2.Sound ∧ (index.remove docId).2.docs.get? docId = none ∧
      ∀ docId', docId' ≠ docId →
        (index.remove docId).2.docs.get? docId' = index.docs.get? docId' := by
  unfold remove
  split
  · rename_i absent
    exact ⟨sound, absent, fun _ _ => rfl⟩
  · rename_i document found
    refine ⟨⟨?_, ?_, ?_, ?_⟩, ?_, ?_⟩
    · intro docId'
      dsimp only
      rw [Py.Dict.get?_erase, Py.Dict.get?_erase, sound.lengths]
      split
      · rfl
      · rfl
    · intro term docId'
      dsimp only
      rw [posted_dropPostings, Py.Dict.get?_erase, sound.postings]
      split
      · rfl
      · rfl
    · have size := Py.Dict.total_erase (fun _ => 1) found
      have number := sound.number
      rw [Py.Dict.size_eq_total] at number
      dsimp only
      rw [Py.Dict.size_eq_total]
      omega
    · have total := Py.Dict.total_erase
        (fun document : Document => (tokenize document.text).length) found
      have size := Py.Dict.total_erase (fun _ => 1) found
      have number := sound.number
      have average := sound.average
      rw [Py.Dict.size_eq_total] at number
      dsimp only
      rw [sound.lengths, found, Option.map_some, Option.getD_some]
      have total : ((index.docs.total fun document => (tokenize document.text).length : Nat) : ℚ) =
          ((index.docs.erase docId).total fun document => (tokenize document.text).length : Nat) +
            (tokenize document.text).length := by
        rw [← total]
        push_cast
        ring
      exact average_without (average.trans total) (by omega) fun _ => by
        have none_ : (index.docs.erase docId).entries = [] := by
          rw [← List.length_eq_zero_iff]
          have rest : (index.docs.erase docId).size = 0 := by
            rw [Py.Dict.size_eq_total]
            omega
          exact rest
        simp [Py.Dict.total, none_]
    · dsimp only
      rw [Py.Dict.get?_erase, if_pos rfl]
    · intro docId' other
      dsimp only
      rw [Py.Dict.get?_erase, if_neg other]

theorem get?_upsert {index : BM25Index} (sound : index.Sound) (docId : String)
    (document : Document) (docId' : String) :
    (index.upsert docId document).docs.get? docId' =
      if docId' = docId then some document else index.docs.get? docId' := by
  obtain ⟨-, -, rest⟩ := sound_remove sound docId
  change ((index.remove docId).2.docs.set docId document).get? docId' = _
  rw [Py.Dict.get?_set]
  by_cases here : docId' = docId
  · rw [if_pos here, if_pos here]
  · rw [if_neg here, if_neg here, rest docId' here]

theorem sound_upsert {index : BM25Index} (sound : index.Sound) (docId : String)
    (document : Document) : (index.upsert docId document).Sound := by
  obtain ⟨sound, absent, -⟩ := sound_remove sound docId
  unfold upsert
  generalize (index.remove docId).2 = index at sound absent
  refine ⟨?_, ?_, ?_, ?_⟩
  · intro docId'
    dsimp only
    rw [Py.Dict.get?_set, Py.Dict.get?_set, sound.lengths]
    split
    · rfl
    · rfl
  · intro term docId'
    dsimp only
    rw [posted_tokens, Py.Dict.get?_set, sound.postings]
    by_cases here : docId' = docId
    · subst here
      rw [absent, if_pos rfl, Option.bind_none, Option.bind_some, occurrences]
      by_cases none_ : (tokenize document.text).count term = 0
      · simp [none_]
      · simp [none_]
    · rw [if_neg fun both => here both.1, if_neg here]
  · have size := Py.Dict.total_set absent (fun _ => 1) document
    have number := sound.number
    rw [Py.Dict.size_eq_total] at number
    dsimp only
    rw [Py.Dict.size_eq_total]
    omega
  · dsimp only
    rw [Py.Dict.total_set absent, sound.average]
    have positive : ((index.n + 1 : Nat) : ℚ) ≠ 0 := by positivity
    field_simp
    push_cast
    ring

/-- Where a term is posted the average length is not zero: no score divides by zero. -/
theorem avgdl_pos {index : BM25Index} (sound : index.Sound) {term docId : String}
    (occurs : (posted index.freq term docId).isSome = true) : 0 < index.avgdl := by
  rw [sound.postings] at occurs
  cases found : index.docs.get? docId with
  | none => simp [found] at occurs
  | some document =>
    have long : 0 < (tokenize document.text).length := by
      apply List.length_pos_iff.mpr
      intro none_
      simp [found, occurrences, none_] at occurs
    have total := Py.Dict.total_erase
      (fun document : Document => (tokenize document.text).length) found
    have average := sound.average
    by_contra nonpositive
    have product : index.avgdl * index.n ≤ 0 :=
      mul_nonpos_of_nonpos_of_nonneg (not_lt.mp nonpositive) (Nat.cast_nonneg _)
    rw [average] at product
    have none_ : index.docs.total (fun document => (tokenize document.text).length) ≤ 0 := by
      exact_mod_cast product
    omega

/-! ## The score as a total -/

section Parts
variable {ln : ℚ → ℚ} {index : BM25Index}

/-- How many documents a term is in. -/
def df (index : BM25Index) (term : String) : Nat := ((index.freq.get? term).getD .empty).size

/-- What a term adds, and to which documents. -/
def parts (ln : ℚ → ℚ) (index : BM25Index) (tenantId : Option String) (term : String) :
    List (String × ℚ) :=
  (((index.freq.get? term).getD .empty).entries.filter fun e => index.shown tenantId e.1).map
    fun e => (e.1, index.scoreOf ln e.1 (index.df term) e.2)

theorem scoreTerm_eq (tenantId : Option String) (scores : Py.Dict String ℚ) (term : String) :
    index.scoreTerm ln tenantId scores term = scores.tally (index.parts ln tenantId term) := by
  rw [Py.Dict.tally, parts, List.foldl_map, List.foldl_filter]
  rfl

theorem scores_eq (query : String) (tenantId : Option String) :
    index.scores ln query tenantId =
      if index.n = 0 then .empty
      else Py.Dict.empty.tally ((tokenize query).dedup.flatMap (index.parts ln tenantId)) := by
  have walk (terms : List String) (scores : Py.Dict String ℚ) :
      terms.foldl (index.scoreTerm ln tenantId) scores =
        scores.tally (terms.flatMap (index.parts ln tenantId)) := by
    induction terms generalizing scores with
    | nil => rfl
    | cons term terms ih =>
      rw [List.foldl_cons, ih, scoreTerm_eq, List.flatMap_cons, Py.Dict.tally_append]
  rw [scores, walk]

theorem get?_postings (index : BM25Index) (term docId : String) :
    ((index.freq.get? term).getD .empty).get? docId = posted index.freq term docId := by
  rw [posted]
  cases index.freq.get? term with
  | none => rfl
  | some perDoc => rfl

end Parts

end BM25Index

end AgentStudio.Retrieval
