import AgentStudio.Py.Tally
import AgentStudio.Retrieval.Lexical

/-!
# Two rankings fused

`reciprocal_rank_fusion`: what the vector channel and the lexical channel return is one list
again, each document once. A document the vector channel missed is made from what the index
holds of it; an id that neither has drops out.
-/

namespace AgentStudio.Retrieval

/-- `BM25Index.document`. -/
def BM25Index.document (index : BM25Index) (docId : String) : Option Document :=
  index.docs.get? docId

/-- `V` is what the metadata of a document may hold. -/
structure VectorDocument (V : Type) where
  id : String
  content : String
  embedding : List ℚ
  metadata : Py.Dict String V

structure VectorSearchResult (V : Type) where
  document : VectorDocument V
  score : ℚ

def idsOf {V : Type} (results : List (VectorSearchResult V)) : List String :=
  results.map fun result => result.document.id

/-- The metadata as `index_chunks` writes it. -/
def Metadata.entries {V : Type} (str : String → V) (metadata : Metadata) : Py.Dict String V :=
  ((Py.Dict.empty.set "tenant_id" (str metadata.tenantId)).set "document_id"
    (str metadata.documentId)).set "source" (str metadata.source)

section Fuse
variable {V : Type} (str : String → V) (k : ℤ) (index : Option BM25Index)

/-- The two maps that the loops fill. -/
structure Fusing (V : Type) where
  fused : Py.Dict String ℚ := .empty
  payload : Py.Dict String (VectorSearchResult V) := .empty

/-- What a rank, from 1, adds to a score; no `k` of at least 0 divides by zero. -/
def share (rank : Nat) : ℚ := 1 / (k + rank)

/-- What `search` left of a document, as a result of the other channel. -/
def rebuilt (docId : String) (stored : Document) : VectorSearchResult V :=
  { document :=
      { id := docId, content := stored.text, embedding := [],
        metadata := (stored.metadata.entries str).set "tenant_id" (str stored.tenantId) }
    score := 0 }

def fuseVector (fusing : Fusing V) (ranked : VectorSearchResult V × Nat) : Fusing V :=
  let docId := ranked.1.document.id
  { fused := fusing.fused.set docId ((fusing.fused.get? docId).getD 0 + share k ranked.2)
    payload := fusing.payload.set docId ranked.1 }

def fuseLexical (fusing : Fusing V) (ranked : (String × ℚ) × Nat) : Fusing V :=
  let docId := ranked.1.1
  { fused := fusing.fused.set docId ((fusing.fused.get? docId).getD 0 + share k ranked.2)
    payload :=
      if (fusing.payload.get? docId).isSome then fusing.payload
      else
        match index.bind fun index => index.document docId with
        | none => fusing.payload
        | some stored => fusing.payload.set docId (rebuilt str docId stored) }

/-- Both loops. -/
def fusing (vectorResults : List (VectorSearchResult V)) (lexicalHits : List (String × ℚ)) :
    Fusing V :=
  (lexicalHits.zipIdx 1).foldl (fuseLexical str k index)
    ((vectorResults.zipIdx 1).foldl (fuseVector k) {})

end Fuse

/-- `reciprocal_rank_fusion`. -/
def reciprocalRankFusion {V : Type} (str : String → V) (vectorResults : List (VectorSearchResult V))
    (lexicalHits : List (String × ℚ)) (k : ℤ := 60) (index : Option BM25Index := none) :
    List (VectorSearchResult V) :=
  let maps := fusing str k index vectorResults lexicalHits
  let ordered := maps.fused.entries.mergeSort fun a b => decide (b.2 ≤ a.2)
  ordered.filterMap fun (docId, fusedScore) =>
    (maps.payload.get? docId).map fun item => { document := item.document, score := fusedScore }

/-! ## Ranks -/

/-- Where an id is in a ranking, from 1. -/
def rank? (ids : List String) (docId : String) : Option Nat := (ids.idxOf? docId).map (· + 1)

/-- What a ranking adds to a score: nothing where the id is not in it. -/
def shareIn (k : ℤ) (ids : List String) (docId : String) : ℚ :=
  ((rank? ids docId).map (share k)).getD 0

/-- What a ranking adds, id by id. -/
def shares (k : ℤ) (start : Nat) (ids : List String) : List (String × ℚ) :=
  (ids.zipIdx start).map fun e => (e.1, share k e.2)

theorem filter_shares (k : ℤ) {ids : List String} (nodup : ids.Nodup) (start : Nat)
    (docId : String) :
    ((shares k start ids).filter fun e => e.1 = docId) =
      ((ids.idxOf? docId).map fun i => (docId, share k (i + start))).toList := by
  induction ids generalizing start with
  | nil => rfl
  | cons id ids ih =>
    obtain ⟨apart, nodup⟩ := List.nodup_cons.mp nodup
    rw [shares, List.zipIdx_cons, List.map_cons, ← shares, List.idxOf?_cons]
    by_cases here : id = docId
    · subst here
      have rest : ids.idxOf? id = none := List.idxOf?_eq_none_iff.mpr apart
      rw [List.filter_cons_of_pos (by simp), ih nodup, rest]
      simp
    · rw [List.filter_cons_of_neg (by simpa using here), ih nodup, if_neg (by simpa using here),
        Option.map_map]
      congr 2
      funext i
      rw [Function.comp_apply, Nat.add_right_comm, Nat.add_assoc]

/-! ## What the loops leave -/

section Loops
variable {V : Type} (str : String → V) (k : ℤ) (index : Option BM25Index)

theorem fused_vector (results : List (VectorSearchResult V)) (start : Nat) (fusing : Fusing V) :
    ((results.zipIdx start).foldl (fuseVector k) fusing).fused =
      fusing.fused.tally (shares k start (idsOf results)) := by
  induction results generalizing start fusing with
  | nil => rfl
  | cons result results ih =>
    rw [List.zipIdx_cons, List.foldl_cons, ih]
    rfl

theorem fused_lexical (hits : List (String × ℚ)) (start : Nat) (fusing : Fusing V) :
    ((hits.zipIdx start).foldl (fuseLexical str k index) fusing).fused =
      fusing.fused.tally (shares k start (hits.map Prod.fst)) := by
  induction hits generalizing start fusing with
  | nil => rfl
  | cons hit hits ih =>
    rw [List.zipIdx_cons, List.foldl_cons, ih]
    rfl

/-- A payload is kept under the id of its document. -/
def Filed (fusing : Fusing V) : Prop :=
  ∀ docId item, fusing.payload.get? docId = some item → item.document.id = docId

theorem filed_vector (results : List (VectorSearchResult V)) (start : Nat) {fusing : Fusing V}
    (filed : Filed fusing) : Filed ((results.zipIdx start).foldl (fuseVector k) fusing) := by
  induction results generalizing start fusing with
  | nil => exact filed
  | cons result results ih =>
    rw [List.zipIdx_cons, List.foldl_cons]
    apply ih
    intro docId item is
    rw [fuseVector, Py.Dict.get?_set] at is
    by_cases here : docId = result.document.id
    · rw [if_pos here] at is
      rw [← Option.some.inj is, here]
    · rw [if_neg here] at is
      exact filed docId item is

/-- What one hit leaves under an id: what was there, or what the index makes of its own id. -/
theorem payload_fuseLexical (fusing : Fusing V) (hit : (String × ℚ) × Nat) (docId : String) :
    (fuseLexical str k index fusing hit).payload.get? docId =
      (fusing.payload.get? docId).or (if docId = hit.1.1 then
        (index.bind fun index => index.document docId).map (rebuilt str docId) else none) := by
  unfold fuseLexical
  dsimp only
  split
  · rename_i there
    by_cases here : docId = hit.1.1
    · rw [here, Option.or_of_isSome there]
    · rw [if_neg here, Option.or_none]
  · rename_i missing
    rw [Option.not_isSome_iff_eq_none] at missing
    by_cases here : docId = hit.1.1
    · subst here
      rw [missing, Option.none_or, if_pos rfl]
      cases index.bind fun index => index.document hit.1.1 with
      | none => exact missing
      | some stored => exact Py.Dict.get?_set_self _ _ _
    · rw [if_neg here, Option.or_none]
      cases index.bind fun index => index.document hit.1.1 with
      | none => rfl
      | some stored => exact Py.Dict.get?_set_other _ here _

theorem filed_lexical (hits : List (String × ℚ)) (start : Nat) {fusing : Fusing V}
    (filed : Filed fusing) :
    Filed ((hits.zipIdx start).foldl (fuseLexical str k index) fusing) := by
  induction hits generalizing start fusing with
  | nil => exact filed
  | cons hit hits ih =>
    rw [List.zipIdx_cons, List.foldl_cons]
    apply ih
    intro docId item is
    rw [payload_fuseLexical, Option.or_eq_some_iff] at is
    obtain held | ⟨-, made⟩ := is
    · exact filed docId item held
    · by_cases here : docId = hit.1
      · rw [if_pos here] at made
        obtain ⟨stored, -, rfl⟩ := Option.map_eq_some_iff.mp made
        rfl
      · rw [if_neg here] at made
        cases made

theorem payload_vector (results : List (VectorSearchResult V)) (start : Nat) (fusing : Fusing V)
    (docId : String) :
    docId ∈ ((results.zipIdx start).foldl (fuseVector k) fusing).payload.keys ↔
      docId ∈ fusing.payload.keys ∨ docId ∈ idsOf results := by
  induction results generalizing start fusing with
  | nil => simp [idsOf]
  | cons result results ih =>
    rw [List.zipIdx_cons, List.foldl_cons, ih, fuseVector, Py.Dict.mem_keys_set, idsOf, idsOf,
      List.map_cons, List.mem_cons]
    tauto

theorem payload_lexical (hits : List (String × ℚ)) (start : Nat) (fusing : Fusing V)
    (docId : String) :
    docId ∈ ((hits.zipIdx start).foldl (fuseLexical str k index) fusing).payload.keys ↔
      docId ∈ fusing.payload.keys ∨ docId ∈ hits.map Prod.fst ∧
        (index.bind fun index => index.document docId).isSome = true := by
  induction hits generalizing start fusing with
  | nil => simp
  | cons hit hits ih =>
    have one : docId ∈ (fuseLexical str k index fusing (hit, start)).payload.keys ↔
        docId ∈ fusing.payload.keys ∨ docId = hit.1 ∧
          (index.bind fun index => index.document docId).isSome = true := by
      rw [← not_iff_not, ← Py.Dict.get?_eq_none, payload_fuseLexical, Option.or_eq_none_iff,
        Py.Dict.get?_eq_none, not_or]
      by_cases here : docId = hit.1
      · simp [here]
      · simp [here]
    rw [List.zipIdx_cons, List.foldl_cons, ih, one, List.map_cons, List.mem_cons]
    tauto

end Loops

/-! ## The fused list -/

/-- What may not be behind another in a sorted list is before it. -/
theorem idxOf_lt_of_pairwise {α : Type} {R : α → α → Prop} {key : α → String} {l : List α}
    (nodup : (l.map key).Nodup) (sorted : l.Pairwise R) {x y : α} (hx : x ∈ l) (hy : y ∈ l)
    (other : key x ≠ key y) (apart : ¬ R y x) :
    (l.map key).idxOf (key x) < (l.map key).idxOf (key y) := by
  induction l with
  | nil => cases hx
  | cons z l ih =>
    obtain ⟨ahead, sorted⟩ := List.pairwise_cons.mp sorted
    rw [List.map_cons, List.nodup_cons] at nodup
    rw [List.map_cons]
    by_cases here : key z = key x
    · rw [List.idxOf_cons_eq _ here, List.idxOf_cons_ne _ fun same => other (here.symm.trans same)]
      exact Nat.succ_pos _
    · have hx := (List.mem_cons.mp hx).resolve_left fun is => here (congrArg key is.symm)
      by_cases there : key z = key y
      · have is : y = z := by
          apply (List.mem_cons.mp hy).resolve_right
          intro behind
          exact nodup.1 (there ▸ List.mem_map_of_mem behind)
        exact absurd (ahead x hx) (is ▸ apart)
      · have hy := (List.mem_cons.mp hy).resolve_left fun is => there (congrArg key is.symm)
        rw [List.idxOf_cons_ne _ here, List.idxOf_cons_ne _ there]
        exact Nat.succ_lt_succ (ih nodup.2 sorted hx hy)

section Fused
variable {V : Type} (str : String → V) (k : ℤ) (index : Option BM25Index)
  (vectorResults : List (VectorSearchResult V)) (lexicalHits : List (String × ℚ))

theorem filed_fusing : Filed (fusing str k index vectorResults lexicalHits) := by
  apply filed_lexical
  apply filed_vector
  intro docId item is
  cases is

/-- What is returned: an id with a payload, at what the two loops added up for it. -/
theorem mem_fusion {docId : String} {score : ℚ} :
    (∃ result ∈ reciprocalRankFusion str vectorResults lexicalHits k index,
      result.document.id = docId ∧ result.score = score) ↔
      (fusing str k index vectorResults lexicalHits).fused.get? docId = some score ∧
        docId ∈ (fusing str k index vectorResults lexicalHits).payload.keys := by
  have filed := filed_fusing str k index vectorResults lexicalHits
  unfold reciprocalRankFusion
  generalize fusing str k index vectorResults lexicalHits = maps at filed
  constructor
  · rintro ⟨result, mem, rfl, rfl⟩
    obtain ⟨⟨docId, score⟩, listed, made⟩ := List.mem_filterMap.mp mem
    obtain ⟨item, held, rfl⟩ := Option.map_eq_some_iff.mp made
    have is := filed docId item held
    dsimp only
    rw [is, Py.Dict.get?_eq_some]
    refine ⟨List.mem_mergeSort.mp listed, ?_⟩
    by_contra missing
    rw [Py.Dict.get?_eq_none.mpr missing] at held
    cases held
  · rintro ⟨at_, there⟩
    cases held : maps.payload.get? docId with
    | none => exact absurd there (Py.Dict.get?_eq_none.mp held)
    | some item =>
      refine ⟨{ document := item.document, score := score }, ?_, filed docId item held, rfl⟩
      apply List.mem_filterMap.mpr
      refine ⟨(docId, score), List.mem_mergeSort.mpr (Py.Dict.get?_eq_some.mp at_), ?_⟩
      dsimp only
      rw [held]
      rfl

/-- Best first. -/
theorem pairwise_fusion :
    (reciprocalRankFusion str vectorResults lexicalHits k index).Pairwise
      fun a b => b.score ≤ a.score := by
  have trans (a b c : String × ℚ) (hab : decide (b.2 ≤ a.2) = true)
      (hbc : decide (c.2 ≤ b.2) = true) : decide (c.2 ≤ a.2) = true :=
    decide_eq_true ((of_decide_eq_true hbc).trans (of_decide_eq_true hab))
  have total (a b : String × ℚ) : (decide (b.2 ≤ a.2) || decide (a.2 ≤ b.2)) = true := by
    rw [Bool.or_eq_true, decide_eq_true_eq, decide_eq_true_eq]
    exact le_total b.2 a.2
  have sorted := List.pairwise_mergeSort trans total
    (fusing str k index vectorResults lexicalHits).fused.entries
  unfold reciprocalRankFusion
  dsimp only
  rw [List.pairwise_filterMap]
  refine sorted.imp ?_
  intro a b le result made result' made'
  obtain ⟨item, -, rfl⟩ := Option.map_eq_some_iff.mp made
  obtain ⟨item', -, rfl⟩ := Option.map_eq_some_iff.mp made'
  exact of_decide_eq_true le

theorem nodup_fusion : (idsOf (reciprocalRankFusion str vectorResults lexicalHits k index)).Nodup := by
  have filed := filed_fusing str k index vectorResults lexicalHits
  unfold reciprocalRankFusion idsOf
  generalize fusing str k index vectorResults lexicalHits = maps at filed
  have sub (ordered : List (String × ℚ)) :
      ((ordered.filterMap fun e => (maps.payload.get? e.1).map fun item =>
        ({ document := item.document, score := e.2 } : VectorSearchResult V)).map
          fun result => result.document.id).Sublist (ordered.map Prod.fst) := by
    induction ordered with
    | nil => exact List.Sublist.slnil
    | cons e ordered ih =>
      rw [List.filterMap_cons, List.map_cons]
      cases held : maps.payload.get? e.1 with
      | none => exact ih.cons _
      | some item =>
        rw [Option.map_some, List.map_cons, filed e.1 item held]
        exact ih.cons_cons _
  have keys := (List.mergeSort_perm maps.fused.entries fun a b => decide (b.2 ≤ a.2)).map Prod.fst
  exact (keys.nodup_iff.mpr maps.fused.nodup).sublist (sub _)

/-- What the loops add up for an id. -/
theorem fused_fusing (hv : (idsOf vectorResults).Nodup) (hl : (lexicalHits.map Prod.fst).Nodup)
    (docId : String) :
    (fusing str k index vectorResults lexicalHits).fused.get? docId =
      if docId ∈ idsOf vectorResults ∨ docId ∈ lexicalHits.map Prod.fst then
        some (shareIn k (idsOf vectorResults) docId +
          shareIn k (lexicalHits.map Prod.fst) docId)
      else none := by
  have new : (({} : Fusing V).fused).get? docId = none := rfl
  rw [fusing, fused_lexical, fused_vector, Py.Dict.get?_tally, Py.Dict.get?_tally,
    filter_shares k hv, filter_shares k hl, new, shareIn, shareIn, rank?, rank?]
  generalize idsOf vectorResults = ids
  generalize lexicalHits.map Prod.fst = ids'
  cases at_ : ids.idxOf? docId with
  | none =>
    have missing := List.idxOf?_eq_none_iff.mp at_
    cases at' : ids'.idxOf? docId with
    | none =>
      have missing' := List.idxOf?_eq_none_iff.mp at'
      rw [if_neg (by tauto)]
      rfl
    | some j =>
      have there' : docId ∈ ids' := List.isSome_idxOf?.mp (by rw [at']; rfl)
      simp [there']
  | some i =>
    have there : docId ∈ ids := List.isSome_idxOf?.mp (by rw [at_]; rfl)
    rw [if_pos (.inl there)]
    cases ids'.idxOf? docId with
    | none => simp
    | some j => simp

/-- A payload is there for what the vector channel returned, and for hits the index knows. -/
theorem payload_fusing (docId : String) :
    docId ∈ (fusing str k index vectorResults lexicalHits).payload.keys ↔
      docId ∈ idsOf vectorResults ∨ docId ∈ lexicalHits.map Prod.fst ∧
        (index.bind fun index => index.document docId).isSome = true := by
  rw [fusing, payload_lexical, payload_vector]
  have new : docId ∉ ({} : Fusing V).payload.keys := List.not_mem_nil
  tauto

theorem fused_of_payload (hv : (idsOf vectorResults).Nodup)
    (hl : (lexicalHits.map Prod.fst).Nodup) {docId : String}
    (there : docId ∈ (fusing str k index vectorResults lexicalHits).payload.keys) :
    (fusing str k index vectorResults lexicalHits).fused.get? docId =
      some (shareIn k (idsOf vectorResults) docId +
        shareIn k (lexicalHits.map Prod.fst) docId) := by
  rw [fused_fusing str k index vectorResults lexicalHits hv hl]
  apply if_pos
  obtain vector | ⟨lexical, -⟩ := (payload_fusing str k index vectorResults lexicalHits docId).mp there
  · exact .inl vector
  · exact .inr lexical

theorem share_lt {i j : Nat} (hk : 0 ≤ k) (hi : 0 < i) (lt : i < j) : share k j < share k i := by
  have hk : (0 : ℚ) ≤ k := by exact_mod_cast hk
  have hi : (0 : ℚ) < i := by exact_mod_cast hi
  have lt : (i : ℚ) < j := by exact_mod_cast lt
  exact one_div_lt_one_div_of_lt (by linarith) (by linarith)

theorem rank?_pos {ids : List String} {docId : String} {i : Nat} (is : rank? ids docId = some i) :
    0 < i ∧ docId ∈ ids := by
  obtain ⟨j, at_, rfl⟩ := Option.map_eq_some_iff.mp is
  exact ⟨Nat.succ_pos j, List.isSome_idxOf?.mp (by rw [at_]; rfl)⟩

/-- What is returned: the ids of the vector channel, and those of the lexical one that the index
knows. -/
theorem mem_idsOf_fusion (hv : (idsOf vectorResults).Nodup) (hl : (lexicalHits.map Prod.fst).Nodup)
    (docId : String) :
    docId ∈ idsOf (reciprocalRankFusion str vectorResults lexicalHits k index) ↔
      docId ∈ idsOf vectorResults ∨ docId ∈ lexicalHits.map Prod.fst ∧
        (index.bind fun index => index.document docId).isSome = true := by
  rw [← payload_fusing str k index vectorResults lexicalHits docId, idsOf, List.mem_map]
  constructor
  · rintro ⟨result, mem, is⟩
    exact ((mem_fusion str k index vectorResults lexicalHits).mp ⟨result, mem, is, rfl⟩).2
  · intro there
    have fused := fused_of_payload str k index vectorResults lexicalHits hv hl there
    obtain ⟨result, mem, is, -⟩ :=
      (mem_fusion str k index vectorResults lexicalHits).mpr ⟨fused, there⟩
    exact ⟨result, mem, is⟩

theorem score_fusion (hv : (idsOf vectorResults).Nodup) (hl : (lexicalHits.map Prod.fst).Nodup)
    {result : VectorSearchResult V}
    (mem : result ∈ reciprocalRankFusion str vectorResults lexicalHits k index) :
    result.score = shareIn k (idsOf vectorResults) result.document.id +
      shareIn k (lexicalHits.map Prod.fst) result.document.id := by
  obtain ⟨at_, there⟩ :=
    (mem_fusion str k index vectorResults lexicalHits).mp ⟨result, mem, rfl, rfl⟩
  rw [fused_of_payload str k index vectorResults lexicalHits hv hl there] at at_
  exact (Option.some.inj at_).symm

/-- What is ranked better in both channels comes before. -/
theorem idxOf_fusion_lt (hv : (idsOf vectorResults).Nodup) (hl : (lexicalHits.map Prod.fst).Nodup)
    (hk : 0 ≤ k) {a b : String} {i j i' j' : Nat} (ha : rank? (idsOf vectorResults) a = some i)
    (hb : rank? (idsOf vectorResults) b = some j) (lt : i < j)
    (ha' : rank? (lexicalHits.map Prod.fst) a = some i')
    (hb' : rank? (lexicalHits.map Prod.fst) b = some j') (lt' : i' < j') :
    (idsOf (reciprocalRankFusion str vectorResults lexicalHits k index)).idxOf a <
      (idsOf (reciprocalRankFusion str vectorResults lexicalHits k index)).idxOf b := by
  have returned := mem_idsOf_fusion str k index vectorResults lexicalHits hv hl
  obtain ⟨x, memX, isX⟩ := List.mem_map.mp ((returned a).mpr (.inl (rank?_pos ha).2))
  obtain ⟨y, memY, isY⟩ := List.mem_map.mp ((returned b).mpr (.inl (rank?_pos hb).2))
  have less : y.score < x.score := by
    rw [score_fusion str k index vectorResults lexicalHits hv hl memX,
      score_fusion str k index vectorResults lexicalHits hv hl memY, isX, isY, shareIn, shareIn,
      shareIn, shareIn, ha, hb, ha', hb']
    exact add_lt_add (share_lt k hk (rank?_pos ha).1 lt) (share_lt k hk (rank?_pos ha').1 lt')
  have other : x.document.id ≠ y.document.id := by
    rw [isX, isY]
    rintro rfl
    rw [ha] at hb
    exact lt.ne (Option.some.inj hb)
  have before := idxOf_lt_of_pairwise (nodup_fusion str k index vectorResults lexicalHits)
    (pairwise_fusion str k index vectorResults lexicalHits) memX memY other (not_le.mpr less)
  rw [isX, isY] at before
  exact before

/-- Two channels that return no id twice are fused into a list that has no id twice, has just
the ids of the vector channel and those of the lexical channel that the index knows, scores
each by its ranks, is sorted by score, and has what is better in both channels before. -/
theorem fusion_of_channels (hv : (idsOf vectorResults).Nodup)
    (hl : (lexicalHits.map Prod.fst).Nodup) (hk : 0 ≤ k) :
    (idsOf (reciprocalRankFusion str vectorResults lexicalHits k index)).Nodup ∧
      (∀ docId, docId ∈ idsOf (reciprocalRankFusion str vectorResults lexicalHits k index) ↔
        docId ∈ idsOf vectorResults ∨ docId ∈ lexicalHits.map Prod.fst ∧
          (index.bind fun index => index.document docId).isSome = true) ∧
      (∀ result ∈ reciprocalRankFusion str vectorResults lexicalHits k index,
        result.score = shareIn k (idsOf vectorResults) result.document.id +
          shareIn k (lexicalHits.map Prod.fst) result.document.id) ∧
      (reciprocalRankFusion str vectorResults lexicalHits k index).Pairwise
        (fun a b => b.score ≤ a.score) ∧
      ∀ a b i j i' j', rank? (idsOf vectorResults) a = some i →
        rank? (idsOf vectorResults) b = some j → i < j →
        rank? (lexicalHits.map Prod.fst) a = some i' →
        rank? (lexicalHits.map Prod.fst) b = some j' → i' < j' →
        (idsOf (reciprocalRankFusion str vectorResults lexicalHits k index)).idxOf a <
          (idsOf (reciprocalRankFusion str vectorResults lexicalHits k index)).idxOf b := by
  refine ⟨nodup_fusion str k index vectorResults lexicalHits,
    mem_idsOf_fusion str k index vectorResults lexicalHits hv hl,
    fun result mem => score_fusion str k index vectorResults lexicalHits hv hl mem,
    pairwise_fusion str k index vectorResults lexicalHits, ?_⟩
  intro a b i j i' j' ha hb lt ha' hb' lt'
  exact idxOf_fusion_lt str k index vectorResults lexicalHits hv hl hk ha hb lt ha' hb' lt'

end Fused

/-- First in both channels is first in the fused list. -/
theorem fusion_of_channels_two :
    (["d:0", "d:1"].Nodup ∧ ["d:0", "d:1", "d:2"].Nodup ∧ (0 : ℤ) ≤ 60) ∧
      (idsOf (reciprocalRankFusion id
        [⟨⟨"d:0", "a", [1], .empty⟩, 1⟩, ⟨⟨"d:1", "b", [0], .empty⟩, 1 / 2⟩]
        [("d:0", 3), ("d:1", 2), ("d:2", 1)] 60 none)).idxOf "d:0" <
      (idsOf (reciprocalRankFusion id
        [⟨⟨"d:0", "a", [1], .empty⟩, 1⟩, ⟨⟨"d:1", "b", [0], .empty⟩, 1 / 2⟩]
        [("d:0", 3), ("d:1", 2), ("d:2", 1)] 60 none)).idxOf "d:1" := by
  refine ⟨by decide, ?_⟩
  have fused := fusion_of_channels id 60 none
    [⟨⟨"d:0", "a", [1], .empty⟩, 1⟩, ⟨⟨"d:1", "b", [0], .empty⟩, 1 / 2⟩]
    [("d:0", 3), ("d:1", 2), ("d:2", 1)] (by decide) (by decide) (by decide)
  exact fused.2.2.2.2 "d:0" "d:1" 1 2 1 2 rfl rfl (by decide) rfl rfl (by decide)

end AgentStudio.Retrieval
