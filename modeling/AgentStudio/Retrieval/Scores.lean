import AgentStudio.Py.Tally
import AgentStudio.Retrieval.Lexical

/-!
# Scores without a history

The postings, the lengths and their average are kept up to date by two calls, one of which
makes the other. After any calls they are what the documents of the moment make them, so a
search scores the same whatever calls led there, and divides by nothing that is zero.
-/

namespace AgentStudio.Retrieval

namespace BM25Index

/-- A call that changes the index. -/
inductive Call where
  | upsert (docId : String) (document : Document)
  | remove (docId : String)

def call (index : BM25Index) : Call → BM25Index
  | .upsert docId document => index.upsert docId document
  | .remove docId => (index.remove docId).2

/-- A new index, after calls. -/
def after (k1 b : ℚ) (calls : List Call) : BM25Index :=
  calls.foldl call { k1 := k1, b := b }

/-- What a call leaves of the documents. -/
def Call.leaves (docs : String → Option Document) : Call → String → Option Document
  | .upsert docId document, docId' => if docId' = docId then some document else docs docId'
  | .remove docId, docId' => if docId' = docId then none else docs docId'

/-- The documents after calls, from nothing. -/
def current (calls : List Call) : String → Option Document :=
  calls.foldl Call.leaves fun _ => none

def lengthOf (document : Document) : Nat := (tokenize document.text).length

/-- The average length of documents. -/
def averageOf (docs : Py.Dict String Document) : ℚ :=
  if docs.size = 0 then 0 else (docs.total lengthOf : Nat) / docs.size

/-- All that the index keeps is computed from its documents. -/
structure FromDocs (index : BM25Index) : Prop where
  lengths : ∀ docId, index.docLen.get? docId = (index.docs.get? docId).map lengthOf
  postings : ∀ term docId, posted index.freq term docId =
    (index.docs.get? docId).bind fun document => occurrences document term
  terms : ∀ term, (index.freq.get? term).isSome = true ↔
    ∃ docId document, index.docs.get? docId = some document ∧ term ∈ tokenize document.text
  number : index.n = index.docs.size
  average : index.avgdl = averageOf index.docs

/-! ## The search, with its divisions checked -/

section Checked
variable (ln : ℚ → ℚ)

/-- `/`, or `ZeroDivisionError`. -/
def div? (x y : ℚ) : Option ℚ := if y = 0 then none else some (x / y)

def scoreOf? (index : BM25Index) (docId : String) (df count : Nat) : Option ℚ := do
  let odds ← div? (index.n - df + 1 / 2) (df + 1 / 2)
  let length := (index.docLen.get? docId).getD 0
  let relative ← div? (index.b * length) index.avgdl
  let denom := count + index.k1 * (1 - index.b + relative)
  div? (ln (1 + odds) * (count * (index.k1 + 1))) denom

def scoreTerm? (index : BM25Index) (tenantId : Option String) (scores : Py.Dict String ℚ)
    (term : String) : Option (Py.Dict String ℚ) :=
  let perDoc := (index.freq.get? term).getD .empty
  perDoc.entries.foldlM (fun scores (docId, count) =>
    if index.shown tenantId docId then do
      let score ← index.scoreOf? ln docId perDoc.size count
      return scores.set docId ((scores.get? docId).getD 0 + score)
    else return scores) scores

def scores? (index : BM25Index) (query : String) (tenantId : Option String) :
    Option (Py.Dict String ℚ) :=
  if index.n = 0 then some .empty
  else (tokenize query).dedup.foldlM (index.scoreTerm? ln tenantId) .empty

/-- `search`, or `none` where a division raises. -/
def search? (index : BM25Index) (query : String) (tenantId : Option String) (topK : Nat) :
    Option (List (String × ℚ)) :=
  (index.scores? ln query tenantId).map fun scores =>
    (scores.entries.mergeSort fun a b => decide (b.2 ≤ a.2)).take topK

end Checked

/-! ## What calls keep -/

/-- `Sound`, no term without a posting, and no average of no documents. -/
structure Kept (index : BM25Index) : Prop where
  sound : index.Sound
  used : ∀ term perDoc, index.freq.get? term = some perDoc → perDoc.entries ≠ []
  bare : index.n = 0 → index.avgdl = 0

theorem used_dropPostings {freq : Py.Dict String (Py.Dict String Nat)} {docId term : String}
    {perDoc : Py.Dict String Nat} (is : (dropPostings docId freq).get? term = some perDoc) :
    perDoc.entries ≠ [] := by
  rw [dropPostings, Py.Dict.get?_filterMap, Option.bind_eq_some_iff] at is
  obtain ⟨perDoc', -, is⟩ := is
  by_cases last : (perDoc'.erase docId).entries = []
  · simp [last] at is
  · rw [if_neg last] at is
    exact Option.some.inj is ▸ last

theorem used_post {freq : Py.Dict String (Py.Dict String Nat)} (docId token : String)
    (used : ∀ term perDoc, freq.get? term = some perDoc → perDoc.entries ≠ []) (term : String)
    (perDoc : Py.Dict String Nat) (is : (post docId freq token).get? term = some perDoc) :
    perDoc.entries ≠ [] := by
  rw [post, Py.Dict.get?_set] at is
  by_cases same : term = token
  · rw [if_pos same] at is
    rw [← Option.some.inj is]
    exact List.ne_nil_of_mem (Py.Dict.mem_set.mpr (.inl rfl))
  · rw [if_neg same] at is
    exact used term perDoc is

theorem used_tokens (docId : String) (tokens : List String)
    (freq : Py.Dict String (Py.Dict String Nat))
    (used : ∀ term perDoc, freq.get? term = some perDoc → perDoc.entries ≠ []) (term : String)
    (perDoc : Py.Dict String Nat) (is : (tokens.foldl (post docId) freq).get? term = some perDoc) :
    perDoc.entries ≠ [] := by
  induction tokens generalizing freq with
  | nil => exact used term perDoc is
  | cons token tokens ih =>
    rw [List.foldl_cons] at is
    exact ih (post docId freq token) (used_post docId token used) is

theorem kept_new (k1 b : ℚ) : ({ k1 := k1, b := b } : BM25Index).Kept := by
  refine ⟨⟨fun _ => rfl, fun _ _ => rfl, rfl, ?_⟩, ?_, fun _ => rfl⟩
  · norm_num [Py.Dict.total, Py.Dict.empty]
  · intro term perDoc is
    cases is

theorem kept_remove {index : BM25Index} (kept : index.Kept) (docId : String) :
    (index.remove docId).2.Kept := by
  refine ⟨(sound_remove kept.sound docId).1, ?_, ?_⟩
  · unfold remove
    split
    · exact kept.used
    · intro term perDoc is
      exact used_dropPostings is
  · unfold remove
    split
    · exact kept.bare
    · intro none_
      dsimp only at none_ ⊢
      rw [if_neg (by omega)]

theorem kept_upsert {index : BM25Index} (kept : index.Kept) (docId : String)
    (document : Document) : (index.upsert docId document).Kept := by
  have removed := kept_remove kept docId
  refine ⟨sound_upsert kept.sound docId document, ?_, ?_⟩
  · intro term perDoc is
    unfold upsert at is
    exact used_tokens docId _ _ removed.used term perDoc is
  · intro none_
    unfold upsert at none_
    exact absurd none_ (Nat.succ_ne_zero _)

theorem kept_after (k1 b : ℚ) (calls : List Call) :
    (after k1 b calls).Kept ∧ ∀ docId, (after k1 b calls).docs.get? docId = current calls docId := by
  induction calls using List.reverseRecOn with
  | nil => exact ⟨kept_new k1 b, fun _ => rfl⟩
  | append_singleton calls next ih =>
    obtain ⟨kept, held⟩ := ih
    unfold after current
    rw [List.foldl_append, List.foldl_append, List.foldl_cons, List.foldl_cons, List.foldl_nil,
      List.foldl_nil, ← after, ← current]
    cases next with
    | upsert docId document =>
      refine ⟨kept_upsert kept docId document, fun docId' => ?_⟩
      refine (get?_upsert kept.sound docId document docId').trans ?_
      rw [held, Call.leaves]
    | remove docId =>
      obtain ⟨-, gone, rest⟩ := sound_remove kept.sound docId
      refine ⟨kept_remove kept docId, fun docId' => ?_⟩
      change ((after k1 b calls).remove docId).2.docs.get? docId' =
        if docId' = docId then none else current calls docId'
      by_cases here : docId' = docId
      · rw [if_pos here, here]
        exact gone
      · rw [if_neg here, ← held]
        exact rest docId' here

theorem fromDocs {index : BM25Index} (kept : index.Kept) : index.FromDocs := by
  have sound := kept.sound
  refine ⟨sound.lengths, sound.postings, ?_, sound.number, ?_⟩
  · intro term
    constructor
    · intro posts
      obtain ⟨perDoc, is⟩ := Option.isSome_iff_exists.mp posts
      obtain ⟨⟨docId, count⟩, mem⟩ := List.exists_mem_of_ne_nil _ (kept.used term perDoc is)
      have posted := sound.postings term docId
      rw [BM25Index.posted, is, Option.bind_some, Py.Dict.get?_eq_some.mpr mem] at posted
      obtain ⟨document, there, occurs⟩ := Option.bind_eq_some_iff.mp posted.symm
      refine ⟨docId, document, there, ?_⟩
      by_contra missing
      simp [occurrences, List.count_eq_zero.mpr missing] at occurs
    · rintro ⟨docId, document, there, mem⟩
      have posted := sound.postings term docId
      have some_ : (tokenize document.text).count term ≠ 0 := by
        rw [Ne, List.count_eq_zero, not_not]
        exact mem
      rw [there, Option.bind_some, occurrences, if_neg some_, BM25Index.posted] at posted
      obtain ⟨perDoc, is, -⟩ := Option.bind_eq_some_iff.mp posted
      rw [is, Option.isSome_some]
  · rw [averageOf]
    by_cases none_ : index.docs.size = 0
    · rw [if_pos none_]
      exact kept.bare (sound.number.trans none_)
    · rw [if_neg none_, eq_div_iff (by exact_mod_cast none_), ← sound.number]
      exact sound.average

/-! ## What a search makes of it -/

section Search
variable {ln : ℚ → ℚ} {index index' : BM25Index}

/-- What a term adds to one document. -/
theorem filter_parts (tenantId : Option String) (term docId : String) :
    ((index.parts ln tenantId term).filter fun e => e.1 = docId) =
      if index.shown tenantId docId then
        ((posted index.freq term docId).map fun count =>
          (docId, index.scoreOf ln docId (index.df term) count)).toList
      else [] := by
  have own := Py.Dict.filter_entries ((index.freq.get? term).getD .empty) docId
  rw [get?_postings] at own
  rw [parts, List.filter_map, List.filter_filter]
  have swap : (((index.freq.get? term).getD .empty).entries.filter fun e =>
      ((fun e : String × ℚ => decide (e.1 = docId)) ∘
        fun e : String × Nat => (e.1, index.scoreOf ln e.1 (index.df term) e.2)) e &&
        index.shown tenantId e.1) =
      (((posted index.freq term docId).map (Prod.mk docId)).toList).filter fun e =>
        index.shown tenantId e.1 := by
    rw [← own, List.filter_filter]
    apply List.filter_congr
    intro e _
    exact Bool.and_comm _ _
  rw [swap]
  cases posted index.freq term docId with
  | none => simp
  | some count =>
    by_cases shown : index.shown tenantId docId = true
    · simp [shown]
    · simp [shown]

/-- Two indexes that read the same. -/
structure Alike (index index' : BM25Index) : Prop where
  k1 : index.k1 = index'.k1
  b : index.b = index'.b
  number : index.n = index'.n
  average : index.avgdl = index'.avgdl
  docs : ∀ docId, index.docs.get? docId = index'.docs.get? docId
  lengths : ∀ docId, index.docLen.get? docId = index'.docLen.get? docId
  postings : ∀ term docId, posted index.freq term docId = posted index'.freq term docId

/-- What documents make does not depend on their order. -/
theorem alike_of_docs (made : index.FromDocs) (made' : index'.FromDocs)
    (k1 : index.k1 = index'.k1) (b : index.b = index'.b)
    (docs : ∀ docId, index.docs.get? docId = index'.docs.get? docId) : Alike index index' := by
  have size := Py.Dict.size_congr docs
  refine ⟨k1, b, ?_, ?_, docs, ?_, ?_⟩
  · rw [made.number, made'.number, size]
  · rw [made.average, made'.average, averageOf, averageOf, size, Py.Dict.total_congr docs]
  · intro docId
    rw [made.lengths, made'.lengths, docs]
  · intro term docId
    rw [made.postings, made'.postings, docs]

theorem filter_parts_alike (alike : Alike index index') (tenantId : Option String)
    (term docId : String) :
    ((index.parts ln tenantId term).filter fun e => e.1 = docId) =
      (index'.parts ln tenantId term).filter fun e => e.1 = docId := by
  have df : index.df term = index'.df term := by
    apply Py.Dict.size_congr
    intro docId
    rw [get?_postings, get?_postings, alike.postings]
  have shown : index.shown tenantId docId = index'.shown tenantId docId := by
    rw [BM25Index.shown, BM25Index.shown, alike.docs]
  have scoreOf (df count : Nat) :
      index.scoreOf ln docId df count = index'.scoreOf ln docId df count := by
    rw [BM25Index.scoreOf, BM25Index.scoreOf, alike.number, alike.lengths, alike.k1, alike.b,
      alike.average]
  rw [filter_parts, filter_parts, shown, df, alike.postings]
  simp only [scoreOf]

theorem scores_alike (alike : Alike index index') (query : String) (tenantId : Option String)
    (docId : String) :
    (index.scores ln query tenantId).get? docId = (index'.scores ln query tenantId).get? docId := by
  rw [scores_eq, scores_eq, alike.number]
  by_cases none_ : index'.n = 0
  · rw [if_pos none_, if_pos none_]
  · rw [if_neg none_, if_neg none_]
    apply Py.Dict.tally_congr rfl
    rw [List.filter_flatMap, List.filter_flatMap]
    simp only [filter_parts_alike alike]

theorem ranked_alike (alike : Alike index index') (query : String) (tenantId : Option String) :
    (index.ranked ln query tenantId).Perm (index'.ranked ln query tenantId) :=
  calc
    (index.ranked ln query tenantId).Perm (index.scores ln query tenantId).entries :=
      List.mergeSort_perm _ _
    List.Perm _ (index'.scores ln query tenantId).entries :=
      Py.Dict.entries_perm (scores_alike alike query tenantId)
    List.Perm _ (index'.ranked ln query tenantId) := (List.mergeSort_perm _ _).symm

end Search

/-! ## No division raises -/

theorem foldlM_some {α β : Type} {f? : β → α → Option β} {f : β → α → β} (l : List α)
    (total : ∀ x ∈ l, ∀ acc, f? acc x = some (f acc x)) (acc : β) :
    l.foldlM f? acc = some (l.foldl f acc) := by
  induction l generalizing acc with
  | nil => rfl
  | cons x l ih =>
    rw [List.foldlM_cons, total x List.mem_cons_self, List.foldl_cons]
    exact ih (fun y mem => total y (List.mem_cons_of_mem x mem)) (f acc x)

theorem div?_some {x y : ℚ} (h : y ≠ 0) : div? x y = some (x / y) := if_neg h

/-- A term that is posted occurs at least once. -/
theorem count_pos {index : BM25Index} (sound : index.Sound) {term docId : String} {count : Nat}
    (is : posted index.freq term docId = some count) : 0 < count := by
  rw [sound.postings, Option.bind_eq_some_iff] at is
  obtain ⟨document, -, occurs⟩ := is
  rw [occurrences] at occurs
  by_cases none_ : (tokenize document.text).count term = 0
  · simp [none_] at occurs
  · rw [if_neg none_] at occurs
    rw [← Option.some.inj occurs]
    exact Nat.pos_of_ne_zero none_

/-- With `k1` at least 0 and `b` between 0 and 1, a posting is divided by a positive number. -/
theorem denom_pos {index : BM25Index} (sound : index.Sound) (hk : 0 ≤ index.k1) (hb : 0 ≤ index.b)
    (hb' : index.b ≤ 1) {term docId : String} {count : Nat}
    (is : posted index.freq term docId = some count) (length : Nat) :
    0 < count + index.k1 * (1 - index.b + index.b * length / index.avgdl) := by
  have average : 0 < index.avgdl := avgdl_pos sound (by rw [is]; rfl)
  have occurs : (0 : ℚ) < count := by exact_mod_cast count_pos sound is
  have relative : 0 ≤ index.b * length / index.avgdl := by positivity
  have factor : 0 ≤ 1 - index.b + index.b * length / index.avgdl := by linarith
  have weighted := mul_nonneg hk factor
  linarith

section Checked
variable {index : BM25Index} (sound : index.Sound) (hk : 0 ≤ index.k1) (hb : 0 ≤ index.b)
  (hb' : index.b ≤ 1) (ln : ℚ → ℚ)
include sound hk hb hb'

theorem scoreOf?_some {term docId : String} {count : Nat}
    (is : posted index.freq term docId = some count) (df : Nat) :
    index.scoreOf? ln docId df count = some (index.scoreOf ln docId df count) := by
  have average : 0 < index.avgdl := avgdl_pos sound (by rw [is]; rfl)
  have denom := denom_pos sound hk hb hb' is ((index.docLen.get? docId).getD 0)
  have half : (df : ℚ) + 1 / 2 ≠ 0 := by positivity
  rw [scoreOf?, div?_some half]
  simp only [div?_some average.ne', Option.bind_eq_bind, Option.bind_some]
  exact div?_some denom.ne'

theorem scoreTerm?_some (tenantId : Option String) (term : String) (scores : Py.Dict String ℚ) :
    index.scoreTerm? ln tenantId scores term = some (index.scoreTerm ln tenantId scores term) := by
  apply foldlM_some
  rintro ⟨docId, count⟩ mem scores
  have is : posted index.freq term docId = some count := by
    rw [← get?_postings]
    exact Py.Dict.get?_eq_some.mpr mem
  dsimp only
  by_cases shown : index.shown tenantId docId = true
  · rw [if_pos shown, if_pos shown, scoreOf?_some sound hk hb hb' ln is]
    rfl
  · rw [if_neg shown, if_neg shown]
    rfl

theorem search?_some (query : String) (tenantId : Option String) (topK : Nat) :
    index.search? ln query tenantId topK = some (index.search ln query tenantId topK) := by
  have scored : index.scores? ln query tenantId = some (index.scores ln query tenantId) := by
    rw [scores?, scores]
    by_cases none_ : index.n = 0
    · rw [if_pos none_, if_pos none_]
    · rw [if_neg none_, if_neg none_]
      apply foldlM_some
      intro term _ scores
      exact scoreTerm?_some sound hk hb hb' ln tenantId term scores
  rw [search?, scored]
  rfl

end Checked

theorem call_params (index : BM25Index) (next : Call) :
    (index.call next).k1 = index.k1 ∧ (index.call next).b = index.b := by
  have removed (docId : String) :
      (index.remove docId).2.k1 = index.k1 ∧ (index.remove docId).2.b = index.b := by
    unfold remove
    split
    · exact ⟨rfl, rfl⟩
    · exact ⟨rfl, rfl⟩
  cases next with
  | upsert docId document => exact removed docId
  | remove docId => exact removed docId

theorem after_params (k1 b : ℚ) (calls : List Call) :
    (after k1 b calls).k1 = k1 ∧ (after k1 b calls).b = b := by
  induction calls using List.reverseRecOn with
  | nil => exact ⟨rfl, rfl⟩
  | append_singleton calls next ih =>
    obtain ⟨hk, hb⟩ := ih
    obtain ⟨hk', hb'⟩ := call_params (after k1 b calls) next
    rw [after, List.foldl_append]
    exact ⟨hk'.trans hk, hb'.trans hb⟩

/-- After any calls all that the index keeps is computed from its documents, which are those
last set and not removed; calls that leave the same documents score every search the same;
and no search divides by zero. -/
theorem search_of_current (k1 b : ℚ) (hk : 0 ≤ k1) (hb : 0 ≤ b) (hb' : b ≤ 1)
    (calls : List Call) :
    (∀ docId, (after k1 b calls).docs.get? docId = current calls docId) ∧
      (after k1 b calls).FromDocs ∧
      (∀ calls', current calls' = current calls → ∀ ln query tenantId,
        (∀ docId, ((after k1 b calls').scores ln query tenantId).get? docId =
          ((after k1 b calls).scores ln query tenantId).get? docId) ∧
        ((after k1 b calls').ranked ln query tenantId).Perm
          ((after k1 b calls).ranked ln query tenantId)) ∧
      ∀ ln query tenantId topK, (after k1 b calls).search? ln query tenantId topK =
        some ((after k1 b calls).search ln query tenantId topK) := by
  obtain ⟨kept, held⟩ := kept_after k1 b calls
  obtain ⟨k1_is, b_is⟩ := after_params k1 b calls
  refine ⟨held, fromDocs kept, ?_, ?_⟩
  · intro calls' same ln query tenantId
    obtain ⟨kept', held'⟩ := kept_after k1 b calls'
    obtain ⟨k1_is', b_is'⟩ := after_params k1 b calls'
    have alike : Alike (after k1 b calls') (after k1 b calls) := by
      apply alike_of_docs (fromDocs kept') (fromDocs kept)
      · rw [k1_is', k1_is]
      · rw [b_is', b_is]
      · intro docId
        rw [held', held, same]
    exact ⟨scores_alike alike query tenantId, ranked_alike alike query tenantId⟩
  · intro ln query tenantId topK
    apply search?_some kept.sound
    · rw [k1_is]
      exact hk
    · rw [b_is]
      exact hb
    · rw [b_is]
      exact hb'

/-- A document that was replaced scores as one that was set once. -/
theorem search_of_current_replaced :
    ((0 : ℚ) ≤ 3 / 2 ∧ (0 : ℚ) ≤ 3 / 4 ∧ (3 / 4 : ℚ) ≤ 1) ∧
      ∀ ln query tenantId docId,
        ((after (3 / 2) (3 / 4) [.upsert "d:0" ⟨"old words", "t", ⟨"t", "d", "s"⟩⟩,
          .upsert "d:0" ⟨"words", "t", ⟨"t", "d", "s"⟩⟩]).scores ln query tenantId).get? docId =
        ((after (3 / 2) (3 / 4) [.upsert "d:0" ⟨"words", "t", ⟨"t", "d", "s"⟩⟩]).scores ln query
          tenantId).get? docId := by
  have hk : (0 : ℚ) ≤ 3 / 2 := by norm_num
  have hb : (0 : ℚ) ≤ 3 / 4 := by norm_num
  have hb' : (3 / 4 : ℚ) ≤ 1 := by norm_num
  refine ⟨⟨hk, hb, hb'⟩, fun ln query tenantId docId => ?_⟩
  obtain ⟨-, -, same, -⟩ := search_of_current (3 / 2) (3 / 4) hk hb hb'
    [.upsert "d:0" ⟨"words", "t", ⟨"t", "d", "s"⟩⟩]
  refine (same _ ?_ ln query tenantId).1 docId
  funext docId'
  simp only [current, List.foldl_cons, List.foldl_nil, Call.leaves]
  by_cases here : docId' = "d:0"
  · rw [if_pos here, if_pos here]
  · rw [if_neg here, if_neg here, if_neg here]

end BM25Index

end AgentStudio.Retrieval
