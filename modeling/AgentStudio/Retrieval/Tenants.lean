import AgentStudio.Retrieval.Lexical

/-!
# Tenants in one lexical index

The embed worker (`worker/handlers.py`) sets the chunks of every tenant in the one index,
under ids that the tenant has no part in. A search of a tenant is of the documents it set
last: what others set it does not see, but does not see what they have set in place of its
own either.
-/

namespace AgentStudio.Retrieval

/-- `_generate_document_id`. -/
def generateDocumentId (sha256 : String → String) (content source : String) : String :=
  String.ofList ((sha256 (source ++ ":" ++ String.ofList (content.toList.take 1000))).toList.take 32)

structure Chunk where
  id : String
  content : String

/-- The payload of an `ingestion.embed` job. -/
structure EmbedJob where
  tenantId : String
  documentId : String
  source : String
  chunks : List Chunk

namespace EmbedJob

def metadata (job : EmbedJob) : Metadata := ⟨job.tenantId, job.documentId, job.source⟩

/-- What a job sets, in its order. -/
def uploads (job : EmbedJob) : List (String × Document) :=
  job.chunks.map fun chunk =>
    (job.documentId ++ ":" ++ chunk.id, ⟨chunk.content, job.tenantId, job.metadata⟩)

end EmbedJob

/-- `index_chunks`. -/
def indexChunks (index : BM25Index) (job : EmbedJob) : BM25Index :=
  job.chunks.foldl (fun index chunk =>
    index.upsert (job.documentId ++ ":" ++ chunk.id)
      ⟨chunk.content, job.tenantId, job.metadata⟩) index

/-- The index after jobs, in the order in which they reach it. -/
def embedded (jobs : List EmbedJob) : BM25Index := jobs.foldl indexChunks {}

/-- What was last set under an id. -/
def lastUpload (jobs : List EmbedJob) (docId : String) : Option Document :=
  ((jobs.flatMap EmbedJob.uploads).reverse.find? fun e => e.1 = docId).map Prod.snd

/-- The jobs of a tenant. -/
def ownJobs (tenantId : String) (jobs : List EmbedJob) : List EmbedJob :=
  jobs.filter fun job => job.tenantId = tenantId

/-! ## What a search finds -/

namespace BM25Index
variable {ln : ℚ → ℚ} {index : BM25Index}

theorem mem_parts {tenantId : Option String} {term docId : String} :
    docId ∈ (index.parts ln tenantId term).map Prod.fst ↔
      index.shown tenantId docId = true ∧ (posted index.freq term docId).isSome = true := by
  rw [← get?_postings, Option.isSome_iff_ne_none, Ne, Py.Dict.get?_eq_none, not_not, parts,
    List.map_map, Py.Dict.keys]
  constructor
  · intro mem
    obtain ⟨e, listed, rfl⟩ := List.mem_map.mp mem
    obtain ⟨posts, shown⟩ := List.mem_filter.mp listed
    exact ⟨shown, List.mem_map_of_mem posts⟩
  · rintro ⟨shown, posts⟩
    obtain ⟨e, listed, rfl⟩ := List.mem_map.mp posts
    exact List.mem_map.mpr ⟨e, List.mem_filter.mpr ⟨listed, shown⟩, rfl⟩

theorem mem_keys_scores {query : String} {tenantId : Option String} {docId : String} :
    docId ∈ (index.scores ln query tenantId).keys ↔
      index.n ≠ 0 ∧ index.shown tenantId docId = true ∧
        ∃ term ∈ tokenize query, (posted index.freq term docId).isSome = true := by
  rw [scores_eq]
  by_cases none_ : index.n = 0
  · simp [none_, Py.Dict.keys, Py.Dict.empty]
  · have listed : docId ∈
        ((tokenize query).dedup.flatMap (index.parts ln tenantId)).map Prod.fst ↔
          ∃ term ∈ tokenize query, docId ∈ (index.parts ln tenantId term).map Prod.fst := by
      rw [List.map_flatMap, List.mem_flatMap]
      simp only [List.mem_dedup]
    rw [if_neg none_, Py.Dict.mem_keys_tally, listed]
    simp only [mem_parts]
    constructor
    · rintro (nothing | ⟨term, asked, shown, posts⟩)
      · cases nothing
      · exact ⟨none_, shown, term, asked, posts⟩
    · rintro ⟨-, shown, term, asked, posts⟩
      exact .inr ⟨term, asked, shown, posts⟩

/-- A search finds the documents of its tenant that share a term with the query. -/
theorem mem_found (sound : index.Sound) {query tenantId docId : String} {document : Document} :
    (docId, document) ∈ index.found ln query (some tenantId) ↔
      index.docs.get? docId = some document ∧ document.tenantId = tenantId ∧
        ∃ term ∈ tokenize query, term ∈ tokenize document.text := by
  have keyed : (∃ score, (docId, score) ∈ index.ranked ln query (some tenantId)) ↔
      docId ∈ (index.scores ln query (some tenantId)).keys := by
    simp [ranked, List.mem_mergeSort, Py.Dict.keys]
  have split : (docId, document) ∈ index.found ln query (some tenantId) ↔
      docId ∈ (index.scores ln query (some tenantId)).keys ∧
        index.docs.get? docId = some document := by
    rw [← keyed]
    constructor
    · rintro ⟨score, mem, is⟩
      exact ⟨⟨score, mem⟩, is⟩
    · rintro ⟨⟨score, mem⟩, is⟩
      exact ⟨score, mem, is⟩
  rw [split, mem_keys_scores]
  constructor
  · rintro ⟨⟨-, shown, term, asked, posted⟩, is⟩
    rw [sound.postings, is, Option.bind_some, occurrences] at posted
    refine ⟨is, by simpa [BM25Index.shown, is] using shown, term, asked, ?_⟩
    by_contra missing
    simp [List.count_eq_zero.mpr missing] at posted
  · rintro ⟨is, own, term, asked, occurs⟩
    refine ⟨⟨?_, by simpa [BM25Index.shown, is] using own, term, asked, ?_⟩, is⟩
    · rw [sound.number]
      exact Nat.ne_of_gt (List.length_pos_of_mem (Py.Dict.get?_eq_some.mp is))
    · rw [sound.postings, is, Option.bind_some, occurrences]
      have some_ : (tokenize document.text).count term ≠ 0 := by
        rw [Ne, List.count_eq_zero, not_not]
        exact occurs
      simp [some_]

end BM25Index

/-! ## The index after any jobs -/

theorem indexChunks_eq : indexChunks = fun index job =>
    job.uploads.foldl (fun index e => index.upsert e.1 e.2) index := by
  funext index job
  rw [indexChunks, EmbedJob.uploads, List.foldl_map]

theorem embedded_eq (jobs : List EmbedJob) :
    embedded jobs =
      (jobs.flatMap EmbedJob.uploads).foldl (fun index e => index.upsert e.1 e.2) {} := by
  rw [embedded, List.foldl_flatMap, indexChunks_eq]

/-- The index is sound and holds what was last set under each id. -/
theorem embedded_spec (jobs : List EmbedJob) : (embedded jobs).Sound ∧
    ∀ docId, (embedded jobs).docs.get? docId = lastUpload jobs docId := by
  rw [embedded_eq]
  unfold lastUpload
  induction jobs.flatMap EmbedJob.uploads using List.reverseRecOn with
  | nil => exact ⟨BM25Index.sound_empty, fun _ => rfl⟩
  | append_singleton uploads e ih =>
    obtain ⟨sound, held⟩ := ih
    rw [List.foldl_append]
    refine ⟨BM25Index.sound_upsert sound e.1 e.2, fun docId => ?_⟩
    refine (BM25Index.get?_upsert sound e.1 e.2 docId).trans ?_
    rw [List.reverse_append, List.reverse_singleton, List.singleton_append]
    by_cases here : docId = e.1
    · rw [if_pos here, List.find?_cons_of_pos (by simp [here])]
      rfl
    · have other : ¬ e.1 = docId := fun same => here same.symm
      rw [if_neg here, held, List.find?_cons_of_neg (by simpa using other)]

theorem uploads_ownJobs (tenantId : String) (jobs : List EmbedJob) :
    (ownJobs tenantId jobs).flatMap EmbedJob.uploads =
      (jobs.flatMap EmbedJob.uploads).filter fun e => e.2.tenantId = tenantId := by
  induction jobs with
  | nil => rfl
  | cons job jobs ih =>
    rw [List.flatMap_cons, List.filter_append, ← ih, ownJobs]
    by_cases own : job.tenantId = tenantId
    · have all : job.uploads.filter (fun e => decide (e.2.tenantId = tenantId)) = job.uploads := by
        simp [EmbedJob.uploads, List.filter_map, Function.comp_def, own]
      rw [List.filter_cons_of_pos (by simpa using own), List.flatMap_cons, all, ownJobs]
    · have none_ : job.uploads.filter (fun e => decide (e.2.tenantId = tenantId)) = [] := by
        simp [EmbedJob.uploads, List.filter_map, Function.comp_def, own]
      rw [List.filter_cons_of_neg (by simpa using own), none_, List.nil_append, ownJobs]

/-- What a tenant set last of all, it set last of its own. -/
theorem lastUpload_own {jobs : List EmbedJob} {tenantId docId : String} {document : Document}
    (last : lastUpload jobs docId = some document) (own : document.tenantId = tenantId) :
    lastUpload (ownJobs tenantId jobs) docId = some document := by
  obtain ⟨⟨id, document'⟩, found, rfl⟩ := Option.map_eq_some_iff.mp last
  obtain ⟨here, later, earlier, is, apart⟩ := List.find?_eq_some_iff_append.mp found
  rw [lastUpload, uploads_ownJobs, ← List.filter_reverse, is, List.filter_append,
    List.filter_cons_of_pos (by simpa using own), List.find?_append, List.find?_eq_none.mpr,
    Option.none_or]
  · exact congrArg (Option.map Prod.snd) (List.find?_cons_of_pos here)
  · intro e mem
    simpa using apart e (List.mem_filter.mp mem).1

/-- The property of every query: a tenant finds what it would find had only its own jobs
run. It holds exactly when under every id the tenant has set a text with a term, the last
that was set is its own. -/
theorem found_own_iff (ln : ℚ → ℚ) (jobs : List EmbedJob) (tenantId : String) :
    (∀ query, (embedded jobs).found ln query (some tenantId) =
      (embedded (ownJobs tenantId jobs)).found ln query (some tenantId)) ↔
      ∀ docId document, lastUpload (ownJobs tenantId jobs) docId = some document →
        tokenize document.text ≠ [] →
          ∃ document', lastUpload jobs docId = some document' ∧ document'.tenantId = tenantId := by
  obtain ⟨sound, held⟩ := embedded_spec jobs
  obtain ⟨sound', held'⟩ := embedded_spec (ownJobs tenantId jobs)
  have own {docId : String} {document : Document}
      (last : lastUpload (ownJobs tenantId jobs) docId = some document) :
      document.tenantId = tenantId := by
    obtain ⟨e, found, rfl⟩ := Option.map_eq_some_iff.mp last
    have mem := List.mem_reverse.mp (List.mem_of_find?_eq_some found)
    rw [uploads_ownJobs] at mem
    simpa using (List.mem_filter.mp mem).2
  constructor
  · intro same docId document last terms
    obtain ⟨term, occurs⟩ := List.exists_mem_of_ne_nil _ terms
    have mem : (docId, document) ∈
        (embedded (ownJobs tenantId jobs)).found ln document.text (some tenantId) :=
      (BM25Index.mem_found sound').mpr
        ⟨(held' docId).trans last, own last, term, occurs, occurs⟩
    rw [← same, BM25Index.mem_found sound, held] at mem
    exact ⟨document, mem.1, mem.2.1⟩
  · intro kept query
    ext ⟨docId, document⟩
    rw [BM25Index.mem_found sound, BM25Index.mem_found sound', held, held']
    constructor
    · rintro ⟨last, is, shared⟩
      exact ⟨lastUpload_own last is, is, shared⟩
    · rintro ⟨last, is, term, asked, occurs⟩
      obtain ⟨document', last', is'⟩ := kept docId document last (List.ne_nil_of_mem occurs)
      have same := lastUpload_own last' is'
      rw [last] at same
      obtain rfl := Option.some.inj same
      exact ⟨last', is, term, asked, occurs⟩

/-! ## The same text of two tenants -/

/-- The embed job of a text that both tenants have, under the id that is made for it. -/
def greetingJob (tenantId : String) : EmbedJob where
  tenantId := tenantId
  documentId := generateDocumentId
    (fun _ => "1f1062d925d001828f2494873de94fbb07014bcd9c1fa5b35b1a3148aecfec80") "hello" "faq.txt"
  source := "faq.txt"
  chunks := [⟨"chunk-0", "hello"⟩]

/-- The second tenant takes the chunk of the first, who finds it no more. -/
theorem chunk_taken :
    (∀ ln, (embedded [greetingJob "a"]).found ln "hello" (some "a") ≠ ∅) ∧
      ∀ ln, (embedded [greetingJob "a", greetingJob "b"]).found ln "hello" (some "a") = ∅ := by
  have terms : tokenize "hello" = ["hello"] := by decide +kernel
  have first : lastUpload [greetingJob "a"] "1f1062d925d001828f2494873de94fbb:chunk-0" =
      some ⟨"hello", "a", (greetingJob "a").metadata⟩ := by decide +kernel
  constructor
  · intro ln
    obtain ⟨sound, held⟩ := embedded_spec [greetingJob "a"]
    apply Set.nonempty_iff_ne_empty.mp
    refine ⟨_, (BM25Index.mem_found sound).mpr ⟨(held _).trans first, rfl, "hello", ?_, ?_⟩⟩
    · rw [terms]
      exact List.mem_singleton_self _
    · rw [terms]
      exact List.mem_singleton_self _
  · intro ln
    obtain ⟨sound, held⟩ := embedded_spec [greetingJob "a", greetingJob "b"]
    apply Set.eq_empty_iff_forall_notMem.mpr
    rintro ⟨docId, document⟩ mem
    obtain ⟨is, own, -⟩ := (BM25Index.mem_found sound).mp mem
    rw [held] at is
    have uploads : ([greetingJob "a", greetingJob "b"].flatMap EmbedJob.uploads).reverse =
        [("1f1062d925d001828f2494873de94fbb:chunk-0",
            ⟨"hello", "b", (greetingJob "b").metadata⟩),
          ("1f1062d925d001828f2494873de94fbb:chunk-0",
            ⟨"hello", "a", (greetingJob "a").metadata⟩)] := by
      decide +kernel
    rw [lastUpload, uploads] at is
    by_cases here : "1f1062d925d001828f2494873de94fbb:chunk-0" = docId
    · rw [List.find?_cons_of_pos (by simpa using here)] at is
      obtain rfl := Option.some.inj is
      exact absurd own (by decide)
    · simp [here] at is

end AgentStudio.Retrieval
