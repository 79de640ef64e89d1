import AgentStudio.Ingestion.FollowUp

/-!
# Documents that are known

`ingest_document` of `application/ingestion/service.py`, called again and again on one service with
deduplication. A document is known by a digest of its source and its first five thousand characters,
from before it is chunked.
-/

namespace AgentStudio.Ingestion

structure ServiceConfig extends Config where
  maxConcurrentJobs : Int := 10

/-- The arguments of a call that matter to the service. -/
structure Call where
  content : String
  source : String
  tenantId : Option Uuid
  deriving DecidableEq

inductive CallError where
  | ingestion (error : IngestionError)
  | duplicate (documentId : String)
  | cancelled
  deriving DecidableEq

/-- What is raised once the job has begun, by the chunker, the executor or the progress
callback. -/
inductive Failure where
  | exception (text : String)
  | cancelled

structure Service where
  contentHashes : List String := []
  activeJobs : Int := 0

variable (config : ServiceConfig) (sha256 : String → String)

/-- `_compute_content_hash`. -/
def computeContentHash (content source : String) : String :=
  sha256 (source ++ ":" ++ String.ofList (content.toList.take 5000))

/-- `ingest_document`; `chunked` is what comes of the job. -/
def Service.ingest (service : Service) (call : Call) (chunked : Except Failure (List Chunk)) :
    Except CallError (List Chunk) × Service :=
  let format := detectFormat config.toConfig call.source call.content
  if format ∉ config.supportedFormats then
    (.error (.ingestion (.unsupportedFormat format)), service)
  else if config.maxDocumentSize < call.content.utf8ByteSize then
    (.error (.ingestion (.documentTooLarge call.content.utf8ByteSize config.maxDocumentSize)),
      service)
  else
    let hash := computeContentHash sha256 call.content call.source
    if hash ∈ service.contentHashes then
      (.error (.duplicate (String.ofList (hash.toList.take 16))), service)
    else if config.maxConcurrentJobs ≤ service.activeJobs then
      (.error (.ingestion (.failed "Max concurrent jobs reached" call.source)), service)
    else
      let running : Service :=
        { contentHashes := hash :: service.contentHashes, activeJobs := service.activeJobs + 1 }
      let ended := { running with activeJobs := running.activeJobs - 1 }
      match chunked with
      | .ok chunks => (.ok chunks, ended)
      | .error (.exception text) => (.error (.ingestion (.failed text call.source)), ended)
      | .error .cancelled => (.error .cancelled, ended)

/-- The checks that a document passes or not, whatever the service has seen. -/
def Call.Valid (call : Call) : Prop :=
  detectFormat config.toConfig call.source call.content ∈ config.supportedFormats ∧
    call.content.utf8ByteSize ≤ config.maxDocumentSize

/-! ## Runs -/

/-- A service, and for the record the calls that have succeeded on it. -/
structure History where
  service : Service := {}
  succeeded : List Call := []

/-- A call, and what comes of its job. -/
abbrev Attempt := Call × Except Failure (List Chunk)

namespace History

def next (w : History) (attempt : Attempt) : History :=
  let outcome := w.service.ingest config sha256 attempt.1 attempt.2
  { service := outcome.2
    succeeded := if outcome.1.isOk then attempt.1 :: w.succeeded else w.succeeded }

def after (attempts : List Attempt) : History := attempts.foldl (next config sha256) {}

/-- The call raises as a duplicate exactly if the same document of the same tenant has been
ingested, and leaves the service as it was if it fails. -/
def Good (w : History) (attempt : Attempt) : Prop :=
  let outcome := w.service.ingest config sha256 attempt.1 attempt.2
  ((∃ documentId, outcome.1 = .error (.duplicate documentId)) ↔ attempt.1 ∈ w.succeeded) ∧
    (∀ e, outcome.1 = .error e → outcome.2 = w.service)

/-- A call that has succeeded had this document's digest. -/
def Known (w : History) (call : Call) : Prop :=
  ∃ earlier ∈ w.succeeded, computeContentHash sha256 earlier.content earlier.source =
    computeContentHash sha256 call.content call.source

/-- A document that passes its checks has been ingested for the same tenant where its digest is
known, and otherwise its job does not fail. -/
def Meets (w : History) (attempt : Attempt) : Prop :=
  attempt.1.Valid config →
    (w.Known sha256 attempt.1 → attempt.1 ∈ w.succeeded) ∧
    (¬ w.Known sha256 attempt.1 → config.maxConcurrentJobs ≤ 0 ∨ attempt.2.isOk = true)

/-- The digests are of the calls that have succeeded, and no job is active. -/
structure Sound (w : History) : Prop where
  known : ∀ hash, hash ∈ w.service.contentHashes ↔
    ∃ call ∈ w.succeeded, computeContentHash sha256 call.content call.source = hash
  valid : ∀ call ∈ w.succeeded, call.Valid config
  idle : w.service.activeJobs = 0

variable {config sha256} {w : History} {call : Call} {chunked : Except Failure (List Chunk)}

variable (sha256 chunked) in
theorem ingest_invalid (invalid : ¬ call.Valid config)
    (service : Service) :
    (∃ e, (service.ingest config sha256 call chunked).1 = .error (.ingestion e)) ∧
      (service.ingest config sha256 call chunked).2 = service := by
  rw [Service.ingest]
  split
  · exact ⟨⟨_, rfl⟩, rfl⟩
  · rename_i format
    split
    · exact ⟨⟨_, rfl⟩, rfl⟩
    · rename_i size
      exact absurd ⟨not_not.mp format, not_lt.mp size⟩ invalid

variable (chunked) in
theorem ingest_known (valid : call.Valid config) {service : Service}
    (known : computeContentHash sha256 call.content call.source ∈ service.contentHashes) :
    ∃ documentId, service.ingest config sha256 call chunked =
      (.error (.duplicate documentId), service) := by
  simp only [Service.ingest, if_neg (not_not.mpr valid.1), if_neg (not_lt.mpr valid.2),
    if_pos known]
  exact ⟨_, rfl⟩

variable (chunked) in
theorem ingest_full (valid : call.Valid config) {service : Service}
    (new : computeContentHash sha256 call.content call.source ∉ service.contentHashes)
    (full : config.maxConcurrentJobs ≤ service.activeJobs) :
    ∃ e, service.ingest config sha256 call chunked = (.error (.ingestion e), service) := by
  simp only [Service.ingest, if_neg (not_not.mpr valid.1), if_neg (not_lt.mpr valid.2),
    if_neg new, if_pos full]
  exact ⟨_, rfl⟩

variable (chunked) in
/-- The digest is kept whatever comes of the job. -/
theorem ingest_job (valid : call.Valid config) {service : Service}
    (new : computeContentHash sha256 call.content call.source ∉ service.contentHashes)
    (room : ¬ config.maxConcurrentJobs ≤ service.activeJobs) :
    ∃ result, result.isOk = chunked.isOk ∧ (∀ documentId, result ≠ .error (.duplicate documentId)) ∧
      service.ingest config sha256 call chunked = (result, { service with
        contentHashes :=
          computeContentHash sha256 call.content call.source :: service.contentHashes }) := by
  simp only [Service.ingest, if_neg (not_not.mpr valid.1), if_neg (not_lt.mpr valid.2),
    if_neg new, if_neg room, add_sub_cancel_right]
  cases chunked with
  | ok chunks => exact ⟨_, rfl, fun _ => by simp, rfl⟩
  | error e =>
    cases e with
    | exception text => exact ⟨_, rfl, fun _ => by simp, rfl⟩
    | cancelled => exact ⟨_, rfl, fun _ => by simp, rfl⟩

/-- A call is good exactly if it meets the condition. -/
theorem good_iff_meets (sound : w.Sound config sha256) (attempt : Attempt) :
    w.Good config sha256 attempt ↔ w.Meets config sha256 attempt := by
  obtain ⟨call, chunked⟩ := attempt
  by_cases valid : call.Valid config
  · rw [Meets, forall_prop_of_true valid, Known, ← sound.known]
    by_cases known : computeContentHash sha256 call.content call.source ∈ w.service.contentHashes
    · obtain ⟨documentId, outcome⟩ := ingest_known chunked valid known
      rw [Good, outcome]
      simp [known]
    · have new : call ∉ w.succeeded := fun there => known ((sound.known _).mpr ⟨call, there, rfl⟩)
      by_cases full : config.maxConcurrentJobs ≤ w.service.activeJobs
      · obtain ⟨e, outcome⟩ := ingest_full chunked valid known full
        rw [Good, outcome]
        rw [sound.idle] at full
        simp [new, known, full]
      · obtain ⟨result, ok, apart, outcome⟩ := ingest_job chunked valid known full
        rw [Good, outcome]
        rw [sound.idle] at full
        simp only [known, false_implies, not_false_eq_true, true_implies, true_and, full, false_or,
          ← ok, new, iff_false, not_exists]
        cases result with
        | ok chunks => simp [Except.isOk, Except.toBool]
        | error e =>
          have grown (hash : String) : ({ w.service with
              contentHashes := hash :: w.service.contentHashes } : Service) ≠ w.service :=
            fun same => List.cons_ne_self _ _ (congrArg Service.contentHashes same)
          simp [Except.isOk, Except.toBool, grown]
  · obtain ⟨⟨e, raised⟩, same⟩ := ingest_invalid sha256 chunked valid w.service
    have new : call ∉ w.succeeded := fun there => valid (sound.valid call there)
    refine iff_of_true ⟨?_, fun _ _ => same⟩ fun passes => absurd passes valid
    rw [raised]
    simp [new]

theorem next_sound (sound : w.Sound config sha256) {attempt : Attempt}
    (meets : w.Meets config sha256 attempt) : (w.next config sha256 attempt).Sound config sha256 := by
  obtain ⟨call, chunked⟩ := attempt
  by_cases valid : call.Valid config
  · by_cases known : computeContentHash sha256 call.content call.source ∈ w.service.contentHashes
    · obtain ⟨documentId, outcome⟩ := ingest_known chunked valid known
      rw [next, outcome]
      exact sound
    · by_cases full : config.maxConcurrentJobs ≤ w.service.activeJobs
      · obtain ⟨e, outcome⟩ := ingest_full chunked valid known full
        rw [next, outcome]
        exact sound
      · obtain ⟨result, ok, -, outcome⟩ := ingest_job chunked valid known full
        rw [sound.idle] at full
        rw [sound.known] at known
        rw [next, outcome, if_pos (ok.trans (((meets valid).2 known).resolve_left full))]
        refine ⟨fun hash => ?_, ?_, sound.idle⟩
        · rw [List.mem_cons, sound.known, List.exists_mem_cons_iff]
          exact or_congr_left eq_comm
        · exact List.forall_mem_cons.mpr ⟨valid, sound.valid⟩
  · obtain ⟨⟨e, raised⟩, same⟩ := ingest_invalid sha256 chunked valid w.service
    rw [next, raised, same]
    exact sound

theorem after_snoc (config : ServiceConfig) (sha256 : String → String) (before : List Attempt)
    (attempt : Attempt) : after config sha256 (before ++ [attempt]) =
      (after config sha256 before).next config sha256 attempt := by
  rw [after, List.foldl_append]
  rfl

theorem after_sound {attempts : List Attempt}
    (meets : ∀ before attempt, before ++ [attempt] <+: attempts →
      (after config sha256 before).Meets config sha256 attempt) :
    (after config sha256 attempts).Sound config sha256 := by
  induction attempts using List.reverseRecOn with
  | nil => exact ⟨fun _ => by simp [after], nofun, rfl⟩
  | append_singleton attempts attempt ih =>
    rw [after_snoc]
    exact next_sound
      (ih fun before attempt start => meets before attempt (start.trans (List.prefix_append _ _)))
      (meets attempts attempt (List.prefix_refl _))

/-- All the calls of a run are good exactly if all of them meet the condition. -/
theorem good_iff (config : ServiceConfig) (sha256 : String → String) (attempts : List Attempt) :
    (∀ before attempt, before ++ [attempt] <+: attempts →
      (after config sha256 before).Good config sha256 attempt) ↔
    ∀ before attempt, before ++ [attempt] <+: attempts →
      (after config sha256 before).Meets config sha256 attempt := by
  constructor
  · intro good
    induction attempts using List.reverseRecOn with
    | nil => exact fun before attempt start => by simp at start
    | append_singleton attempts last ih =>
      have earlier := ih fun before attempt start =>
        good before attempt (start.trans (List.prefix_append _ _))
      intro before attempt start
      obtain start | start := List.prefix_concat_iff.mp start
      · obtain ⟨rfl, same⟩ := List.append_inj' start rfl
        obtain rfl := List.singleton_inj.mp same
        exact (good_iff_meets (after_sound earlier) attempt).mp (good _ _ (List.prefix_refl _))
      · exact earlier before attempt start
  · intro meets before attempt start
    have sound : (after config sha256 before).Sound config sha256 := after_sound
      fun before' attempt' start' => meets before' attempt'
        ((start'.trans (List.prefix_append _ _)).trans start)
    exact (good_iff_meets sound attempt).mpr (meets before attempt start)

/-- The same page of two tenants. -/
theorem same_page : ¬ ∀ (config : ServiceConfig) (sha256 : String → String)
    (attempts : List Attempt), ∀ before attempt, before ++ [attempt] <+: attempts →
      (after config sha256 before).Good config sha256 attempt := by
  intro all
  obtain ⟨duplicate, -⟩ := all {}
    (fun _ => "149c30df59da06b2bd6574024e0ea5b237fb30f7c2e66bcc3c324c7df6bec1d4")
    [(⟨"hello", "notes", some 1⟩, .ok []), (⟨"hello", "notes", some 2⟩, .ok [])]
    [(⟨"hello", "notes", some 1⟩, .ok [])] (⟨"hello", "notes", some 2⟩, .ok [])
    (List.prefix_refl _)
  have succeeded := duplicate.mp ⟨"149c30df59da06b2", by decide⟩
  revert succeeded
  decide

end History

end AgentStudio.Ingestion
