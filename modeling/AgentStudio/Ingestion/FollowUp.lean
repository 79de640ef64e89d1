import AgentStudio.Ingestion.Service
import AgentStudio.Retrieval.Tenants
import Mathlib.Data.List.Induction
import Mathlib.Logic.Function.Basic

/-!
# The embed job of a document

`handle_ingestion_process` of `worker/handlers.py`: a document is chunked, and its chunks go on
as an embed job under a key of the document. The key is of the first thousand characters and the
source, and of no tenant: the embed job of another document that has it is taken for this one's.
-/

namespace AgentStudio.Ingestion

open Retrieval (generateDocumentId)

abbrev Uuid := Nat

/-- The payload of an `ingestion.process` job; a tenant is its UUID. -/
structure Payload where
  content : String
  source : String := ""
  tenantId : Option Uuid
  documentId : Option String := none
  embeddingDim : Option Nat := none
  idem : Option String := none

/-- The payload of an `ingestion.embed` job, once `enqueue` has put the key into it. -/
structure Embed where
  chunks : List Chunk
  tenantId : Option Uuid
  documentId : String
  source : String
  embeddingDim : Option Nat
  idem : String
  deriving DecidableEq

inductive HandlerError where
  | valueError (message : String)
  | ingestion (error : IngestionError)
  deriving DecidableEq

section Handler
variable (sha256 : String → String) (payload : Payload)

/-- `document_id or self._generate_document_id(content, source)`. -/
def documentIdOf : String :=
  let given := payload.documentId.getD ""
  if given = "" then generateDocumentId sha256 payload.content payload.source else given

def embedKey : String :=
  let idem := payload.idem.getD ""
  "embed:" ++ documentIdOf sha256 payload ++ if idem = "" then "" else ":" ++ idem

/-- `handle_ingestion_process`, up to the job that it enqueues if there are chunks. -/
def handleIngestionProcess : Except HandlerError (Option Embed) :=
  if payload.content = "" then
    .error (.valueError "ingestion.process requires payload['content']")
  else
    match ingestDocument {} payload.content payload.source with
    | .error e => .error (.ingestion e)
    | .ok chunks =>
      if chunks = [] then .ok none
      else .ok (some {
        chunks := chunks
        tenantId := payload.tenantId
        documentId := documentIdOf sha256 payload
        source := payload.source
        embeddingDim := payload.embeddingDim
        idem := embedKey sha256 payload })

end Handler

/-- The document has at least one chunk. -/
def Payload.Chunked (payload : Payload) : Prop :=
  ∃ chunks, ingestDocument {} payload.content payload.source = .ok chunks ∧ chunks ≠ []

/-- The embed job is of the tenant and has the chunks of the content. -/
def Payload.Owns (payload : Payload) (embed : Embed) : Prop :=
  embed.tenantId = payload.tenantId ∧
    ingestDocument {} payload.content payload.source = .ok embed.chunks

/-- What is indexed of the one document is indexed of the other. -/
def Payload.Same (payload payload' : Payload) : Prop :=
  payload.tenantId = payload'.tenantId ∧
    ingestDocument {} payload.content payload.source =
      ingestDocument {} payload'.content payload'.source

section Keys
variable (sha256 : String → String) (jobs : List Payload)

/-- No two jobs with chunks have one key. -/
def UniqueKeys : Prop :=
  ∀ (i j : Nat) (p q : Payload), jobs[i]? = some p → jobs[j]? = some q → p.Chunked → q.Chunked →
    embedKey sha256 p = embedKey sha256 q → i = j

/-- No two jobs with chunks have one key and differ in what is to be indexed. -/
def KeysAgree : Prop :=
  ∀ p ∈ jobs, ∀ q ∈ jobs, p.Chunked → q.Chunked →
    embedKey sha256 p = embedKey sha256 q → p.Same q

end Keys

/-! ## The jobs, one step at a time -/

/-- Where the handler of a job is. -/
inductive Phase where
  | waiting
  /-- `_claim_idempotency` is next. -/
  | claiming (embed : Embed)
  /-- The key is claimed; `_redis_enqueue` is next. -/
  | pushing (embed : Embed)
  | completed
  | raised
  deriving DecidableEq

inductive Event where
  | started (i : Nat)
  | pushed (embed : Embed)
  deriving DecidableEq

structure World where
  phase : Nat → Phase := fun _ => .waiting
  /-- The claims that have not expired. -/
  idem : List String := []
  /-- For the record, the latest event first. -/
  log : List Event := []

/-- One step; a step that cannot be taken changes nothing. -/
inductive Action where
  | start (i : Nat)
  | claim (i : Nat)
  | push (i : Nat)
  | expire (key : String)

namespace World

variable (sha256 : String → String) (jobs : List Payload)

def move (w : World) (i : Nat) (phase : Phase) : World :=
  { w with phase := Function.update w.phase i phase }

/-- The worker calls the handler. -/
def start (w : World) (i : Nat) (payload : Payload) : World :=
  let w := { w with log := .started i :: w.log }
  match handleIngestionProcess sha256 payload with
  | .error _ => w.move i .raised
  | .ok none => w.move i .completed
  | .ok (some embed) => w.move i (.claiming embed)

/-- A key that is claimed is taken for a job that was accepted. -/
def claim (w : World) (i : Nat) (embed : Embed) : World :=
  if embed.idem ∈ w.idem then w.move i .completed
  else { w.move i (.pushing embed) with idem := embed.idem :: w.idem }

def push (w : World) (i : Nat) (embed : Embed) : World :=
  { w.move i .completed with log := .pushed embed :: w.log }

def next (w : World) : Action → World
  | .start i =>
    match jobs[i]?, w.phase i with
    | some payload, .waiting => w.start sha256 i payload
    | _, _ => w
  | .claim i =>
    match w.phase i with
    | .claiming embed => w.claim i embed
    | _ => w
  | .push i =>
    match w.phase i with
    | .pushing embed => w.push i embed
    | _ => w
  | .expire key => { w with idem := w.idem.filter (· ≠ key) }

/-- The world after actions, from nothing. -/
def after (actions : List Action) : World := actions.foldl (next sha256 jobs) {}

/-! ## What is to follow -/

/-- The events since a job was started. -/
def since (w : World) (i : Nat) : List Event := w.log.takeWhile (· ≠ .started i)

/-- Every job that has completed with chunks is followed by an embed job of its own tenant with its
own chunks. -/
def Followed (w : World) : Prop :=
  ∀ i payload, jobs[i]? = some payload → payload.Chunked → w.phase i = .completed →
    ∃ embed, .pushed embed ∈ w.since i ∧ payload.Owns embed

/-- No handler is between its claim and its push. -/
def Idle (w : World) : Prop := ∀ i embed, w.phase i ≠ .pushing embed

/-- The same, with an embed job that was put on the queue before counted too. -/
def Indexed (w : World) : Prop :=
  ∀ i payload, jobs[i]? = some payload → payload.Chunked → w.phase i = .completed →
    ∃ embed, .pushed embed ∈ w.log ∧ payload.Owns embed

/-- The job with this number makes this embed job. -/
def Makes (i : Nat) (embed : Embed) : Prop :=
  ∃ payload, jobs[i]? = some payload ∧ handleIngestionProcess sha256 payload = .ok (some embed)

/-- The job has claimed the key, and its embed job is on the queue or is next. -/
def Won (w : World) (j : Nat) (key : String) : Prop :=
  ∃ embed, Makes sha256 jobs j embed ∧ embed.idem = key ∧
    (w.phase j = .pushing embed ∨ w.phase j = .completed ∧ .pushed embed ∈ w.since j)

/-- Whoever has passed its claim has won it, or another has won it before. -/
structure Sound (w : World) : Prop where
  asks : ∀ i embed, w.phase i = .claiming embed ∨ w.phase i = .pushing embed →
    Makes sha256 jobs i embed
  claimed : ∀ key ∈ w.idem, ∃ j, w.Won sha256 jobs j key
  completed : ∀ i embed, Makes sha256 jobs i embed → w.phase i = .completed →
    ∃ j, w.Won sha256 jobs j embed.idem

variable {sha256 jobs} {w w' : World} {i j : Nat} {payload : Payload} {embed : Embed} {key : String}

theorem Makes.owns (makes : Makes sha256 jobs i embed) (is : jobs[i]? = some payload) :
    payload.Owns embed ∧ embed.idem = embedKey sha256 payload ∧ payload.Chunked := by
  obtain ⟨payload', is', made⟩ := makes
  rw [is] at is'
  obtain rfl := Option.some.inj is'
  rw [handleIngestionProcess] at made
  split at made
  · cases made
  · split at made
    · cases made
    · rename_i chunks ingested
      split at made
      · cases made
      · rename_i some_
        obtain rfl := Option.some.inj (Except.ok.inj made)
        exact ⟨⟨rfl, ingested⟩, rfl, chunks, ingested, some_⟩

variable (sha256) in
theorem makes_of_chunked (is : jobs[i]? = some payload) (chunked : payload.Chunked) :
    ∃ embed, Makes sha256 jobs i embed := by
  obtain ⟨chunks, ingested, some_⟩ := chunked
  have content : payload.content ≠ "" := by
    intro empty
    rw [empty, ingestDocument] at ingested
    split at ingested
    · cases ingested
    · split at ingested
      · cases ingested
      · exact some_ (Except.ok.inj ingested).symm
  have made : ∃ embed, handleIngestionProcess sha256 payload = .ok (some embed) := by
    rw [handleIngestionProcess, if_neg content, ingested]
    exact ⟨_, if_neg some_⟩
  obtain ⟨embed, made⟩ := made
  exact ⟨embed, payload, is, made⟩

theorem Makes.unique {embed' : Embed} (makes : Makes sha256 jobs i embed)
    (makes' : Makes sha256 jobs i embed') : embed = embed' := by
  obtain ⟨payload, is, made⟩ := makes
  obtain ⟨payload', is', made'⟩ := makes'
  rw [is] at is'
  obtain rfl := Option.some.inj is'
  rw [made] at made'
  exact Option.some.inj (Except.ok.inj made')

/-- A win stands in a step of another job. -/
theorem Won.other (won : w.Won sha256 jobs j key) (phase : w'.phase j = w.phase j)
    (log : ∀ event ∈ w.since j, event ∈ w'.since j) : w'.Won sha256 jobs j key := by
  obtain ⟨embed, makes, is, held⟩ := won
  refine ⟨embed, makes, is, ?_⟩
  rw [phase]
  exact held.imp_right fun completed => ⟨completed.1, log _ completed.2⟩

theorem Won.passed (won : w.Won sha256 jobs j key) :
    (∃ embed, w.phase j = .pushing embed) ∨ w.phase j = .completed := by
  obtain ⟨embed, -, -, pushing | ⟨completed, -⟩⟩ := won
  · exact .inl ⟨embed, pushing⟩
  · exact .inr completed

theorem since_started (other : j ≠ i) (log : w'.log = .started i :: w.log) :
    w'.since j = .started i :: w.since j := by
  rw [since, log, List.takeWhile_cons_of_pos, since]
  simp [Ne.symm other]

theorem since_pushed (log : w'.log = .pushed embed :: w.log) :
    w'.since j = .pushed embed :: w.since j := by
  rw [since, log, List.takeWhile_cons_of_pos (by simp), since]

/-! ## Steps -/

/-- A step of one job. -/
theorem Sound.step (sound : w.Sound sha256 jobs) (phase : Phase)
    (moved : w'.phase = Function.update w.phase i phase)
    (log : ∀ j, j ≠ i → ∀ event ∈ w.since j, event ∈ w'.since j)
    (own : ∀ key, w.Won sha256 jobs i key → w'.Won sha256 jobs i key)
    (asks : ∀ embed, phase = .claiming embed ∨ phase = .pushing embed →
      Makes sha256 jobs i embed)
    (claimed : ∀ key ∈ w'.idem, key ∈ w.idem ∨ w'.Won sha256 jobs i key)
    (completed : ∀ embed, Makes sha256 jobs i embed → phase = .completed →
      ∃ j, w.Won sha256 jobs j embed.idem ∨ w'.Won sha256 jobs j embed.idem) :
    w'.Sound sha256 jobs := by
  have self : w'.phase i = phase := by rw [moved, Function.update_self]
  have others {j : Nat} (other : j ≠ i) : w'.phase j = w.phase j := by
    rw [moved, Function.update_of_ne other]
  have kept {j : Nat} {key : String} (won : w.Won sha256 jobs j key) :
      w'.Won sha256 jobs j key := by
    by_cases here : j = i
    · rw [here] at won ⊢
      exact own key won
    · exact won.other (others here) (log j here)
  refine ⟨?_, ?_, ?_⟩
  · intro j embed at_
    by_cases here : j = i
    · rw [here] at at_ ⊢
      rw [self] at at_
      exact asks embed at_
    · rw [others here] at at_
      exact sound.asks j embed at_
  · intro key there
    obtain old | new := claimed key there
    · obtain ⟨j, won⟩ := sound.claimed key old
      exact ⟨j, kept won⟩
    · exact ⟨i, new⟩
  · intro j embed makes ended
    by_cases here : j = i
    · rw [here] at makes ended
      rw [self] at ended
      obtain ⟨j', won | won⟩ := completed embed makes ended
      · exact ⟨j', kept won⟩
      · exact ⟨j', won⟩
    · rw [others here] at ended
      obtain ⟨j', won⟩ := sound.completed j embed makes ended
      exact ⟨j', kept won⟩

theorem start_sound (sound : w.Sound sha256 jobs) (is : jobs[i]? = some payload)
    (waiting : w.phase i = .waiting) : (w.start sha256 i payload).Sound sha256 jobs := by
  have moved (phase : Phase) (asks : ∀ embed, phase = .claiming embed ∨ phase = .pushing embed →
      Makes sha256 jobs i embed) (ends : ∀ embed, Makes sha256 jobs i embed → phase ≠ .completed) :
      (move { w with log := .started i :: w.log } i phase).Sound sha256 jobs := by
    apply sound.step phase rfl
    · intro j other event there
      rw [since_started (w := w) other rfl]
      exact List.mem_cons_of_mem _ there
    · intro key won
      obtain ⟨embed, pushing⟩ | completed := won.passed
      · rw [waiting] at pushing
        cases pushing
      · rw [waiting] at completed
        cases completed
    · exact asks
    · exact fun key claimed => .inl claimed
    · exact fun embed makes completed => absurd completed (ends embed makes)
  have made {embed : Embed} (makes : Makes sha256 jobs i embed) :
      handleIngestionProcess sha256 payload = .ok (some embed) := by
    obtain ⟨payload', is', made⟩ := makes
    rw [is] at is'
    rw [Option.some.inj is', made]
  rw [start]
  cases outcome : handleIngestionProcess sha256 payload with
  | error e =>
    apply moved
    · intro embed at_
      obtain at_ | at_ := at_
      · cases at_
      · cases at_
    · exact fun _ _ => Phase.noConfusion
  | ok follow =>
    cases follow with
    | none =>
      apply moved
      · intro embed at_
        obtain at_ | at_ := at_
        · cases at_
        · cases at_
      · intro embed makes
        cases outcome.symm.trans (made makes)
    | some embed =>
      apply moved
      · intro embed' at_
        obtain at_ | at_ := at_
        · exact Phase.claiming.inj at_ ▸ ⟨payload, is, outcome⟩
        · cases at_
      · exact fun _ _ => Phase.noConfusion

theorem claim_sound (sound : w.Sound sha256 jobs) (asks : w.phase i = .claiming embed) :
    (w.claim i embed).Sound sha256 jobs := by
  have makes := sound.asks i embed (.inl asks)
  have lost (w' : World) (key : String) (won : w.Won sha256 jobs i key) :
      w'.Won sha256 jobs i key := by
    obtain ⟨embed', pushing⟩ | completed := won.passed
    · rw [asks] at pushing
      cases pushing
    · rw [asks] at completed
      cases completed
  rw [claim]
  split
  · rename_i taken
    apply sound.step .completed rfl
    · exact fun _ _ _ there => there
    · exact lost _
    · intro embed' at_
      obtain at_ | at_ := at_
      · cases at_
      · cases at_
    · exact fun key claimed => .inl claimed
    · intro embed' makes' _
      obtain ⟨j, won⟩ := sound.claimed embed.idem taken
      exact ⟨j, .inl (makes.unique makes' ▸ won)⟩
  · apply sound.step (.pushing embed) rfl
    · exact fun _ _ _ there => there
    · exact lost _
    · intro embed' at_
      obtain at_ | at_ := at_
      · cases at_
      · exact Phase.pushing.inj at_ ▸ makes
    · intro key claimed
      obtain rfl | claimed := List.mem_cons.mp claimed
      · exact .inr ⟨embed, makes, rfl, .inl (Function.update_self ..)⟩
      · exact .inl claimed
    · exact fun _ _ => Phase.noConfusion

theorem push_sound (sound : w.Sound sha256 jobs) (asks : w.phase i = .pushing embed) :
    (w.push i embed).Sound sha256 jobs := by
  have makes := sound.asks i embed (.inr asks)
  have log (j : Nat) : (w.push i embed).since j = .pushed embed :: w.since j := since_pushed rfl
  have mine : (w.push i embed).Won sha256 jobs i embed.idem := by
    refine ⟨embed, makes, rfl, .inr ⟨Function.update_self .., ?_⟩⟩
    rw [log]
    exact List.mem_cons_self
  apply sound.step .completed rfl
  · intro j _ event there
    rw [log]
    exact List.mem_cons_of_mem _ there
  · intro key won
    obtain ⟨embed', makes', is, -⟩ := won
    rw [← is, ← makes.unique makes']
    exact mine
  · intro embed' at_
    obtain at_ | at_ := at_
    · cases at_
    · cases at_
  · exact fun key claimed => .inl claimed
  · intro embed' makes' _
    exact ⟨i, .inr (makes.unique makes' ▸ mine)⟩

theorem next_sound (sound : w.Sound sha256 jobs) (action : Action) :
    (w.next sha256 jobs action).Sound sha256 jobs := by
  cases action with
  | start i =>
    rw [next]
    split
    · rename_i is waiting
      exact start_sound sound is waiting
    · exact sound
  | claim i =>
    rw [next]
    split
    · rename_i asks
      exact claim_sound sound asks
    · exact sound
  | push i =>
    rw [next]
    split
    · rename_i asks
      exact push_sound sound asks
    · exact sound
  | expire key =>
    exact ⟨sound.asks, fun key claimed => sound.claimed key (List.mem_filter.mp claimed).1,
      sound.completed⟩

theorem after_sound (actions : List Action) : (after sha256 jobs actions).Sound sha256 jobs := by
  induction actions using List.reverseRecOn with
  | nil =>
    refine ⟨?_, ?_, ?_⟩
    · intro i embed at_
      obtain at_ | at_ := at_
      · cases at_
      · cases at_
    · intro key claimed
      cases claimed
    · intro i embed _ completed
      cases completed
  | append_singleton actions action ih =>
    rw [after, List.foldl_append]
    exact next_sound ih action

/-! ## Runs -/

/-- The second of two jobs with one key, once the first is through. -/
theorem after_second {other : Embed} (makes : Makes sha256 jobs i embed)
    (makes' : Makes sha256 jobs j other) (differ : j ≠ i) (same : other.idem = embed.idem) :
    let w := after sha256 jobs [.start i, .claim i, .push i, .start j, .claim j]
    w.phase = Function.update (Function.update (fun _ => .waiting) i .completed) j .completed ∧
      w.log = [.started j, .pushed embed, .started i] := by
  obtain ⟨payload, is, made⟩ := makes
  obtain ⟨payload', is', made'⟩ := makes'
  have first_ : after sha256 jobs [.start i, .claim i, .push i] =
      { phase := Function.update (fun _ => .waiting) i .completed
        idem := [embed.idem]
        log := [.pushed embed, .started i] } := by
    simp [after, next, start, claim, push, move, is, made]
  have rest : after sha256 jobs [.start i, .claim i, .push i, .start j, .claim j] =
      [Action.start j, .claim j].foldl (next sha256 jobs)
        (after sha256 jobs [.start i, .claim i, .push i]) := rfl
  rw [rest, first_]
  simp [next, start, claim, move, is', made', differ, same]

theorem Sound.followed (sound : w.Sound sha256 jobs) (unique : UniqueKeys sha256 jobs) :
    w.Followed jobs := by
  intro i payload is chunked completed
  obtain ⟨embed, makes⟩ := makes_of_chunked sha256 is chunked
  obtain ⟨j, other, makes', same, held⟩ := sound.completed i embed makes completed
  obtain ⟨payload', is', _⟩ := id makes'
  obtain ⟨_, key, _⟩ := makes.owns is
  obtain ⟨_, key', chunked'⟩ := makes'.owns is'
  obtain rfl : i = j := unique i j payload payload' is is' chunked chunked' (by
    rw [← key, ← key', same])
  obtain pushing | pushed := held
  · rw [completed] at pushing
    cases pushing
  · exact ⟨other, pushed.2, (makes'.owns is).1⟩

theorem Sound.indexed (sound : w.Sound sha256 jobs) (agree : KeysAgree sha256 jobs)
    (idle : w.Idle) : w.Indexed jobs := by
  intro i payload is chunked completed
  obtain ⟨embed, makes⟩ := makes_of_chunked sha256 is chunked
  obtain ⟨j, other, makes', same, held⟩ := sound.completed i embed makes completed
  obtain ⟨payload', is', _⟩ := id makes'
  obtain ⟨_, key, _⟩ := makes.owns is
  obtain ⟨owns', key', chunked'⟩ := makes'.owns is'
  obtain ⟨tenant, chunks⟩ := agree payload (List.mem_of_getElem? is) payload'
    (List.mem_of_getElem? is') chunked chunked' (by rw [← key, ← key', same])
  obtain pushing | pushed := held
  · exact absurd pushing (idle j other)
  · exact ⟨other, (List.takeWhile_subset _ pushed.2), owns'.1.trans tenant.symm,
      chunks.trans owns'.2⟩

/-- Every completed job with chunks is followed by its embed job, in every run, exactly if no two
jobs with chunks have one key; and it has its embed job, then or before, exactly if no two of them
with one key differ in tenant or chunks. -/
theorem followed_iff (sha256 : String → String) (jobs : List Payload) :
    ((∀ actions, (after sha256 jobs actions).Followed jobs) ↔ UniqueKeys sha256 jobs) ∧
    ((∀ actions, (after sha256 jobs actions).Idle → (after sha256 jobs actions).Indexed jobs) ↔
      KeysAgree sha256 jobs) := by
  refine ⟨⟨?_, fun unique actions => (after_sound actions).followed unique⟩,
    ⟨?_, fun agree actions => (after_sound actions).indexed agree⟩⟩
  · intro followed i j payload payload' is is' chunked chunked' same
    by_contra differ
    obtain ⟨embed, makes⟩ := makes_of_chunked sha256 is chunked
    obtain ⟨other, makes'⟩ := makes_of_chunked sha256 is' chunked'
    obtain ⟨phase, log⟩ := after_second makes makes' (Ne.symm differ) (by
      rw [(makes.owns is).2.1, (makes'.owns is').2.1, same])
    obtain ⟨found, there, -⟩ := followed _ j payload' is' chunked' (by
      rw [phase, Function.update_self])
    rw [since, log, List.takeWhile_cons_of_neg (by simp)] at there
    cases there
  · intro indexed payload mem payload' mem' chunked chunked' same
    obtain ⟨i, is⟩ := List.mem_iff_getElem?.mp mem
    obtain ⟨j, is'⟩ := List.mem_iff_getElem?.mp mem'
    by_cases differ : j = i
    · rw [differ, is] at is'
      rw [Option.some.inj is']
      exact ⟨rfl, rfl⟩
    · obtain ⟨embed, makes⟩ := makes_of_chunked sha256 is chunked
      obtain ⟨other, makes'⟩ := makes_of_chunked sha256 is' chunked'
      obtain ⟨owns, key, -⟩ := makes.owns is
      obtain ⟨phase, log⟩ := after_second makes makes' differ (by
        rw [key, (makes'.owns is').2.1, same])
      have idle : (after sha256 jobs [.start i, .claim i, .push i, .start j, .claim j]).Idle := by
        intro k pending at_
        rw [phase, Function.update_apply, Function.update_apply] at at_
        split at at_
        · cases at_
        · split at at_
          · cases at_
          · cases at_
      obtain ⟨found, there, tenant, chunks⟩ := indexed _ idle j payload' is' chunked' (by
        rw [phase, Function.update_self])
      rw [log] at there
      obtain rfl : found = embed := by simpa using there
      exact ⟨owns.1.symm.trans tenant, owns.2.trans chunks.symm⟩

/-- The same page of two tenants. -/
theorem second_tenant :
    ¬ ∀ sha256 jobs actions, (after sha256 jobs actions).Followed jobs := by
  intro all
  obtain ⟨embed, there, -⟩ := all
    (fun _ => "149c30df59da06b2bd6574024e0ea5b237fb30f7c2e66bcc3c324c7df6bec1d4")
    [{ content := "hello", source := "notes", tenantId := some 1 },
      { content := "hello", source := "notes", tenantId := some 2 }]
    [.start 0, .claim 0, .push 0, .start 1, .claim 1] 1 _ rfl
    ⟨_, (by decide : ingestDocument {} "hello" "notes" = .ok [⟨"chunk-0", "hello", 0, 5⟩]), nofun⟩
    (by decide)
  exact List.not_mem_nil there

end World

end AgentStudio.Ingestion
