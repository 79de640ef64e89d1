import AgentStudio.Log.Numbered

/-!
# The thread store

`infrastructure/db/threads.py`: the tables behind a thread and what each method
of `ThreadRepository` reads and writes inside its transaction. A method is given
here as a function of the rows it can see: it raises, or it names the rows it
adds and replaces and what it returns. When those rows become visible to others
is the business of the transactions.

Identifiers are what `uuid4` drew; only that two draws differ matters.
-/

namespace AgentStudio.Threads

abbrev Uuid := Nat

/-! ## Rows -/

/-- A JSON value as the summary schema tells values apart. -/
inductive Field where
  | text (value : String)
  | texts (values : List String)
  | other
  deriving DecidableEq, Repr

abbrev Payload := List (String × Field)

structure Layer where
  position : Nat
  content : String
  payload : Payload
  deriving DecidableEq, Repr

/-- `summary_block`. Blocks written before layering have no `layers` key. -/
structure SummaryBlock where
  content : String
  payload : Payload := []
  headUntilSeq : Nat := 0
  degraded : Bool := false
  layers : Option (List Layer) := none
  deriving DecidableEq, Repr

structure ThreadRow where
  id : Uuid
  tenantId : Uuid
  conversationId : Uuid
  surfaceId : Option String := none
  endUserId : Option String := none
  summaryBlock : Option SummaryBlock := none
  summaryPosition : Option Nat := none
  summaryVersion : Nat := 0
  archived : Bool := false
  deriving DecidableEq, Repr

/-- The keys of `metadata_json` that a fork writes, and the rest of it. -/
structure Metadata where
  forkedFrom : Option Uuid := none
  forkedAtSeq : Option Int := none
  rest : String := ""
  deriving DecidableEq, Repr

structure MessageRow where
  id : Uuid
  conversationId : Uuid
  tenantId : Uuid
  threadId : Uuid
  seq : Nat
  requestId : Option String := none
  parentMessageId : Option Uuid := none
  surfaceId : Option String := none
  endUserId : Option String := none
  role : String
  content : String
  redactedContent : String
  metadata : Metadata := {}
  deriving DecidableEq, Repr

/-- The keys of a part's content that the store reads or writes, and the rest. -/
structure PartContent where
  toolUseId : Option String := none
  cleared : Bool := false
  placeholder : Option String := none
  summary : Payload := []
  degraded : Option Bool := none
  rest : String := ""
  deriving DecidableEq, Repr

structure PartRow where
  messageId : Uuid
  threadId : Uuid
  tenantId : Uuid
  partType : String
  partIndex : Nat
  content : PartContent
  redactedContent : PartContent
  deriving DecidableEq, Repr

inductive EventPayload where
  | created (conversationId : Uuid) (forkedFrom : Option Uuid)
  | appended (messageId : Uuid) (role : String) (parentMessageId : Option Uuid)
  | compaction (summaryVersion position : Nat) (boundaryMessageId : Uuid) (degraded : Bool)
  | forkedFrom (sourceThreadId : Uuid) (atSeq : Int)
  | forkedTo (newThreadId : Uuid) (atSeq : Int)
  | cleared (cleared messagesAffected : Nat) (keepRecentTurns : Int)
  | archived (archived : Bool)
  | other (json : String)
  deriving DecidableEq, Repr

structure EventRow where
  threadId : Uuid
  tenantId : Uuid
  seq : Nat
  eventType : String
  requestId : Option String := none
  payload : EventPayload
  deriving DecidableEq, Repr

/-- The committed rows, each table in the order its rows were added. -/
structure Store where
  threads : List ThreadRow := []
  messages : List MessageRow := []
  parts : List PartRow := []
  events : List EventRow := []
  deriving DecidableEq, Repr

/-- What a transaction adds and replaces. -/
structure Writes where
  created : Option ThreadRow := none
  updated : Option ThreadRow := none
  messages : List MessageRow := []
  parts : List PartRow := []
  updatedParts : List PartRow := []
  events : List EventRow := []
  deriving DecidableEq, Repr

def PartRow.samePart (p q : PartRow) : Bool :=
  p.messageId == q.messageId && p.partIndex == q.partIndex

def Store.apply (db : Store) (w : Writes) : Store where
  threads := db.threads.map (fun t => (w.updated.filter (·.id == t.id)).getD t) ++ w.created.toList
  messages := db.messages ++ w.messages
  parts := db.parts.map (fun p => (w.updatedParts.find? (·.samePart p)).getD p) ++ w.parts
  events := db.events ++ w.events

inductive StoreError where
  | threadNotFound (threadId : Uuid)
  | forkPointOutOfRange (atSeq : Int) (length : Option Nat)
  | integrity
  | aborted
  deriving DecidableEq, Repr

/-- What a method returns to its caller. -/
inductive Reply where
  | thread (row : ThreadRow)
  | message (row : MessageRow) (deduped : Bool)
  | event (row : EventRow)
  | checkpoint (summaryVersion summaryPosition : Nat) (event : EventRow) (part : PartRow)
  | cleared (cleared messagesAffected : Nat) (event : Option EventRow)
  | archived (archived : Bool) (event : EventRow)
  deriving DecidableEq, Repr

/-! ## Reads -/

namespace Store

variable (db : Store)

/-- `get_thread`, and the row that `with_for_update` selects. -/
def getThread (tenantId threadId : Uuid) : Option ThreadRow :=
  db.threads.find? fun t => t.id == threadId && t.tenantId == tenantId

def messagesOf (threadId : Uuid) : List MessageRow := db.messages.filter (·.threadId == threadId)

def eventsOf (threadId : Uuid) : List EventRow := db.events.filter (·.threadId == threadId)

def maxMessageSeq (threadId : Uuid) : Nat := Log.top MessageRow.seq (db.messagesOf threadId)

/-- `_max_event_seq`: the maximum, with one already added. -/
def maxEventSeq (threadId : Uuid) : Nat := Log.top EventRow.seq (db.eventsOf threadId) + 1

/-- The message a retried append finds. -/
def findRequest (tenantId : Uuid) (requestId : String) : Option MessageRow :=
  db.messages.find? fun m => m.tenantId == tenantId && m.requestId == some requestId

/-- The rows both reads select from. -/
def tenantMessages (tenantId threadId : Uuid) : List MessageRow :=
  db.messages.filter fun m => m.threadId == threadId && m.tenantId == tenantId

/-- `list_messages`; every seq is above 0, so no cursor is the cursor 0. -/
def listMessages (tenantId threadId : Uuid) (afterSeq limit : Nat) : Log.Page MessageRow :=
  Log.page MessageRow.seq afterSeq limit (db.tenantMessages tenantId threadId)

/-- `read_tail` without a `from_seq`: the newest `limit` rows, oldest first. -/
def readTail (tenantId threadId : Uuid) (limit : Nat) : List MessageRow :=
  (((db.tenantMessages tenantId threadId).insertionSort fun a b => b.seq ≤ a.seq).take limit).reverse

/-- `list_tool_result_seqs`: the seqs of the messages with a tool result not cleared yet. -/
def listToolResultSeqs (tenantId threadId : Uuid) : List Nat :=
  (db.parts.filter fun p => p.tenantId == tenantId && p.threadId == threadId &&
      p.partType == "tool_result" && !p.content.cleared).flatMap fun p =>
    (db.messages.filter (·.id == p.messageId)).map MessageRow.seq

end Store

/-! ## The writers -/

structure CreateArgs where
  tenantId : Uuid
  conversationId : Uuid
  surfaceId : Option String := none
  endUserId : Option String := none
  requestId : Option String := none
  deriving DecidableEq, Repr

def createThread (a : CreateArgs) (newId : Uuid) : Writes × Reply :=
  let row : ThreadRow := {
    id := newId, tenantId := a.tenantId, conversationId := a.conversationId,
    surfaceId := a.surfaceId, endUserId := a.endUserId }
  ({ created := some row
     events := [{
      threadId := newId, tenantId := a.tenantId, seq := 1, eventType := "thread.created",
      requestId := a.requestId, payload := .created a.conversationId none }] },
   .thread row)

structure PartArgs where
  partType : String
  content : PartContent := {}
  redactedContent : Option PartContent := none
  deriving DecidableEq, Repr

structure AppendArgs where
  tenantId : Uuid
  threadId : Uuid
  role : String
  content : String
  redactedContent : Option String := none
  conversationId : Uuid := 0
  requestId : Option String := none
  parentMessageId : Option Uuid := none
  surfaceId : Option String := none
  endUserId : Option String := none
  metadata : Metadata := {}
  extraParts : List PartArgs := []
  deriving DecidableEq, Repr

/-- `redacted_content or content`. -/
def AppendArgs.redacted (a : AppendArgs) : String :=
  match a.redactedContent with
  | none | some "" => a.content
  | some text => text

/-- The key the lookup runs on: `if request_id:` skips an empty one. -/
def AppendArgs.key (a : AppendArgs) : Option String := a.requestId.filter (· != "")

def AppendArgs.parts (a : AppendArgs) : List PartArgs :=
  { partType := "text", content := { rest := a.content },
    redactedContent := some { rest := a.redacted } } :: a.extraParts

def appendMessage (a : AppendArgs) (newId : Uuid) (db : Store) :
    Except StoreError (Writes × Reply) :=
  match db.getThread a.tenantId a.threadId with
  | none => .error (.threadNotFound a.threadId)
  | some _ =>
    let message : MessageRow := {
      id := newId, conversationId := a.conversationId, tenantId := a.tenantId,
      threadId := a.threadId, seq := db.maxMessageSeq a.threadId + 1, requestId := a.requestId,
      parentMessageId := a.parentMessageId, surfaceId := a.surfaceId, endUserId := a.endUserId,
      role := a.role, content := a.content, redactedContent := a.redacted, metadata := a.metadata }
    .ok ({
      messages := [message]
      parts := a.parts.zipIdx.map fun p => {
        messageId := newId, threadId := a.threadId, tenantId := a.tenantId,
        partType := p.1.partType, partIndex := p.2, content := p.1.content,
        redactedContent := p.1.redactedContent.getD p.1.content }
      events := [{
        threadId := a.threadId, tenantId := a.tenantId, seq := db.maxEventSeq a.threadId,
        eventType := "message.appended", requestId := a.requestId,
        payload := .appended newId a.role a.parentMessageId }] },
     .message message false)

structure EventArgs where
  tenantId : Uuid
  threadId : Uuid
  eventType : String
  payload : EventPayload
  requestId : Option String := none
  deriving DecidableEq, Repr

def appendEvent (a : EventArgs) (db : Store) : Except StoreError (Writes × Reply) :=
  match db.getThread a.tenantId a.threadId with
  | none => .error (.threadNotFound a.threadId)
  | some _ =>
    let event : EventRow := {
      threadId := a.threadId, tenantId := a.tenantId,
      seq := Log.top EventRow.seq (db.eventsOf a.threadId) + 1, eventType := a.eventType,
      requestId := a.requestId, payload := a.payload }
    .ok ({ events := [event] }, .event event)

structure SummaryArgs where
  tenantId : Uuid
  threadId : Uuid
  summaryBlock : SummaryBlock
  summaryPosition : Nat
  boundaryMessageId : Uuid
  requestId : Option String := none
  degraded : Bool := false
  deriving DecidableEq, Repr

def setSummary (a : SummaryArgs) (db : Store) : Except StoreError (Writes × Reply) :=
  match db.getThread a.tenantId a.threadId with
  | none => .error (.threadNotFound a.threadId)
  | some row =>
    -- the part's foreign key
    if db.messages.any (·.id == a.boundaryMessageId) then
      let newVersion := row.summaryVersion + 1
      let event : EventRow := {
        threadId := a.threadId, tenantId := a.tenantId, seq := db.maxEventSeq a.threadId + 1,
        eventType := "compaction", requestId := a.requestId,
        payload := .compaction newVersion a.summaryPosition a.boundaryMessageId a.degraded }
      let part : PartRow := {
        messageId := a.boundaryMessageId, threadId := a.threadId, tenantId := a.tenantId,
        partType := "compaction",
        partIndex :=
          Log.top PartRow.partIndex (db.parts.filter (·.messageId == a.boundaryMessageId)) + 1,
        content := { summary := a.summaryBlock.payload, degraded := some a.degraded },
        redactedContent := { degraded := some a.degraded, rest := a.summaryBlock.content } }
      .ok ({
        updated := some { row with
          summaryBlock := some a.summaryBlock, summaryPosition := some a.summaryPosition,
          summaryVersion := newVersion }
        parts := [part]
        events := [event] },
       .checkpoint newVersion a.summaryPosition event part)
    else .error .integrity

structure ForkArgs where
  tenantId : Uuid
  sourceThreadId : Uuid
  atSeq : Int
  conversationId : Uuid := 0
  requestId : Option String := none
  deriving DecidableEq, Repr

/-- The messages a fork copies, oldest first. -/
def ForkArgs.sources (a : ForkArgs) (db : Store) : List MessageRow :=
  ((db.tenantMessages a.tenantId a.sourceThreadId).filter fun m => (m.seq : Int) ≤ a.atSeq)
    |>.insertionSort fun x y => x.seq ≤ y.seq

/-- `id_map`: the new id of each message copied so far. -/
def idMap (newId : Uuid) (sources : List MessageRow) : List (Uuid × Uuid) :=
  sources.zipIdx.map fun p => (p.1.id, newId + 1 + p.2)

def ForkArgs.copy (a : ForkArgs) (newId : Uuid) (sources : List MessageRow) (m : MessageRow)
    (index : Nat) : MessageRow :=
  { m with
    id := newId + 1 + index
    conversationId := a.conversationId
    tenantId := a.tenantId
    threadId := newId
    requestId := none
    parentMessageId := m.parentMessageId.bind ((idMap newId (sources.take (index + 1))).lookup ·)
    metadata := { m.metadata with
      forkedFrom := some a.sourceThreadId, forkedAtSeq := some a.atSeq } }

def forkThread (a : ForkArgs) (newId : Uuid) (db : Store) : Except StoreError (Writes × Reply) :=
  match db.getThread a.tenantId a.sourceThreadId with
  | none => .error (.threadNotFound a.sourceThreadId)
  | some source =>
    let sources := a.sources db
    if 0 < a.atSeq ∧ sources = [] then .error (.forkPointOutOfRange a.atSeq none)
    else if (db.maxMessageSeq a.sourceThreadId : Int) < a.atSeq then
      .error (.forkPointOutOfRange a.atSeq (some (db.maxMessageSeq a.sourceThreadId)))
    else
      let row : ThreadRow := {
        id := newId, tenantId := a.tenantId, conversationId := a.conversationId,
        surfaceId := source.surfaceId, endUserId := source.endUserId }
      .ok ({
        created := some row
        messages := sources.zipIdx.map fun p => a.copy newId sources p.1 p.2
        parts := sources.zipIdx.flatMap fun p =>
          (db.parts.filter fun q => q.tenantId == a.tenantId && q.messageId == p.1.id).map fun q =>
            { q with messageId := newId + 1 + p.2, threadId := newId, tenantId := a.tenantId }
        events := [
          { threadId := newId, tenantId := a.tenantId, seq := 1, eventType := "thread.created",
            requestId := a.requestId, payload := .created a.conversationId (some a.sourceThreadId) },
          { threadId := newId, tenantId := a.tenantId, seq := 2, eventType := "thread.forked",
            requestId := a.requestId, payload := .forkedFrom a.sourceThreadId a.atSeq },
          { threadId := a.sourceThreadId, tenantId := a.tenantId,
            seq := Log.top EventRow.seq (db.eventsOf a.sourceThreadId) + 1,
            eventType := "thread.forked", requestId := a.requestId,
            payload := .forkedTo newId a.atSeq }] },
       .thread row)

structure ClearArgs where
  tenantId : Uuid
  threadId : Uuid
  keepRecentTurns : Int := 0
  placeholder : String := "[tool result cleared; re-fetch on demand]"
  requestId : Option String := none
  deriving DecidableEq, Repr

/-- The tool results old enough to be cleared and not cleared yet. -/
def ClearArgs.eligible (a : ClearArgs) (db : Store) : List PartRow :=
  let threshold := (db.maxMessageSeq a.threadId : Int) - a.keepRecentTurns
  db.parts.filter fun p => p.tenantId == a.tenantId && p.threadId == a.threadId &&
    p.partType == "tool_result" &&
    db.messages.any (fun m => m.id == p.messageId && decide ((m.seq : Int) ≤ threshold)) &&
    !p.content.cleared

def ClearArgs.clear (a : ClearArgs) (p : PartRow) : PartRow :=
  { p with
    content := { toolUseId := p.content.toolUseId, cleared := true }
    redactedContent := {
      toolUseId := p.content.toolUseId, cleared := true, placeholder := some a.placeholder } }

def clearToolResults (a : ClearArgs) (db : Store) : Except StoreError (Writes × Reply) :=
  match db.getThread a.tenantId a.threadId with
  | none => .error (.threadNotFound a.threadId)
  | some _ =>
    let eligible := a.eligible db
    if eligible = [] then .ok ({}, .cleared 0 0 none)
    else
      let affected := (eligible.map PartRow.messageId).dedup
      let event : EventRow := {
        threadId := a.threadId, tenantId := a.tenantId, seq := db.maxEventSeq a.threadId + 1,
        eventType := "tool_result.clear", requestId := a.requestId,
        payload := .cleared eligible.length affected.length a.keepRecentTurns }
      .ok ({ updatedParts := eligible.map a.clear, events := [event] },
        .cleared eligible.length affected.length (some event))

structure ArchiveArgs where
  tenantId : Uuid
  threadId : Uuid
  archived : Bool
  requestId : Option String := none
  deriving DecidableEq, Repr

def setArchived (a : ArchiveArgs) (db : Store) : Except StoreError (Writes × Reply) :=
  match db.getThread a.tenantId a.threadId with
  | none => .error (.threadNotFound a.threadId)
  | some row =>
    let event : EventRow := {
      threadId := a.threadId, tenantId := a.tenantId, seq := db.maxEventSeq a.threadId + 1,
      eventType := if a.archived then "thread.archive" else "thread.restore",
      requestId := a.requestId, payload := .archived a.archived }
    .ok ({ updated := some { row with archived := a.archived }, events := [event] },
      .archived a.archived event)

/-- A call of one of the writers. -/
inductive Request where
  | createThread (a : CreateArgs)
  | appendMessage (a : AppendArgs)
  | appendEvent (a : EventArgs)
  | setSummary (a : SummaryArgs)
  | forkThread (a : ForkArgs)
  | clearToolResults (a : ClearArgs)
  | setArchived (a : ArchiveArgs)
  deriving DecidableEq, Repr

namespace Request

/-- The thread row selected `FOR UPDATE`, by tenant and id. -/
def row : Request → Option (Uuid × Uuid)
  | createThread _ => none
  | appendMessage a => some (a.tenantId, a.threadId)
  | appendEvent a => some (a.tenantId, a.threadId)
  | setSummary a => some (a.tenantId, a.threadId)
  | forkThread a => some (a.tenantId, a.sourceThreadId)
  | clearToolResults a => some (a.tenantId, a.threadId)
  | setArchived a => some (a.tenantId, a.threadId)

def body (newId : Uuid) (db : Store) : Request → Except StoreError (Writes × Reply)
  | createThread a => .ok (Threads.createThread a newId)
  | appendMessage a => Threads.appendMessage a newId db
  | appendEvent a => Threads.appendEvent a db
  | setSummary a => Threads.setSummary a db
  | forkThread a => Threads.forkThread a newId db
  | clearToolResults a => Threads.clearToolResults a db
  | setArchived a => Threads.setArchived a db

end Request

end AgentStudio.Threads
