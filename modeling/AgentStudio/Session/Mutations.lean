import AgentStudio.Py.Text
import AgentStudio.Threads.Parents

/-!
# Regenerating and editing

`session/service.py`: both only append, under a parent. `edit` reads the message and asks
whether it is of the thread; `regenerate` does not ask, and so parents its reply to a
message of whatever thread the caller names.
-/

namespace AgentStudio.Session

open Threads

inductive MutationError where
  | threadNotFound (threadId : Uuid)
  | messageNotFound (messageId : Uuid)
  | invalidTarget (message : String)
  deriving DecidableEq, Repr

def pendingGeneration : String := "pending_generation"

/-- `get_message`. -/
def getMessage (db : Store) (tenantId messageId : Uuid) : Option MessageRow :=
  db.messages.find? fun m => m.tenantId == tenantId && m.id == messageId

/-- A `metadata` of two keys. -/
def marked (status key : String) (id : Uuid) : Metadata :=
  { rest := "status: " ++ status ++ ", " ++ key ++ ": " ++ toString id }

/-- What `regenerate` appends, from the thread and the message it has read. -/
def regenerate (threads messages : Store) (tenantId threadId messageId : Uuid) :
    Except MutationError AppendArgs :=
  match threads.getThread tenantId threadId with
  | none => .error (.threadNotFound threadId)
  | some thread =>
    match getMessage messages tenantId messageId with
    | none => .error (.messageNotFound messageId)
    | some original =>
      if original.role ≠ "assistant" then
        .error (.invalidTarget
          ("message " ++ toString messageId ++ " is " ++ original.role ++ ", expected assistant"))
      else .ok {
        tenantId := tenantId, threadId := threadId, role := "assistant", content := "",
        redactedContent := some "", conversationId := thread.conversationId,
        parentMessageId := some original.id,
        metadata := marked pendingGeneration "regenerated_from" original.id }

/-- What `edit` appends first. -/
def edit (messages threads : Store) (tenantId threadId messageId : Uuid) (content : String)
    (redactedContent : Option String) : Except MutationError AppendArgs :=
  match getMessage messages tenantId messageId with
  | none => .error (.messageNotFound messageId)
  | some original =>
    if original.threadId ≠ threadId then .error (.threadNotFound threadId)
    else
      match threads.getThread tenantId threadId with
      | none => .error (.threadNotFound threadId)
      | some thread =>
        if original.role ≠ "user" then
          .error (.invalidTarget
            ("message " ++ toString messageId ++ " is " ++ original.role ++ ", expected user"))
        else if Py.strip content = "" then
          .error (.invalidTarget "edited content must not be empty")
        else .ok {
          tenantId := tenantId, threadId := threadId, role := "user", content := content,
          redactedContent := some ((redactedContent.filter (· ≠ "")).getD content),
          conversationId := thread.conversationId, parentMessageId := original.parentMessageId,
          metadata := marked "applied" "edited_from" original.id }

/-- What `edit` appends once the edited message is there. -/
def successor (edited : AppendArgs) (editedUser : MessageRow) : AppendArgs where
  tenantId := edited.tenantId
  threadId := edited.threadId
  role := "assistant"
  content := ""
  redactedContent := some ""
  conversationId := edited.conversationId
  parentMessageId := some editedUser.id
  metadata := marked pendingGeneration "generated_from" editedUser.id

inductive Operation where
  | append (a : AppendArgs)
  | regenerate (tenantId threadId messageId : Uuid)
  | edit (tenantId threadId messageId : Uuid) (content : String) (redactedContent : Option String)
  | fork (a : ForkArgs)
  /-- A call of any other writer: of the threads, the events, the summaries. -/
  | other (r : Request)

/-- What an operation may call next; what it has read may be old by then. -/
inductive Issues (s : World) : Operation → Request → Prop
  | append (a : AppendArgs) : Issues s (.append a) (.appendMessage a)
  | regenerate {first second : World} {tenantId threadId messageId : Uuid} {a : AppendArgs}
      (before : Later first s) (before' : Later second s)
      (made : regenerate first.store second.store tenantId threadId messageId = .ok a) :
      Issues s (.regenerate tenantId threadId messageId) (.appendMessage a)
  | edit {first second : World} {tenantId threadId messageId : Uuid} {content : String}
      {redactedContent : Option String} {a : AppendArgs}
      (before : Later first s) (before' : Later second s)
      (made : edit first.store second.store tenantId threadId messageId content redactedContent =
        .ok a) :
      Issues s (.edit tenantId threadId messageId content redactedContent) (.appendMessage a)
  | successor {first second : World} {tenantId threadId messageId : Uuid} {content : String}
      {redactedContent : Option String} {a : AppendArgs} {c : Call} {row : MessageRow}
      {deduped : Bool}
      (made : edit first.store second.store tenantId threadId messageId content redactedContent =
        .ok a)
      (mem : c ∈ s.calls) (request : c.request = .appendMessage a)
      (returned : c.phase = .returned (.ok (.message row deduped))) :
      Issues s (.edit tenantId threadId messageId content redactedContent)
        (.appendMessage (successor a row))
  | fork (a : ForkArgs) : Issues s (.fork a) (.forkThread a)
  | other (r : Request) (writes : ∀ a, r ≠ .appendMessage a) : Issues s (.other r) r

/-- The runs of any number of operations, each of which met a condition when it called; the
steps of their calls interleave. -/
inductive Mutations (meets : World → Operation → Prop) : World → Prop
  | initial : Mutations meets {}
  | issue {s : World} {op : Operation} {r : Request} : Mutations meets s → Issues s op r →
      meets s op → Mutations meets { s with calls := s.calls ++ [{ request := r }] }
  | step {s t : World} : Mutations meets s → Threads.Step s t → t.calls.length = s.calls.length →
      Mutations meets t

theorem Mutations.run {meets : World → Operation → Prop} {s : World} (h : Mutations meets s) :
    Run s := by
  induction h with
  | initial => exact .initial
  | issue _ issues _ ih => exact .step ih (.call _ _)
  | step _ step _ ih => exact .step ih step

/-- The append names a message of its thread, or is answered by an earlier one; the
message to regenerate is of the thread. -/
def InThread (s : World) : Operation → Prop
  | .append a => a.Placed s.store ∨ a.Answered s.store
  | .regenerate tenantId threadId messageId => ∀ original,
      getMessage s.store tenantId messageId = some original → original.threadId = threadId
  | _ => True

/-! ## What is read stays -/

theorem getMessage_later {s t : World} (later : Later s t) {tenantId messageId : Uuid}
    {m : MessageRow} (found : getMessage s.store tenantId messageId = some m) :
    getMessage t.store tenantId messageId = some m := by
  obtain ⟨rest, more⟩ := later_messages later
  rw [getMessage] at found ⊢
  rw [← more, List.find?_append, found, Option.some_or]

theorem getMessage_mem {db : Store} {tenantId messageId : Uuid} {m : MessageRow}
    (found : getMessage db tenantId messageId = some m) : m ∈ db.messages :=
  List.mem_of_find?_eq_some found

/-- `regenerate` names what it has read, whatever its thread. -/
theorem regenerate_ok {threads messages : Store} {tenantId threadId messageId : Uuid}
    {a : AppendArgs} (made : regenerate threads messages tenantId threadId messageId = .ok a) :
    ∃ original, getMessage messages tenantId messageId = some original ∧ a.threadId = threadId ∧
      a.parentMessageId = some original.id ∧ a.requestId = none := by
  unfold regenerate at made
  split at made
  · cases made
  · split at made
    · cases made
    · rename_i original found
      split at made
      · cases made
      · cases made
        exact ⟨original, found, rfl, rfl, rfl⟩

/-- `edit` names the parent of a message of the thread. -/
theorem edit_ok {messages threads : Store} {tenantId threadId messageId : Uuid} {content : String}
    {redactedContent : Option String} {a : AppendArgs}
    (made : edit messages threads tenantId threadId messageId content redactedContent = .ok a) :
    ∃ original, getMessage messages tenantId messageId = some original ∧
      original.threadId = threadId ∧ a.threadId = threadId ∧
        a.parentMessageId = original.parentMessageId ∧ a.requestId = none := by
  unfold edit at made
  split at made
  · cases made
  · rename_i original found
    split at made
    · cases made
    · rename_i inThread
      split at made
      · cases made
      · split at made
        · cases made
        · split at made
          · cases made
          · cases made
            exact ⟨original, found, not_not.mp inThread, rfl, rfl, rfl⟩

/-- What an operation that meets the condition appends is placed. -/
theorem issues_placed {s : World} (threaded : Threaded s) {op : Operation} {r : Request}
    (issues : Issues s op r) (inThread : InThread s op) {a : AppendArgs}
    (append : r = .appendMessage a) : a.Placed s.store ∨ a.Answered s.store := by
  cases issues with
  | append b =>
    cases append
    exact inThread
  | regenerate before before' made =>
    cases append
    obtain ⟨original, found, thread, parent, -⟩ := regenerate_ok made
    have now := getMessage_later before' found
    refine .inl fun p named => ?_
    obtain rfl := Option.some.inj (parent.symm.trans named)
    exact ⟨original, getMessage_mem now, rfl, (inThread original now).trans thread.symm⟩
  | edit before before' made =>
    cases append
    obtain ⟨original, found, inThread, thread, parent, -⟩ := edit_ok made
    refine .inl fun p named => ?_
    -- the parent of the original is in its thread, as all parents so far
    obtain ⟨q, there, id_, same, -⟩ := threaded.linked original
      (getMessage_mem (getMessage_later before found)) p (parent.symm.trans named)
    exact ⟨q, there, id_, same.trans (inThread.trans thread.symm)⟩
  | successor made mem request returned =>
    rename_i edited c row deduped
    cases append
    obtain ⟨original, -, -, -, -, keyless⟩ := edit_ok made
    have unkeyed : edited.key = none := by
      rw [AppendArgs.key, keyless, Option.filter_none]
    obtain ⟨there, thread⟩ := threaded.stored c mem edited row deduped request unkeyed returned
    refine .inl fun p named => ?_
    obtain rfl := Option.some.inj named
    exact ⟨row, there, rfl, thread⟩
  | fork b => cases append
  | other b writes => exact absurd append (writes a)

theorem mutations_threaded {s : World} (h : Mutations InThread s) : Threaded s := by
  induction h with
  | initial =>
    constructor
    · exact fun m mem => (by cases mem)
    · exact fun c mem => (by cases mem)
    · exact fun c mem => (by cases mem)
  | @issue s op r before issues inThread ih =>
    refine step_threaded (.call s r) before.run ih fun a same => ?_
    have calls := congrArg World.calls same
    have append : r = .appendMessage a := by simpa using calls
    exact issues_placed ih issues inThread append
  | @step s t before step length ih =>
    refine step_threaded step before.run ih fun a same => ?_
    rw [same] at length
    simp at length

/-- In every run of appends, regenerations, edits and forks, whatever the interleaving, in
which each append names as its parent a message of its thread, and each regeneration is of
a message of its thread: every parent is in the thread of the message, at a smaller seq. -/
theorem parents_in_thread {s : World} (run : Mutations InThread s) : s.store.Linked :=
  (mutations_threaded run).linked

/-! ## Schedules -/

theorem advance_length (s : World) (i : Nat) : (s.advance i).calls.length = s.calls.length := by
  have kept (c : Call) (phase : Phase) : (s.become i c phase).calls.length = s.calls.length :=
    List.length_set
  unfold World.advance
  split
  · rfl
  · split
    · exact kept _ _
    · split
      · exact kept _ _
      · split
        · exact kept _ _
        · split
          · exact kept _ _
          · rfl
    · split
      · exact kept _ _
      · split
        · rfl
        · split
          · exact kept _ _
          · exact kept _ _
    · exact kept _ _
    · rfl

theorem Mutations.go {meets : World → Operation → Prop} {s : World} (h : Mutations meets s)
    (i : Nat) : Mutations meets (s.advance i) := by
  rcases s.advance_step i with same | step
  · rw [same]
    exact h
  · exact h.step step (advance_length s i)

/-- A tenant makes a thread, whose first message is the assistant's. -/
def greeted : List Move :=
  [.call (.createThread { tenantId := 7, conversationId := 9 }), .go 0, .go 0, .go 0, .go 0,
   .call (.appendMessage { tenantId := 7, threadId := 0, role := "assistant", content := "a" }),
   .go 1, .go 1, .go 1, .go 1]

theorem greeted_run : Mutations InThread (({} : World).after greeted) := by
  have made : Mutations InThread _ :=
    Mutations.initial.issue (.other (.createThread { tenantId := 7, conversationId := 9 }) fun _ => by simp) trivial
  have there := (((made.go 0).go 0).go 0).go 0
  have appended := there.issue (.append { tenantId := 7, threadId := 0, role := "assistant", content := "a" })
    (.inl fun p named => by cases named)
  exact (((appended.go 1).go 1).go 1).go 1

/-- What is appended when the message is regenerated. -/
def again (threadId : Uuid) : AppendArgs where
  tenantId := 7
  threadId := threadId
  role := "assistant"
  content := ""
  redactedContent := some ""
  conversationId := 9
  parentMessageId := some 1
  metadata := marked pendingGeneration "regenerated_from" 1

/-- The message is regenerated on its own thread. -/
theorem parents_in_thread_greeted :
    (({} : World).after (greeted ++ [.call (.appendMessage (again 0)),
      .go 2, .go 2, .go 2, .go 2])).store.Linked := by
  have made : regenerate (({} : World).after greeted).store (({} : World).after greeted).store
      7 0 1 = .ok (again 0) := by decide +kernel
  have called := greeted_run.issue (.regenerate .refl .refl made)
    fun original found => by
      have thread : (getMessage (({} : World).after greeted).store 7 1).map MessageRow.threadId =
          some 0 := by decide +kernel
      rw [found] at thread
      exact Option.some.inj thread
  exact parents_in_thread ((((called.go 2).go 2).go 2).go 2)

/-- The same message is regenerated on another thread of the tenant: the reply is stored
there, and its parent is not. -/
theorem parent_in_other_thread :
    let s := ({} : World).after (greeted ++
      [.call (.createThread { tenantId := 7, conversationId := 9 }), .go 2, .go 2, .go 2, .go 2])
    regenerate s.store s.store 7 2 1 = .ok (again 2) ∧
      ¬ (s.after [.call (.appendMessage (again 2)), .go 3, .go 3, .go 3, .go 3]).store.Linked := by
  decide +kernel

end AgentStudio.Session
