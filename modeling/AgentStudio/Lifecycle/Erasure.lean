import AgentStudio.Memory.Facts
import AgentStudio.Threads.Transactions

/-!
# Erasing an end user

`application/tenant_lifecycle/service.py`: threads go by their owner, messages by the end
user they carry. Nothing ties a message to its thread, and only the user's own turn is
stored with the end user: what the assistant wrote stays behind.
-/

namespace AgentStudio.Lifecycle

open Threads Memory

structure EndUser where
  id : String
  tenantId : Uuid
  status : String := "active"
  deriving DecidableEq

structure SessionToken where
  jti : String
  tenantId : Uuid
  endUserId : String
  revokedAt : Option ℚ := none
  deriving DecidableEq

/-- The tables that hold data of end users. -/
structure Tables where
  store : Store
  memories : List MemoryRow := []
  sessionTokens : List SessionToken := []
  endUsers : List EndUser := []
  deriving DecidableEq

/-- What was deleted, erased or revoked. -/
structure Deleted where
  threads : Nat
  messages : Nat
  memories : Nat
  sessionTokens : Nat
  deriving DecidableEq

section
variable (tenantId : Uuid) (endUserId : String)

/-- A row is of the end user. -/
def isOf (rowTenant : Uuid) (rowUser : Option String) : Bool :=
  rowTenant == tenantId && rowUser == some endUserId

/-- The thread is one of the end user's. -/
def Tables.owned (db : Tables) (threadId : Uuid) : Bool :=
  db.store.threads.any fun t => t.id == threadId && isOf tenantId endUserId t.tenantId t.endUserId

/-- `ThreadRepository.delete_by_end_user`; parts, events and memories go with their thread. -/
def deleteByEndUser (db : Tables) : Tables × Nat :=
  let gone := db.owned tenantId endUserId
  ({ db with
    store := { db.store with
      threads := db.store.threads.filter fun t => !isOf tenantId endUserId t.tenantId t.endUserId
      parts := db.store.parts.filter fun p => !gone p.threadId
      events := db.store.events.filter fun e => !gone e.threadId }
    memories := db.memories.filter fun row => !gone row.threadId },
   (db.store.threads.filter fun t => isOf tenantId endUserId t.tenantId t.endUserId).length)

/-- `delete_messages_by_end_user`; the parts go with their message. -/
def deleteMessagesByEndUser (db : Tables) : Tables × Nat :=
  let gone := db.store.messages.filter fun m => isOf tenantId endUserId m.tenantId m.endUserId
  ({ db with
    store := { db.store with
      messages := db.store.messages.filter fun m => !isOf tenantId endUserId m.tenantId m.endUserId
      parts := db.store.parts.filter fun p => !gone.any (·.id == p.messageId) } },
   gone.length)

def SessionToken.live (token : SessionToken) : Bool :=
  isOf tenantId endUserId token.tenantId (some token.endUserId) && token.revokedAt.isNone

/-- `revoke_all_for_end_user`. -/
def revokeAllForEndUser (now : ℚ) (db : Tables) : Tables × Nat :=
  ({ db with sessionTokens := db.sessionTokens.map fun token =>
      if token.live tenantId endUserId then { token with revokedAt := some now } else token },
   (db.sessionTokens.filter fun token => token.live tenantId endUserId).length)

/-- `EndUserRepository.set_status`. -/
def setStatus (status : String) (db : Tables) : Tables :=
  { db with endUsers := db.endUsers.map fun user =>
      if isOf tenantId endUserId user.tenantId (some user.id) then { user with status := status }
      else user }

/-- `erase_end_user_data`: `none` is its error for a user that is not there. -/
def eraseEndUserData (now : ℚ) (db : Tables) : Option (Tables × Deleted) :=
  if db.endUsers.any fun user => isOf tenantId endUserId user.tenantId (some user.id) then
    let threads := deleteByEndUser tenantId endUserId db
    let messages := deleteMessagesByEndUser tenantId endUserId threads.1
    let memories := eraseByUser messages.1.memories tenantId endUserId
    let tokens := revokeAllForEndUser tenantId endUserId now
      { messages.1 with memories := memories.1 }
    some (setStatus tenantId endUserId "erased" tokens.1,
      ⟨threads.2, messages.2, memories.2, tokens.2⟩)
  else none

/-! ## What is left -/

/-- A row is of another end user. -/
def isOther (rowTenant : Uuid) (rowUser : Option String) : Bool :=
  rowUser.isSome && !isOf tenantId endUserId rowTenant rowUser

/-- No message of a thread that was the user's is left. -/
def MessagesGone (before after : Tables) : Prop :=
  ∀ m ∈ after.store.messages, before.owned tenantId endUserId m.threadId = false

/-- Every row of another end user is as it was. -/
structure OthersKept (before after : Tables) : Prop where
  threads : ∀ t ∈ before.store.threads, isOther tenantId endUserId t.tenantId t.endUserId = true →
    t ∈ after.store.threads
  messages : ∀ m ∈ before.store.messages,
    isOther tenantId endUserId m.tenantId m.endUserId = true → m ∈ after.store.messages
  memories : ∀ row ∈ before.memories,
    isOther tenantId endUserId row.tenantId row.endUserId = true → row ∈ after.memories
  sessionTokens : ∀ token ∈ before.sessionTokens,
    isOther tenantId endUserId token.tenantId (some token.endUserId) = true →
      token ∈ after.sessionTokens
  endUsers : ∀ user ∈ before.endUsers,
    isOther tenantId endUserId user.tenantId (some user.id) = true → user ∈ after.endUsers

variable {tenantId : Uuid} {endUserId : String}

/-- The messages that are left are those that do not carry the user. -/
theorem erased_messages {now : ℚ} {db db' : Tables} {deleted : Deleted}
    (done : eraseEndUserData tenantId endUserId now db = some (db', deleted)) :
    db'.store.messages =
      db.store.messages.filter fun m => !isOf tenantId endUserId m.tenantId m.endUserId := by
  unfold eraseEndUserData at done
  split at done
  · obtain ⟨rfl, -⟩ := Prod.mk.inj (Option.some.inj done)
    rfl
  · cases done

/-- The memories that are left are those of other threads; the user's are erased. -/
theorem erased_memories {now : ℚ} {db db' : Tables} {deleted : Deleted}
    (done : eraseEndUserData tenantId endUserId now db = some (db', deleted)) :
    db'.memories = (eraseByUser (db.memories.filter fun row =>
      !db.owned tenantId endUserId row.threadId) tenantId endUserId).1 := by
  unfold eraseEndUserData at done
  split at done
  · obtain ⟨rfl, -⟩ := Prod.mk.inj (Option.some.inj done)
    rfl
  · cases done

/-- The rest: threads go by their owner, tokens and users are marked. -/
theorem erased_rest {now : ℚ} {db db' : Tables} {deleted : Deleted}
    (done : eraseEndUserData tenantId endUserId now db = some (db', deleted)) :
    db'.store.threads =
        (db.store.threads.filter fun t => !isOf tenantId endUserId t.tenantId t.endUserId) ∧
      db'.sessionTokens = (revokeAllForEndUser tenantId endUserId now db).1.sessionTokens ∧
      db'.endUsers = (setStatus tenantId endUserId "erased" db).endUsers := by
  unfold eraseEndUserData at done
  split at done
  · obtain ⟨rfl, -⟩ := Prod.mk.inj (Option.some.inj done)
    exact ⟨rfl, rfl, rfl⟩
  · cases done

/-- What is marked is the user's. -/
theorem mem_map_other {α : Type} {rows : List α} {row : α} {mine : α → Bool} {mark : α → α}
    (mem : row ∈ rows) (other : mine row = false) :
    row ∈ rows.map fun row => if mine row then mark row else row :=
  List.mem_map.mpr ⟨row, mem, by simp [other]⟩

theorem not_isOf_of_isOther {rowTenant : Uuid} {rowUser : Option String}
    (other : isOther tenantId endUserId rowTenant rowUser = true) :
    isOf tenantId endUserId rowTenant rowUser = false := by
  rw [isOther, Bool.and_eq_true, Bool.not_eq_true'] at other
  exact other.2

theorem messagesGone_iff {now : ℚ} {db db' : Tables} {deleted : Deleted}
    (done : eraseEndUserData tenantId endUserId now db = some (db', deleted)) :
    MessagesGone tenantId endUserId db db' ↔ ∀ m ∈ db.store.messages,
      db.owned tenantId endUserId m.threadId = true →
        isOf tenantId endUserId m.tenantId m.endUserId = true := by
  rw [MessagesGone, erased_messages done]
  constructor
  · intro gone m mem owned
    by_contra kept
    have left := gone m (List.mem_filter.mpr ⟨mem, by simpa using kept⟩)
    rw [owned] at left
    cases left
  · intro carried m mem
    obtain ⟨mem, kept⟩ := List.mem_filter.mp mem
    by_contra owned
    rw [carried m mem (by simpa using owned)] at kept
    cases kept

theorem memoriesKept_iff {now : ℚ} {db db' : Tables} {deleted : Deleted}
    (done : eraseEndUserData tenantId endUserId now db = some (db', deleted)) :
    (∀ row ∈ db.memories, isOther tenantId endUserId row.tenantId row.endUserId = true →
      row ∈ db'.memories) ↔
      ∀ row ∈ db.memories, db.owned tenantId endUserId row.threadId = true →
        isOther tenantId endUserId row.tenantId row.endUserId = false := by
  rw [erased_memories done]
  constructor
  · intro kept row mem owned
    by_contra other
    rw [Bool.not_eq_false] at other
    obtain ⟨row', mem', same⟩ := List.mem_map.mp (kept row mem other)
    have thread : row'.threadId = row.threadId := by
      rw [← same]
      split
      · rfl
      · rfl
    have left := (List.mem_filter.mp mem').2
    rw [thread, owned] at left
    cases left
  · intro apart row mem other
    apply mem_map_other
    · refine List.mem_filter.mpr ⟨mem, ?_⟩
      by_contra owned
      rw [apart row mem (by simpa using owned)] at other
      cases other
    · have mine := not_isOf_of_isOther other
      rw [isOf] at mine
      rw [MemoryRow.live, mine, Bool.false_and]

/-- Of the rows of others only memories can go, with the thread they hang on. -/
theorem othersKept_iff {now : ℚ} {db db' : Tables} {deleted : Deleted}
    (done : eraseEndUserData tenantId endUserId now db = some (db', deleted)) :
    OthersKept tenantId endUserId db db' ↔ ∀ row ∈ db.memories,
      db.owned tenantId endUserId row.threadId = true →
        isOther tenantId endUserId row.tenantId row.endUserId = false := by
  rw [← memoriesKept_iff done]
  constructor
  · exact fun kept => kept.memories
  · intro memories
    obtain ⟨threads, tokens, users⟩ := erased_rest done
    refine ⟨?_, ?_, memories, ?_, ?_⟩
    · intro t mem other
      rw [threads]
      exact List.mem_filter.mpr ⟨mem, by rw [not_isOf_of_isOther other]; rfl⟩
    · intro m mem other
      rw [erased_messages done]
      exact List.mem_filter.mpr ⟨mem, by rw [not_isOf_of_isOther other]; rfl⟩
    · intro token mem other
      rw [tokens]
      apply mem_map_other mem
      rw [SessionToken.live, not_isOf_of_isOther other, Bool.false_and]
    · intro user mem other
      rw [users]
      exact mem_map_other mem (not_isOf_of_isOther other)

end

/-- For every state of the tables and every end user whose data is erased without an error:
no message of the user's threads is left and every row of the other users is as it was,
exactly when each message of these threads carries the user, and no memory that hangs on
them is another user's. -/
theorem erasure_complete_iff (tenantId : Uuid) (endUserId : String) (now : ℚ) (db db' : Tables)
    (deleted : Deleted)
    (done : eraseEndUserData tenantId endUserId now db = some (db', deleted)) :
    (MessagesGone tenantId endUserId db db' ∧ OthersKept tenantId endUserId db db') ↔
      (∀ m ∈ db.store.messages, db.owned tenantId endUserId m.threadId = true →
        isOf tenantId endUserId m.tenantId m.endUserId = true) ∧
      ∀ row ∈ db.memories, db.owned tenantId endUserId row.threadId = true →
        isOther tenantId endUserId row.tenantId row.endUserId = false := by
  rw [messagesGone_iff done, othersKept_iff done]

/-- A user's thread with its turn, and perhaps the reply, stored as the route stores them. -/
def talked (replied : Bool) : Tables where
  store := (({} : World).after (
    [.call (.createThread { tenantId := 7, conversationId := 9, endUserId := some "u" }),
     .go 0, .go 0, .go 0, .go 0,
     .call (.appendMessage {
      tenantId := 7, threadId := 0, role := "user", content := "a", endUserId := some "u" }),
     .go 1, .go 1, .go 1, .go 1] ++
    if replied then
      [.call (.appendMessage {
        tenantId := 7, threadId := 0, role := "assistant", content := "b",
        parentMessageId := some 1 }), .go 2, .go 2, .go 2, .go 2]
    else [])).store
  endUsers := [{ id := "u", tenantId := 7 }, { id := "v", tenantId := 7 }]

theorem erasure_complete_unanswered :
    ∃ db' deleted, eraseEndUserData 7 "u" 0 (talked false) = some (db', deleted) ∧
      MessagesGone 7 "u" (talked false) db' ∧ OthersKept 7 "u" (talked false) db' := by
  have done : eraseEndUserData 7 "u" 0 (talked false) =
      some ({ store := {}, endUsers := [⟨"u", 7, "erased"⟩, ⟨"v", 7, "active"⟩] },
        ⟨1, 1, 0, 0⟩) := by decide +kernel
  exact ⟨_, _, done, (erasure_complete_iff 7 "u" 0 _ _ _ done).mpr (by decide +kernel)⟩

/-- After the erasure the assistant's reply is still there. -/
theorem reply_left :
    ∃ db' deleted, eraseEndUserData 7 "u" 0 (talked true) = some (db', deleted) ∧
      (talked true).owned 7 "u" 0 = true ∧
      db'.store.messages.map (fun m => (m.threadId, m.role, m.content)) =
        [(0, "assistant", "b")] := by
  refine ⟨_, _, rfl, ?_⟩
  decide +kernel

end AgentStudio.Lifecycle
