import AgentStudio.Threads.Parents

/-!
# What an append has stored

An append returns the row that it stored, and its text part is stored with it. The row
stays, and so does the part: only the parts of tool results are ever replaced, and those
come after the text.
-/

namespace AgentStudio.Threads

/-- The first part that an append stores with its row. -/
def textPart (a : AppendArgs) (row : MessageRow) : PartRow where
  messageId := row.id
  threadId := a.threadId
  tenantId := a.tenantId
  partType := "text"
  partIndex := 0
  content := { rest := a.content }
  redactedContent := { rest := a.redacted }

/-- The first part of a message is its text. -/
def TextFirst (parts : List PartRow) : Prop := ∀ p ∈ parts, p.partIndex = 0 → p.partType = "text"

/-- What a transaction adds begins with the text, what it replaces is not the first part, and
an append adds its row with its text part. -/
structure Adds (r : Request) (w : Writes) (reply : Reply) : Prop where
  texts : TextFirst w.parts
  spares : ∀ q ∈ w.updatedParts, q.partIndex ≠ 0
  message : ∀ a row, r = .appendMessage a → reply = .message row false →
    row ∈ w.messages ∧ row.redactedContent = a.redacted ∧ textPart a row ∈ w.parts

/-- A transaction that adds and replaces no part. -/
theorem adds_none {r : Request} {w : Writes} {reply : Reply} (parts : w.parts = [])
    (updated : w.updatedParts = []) (other : ∀ a, r ≠ .appendMessage a) : Adds r w reply := by
  constructor
  · rw [parts]
    exact fun p mem => by cases mem
  · rw [updated]
    exact fun q mem => by cases mem
  · exact fun a row is => absurd is (other a)

theorem body_adds {r : Request} {newId : Uuid} {db : Store} {w : Writes} {reply : Reply}
    (texts : TextFirst db.parts) (body : r.body newId db = .ok (w, reply)) : Adds r w reply := by
  cases r with
  | createThread a =>
    cases body
    exact adds_none rfl rfl (by simp)
  | appendMessage a =>
    simp only [Request.body, appendMessage] at body
    split at body
    · cases body
    · cases body
      constructor
      · intro p mem first
        obtain ⟨⟨part, i⟩, there, rfl⟩ := List.mem_map.mp mem
        obtain rfl : i = 0 := first
        -- the first part is the text
        have head := List.mem_zipIdx_iff_getElem?.mp there
        obtain rfl : _ = part := Option.some.inj head
        rfl
      · exact fun q mem => by cases mem
      · intro a' row is replied
        cases is
        cases replied
        exact ⟨List.mem_singleton_self _, rfl, List.mem_cons_self⟩
  | appendEvent a =>
    simp only [Request.body, appendEvent] at body
    split at body
    · cases body
    · cases body
      exact adds_none rfl rfl (by simp)
  | setSummary a =>
    simp only [Request.body, setSummary] at body
    split at body
    · cases body
    · split at body
      · cases body
        constructor
        · intro p mem first
          rw [List.mem_singleton.mp mem] at first
          exact absurd first (Nat.succ_ne_zero _)
        · exact fun q mem => by cases mem
        · exact fun a' row is => by cases is
      · cases body
  | forkThread a =>
    simp only [Request.body, forkThread] at body
    split at body
    · cases body
    · split at body
      · cases body
      · split at body
        · cases body
        · cases body
          constructor
          · intro p mem first
            obtain ⟨source, -, copied⟩ := List.mem_flatMap.mp mem
            obtain ⟨q, there, rfl⟩ := List.mem_map.mp copied
            exact texts q (List.mem_filter.mp there).1 first
          · exact fun q mem => by cases mem
          · exact fun a' row is => by cases is
  | clearToolResults a =>
    simp only [Request.body, clearToolResults] at body
    split at body
    · cases body
    · split at body
      · cases body
        exact adds_none rfl rfl (by simp)
      · cases body
        constructor
        · exact fun p mem => by cases mem
        · intro q mem first
          obtain ⟨p, eligible, rfl⟩ := List.mem_map.mp mem
          obtain ⟨there, result⟩ := List.mem_filter.mp eligible
          have text := texts p there first
          simp [text] at result
        · exact fun a' row is => by cases is
  | setArchived a =>
    simp only [Request.body, setArchived] at body
    split at body
    · cases body
    · cases body
      exact adds_none rfl rfl (by simp)

/-! ## In a run -/

/-- The rows that appends under way and answered have stored. -/
structure Written (s : World) : Prop where
  texts : TextFirst s.store.parts
  flushed : ∀ c ∈ s.calls, ∀ w reply seen, c.phase = .flushed w reply seen → Adds c.request w reply
  answered : ∀ c ∈ s.calls, ∀ a row, c.request = .appendMessage a →
    c.phase = .returned (.ok (.message row false)) → row ∈ s.store.messages ∧
      row.redactedContent = a.redacted ∧ textPart a row ∈ s.store.parts

/-- A call that comes to a phase with nothing written. -/
theorem Written.become {s : World} (h : Written s) {i : Nat} {c : Call} {phase : Phase}
    (unflushed : ∀ w reply seen, phase ≠ .flushed w reply seen)
    (unanswered : ∀ row, phase ≠ .returned (.ok (.message row false))) :
    Written (s.become i c phase) := by
  refine ⟨h.texts, ?_, ?_⟩
  · intro d mem w reply seen flushed
    rcases List.mem_or_eq_of_mem_set mem with old | rfl
    · exact h.flushed d old w reply seen flushed
    · exact absurd flushed (unflushed w reply seen)
  · intro d mem a row append returned
    rcases List.mem_or_eq_of_mem_set mem with old | rfl
    · exact h.answered d old a row append returned
    · exact absurd returned (unanswered row)

theorem search_unanswered (r : Request) (db : Store) (row : MessageRow) :
    search r db ≠ .returned (.ok (.message row false)) := by
  unfold search
  split
  · split
    · simp
    · simp
  · simp

/-- The first part of a message is never replaced. -/
theorem apply_first {db : Store} {w : Writes} (spares : ∀ q ∈ w.updatedParts, q.partIndex ≠ 0)
    {p : PartRow} (mem : p ∈ db.parts) (first : p.partIndex = 0) : p ∈ (db.apply w).parts := by
  apply List.mem_append_left
  refine List.mem_map.mpr ⟨p, mem, ?_⟩
  have none_ : w.updatedParts.find? (·.samePart p) = none := by
    rw [List.find?_eq_none]
    intro q there same
    rw [PartRow.samePart, Bool.and_eq_true, beq_iff_eq, beq_iff_eq] at same
    exact spares q there (same.2.trans first)
  rw [none_, Option.getD_none]

theorem apply_texts {db : Store} {w : Writes} (texts : TextFirst db.parts)
    (added : TextFirst w.parts) (spares : ∀ q ∈ w.updatedParts, q.partIndex ≠ 0) :
    TextFirst (db.apply w).parts := by
  intro p mem first
  rcases List.mem_append.mp mem with old | new
  · obtain ⟨q, there, is⟩ := List.mem_map.mp old
    cases found : w.updatedParts.find? (·.samePart q) with
    | none =>
      rw [found, Option.getD_none] at is
      exact is ▸ texts q there (is ▸ first)
    | some update =>
      rw [found, Option.getD_some] at is
      exact absurd first (is ▸ spares update (List.mem_of_find?_eq_some found))
  · exact added p new first

theorem step_written {s t : World} (step : Step s t) (h : Written s) : Written t := by
  cases step with
  | call r =>
    refine ⟨h.texts, ?_, ?_⟩
    · intro d mem w reply seen flushed
      rcases List.mem_append.mp mem with old | new
      · exact h.flushed d old w reply seen flushed
      · rw [List.mem_singleton.mp new] at flushed
        cases flushed
    · intro d mem a row append returned
      rcases List.mem_append.mp mem with old | new
      · exact h.answered d old a row append returned
      · rw [List.mem_singleton.mp new] at returned
        cases returned
  | search i c here phase => exact h.become (search_unflushed _ _) (search_unanswered _ _)
  | lock i c here phase found free => exact h.become (by simp) (by simp)
  | missing i c here phase row select none_ => exact h.become (by simp) (by simp)
  | flush i c here phase w reply body admits decided =>
    refine ⟨h.texts, ?_, ?_⟩
    · intro d mem w' reply' seen flushed
      rcases List.mem_or_eq_of_mem_set mem with old | rfl
      · exact h.flushed d old w' reply' seen flushed
      · cases flushed
        exact body_adds h.texts body
    · intro d mem a row append returned
      rcases List.mem_or_eq_of_mem_set mem with old | rfl
      · exact h.answered d old a row append returned
      · cases returned
  | reject i c here phase w reply body clash decided => exact h.become (by simp) (by simp)
  | raise i c here phase e body => exact h.become (by simp) (by simp)
  | commit i c here w reply seen phase =>
    have adds := h.flushed c (List.mem_of_getElem? here) w reply seen phase
    refine ⟨apply_texts h.texts adds.texts adds.spares, ?_, ?_⟩
    · intro d mem w' reply' seen' flushed
      rcases List.mem_or_eq_of_mem_set mem with old | rfl
      · exact h.flushed d old w' reply' seen' flushed
      · cases flushed
    · intro d mem a row append returned
      rcases List.mem_or_eq_of_mem_set mem with old | rfl
      · obtain ⟨there, redacted, part⟩ := h.answered d old a row append returned
        exact ⟨List.mem_append_left _ there, redacted, apply_first adds.spares part rfl⟩
      · cases returned
        obtain ⟨there, redacted, part⟩ := adds.message a row append rfl
        exact ⟨List.mem_append_right _ there, redacted, List.mem_append_right _ part⟩
  | abort i c here running => exact h.become (by simp) (by simp)

theorem reachable_written {s : World} (run : Run s) : Written s := by
  induction run with
  | initial => constructor <;> simp [TextFirst]
  | step _ step ih => exact step_written step ih

end AgentStudio.Threads
