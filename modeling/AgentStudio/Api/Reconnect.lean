import AgentStudio.Api.Truncation
import AgentStudio.Py.Text

/-!
# What the route answers

The streaming route reads `Last-Event-ID`: with an id it replays what the stream buffer holds and
sends no more; without one it runs a turn. The `session` frame, and the frames that no one acts
on, are sent around those of the turn.
-/

namespace Py

/-- The digits of `int(text)`: groups with an underscore between them. -/
def intDigits (text : List Char) : Option ℕ :=
  if (text.splitOn '_').all fun group => !group.isEmpty && group.all Char.isDigit then
    some (Nat.ofDigitChars 10 (text.filter Char.isDigit) 0)
  else none

/-- `int(text)`, where it does not raise. -/
def int (text : String) : Option ℤ :=
  match (strip text).toList with
  | '-' :: digits => (intDigits digits).map fun n => -(n : ℤ)
  | '+' :: digits => (intDigits digits).map Int.ofNat
  | digits => (intDigits digits).map Int.ofNat

end Py

namespace AgentStudio.Api
open Async Orchestration

/-- `last_event_id`, of the header `Last-Event-ID` or no header. -/
def lastEventId (raw : String) : ℤ := if raw = "" then 0 else (Py.int raw).getD 0

/-- The frames that no one acts on. -/
inductive Notice where
  | guardrails | compaction | heartbeat
  deriving DecidableEq, Repr

/-- A record of the stream buffer; other records than these are not sent. -/
inductive Stored where
  | delta (content : String)
  | result
  | error
  deriving DecidableEq, Repr

/-- What the route yields. -/
inductive Message where
  | session (sessionId threadId : String)
  | notice (kind : Notice)
  /-- From the consumer loop of a turn. -/
  | live (frame : Frame)
  /-- From `_replay_generator`. -/
  | replay (id : ℕ) (stored : Stored)

def Message.event : Message → String
  | .session .. => "session"
  | .notice .guardrails => "guardrails"
  | .notice .compaction => "compaction"
  | .notice .heartbeat => "heartbeat"
  | .live (.delta ..) | .replay _ (.delta _) => "delta"
  | .live (.redaction _) => "redaction"
  | .live (.retraction ..) => "retraction"
  | .live (.error _) | .replay _ .error => "error"
  | .live (.result ..) | .replay _ .result => "result"

def Message.eventId : Message → Option ℕ
  | .live (.delta _ id _) => some id
  | .replay id _ => some id
  | _ => none

def Message.frame? : Message → Option Frame
  | .live frame => some frame
  | _ => none

def Message.isReplay : Message → Bool
  | .replay .. => true
  | _ => false

/-- The messages of a turn: the frames of a run of the generator, and others around them. -/
structure Turn (t : Trace Calls Raised) (messages : List Message) : Prop where
  run : ∃ route chunks ending seq o v,
    (eventGenerator route chunks ending).Runs { seq := seq } t o v
  frames : messages.filterMap Message.frame? = sent t
  own : ∀ m ∈ messages, m.isReplay = false

/-- What the route sends when it is asked with a `Last-Event-ID`. -/
inductive Answer (raw : String) : List Message → Prop
  /-- An id was sent, or the key of the request has a result already. -/
  | replayed (records : List (ℕ × Stored)) (drawn : ∀ r ∈ records, 0 < r.1) :
      Answer raw (records.map fun r => .replay r.1 r.2)
  /-- A blocked message, a busy thread, or no admission. -/
  | turnedAway (fresh : lastEventId raw ≤ 0) (opening : List Message) (frame : Frame)
      (quiet : ∀ m ∈ opening, m.frame? = none ∧ m.isReplay = false)
      (last : frame.delta? = none ∧ frame.isRetraction = false) :
      Answer raw (opening ++ [.live frame])
  | generated (fresh : lastEventId raw ≤ 0) {t : Trace Calls Raised} {messages : List Message}
      (turn : Turn t messages) : Answer raw messages

/-! ## Ids -/

theorem digits_toString (n : ℕ) : (toString n).toList = Nat.toDigits 10 n := by
  rw [Nat.toString_eq_ofList_toDigits, String.toList_ofList]

theorem toString_digit {n : ℕ} {c : Char} (mem : c ∈ (toString n).toList) : c.isDigit = true := by
  rw [digits_toString] at mem
  exact Nat.isDigit_of_mem_toDigits (by decide) (by decide) mem

theorem toString_ne_nil (n : ℕ) : (toString n).toList ≠ [] := by
  rw [digits_toString]
  exact Nat.toDigits_ne_nil

theorem isDigit_range {c : Char} (digit : c.isDigit = true) : 48 ≤ c.toNat ∧ c.toNat ≤ 57 := by
  simp only [Char.isDigit, Bool.and_eq_true, decide_eq_true_eq] at digit
  exact digit

theorem dropWhile_digits {text : List Char} (digits : ∀ c ∈ text, c.isDigit = true) :
    text.dropWhile Py.isSpace = text := by
  cases text with
  | nil => rfl
  | cons c text =>
    have range := isDigit_range (digits c List.mem_cons_self)
    have solid : Py.isSpace c = false := by
      unfold Py.isSpace
      grind
    simp [solid]

theorem strip_digits {text : String} (digits : ∀ c ∈ text.toList, c.isDigit = true) :
    Py.strip text = text := by
  rw [Py.strip, dropWhile_digits digits, dropWhile_digits, List.reverse_reverse, String.ofList_toList]
  intro c mem
  exact digits c (List.mem_reverse.mp mem)

/-- An id that is sent back is read as that id. -/
theorem lastEventId_toString (n : ℕ) : lastEventId (toString n) = n := by
  have digits : ∀ c ∈ (toString n).toList, c.isDigit = true := fun c mem => toString_digit mem
  have some_ : (toString n).toList ≠ [] := toString_ne_nil n
  have value : Py.intDigits (toString n).toList = some n := by
    have single : (toString n).toList.splitOn '_' = [(toString n).toList] := by
      refine List.splitOnP_eq_singleton fun c mem => ?_
      refine beq_eq_false_iff_ne.mpr ?_
      rintro rfl
      exact absurd (digits '_' mem) (by decide)
    rw [Py.intDigits, single, if_pos, List.filter_eq_self.mpr digits, digits_toString,
      Nat.ofDigitChars_ten_toDigits]
    simpa [some_] using digits
  have int : Py.int (toString n) = some (n : ℤ) := by
    rw [Py.int, strip_digits digits]
    split
    · rename_i rest here
      rw [here] at digits
      exact absurd (digits '-' List.mem_cons_self) (by decide)
    · rename_i rest here
      rw [here] at digits
      exact absurd (digits '+' List.mem_cons_self) (by decide)
    · rw [value]
      rfl
  have given : toString n ≠ "" := by
    intro empty
    rw [empty] at some_
    exact some_ rfl
  rw [lastEventId, if_neg given, int]
  rfl

theorem Turn.drawn {t : Trace Calls Raised} {messages : List Message} (h : Turn t messages) :
    ∀ m ∈ messages, ∀ id, m.eventId = some id → 0 < id := by
  obtain ⟨route, chunks, ending, seq, o, v, run⟩ := h.run
  have ids : ∀ d ∈ deltas t, 0 < d.1 := by
    rcases Coro.all_iff.mp (eventGenerator_truncated route chunks ending seq) t o v run with plain | cut
    · exact plain.ids
    · exact cut.ids
  intro m mem id known
  cases m with
  | live frame =>
    cases frame with
    | delta content eventId window =>
      cases known
      have here : .delta content id window ∈ sent t := by
        rw [← h.frames]
        exact List.mem_filterMap.mpr ⟨_, mem, rfl⟩
      exact ids (id, content) (List.mem_filterMap.mpr ⟨_, here, rfl⟩)
    | _ => cases known
  | replay => cases h.own _ mem
  | _ => cases known

/-- Every id that is sent was drawn from the counter. -/
theorem Answer.drawn {raw : String} {messages : List Message} (h : Answer raw messages) :
    ∀ m ∈ messages, ∀ id, m.eventId = some id → 0 < id := by
  cases h with
  | replayed records drawn =>
    intro m mem id known
    obtain ⟨r, here, rfl⟩ := List.mem_map.mp mem
    cases known
    exact drawn r here
  | turnedAway fresh opening frame quiet last =>
    intro m mem id known
    rcases List.mem_append.mp mem with mem | mem
    · obtain ⟨none_, own⟩ := quiet m mem
      cases m with
      | live => cases none_
      | replay => cases own
      | _ => cases known
    · rw [List.mem_singleton.mp mem] at known
      cases frame with
      | delta => cases last.1
      | _ => cases known
  | generated fresh turn => exact turn.drawn

end AgentStudio.Api
