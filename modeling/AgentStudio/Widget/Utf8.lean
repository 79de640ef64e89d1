import Mathlib.Data.Nat.Notation
import Mathlib.Tactic.Common

/-!
# Decoding UTF-8 in pieces

The decoder that `TextDecoder` runs with `stream`, a byte at a time: what it has of a character
is kept from one piece to the next, and a mark at the start of the stream is dropped.

* `decode_append`, `decodeAll_eq`: the text does not depend on how the bytes are cut;
* `decode_encode`: the text that was encoded comes back.
-/

namespace Utf8

/-- What stands for bytes that are no character. -/
def replacement : Char := '\uFFFD'

def byteOrderMark : Char := '\uFEFF'

structure Decoder where
  codePoint : Nat := 0
  bytesSeen : Nat := 0
  bytesNeeded : Nat := 0
  lower : Nat := 0x80
  upper : Nat := 0xBF
  /-- The first character has come. -/
  bomSeen : Bool := false
  deriving DecidableEq

namespace Decoder

variable (d : Decoder)

/-- Between two characters. -/
def reset : Decoder := { bomSeen := d.bomSeen }

/-- A byte between two characters. -/
def start (byte : Nat) : List Char × Decoder :=
  if byte ≤ 0x7F then ([Char.ofNat byte], d)
  else if 0xC2 ≤ byte ∧ byte ≤ 0xDF then
    ([], { d with bytesNeeded := 1, codePoint := byte % 32 })
  else if 0xE0 ≤ byte ∧ byte ≤ 0xEF then
    ([], { d with
      lower := if byte = 0xE0 then 0xA0 else d.lower
      upper := if byte = 0xED then 0x9F else d.upper
      bytesNeeded := 2, codePoint := byte % 16 })
  else if 0xF0 ≤ byte ∧ byte ≤ 0xF4 then
    ([], { d with
      lower := if byte = 0xF0 then 0x90 else d.lower
      upper := if byte = 0xF4 then 0x8F else d.upper
      bytesNeeded := 3, codePoint := byte % 8 })
  else ([replacement], d)

/-- A byte. One that cannot go on with a character is the first of the next. -/
def step (byte : Nat) : List Char × Decoder :=
  if d.bytesNeeded = 0 then d.start byte
  else if d.lower ≤ byte ∧ byte ≤ d.upper then
    let codePoint := d.codePoint * 64 + byte % 64
    if d.bytesSeen + 1 = d.bytesNeeded then ([Char.ofNat codePoint], d.reset)
    else ([], { d with
      lower := 0x80, upper := 0xBF, codePoint := codePoint, bytesSeen := d.bytesSeen + 1 })
  else (replacement :: (d.reset.start byte).1, (d.reset.start byte).2)

/-- The characters that go out: all but a mark that is the first. -/
def serialize : List Char → List Char × Decoder
  | [] => ([], d)
  | c :: chars =>
    (if d.bomSeen = false ∧ c = byteOrderMark then chars else c :: chars, { d with bomSeen := true })

def feed (byte : UInt8) : List Char × Decoder := (d.step byte.toNat).2.serialize (d.step byte.toNat).1

/-- `decode`, with `stream`. -/
def decode : Decoder → List UInt8 → List Char × Decoder
  | d, [] => ([], d)
  | d, byte :: bytes =>
    ((d.feed byte).1 ++ ((d.feed byte).2.decode bytes).1, ((d.feed byte).2.decode bytes).2)

end Decoder

open Decoder

/-- The texts of the pieces. -/
def decodeAll : Decoder → List (List UInt8) → List (List Char)
  | _, [] => []
  | d, piece :: pieces => (d.decode piece).1 :: decodeAll (d.decode piece).2 pieces

def encode (text : List Char) : List UInt8 := text.flatMap String.utf8EncodeChar

/-! ## Pieces -/

theorem decode_append (d : Decoder) (bytes more : List UInt8) :
    d.decode (bytes ++ more) =
      ((d.decode bytes).1 ++ ((d.decode bytes).2.decode more).1,
        ((d.decode bytes).2.decode more).2) := by
  induction bytes generalizing d with
  | nil => rfl
  | cons byte bytes ih =>
    rw [List.cons_append, decode, ih, decode, List.append_assoc]

theorem decodeAll_eq (d : Decoder) (pieces : List (List UInt8)) :
    (decodeAll d pieces).flatten = (d.decode pieces.flatten).1 := by
  induction pieces generalizing d with
  | nil => rfl
  | cons piece pieces ih =>
    rw [decodeAll, List.flatten_cons, ih, List.flatten_cons, decode_append]

/-! ## What was encoded -/

/-- A byte of three that goes on with a character. -/
theorem step_tail {d : Decoder} {byte : Nat} (more : d.bytesNeeded ≠ 0)
    (within : d.lower ≤ byte ∧ byte ≤ d.upper) (next : d.bytesSeen + 1 ≠ d.bytesNeeded) :
    d.step byte = ([], { d with
      lower := 0x80, upper := 0xBF, codePoint := d.codePoint * 64 + byte % 64
      bytesSeen := d.bytesSeen + 1 }) := by
  rw [step, if_neg more, if_pos within, if_neg next]

/-- The last byte of a character. -/
theorem step_last {d : Decoder} {byte : Nat} (more : d.bytesNeeded ≠ 0)
    (within : d.lower ≤ byte ∧ byte ≤ d.upper) (last : d.bytesSeen + 1 = d.bytesNeeded) :
    d.step byte = ([Char.ofNat (d.codePoint * 64 + byte % 64)], d.reset) := by
  rw [step, if_neg more, if_pos within, if_pos last]

theorem feed_nil {d d' : Decoder} {byte : Nat} (small : byte < 256) (stepped : d.step byte = ([], d')) :
    d.feed (UInt8.ofNat byte) = ([], d') := by
  rw [feed, UInt8.toNat_ofNat_of_lt' small, stepped, serialize]

theorem feed_char {d d' : Decoder} {byte : Nat} {c : Char} (small : byte < 256)
    (stepped : d.step byte = ([c], d')) : d.feed (UInt8.ofNat byte) = d'.serialize [c] := by
  rw [feed, UInt8.toNat_ofNat_of_lt' small, stepped]

theorem decode_last {d d' : Decoder} {byte : UInt8} {chars : List Char}
    (fed : d.feed byte = (chars, d')) : d.decode [byte] = (chars, d') := by
  rw [decode, fed, decode, List.append_nil]

theorem decode_cons {d d' : Decoder} {byte : UInt8} (bytes : List UInt8)
    (fed : d.feed byte = ([], d')) : d.decode (byte :: bytes) = d'.decode bytes := by
  rw [decode, fed]
  rfl

section

variable (bomSeen : Bool) (v : Nat)

/-- A character of two bytes. -/
theorem decode_two (low : 0x7F < v) (high : v ≤ 0x7FF) :
    ({ bomSeen := bomSeen } : Decoder).decode
      [UInt8.ofNat (v / 64 % 32 + 0xC0), UInt8.ofNat (v % 64 + 0x80)] =
      ({ bomSeen := bomSeen } : Decoder).serialize [Char.ofNat v] := by
  have begins : ({ bomSeen := bomSeen } : Decoder).step (v / 64 % 32 + 0xC0) =
      ([], { bomSeen := bomSeen, bytesNeeded := 1, codePoint := v / 64 }) := by
    rw [step, if_pos rfl, start, if_neg (by omega), if_pos (by omega)]
    congr 2
    omega
  rw [decode_cons _ (feed_nil (by omega) begins)]
  apply decode_last
  have ends := @step_last { bomSeen := bomSeen, bytesNeeded := 1, codePoint := v / 64 }
    (v % 64 + 0x80) (Nat.succ_ne_zero 0) (by dsimp only; omega) rfl
  have whole : v / 64 * 64 + (v % 64 + 0x80) % 64 = v := by omega
  rw [feed_char (by omega) ends, whole]
  rfl

/-- A character of three bytes. -/
theorem decode_three (low : 0x7FF < v) (high : v ≤ 0xFFFF) (scalar : v < 0xD800 ∨ 0xDFFF < v) :
    ({ bomSeen := bomSeen } : Decoder).decode
      [UInt8.ofNat (v / 4096 % 16 + 0xE0), UInt8.ofNat (v / 64 % 64 + 0x80),
        UInt8.ofNat (v % 64 + 0x80)] =
      ({ bomSeen := bomSeen } : Decoder).serialize [Char.ofNat v] := by
  obtain ⟨lower, upper, begins, within⟩ : ∃ lower upper,
      ({ bomSeen := bomSeen } : Decoder).step (v / 4096 % 16 + 0xE0) =
        ([], { bomSeen := bomSeen, bytesNeeded := 2, codePoint := v / 4096
               lower := lower, upper := upper }) ∧
      lower ≤ v / 64 % 64 + 0x80 ∧ v / 64 % 64 + 0x80 ≤ upper := by
    rw [step, if_pos rfl, start, if_neg (by omega), if_neg (by omega), if_pos (by omega)]
    have point : (v / 4096 % 16 + 0xE0) % 16 = v / 4096 := by omega
    rw [point]
    refine ⟨_, _, rfl, ?_, ?_⟩
    · dsimp only
      split <;> omega
    · dsimp only
      split <;> omega
  rw [decode_cons _ (feed_nil (by omega) begins),
    decode_cons _ (feed_nil (by omega) (step_tail (Nat.succ_ne_zero 1) within (by dsimp only; omega)))]
  apply decode_last
  have whole : (v / 4096 * 64 + (v / 64 % 64 + 0x80) % 64) * 64 + (v % 64 + 0x80) % 64 = v := by
    omega
  rw [feed_char (by omega) (step_last (Nat.succ_ne_zero 1) (by dsimp only; omega) rfl), whole]
  rfl

/-- A character of four bytes. -/
theorem decode_four (low : 0xFFFF < v) (high : v < 0x110000) :
    ({ bomSeen := bomSeen } : Decoder).decode
      [UInt8.ofNat (v / 262144 % 8 + 0xF0), UInt8.ofNat (v / 4096 % 64 + 0x80),
        UInt8.ofNat (v / 64 % 64 + 0x80), UInt8.ofNat (v % 64 + 0x80)] =
      ({ bomSeen := bomSeen } : Decoder).serialize [Char.ofNat v] := by
  obtain ⟨lower, upper, begins, within⟩ : ∃ lower upper,
      ({ bomSeen := bomSeen } : Decoder).step (v / 262144 % 8 + 0xF0) =
        ([], { bomSeen := bomSeen, bytesNeeded := 3, codePoint := v / 262144
               lower := lower, upper := upper }) ∧
      lower ≤ v / 4096 % 64 + 0x80 ∧ v / 4096 % 64 + 0x80 ≤ upper := by
    rw [step, if_pos rfl, start, if_neg (by omega), if_neg (by omega), if_neg (by omega),
      if_pos (by omega)]
    have point : (v / 262144 % 8 + 0xF0) % 8 = v / 262144 := by omega
    rw [point]
    refine ⟨_, _, rfl, ?_, ?_⟩
    · dsimp only
      split <;> omega
    · dsimp only
      split <;> omega
  rw [decode_cons _ (feed_nil (by omega) begins),
    decode_cons _ (feed_nil (by omega) (step_tail (Nat.succ_ne_zero 2) within (by dsimp only; omega))),
    decode_cons _ (feed_nil (by omega)
      (step_tail (Nat.succ_ne_zero 2) (by dsimp only; omega) (by dsimp only; omega)))]
  apply decode_last
  have whole : ((v / 262144 * 64 + (v / 4096 % 64 + 0x80) % 64) * 64 +
      (v / 64 % 64 + 0x80) % 64) * 64 + (v % 64 + 0x80) % 64 = v := by
    omega
  rw [feed_char (by omega) (step_last (Nat.succ_ne_zero 2) (by dsimp only; omega) rfl), whole]
  rfl

end

/-- A character that was encoded comes out, between two others. -/
theorem decode_char (bomSeen : Bool) (c : Char) :
    ({ bomSeen := bomSeen } : Decoder).decode (String.utf8EncodeChar c) =
      ({ bomSeen := bomSeen } : Decoder).serialize [c] := by
  have scalar : c.val.toNat < 0xD800 ∨ 0xDFFF < c.val.toNat ∧ c.val.toNat < 0x110000 := c.valid
  have back : Char.ofNat c.val.toNat = c := Char.ofNat_toNat c
  unfold String.utf8EncodeChar
  dsimp only
  split
  · rename_i one
    apply decode_last
    have stepped : ({ bomSeen := bomSeen } : Decoder).step c.val.toNat =
        ([Char.ofNat c.val.toNat], { bomSeen := bomSeen }) := by
      rw [step, if_pos rfl, start, if_pos one]
    rw [feed_char (by omega) stepped, back]
    rfl
  · split
    · rw [decode_two bomSeen _ (by omega) (by omega), back]
    · split
      · rw [decode_three bomSeen _ (by omega) (by omega) (by omega), back]
      · rw [decode_four bomSeen _ (by omega) (by omega), back]

/-- Once the first character has come, all that was encoded comes out. -/
theorem decode_later (text : List Char) :
    ({ bomSeen := true } : Decoder).decode (encode text) = (text, { bomSeen := true }) := by
  induction text with
  | nil => rfl
  | cons c text ih =>
    rw [encode, List.flatMap_cons, decode_append, decode_char]
    have rest := congrArg (fun r => (c :: r.1, r.2)) ih
    exact rest

/-- What was encoded comes out, unless a mark is its first character. -/
theorem decode_encode (text : List Char) (plain : text.head? ≠ some byteOrderMark) :
    (({} : Decoder).decode (encode text)).1 = text := by
  cases text with
  | nil => rfl
  | cons c text =>
    have not_mark : c ≠ byteOrderMark := fun eq => plain (congrArg some eq)
    rw [encode, List.flatMap_cons, decode_append, decode_char, serialize,
      if_neg fun mark => not_mark mark.2]
    exact congrArg (c :: ·) (congrArg Prod.fst (decode_later text))

end Utf8
