import Mathlib

/-!
# Python string operations

The few `str` methods the modelled code uses, on lists of characters, and the format
of amounts.
-/

namespace Py

/-- `str.isspace` on one character. -/
def isSpace (c : Char) : Bool :=
  let n := c.toNat
  (9 ≤ n && n ≤ 13) || (28 ≤ n && n ≤ 32) || n == 0x85 || n == 0xa0 || n == 0x1680 ||
    (0x2000 ≤ n && n ≤ 0x200a) || n == 0x2028 || n == 0x2029 || n == 0x202f || n == 0x205f ||
    n == 0x3000

/-- `s.strip()`. -/
def strip (s : String) : String :=
  String.ofList (((s.toList.dropWhile isSpace).reverse.dropWhile isSpace).reverse)

/-- `s.lower()` as far as Latin letters go: A to Z, and the two other characters
whose lower case holds a Latin letter, the Kelvin sign and the dotted I. -/
def lowerChar (c : Char) : List Char :=
  if c.toNat = 0x212a then ['k']
  else if c.toNat = 0x130 then ['i', Char.ofNat 0x307]
  else [c.toLower]

def lower (s : String) : String := String.ofList (s.toList.flatMap lowerChar)

def infixOf (sub : List Char) : List Char → Bool
  | [] => sub.isEmpty
  | c :: cs => sub.isPrefixOf (c :: cs) || infixOf sub cs

/-- `sub in s`. -/
def contains (s sub : String) : Bool := infixOf sub.toList s.toList

/-- `s.split(sep, 1)` when `sep in s`. -/
def splitOnce (sep : Char) (s : String) : Option (String × String) :=
  if s.toList.contains sep then
    some (String.ofList (s.toList.takeWhile (· ≠ sep)),
      String.ofList ((s.toList.dropWhile (· ≠ sep)).drop 1))
  else none

/-- `round(q)`: a half goes to its even neighbour. -/
def roundEven (q : ℚ) : ℤ :=
  let low := ⌊q⌋
  if q - low < 1 / 2 then low
  else if 1 / 2 < q - low then low + 1
  else if low % 2 = 0 then low else low + 1

/-- `f"{q:.2f}"`. -/
def fixed2 (q : ℚ) : String :=
  let cents := (roundEven (|q| * 100)).toNat
  let frac := cents % 100
  (if q < 0 then "-" else "") ++ toString (cents / 100) ++ "." ++
    (if frac < 10 then "0" else "") ++ toString frac

/-- `sep.join(parts)`. -/
def join (sep : String) : List String → String
  | [] => ""
  | [part] => part
  | part :: rest => part ++ sep ++ join sep rest

def zfill (width n : Nat) : String :=
  let digits := toString n
  String.ofList (List.replicate (width - digits.length) '0') ++ digits

/-- The date of a day counted from 1970-01-01: year, month, day. -/
def civil (days : Nat) : Nat × Nat × Nat :=
  -- eras of 400 years that begin on the first of March
  let z := days + 719468
  let era := z / 146097
  let doe := z % 146097
  let yoe := (doe - doe / 1460 + doe / 36524 - doe / 146096) / 365
  let doy := doe - (365 * yoe + yoe / 4 - yoe / 100)
  let mp := (5 * doy + 2) / 153
  let month := if mp < 10 then mp + 3 else mp - 9
  (yoe + era * 400 + (if month ≤ 2 then 1 else 0), month, doy - (153 * mp + 2) / 5 + 1)

/-- `isoformat()` of a UTC instant, in microseconds from 1970 on. -/
def isoformat (micros : Nat) : String :=
  let seconds := micros / 1000000
  let (year, month, day) := civil (seconds / 86400)
  zfill 4 year ++ "-" ++ zfill 2 month ++ "-" ++ zfill 2 day ++ "T" ++
    zfill 2 (seconds / 3600 % 24) ++ ":" ++ zfill 2 (seconds / 60 % 60) ++ ":" ++
    zfill 2 (seconds % 60) ++
    (if micros % 1000000 = 0 then "" else "." ++ zfill 6 (micros % 1000000)) ++ "+00:00"

/-- `s or d` for strings. -/
def orElse (s : Option String) (d : String) : String :=
  match s with
  | none => d
  | some s => if s = "" then d else s

end Py
