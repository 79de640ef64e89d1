import AgentStudio.Async.Observe
import AgentStudio.Py.Numeral
import AgentStudio.Py.Text

/-!
# One-time codes

`modules/security/totp.py`: a secret is twenty bytes in base 32, and a code is accepted where
it is that of the clock's step, the one before or the one after.
-/

namespace AgentStudio.Access

/-- The hash functions the modelled code calls, and what Python knows of characters beyond
ASCII. -/
structure Externals where
  /-- The hexadecimal digest of a text. -/
  sha256 : String → String
  hmacSha256 : List ℕ → String → String
  /-- The digest, as bytes. -/
  hmacSha1 : List ℕ → List ℕ → List ℕ
  isdigitBeyond : Char → Bool := fun _ => false

namespace Totp

/-! ## Base 32 -/

def b32Char (d : ℕ) : Char := Char.ofNat (if d < 26 then 65 + d else 24 + d)

def b32Value (c : Char) : Option ℕ :=
  if 'A'.toNat ≤ c.toNat ∧ c.toNat ≤ 'Z'.toNat then some (c.toNat - 65)
  else if '2'.toNat ≤ c.toNat ∧ c.toNat ≤ '7'.toNat then some (c.toNat - 24)
  else none

/-- `s[i : i + n]` for `i` in `range(0, len(s), n)`. -/
def quanta {α : Type} (n : ℕ) : ℕ → List α → List (List α)
  | 0, _ => []
  | rounds + 1, l => if l.isEmpty then [] else l.take n :: quanta n rounds (l.drop n)

/-- The padding for a last group of so many bytes. -/
def padding : ℕ → ℕ
  | 1 => 6
  | 2 => 4
  | 3 => 3
  | 4 => 1
  | _ => 0

/-- `base64.b32encode`. -/
def b32encode (s : List ℕ) : List Char :=
  let leftover := s.length % 5
  let s := if leftover = 0 then s else s ++ List.replicate (5 - leftover) 0
  let encoded := (quanta 5 s.length s).flatMap fun q =>
    (Py.toBytes 32 8 (Py.fromBytes 256 q)).map b32Char
  encoded.take (encoded.length - padding leftover) ++ List.replicate (padding leftover) '='

def rstrip (c : Char) (s : List Char) : List Char := (s.reverse.dropWhile (· = c)).reverse

/-- `base64.b32decode`; `none` is a `binascii.Error`. -/
def b32decode (s : List Char) : Option (List ℕ) := do
  if s.length % 8 ≠ 0 then none
  let body := rstrip '=' s
  let padchars := s.length - body.length
  let groups := quanta 8 body.length (← body.mapM b32Value)
  let decoded := groups.flatMap fun q => Py.toBytes 256 5 (Py.fromBytes 32 q)
  if padchars ∉ [0, 1, 3, 4, 6] then none
  if padchars ≠ 0 ∧ ¬ decoded.isEmpty then
    let acc := Py.fromBytes 32 (groups.getLastD []) * 32 ^ padchars
    some (decoded.take (decoded.length - 5) ++ (Py.toBytes 256 5 acc).take ((43 - 5 * padchars) / 8))
  else some decoded

/-- `str.upper` as far as it gives ASCII letters. -/
def upperChar (c : Char) : List Char :=
  match c.toNat with
  | 0xdf => ['S', 'S']
  | 0x131 => ['I']
  | 0x17f => ['S']
  | 0xfb00 => ['F', 'F']
  | 0xfb01 => ['F', 'I']
  | 0xfb02 => ['F', 'L']
  | 0xfb03 => ['F', 'F', 'I']
  | 0xfb04 => ['F', 'F', 'L']
  | 0xfb05 | 0xfb06 => ['S', 'T']
  | _ => [c.toUpper]

/-! ## Codes -/

def periodSeconds : ℕ := 30

def digits : ℕ := 6

/-- `generate_secret`, of the bytes that `token_bytes` gave. -/
def generateSecret (token : List ℕ) : String := String.ofList (rstrip '=' (b32encode token))

def keyFromB32 (secret : String) : Option (List ℕ) :=
  let secret := (Py.strip secret).toList.flatMap upperChar
  b32decode (secret ++ List.replicate ((8 - secret.length % 8) % 8) '=')

variable (ext : Externals)

/-- `_hotp`, of a counter that `struct.pack(">Q", counter)` takes. -/
def hotp (key : List ℕ) (counter : ℕ) : String :=
  let digest := ext.hmacSha1 key (Py.toBytes 256 8 counter)
  let offset := digest.getLastD 0 % 16
  Py.zfill digits (Py.fromBytes 256 ((digest.drop offset).take 4) % 2 ^ 31 % 10 ^ digits)

/-- `totp_code` at an instant, in microseconds. -/
def totpCode (secret : String) (drift : ℤ) (now : ℕ) : Option String := do
  let key ← keyFromB32 secret
  let counter : ℤ := (now / (periodSeconds * 1000000) : ℕ) + drift
  if counter < 0 ∨ 2 ^ 64 ≤ counter then none
  some (hotp ext key counter.toNat)

def isAscii (c : Char) : Bool := c.toNat < 128

/-- `str.isdigit`. -/
def isdigit (s : String) : Bool :=
  !s.isEmpty && s.toList.all fun c =>
    if isAscii c then '0'.toNat ≤ c.toNat && c.toNat ≤ '9'.toNat else ext.isdigitBeyond c

/-- `hmac.compare_digest` of two texts; `none` is its `TypeError`. -/
def compareDigest (a b : String) : Option Bool :=
  if a.toList.all isAscii && b.toList.all isAscii then some (a = b) else none

end Totp

end AgentStudio.Access
