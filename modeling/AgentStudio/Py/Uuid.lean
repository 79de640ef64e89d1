import AgentStudio.Py.Numeral

/-!
# UUIDs

`uuid.UUID(text)` and `str(uuid)`: 32 hexadecimal digits, with hyphens, braces and the URN
marks left out of account. What is written is read back.
-/

namespace Py.Uuid

/-- `s.replace(sub, "")` on characters. -/
def remove (sub : List Char) : ℕ → List Char → List Char
  | 0, s => s
  | _, [] => []
  | rounds + 1, c :: s =>
    if sub.isPrefixOf (c :: s) then remove sub rounds ((c :: s).drop sub.length)
    else c :: remove sub rounds s

def hexChar (d : ℕ) : Char := Char.ofNat (if d < 10 then 48 + d else 87 + d)

def hexValue (c : Char) : Option ℕ :=
  let n := c.toNat
  if 48 ≤ n ∧ n ≤ 57 then some (n - 48)
  else if 65 ≤ n ∧ n ≤ 70 then some (n - 55)
  else if 97 ≤ n ∧ n ≤ 102 then some (n - 87)
  else none

def isBrace (c : Char) : Bool := c = '\x7b' || c = '\x7d'

/-- `UUID(text).int`; `none` is its `ValueError`. -/
def parse (text : String) : Option ℕ :=
  let s := text.toList
  let s := remove "urn:".toList s.length s
  let s := remove "uuid:".toList s.length s
  let s := ((s.dropWhile isBrace).reverse.dropWhile isBrace).reverse
  let s := s.filter (· ≠ '-')
  if s.length = 32 then (s.mapM hexValue).map (fromBytes 16) else none

/-- The characters of written digits. -/
def hexChars : List Char := "0123456789abcdef".toList

def hexDigits (n : ℕ) : List Char := (toBytes 16 32 n).map hexChar

/-- The five groups of a list of 32. -/
def grouped (s : List Char) : List Char :=
  s.take 8 ++ '-' :: (s.drop 8).take 4 ++ '-' :: (s.drop 12).take 4 ++ '-' :: (s.drop 16).take 4 ++
    '-' :: s.drop 20

/-- `str(uuid)`. -/
def str (n : ℕ) : String := String.ofList (grouped (hexDigits n))

/-! ## What is written is read back -/

theorem hexValue_hexChar : ∀ d < 16, hexValue (hexChar d) = some d := by decide

theorem hexChar_mem : ∀ d < 16, hexChar d ∈ hexChars := by decide

theorem remove_absent {sub : List Char} {c : Char} (mem : sub.head? = some c) (rounds : ℕ)
    {s : List Char} (absent : c ∉ s) : remove sub rounds s = s := by
  induction rounds generalizing s with
  | zero => rfl
  | succ rounds ih =>
    cases s with
    | nil => rfl
    | cons x s =>
      have other : ¬ sub.isPrefixOf (x :: s) := by
        intro starts
        obtain ⟨rest, is⟩ := List.isPrefixOf_iff_prefix.mp starts
        cases sub with
        | nil => simp at mem
        | cons y sub =>
          obtain rfl : y = c := by simpa using mem
          obtain ⟨rfl, -⟩ := List.cons.inj is
          exact absent List.mem_cons_self
      rw [remove, if_neg other, ih fun there => absent (List.mem_cons_of_mem x there)]

theorem dropWhile_absent {p : Char → Bool} {s : List Char} (none_ : ∀ c ∈ s, p c = false) :
    s.dropWhile p = s := by
  cases s with
  | nil => rfl
  | cons c s => rw [List.dropWhile_cons_of_neg (by simp [none_ c List.mem_cons_self])]

theorem mem_hexDigits {n : ℕ} {c : Char} (mem : c ∈ hexDigits n) :
    c ∈ hexChars := by
  obtain ⟨d, there, rfl⟩ := List.mem_map.mp mem
  exact hexChar_mem d (lt_of_mem_toBytes (by decide) there)

theorem filter_grouped {s : List Char} (none_ : '-' ∉ s) :
    (grouped s).filter (· ≠ '-') = s := by
  have keeps {l : List Char} (sub : l ⊆ s) : l.filter (· ≠ '-') = l := by
    rw [List.filter_eq_self]
    intro c mem
    have other : c ≠ '-' := fun is => none_ (is ▸ sub mem)
    simpa using other
  have dash (l : List Char) : ('-' :: l).filter (· ≠ '-') = l.filter (· ≠ '-') := by simp
  have part (i k : ℕ) : (s.drop i).take k ⊆ s :=
    fun _ mem => List.mem_of_mem_drop (List.mem_of_mem_take mem)
  unfold grouped
  simp only [List.filter_append, dash]
  rw [keeps (List.take_subset 8 s), keeps (part 8 4), keeps (part 12 4), keeps (part 16 4),
    keeps (List.drop_subset 20 s)]
  calc s.take 8 ++ (s.drop 8).take 4 ++ (s.drop 12).take 4 ++ (s.drop 16).take 4 ++ s.drop 20
      = s.take 8 ++ ((s.drop 8).take 4 ++ (((s.drop 8).drop 4).take 4 ++
          ((((s.drop 8).drop 4).drop 4).take 4 ++ (((s.drop 8).drop 4).drop 4).drop 4))) := by
        simp [List.drop_drop]
    _ = s := by simp only [List.take_append_drop]

theorem mem_grouped {s : List Char} {c : Char} (mem : c ∈ grouped s) : c ∈ s ∨ c = '-' := by
  have part {i k : ℕ} (there : c ∈ (s.drop i).take k) : c ∈ s :=
    List.mem_of_mem_drop (List.mem_of_mem_take there)
  simp only [grouped, List.mem_append, List.mem_cons] at mem
  grind [List.mem_of_mem_take, List.mem_of_mem_drop]

theorem mapM_map_some {α β : Type} {f : α → β} {g : β → Option α} {l : List α}
    (undo : ∀ a ∈ l, g (f a) = some a) : (l.map f).mapM g = some l := by
  induction l with
  | nil => rfl
  | cons a l ih =>
    rw [List.map_cons, List.mapM_cons, undo a List.mem_cons_self,
      ih fun a mem => undo a (List.mem_cons_of_mem _ mem)]
    rfl

theorem parse_str {n : ℕ} (fits : n < 2 ^ 128) : parse (str n) = some n := by
  have other {c : Char} (out : c ∉ hexChars) (dash : c ≠ '-') : c ∉ grouped (hexDigits n) :=
    fun mem => (mem_grouped mem).elim (fun mem => out (mem_hexDigits mem)) dash
  have braceless : ∀ c ∈ grouped (hexDigits n), isBrace c = false := by
    have all : hexChars.all (fun c => !isBrace c) = true := by decide
    intro c mem
    rcases mem_grouped mem with mem | rfl
    · simpa using List.all_eq_true.mp all c (mem_hexDigits mem)
    · rfl
  have dashless : '-' ∉ hexDigits n := fun mem => absurd (mem_hexDigits mem) (by decide)
  have values : (hexDigits n).mapM hexValue = some (toBytes 16 32 n) := by
    exact mapM_map_some fun d mem => hexValue_hexChar d (lt_of_mem_toBytes (by decide) mem)
  have length : (hexDigits n).length = 32 := by simp [hexDigits, length_toBytes]
  unfold parse str
  simp only [String.toList_ofList]
  rw [remove_absent (c := 'u') rfl _ (other (c := 'u') (by decide) (by decide)),
    remove_absent (c := 'u') rfl _ (other (c := 'u') (by decide) (by decide)), dropWhile_absent braceless,
    dropWhile_absent (by simpa using braceless), List.reverse_reverse, filter_grouped dashless,
    if_pos length, values]
  exact congrArg some (fromBytes_toBytes (by simpa using fits))

theorem hexValue_lt {c : Char} {d : ℕ} (is : hexValue c = some d) : d < 16 := by
  unfold hexValue at is
  dsimp only at is
  split at is
  · obtain rfl := Option.some.inj is
    omega
  · split at is
    · obtain rfl := Option.some.inj is
      omega
    · split at is
      · obtain rfl := Option.some.inj is
        omega
      · cases is

theorem mapM_some_mem {α β : Type} {g : α → Option β} {l : List α} {l' : List β}
    (is : l.mapM g = some l') : l'.length = l.length ∧ ∀ b ∈ l', ∃ a, g a = some b := by
  induction l generalizing l' with
  | nil =>
    obtain rfl : [] = l' := Option.some.inj is
    exact ⟨rfl, fun _ mem => absurd mem List.not_mem_nil⟩
  | cons a l ih =>
    rw [List.mapM_cons] at is
    obtain ⟨b, first, is⟩ := Option.bind_eq_some_iff.mp is
    obtain ⟨rest, later, is⟩ := Option.bind_eq_some_iff.mp is
    obtain rfl : b :: rest = l' := Option.some.inj is
    obtain ⟨length, each⟩ := ih later
    refine ⟨by simp [length], fun x mem => ?_⟩
    rcases List.mem_cons.mp mem with rfl | mem
    · exact ⟨a, first⟩
    · exact each x mem

/-- What is read fits. -/
theorem parse_lt {text : String} {n : ℕ} (is : parse text = some n) : n < 2 ^ 128 := by
  unfold parse at is
  dsimp only at is
  split at is
  · rename_i length
    obtain ⟨digits, read, rfl⟩ := Option.map_eq_some_iff.mp is
    obtain ⟨same, each⟩ := mapM_some_mem read
    have bound := fromBytes_lt (b := 16) fun d mem => by
      obtain ⟨c, value⟩ := each d mem
      exact hexValue_lt value
    rw [same, length] at bound
    exact bound.trans_eq (by norm_num)
  · cases is

end Py.Uuid
