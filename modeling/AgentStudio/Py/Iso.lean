import AgentStudio.Py.Text

/-!
# Instants as text

`isoformat` writes different instants differently: the date is that of one day, and
each field of the text is of digits up to a character that is none.
-/

namespace Py

/-! ## Dates -/

/-- The year of an era of 400 years in which a day of the era falls. -/
def yearOfEra (doe : Nat) : Nat := (doe - doe / 1460 + doe / 36524 - doe / 146096) / 365

theorem yearOfEra_lt {doe : Nat} (day : doe < 146097) : yearOfEra doe < 400 := by
  unfold yearOfEra
  omega

/-- The year of a day by its century, its cycle of four years, and its day in the cycle. -/
theorem cycle_year {doe e k s : Nat} (century : e ≤ 3) (cycle : k ≤ 24)
    (is : doe = 36524 * e + 1461 * k + s) (last : s ≤ 1460) (short : k = 24 → s < 1460) :
    ∃ t, t ≤ 3 ∧ yearOfEra doe = 100 * e + 4 * k + t ∧ 365 * t ≤ s ∧ s ≤ 365 * t + 365 := by
  have quarter : doe / 1460 = 25 * e + k + (24 * e + k + s) / 1460 := by omega
  have centuries : doe / 36524 = e := by omega
  have whole : doe / 146096 = 0 := by omega
  have year : yearOfEra doe = (36500 * e + 1460 * k + s - (24 * e + k + s) / 1460) / 365 := by
    unfold yearOfEra
    rw [quarter, centuries, whole]
    congr 1
    omega
  refine ⟨(s - (24 * e + k + s) / 1460) / 365, ?_, ?_, ?_, ?_⟩ <;> omega

/-- The days of the years before it, and no more than a leap year. -/
theorem days_before {doe : Nat} (day : doe < 146097) :
    365 * yearOfEra doe + yearOfEra doe / 4 - yearOfEra doe / 100 ≤ doe ∧
      doe ≤ 365 * yearOfEra doe + yearOfEra doe / 4 - yearOfEra doe / 100 + 365 := by
  by_cases last : doe = 146096
  · subst last
    decide
  · have parts : ∃ e k s, e ≤ 3 ∧ k ≤ 24 ∧ s ≤ 1460 ∧ doe = 36524 * e + 1461 * k + s ∧
        (k = 24 → s < 1460) :=
      ⟨doe / 36524, doe % 36524 / 1461, doe % 36524 % 1461, by omega, by omega, by omega, by omega,
        by omega⟩
    obtain ⟨e, k, s, century, cycle, end_, is, short⟩ := parts
    obtain ⟨t, part, year, low, high⟩ := cycle_year century cycle is end_ short
    have fourth : yearOfEra doe / 4 = 25 * e + k := by omega
    have hundredth : yearOfEra doe / 100 = e := by omega
    rw [fourth, hundredth]
    omega

/-- The month and the day of a day of the year, counted from March. -/
def monthDay (doy : Nat) : Nat × Nat :=
  let mp := (5 * doy + 2) / 153
  (if mp < 10 then mp + 3 else mp - 9, doy - (153 * mp + 2) / 5 + 1)

theorem monthDay_inj {a b : Nat} (inA : a ≤ 365) (inB : b ≤ 365)
    (same : monthDay a = monthDay b) : a = b := by
  obtain ⟨months, days⟩ := Prod.mk.inj same
  have mp : (5 * a + 2) / 153 = (5 * b + 2) / 153 := by
    split at months <;> split at months <;> omega
  rw [mp] at days
  omega

theorem civil_eq (days : Nat) :
    let doe := (days + 719468) % 146097
    let md := monthDay (doe - (365 * yearOfEra doe + yearOfEra doe / 4 - yearOfEra doe / 100))
    civil days =
      (yearOfEra doe + (days + 719468) / 146097 * 400 + (if md.1 ≤ 2 then 1 else 0), md) := rfl

theorem civil_inj {a b : Nat} (same : civil a = civil b) : a = b := by
  have inA : (a + 719468) % 146097 < 146097 := Nat.mod_lt _ (by decide)
  have inB : (b + 719468) % 146097 < 146097 := Nat.mod_lt _ (by decide)
  rw [civil_eq, civil_eq] at same
  obtain ⟨years, dates⟩ := Prod.mk.inj same
  have yearA := yearOfEra_lt inA
  have yearB := yearOfEra_lt inB
  obtain ⟨lowA, highA⟩ := days_before inA
  obtain ⟨lowB, highB⟩ := days_before inB
  have doy := monthDay_inj (by omega) (by omega) dates
  rw [dates] at years
  have year : yearOfEra ((a + 719468) % 146097) = yearOfEra ((b + 719468) % 146097) := by omega
  rw [year] at doy lowA
  omega

/-! ## Digits -/

theorem zfill_toList (width n : Nat) : ∃ zeros, (zfill width n).toList =
    List.replicate zeros '0' ++ Nat.toDigits 10 n := by
  refine ⟨width - (toString n).length, ?_⟩
  simp only [zfill, String.toList_append, String.toList_ofList, Nat.toString_eq_ofList_toDigits]

theorem zfill_digit {width n : Nat} {c : Char} (mem : c ∈ (zfill width n).toList) :
    c.isDigit = true := by
  obtain ⟨zeros, is⟩ := zfill_toList width n
  rw [is] at mem
  rcases List.mem_append.mp mem with zero | digit
  · rw [List.eq_of_mem_replicate zero]
    decide
  · exact Nat.isDigit_of_mem_toDigits (by decide) (by decide) digit

theorem zfill_inj {width n m : Nat} (same : zfill width n = zfill width m) : n = m := by
  obtain ⟨zeros, isN⟩ := zfill_toList width n
  obtain ⟨zeros', isM⟩ := zfill_toList width m
  have value (zeros k : Nat) :
      Nat.ofDigitChars 10 (List.replicate zeros '0' ++ Nat.toDigits 10 k) 0 = k := by
    rw [Nat.ofDigitChars_append, Nat.ofDigitChars_replicate_zero, Nat.mul_zero,
      Nat.ofDigitChars_ten_toDigits]
  rw [← value zeros n, ← value zeros' m, ← isN, ← isM, same]

/-! ## Fields -/

/-- What comes before the first character of another kind can be read off. -/
theorem span_inj {p : Char → Bool} {c d : Char} {l m x y : List Char} (hl : ∀ a ∈ l, p a = true)
    (hm : ∀ a ∈ m, p a = true) (hc : p c = false) (hd : p d = false)
    (same : l ++ c :: x = m ++ d :: y) : l = m ∧ c = d ∧ x = y := by
  induction l generalizing m with
  | nil =>
    cases m with
    | nil => exact ⟨rfl, List.cons.inj same⟩
    | cons a m =>
      have first := (List.cons.inj same).1
      rw [first, hm a List.mem_cons_self] at hc
      cases hc
  | cons a l ih =>
    cases m with
    | nil =>
      have first := (List.cons.inj same).1
      rw [← first, hl a List.mem_cons_self] at hd
      cases hd
    | cons b m =>
      obtain ⟨rfl, tail⟩ := List.cons.inj same
      obtain ⟨rfl, rest⟩ := ih (fun a mem => hl a (List.mem_cons_of_mem _ mem))
        (fun a mem => hm a (List.mem_cons_of_mem _ mem)) tail
      exact ⟨rfl, rest⟩

/-- A number, and what follows it. -/
theorem field_inj {width n m : Nat} {c d : Char} {x y : List Char} (hc : c.isDigit = false)
    (hd : d.isDigit = false)
    (same : (zfill width n).toList ++ c :: x = (zfill width m).toList ++ d :: y) :
    n = m ∧ c = d ∧ x = y := by
  obtain ⟨numbers, rest⟩ :=
    span_inj (fun a => zfill_digit) (fun a => zfill_digit) hc hd same
  exact ⟨zfill_inj (String.toList_injective numbers), rest⟩

/-- The fraction of a second and the zone. -/
def fractionText (micros : Nat) : List Char :=
  if micros % 1000000 = 0 then "+00:00".toList
  else '.' :: ((zfill 6 (micros % 1000000)).toList ++ "+00:00".toList)

theorem isoformat_toList {micros year month day : Nat}
    (date : civil (micros / 1000000 / 86400) = (year, month, day)) :
    (isoformat micros).toList = (zfill 4 year).toList ++ '-' ::
      ((zfill 2 month).toList ++ '-' :: ((zfill 2 day).toList ++ 'T' ::
        ((zfill 2 (micros / 1000000 / 3600 % 24)).toList ++ ':' ::
          ((zfill 2 (micros / 1000000 / 60 % 60)).toList ++ ':' ::
            ((zfill 2 (micros / 1000000 % 60)).toList ++ fractionText micros))))) := by
  unfold isoformat fractionText
  extract_lets seconds
  rw [date]
  dsimp only
  split <;> simp [seconds]

theorem isoformat_bar (micros : Nat) : '|' ∉ (isoformat micros).toList := by
  obtain ⟨year, month, day, date⟩ : ∃ year month day,
      civil (micros / 1000000 / 86400) = (year, month, day) := ⟨_, _, _, rfl⟩
  have number (width n : Nat) : '|' ∉ (zfill width n).toList := by
    intro mem
    have digit := zfill_digit mem
    revert digit
    decide
  have fraction : '|' ∉ fractionText micros := by
    unfold fractionText
    split
    · decide
    · simp [number]
  rw [isoformat_toList date]
  simp [number, fraction]

theorem isoformat_inj {a b : Nat} (same : isoformat a = isoformat b) : a = b := by
  have lists := congrArg String.toList same
  obtain ⟨yearA, monthA, dayA, dateA⟩ : ∃ year month day,
      civil (a / 1000000 / 86400) = (year, month, day) := ⟨_, _, _, rfl⟩
  obtain ⟨yearB, monthB, dayB, dateB⟩ : ∃ year month day,
      civil (b / 1000000 / 86400) = (year, month, day) := ⟨_, _, _, rfl⟩
  rw [isoformat_toList dateA, isoformat_toList dateB] at lists
  obtain ⟨rfl, -, lists⟩ := field_inj (by decide) (by decide) lists
  obtain ⟨rfl, -, lists⟩ := field_inj (by decide) (by decide) lists
  obtain ⟨rfl, -, lists⟩ := field_inj (by decide) (by decide) lists
  obtain ⟨hours, -, lists⟩ := field_inj (by decide) (by decide) lists
  obtain ⟨minutes, -, lists⟩ := field_inj (by decide) (by decide) lists
  have day := civil_inj (dateA.trans dateB.symm)
  have rest : a / 1000000 % 60 = b / 1000000 % 60 ∧ a % 1000000 = b % 1000000 := by
    have plus : "+00:00".toList = '+' :: "00:00".toList := by decide
    simp only [fractionText, plus] at lists
    split at lists <;> split at lists
    next wholeA wholeB =>
      obtain ⟨seconds, -, -⟩ := field_inj (by decide) (by decide) lists
      exact ⟨seconds, wholeA.trans wholeB.symm⟩
    next =>
      have other := (field_inj (by decide) (by decide) lists).2.1
      cases other
    next =>
      have other := (field_inj (by decide) (by decide) lists).2.1
      cases other
    next =>
      obtain ⟨seconds, -, fractions⟩ := field_inj (by decide) (by decide) lists
      exact ⟨seconds, (field_inj (by decide) (by decide) fractions).1⟩
  omega

end Py
