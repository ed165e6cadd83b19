import MetricAlerts.Calendar.DayText
import MetricAlerts.Proofs.Calendar.Civil
import MetricAlerts.Proofs.Text.Numeral

/-!
# Reading days that were written

Whatever its year is, a day is read back from its text, which is written in
digits and signs.
-/

namespace MetricAlerts.Day

open Text Calendar

theorem isBlank_of_isDigit {c : Char} (hc : isDigit c = true) : isBlank c = false := by
  simp only [isDigit, Bool.and_eq_true, decide_eq_true_eq] at hc
  simp only [isBlank, Bool.or_eq_false_iff, Bool.and_eq_false_iff, decide_eq_false_iff_not,
    beq_eq_false_iff_ne]
  omega

theorem exists_digit (width n : Nat) :
    ∃ c digits, padZeros width (numeral n) = c :: digits ∧ isDigit c = true := by
  obtain ⟨c, digits, hdigits⟩ := List.exists_cons_of_ne_nil (padZeros_ne_nil width n)
  exact ⟨c, digits, hdigits, isDigit_of_mem_padZeros (hdigits ▸ List.mem_cons_self)⟩

/-- Nothing is skipped in front of a number. -/
theorem dropBlanks_padZeros (width n : Nat) (rest : List Char) :
    dropBlanks (padZeros width (numeral n) ++ rest) = padZeros width (numeral n) ++ rest := by
  obtain ⟨c, digits, hdigits, hc⟩ := exists_digit width n
  rw [hdigits, List.cons_append, dropBlanks, List.dropWhile_cons_of_neg]
  rw [isBlank_of_isDigit hc]
  exact Bool.false_ne_true

theorem readDashed_padZeros {n : Nat} {rest : List Char} (hn : n < 100)
    (hrest : ∀ c ∈ rest.head?, isDigit c = false) :
    readDashed ('-' :: padZeros 2 (numeral n) ++ rest) = some (n, rest) := by
  have hlength : (padZeros 2 (numeral n)).length ≤ 2 := Nat.le_of_eq (length_padZeros hn)
  change takeNumber 2 (dropBlanks (padZeros 2 (numeral n) ++ rest)) = _
  rw [dropBlanks_padZeros, takeNumber_padZeros hlength hrest]

/-- A year is read back with or without a sign, whichever way it is written. -/
theorem readYear_yearText (year : Int) {rest : List Char}
    (hrest : ∀ c ∈ rest.head?, isDigit c = false) :
    readYear (yearText year ++ rest) = some (year, rest) := by
  have hsigned : takeNumber (padZeros 4 (numeral year.natAbs) ++ rest).length
      (padZeros 4 (numeral year.natAbs) ++ rest) = some (year.natAbs, rest) := by
    apply takeNumber_padZeros _ hrest
    rw [List.length_append]
    exact Nat.le_add_right ..
  rw [yearText]
  split
  · next hplain =>
      have hlength : (padZeros 4 (numeral year.natAbs)).length ≤ 4 :=
        Nat.le_of_eq (length_padZeros (by omega))
      obtain ⟨c, digits, hdigits, hc⟩ := exists_digit 4 year.natAbs
      rw [readYear, dropBlanks_padZeros]
      split
      · next hminus =>
          rw [hdigits] at hminus
          cases hminus
          cases hc
      · next hplus =>
          rw [hdigits] at hplus
          cases hplus
          cases hc
      · rw [takeNumber_padZeros hlength hrest, Option.map_some]
        dsimp only
        rw [Int.natAbs_of_nonneg hplain.1]
  · split
    · next hnegative =>
        change (takeNumber (padZeros 4 (numeral year.natAbs) ++ rest).length
          (padZeros 4 (numeral year.natAbs) ++ rest)).map _ = _
        rw [hsigned, Option.map_some]
        dsimp only
        rw [Int.ofNat_natAbs_of_nonpos (Int.le_of_lt hnegative), Int.neg_neg]
    · next hpositive =>
        change (takeNumber (padZeros 4 (numeral year.natAbs) ++ rest).length
          (padZeros 4 (numeral year.natAbs) ++ rest)).map _ = _
        rw [hsigned, Option.map_some]
        dsimp only
        rw [Int.natAbs_of_nonneg (Int.not_lt.1 hpositive)]

theorem daysInMonth_le (year : Int) (month : Nat) : daysInMonth year month ≤ 31 := by
  rw [daysInMonth]
  split
  · split <;> decide
  · split <;> decide

/-- Months and days have two digits. -/
theorem civil_lt (day : Day) : day.civil.month < 100 ∧ day.civil.day < 100 := by
  have hvalid : day.civil.isValid = true := isValid_ofNumber day.number
  have hlast := daysInMonth_le day.civil.year day.civil.month
  simp only [Civil.isValid, Bool.and_eq_true, decide_eq_true_eq] at hvalid
  omega

theorem readStart_chars (day : Day) : readStart day.chars = some (day, []) := by
  obtain ⟨hmonth, hday⟩ := day.civil_lt
  have hdash : ∀ cs : List Char, ∀ c ∈ ('-' :: cs).head?, isDigit c = false := by
    rintro cs c ⟨⟩
    rfl
  have hend : ∀ c ∈ ([] : List Char).head?, isDigit c = false := by
    rintro c ⟨⟩
  have hyear := readYear_yearText day.civil.year (hdash (padZeros 2 (numeral day.civil.month) ++
    '-' :: padZeros 2 (numeral day.civil.day)))
  have hmonths := readDashed_padZeros hmonth (hdash (padZeros 2 (numeral day.civil.day)))
  have hdays := readDashed_padZeros hday hend
  rw [List.append_nil] at hdays
  rw [List.cons_append] at hmonths
  simp only [readStart, chars, List.append_assoc, List.cons_append, hyear, hmonths, hdays,
    Option.bind_eq_bind, Option.bind_some, day.ofCivil?_civil, Option.pure_def]

/-- Every day is read back from its text. -/
theorem read?_text (day : Day) : read? day.text = some day := by
  rw [read?, text, String.toList_ofList, readStart_chars]
  rfl

/-- Days are told apart by their texts. -/
theorem injective_text : Function.Injective text := by
  intro day other htext
  have hread := read?_text day
  rw [htext, read?_text] at hread
  exact (Option.some.inj hread).symm

theorem toNat_of_mem_padZeros {width n : Nat} {c : Char} (hc : c ∈ padZeros width (numeral n)) :
    48 ≤ c.toNat ∧ c.toNat ≤ 57 := by
  simpa [isDigit] using isDigit_of_mem_padZeros hc

theorem toNat_of_mem_yearText {year : Int} {c : Char} (hc : c ∈ yearText year) :
    c.toNat = 43 ∨ c.toNat = 45 ∨ 48 ≤ c.toNat ∧ c.toNat ≤ 57 := by
  rw [yearText] at hc
  split at hc
  · exact .inr (.inr (toNat_of_mem_padZeros hc))
  · rcases List.mem_cons.1 hc with rfl | hc
    · split
      · exact .inr (.inl rfl)
      · exact .inl rfl
    · exact .inr (.inr (toNat_of_mem_padZeros hc))

/-- A day is written in digits, dashes and plus signs. -/
theorem toNat_of_mem_chars {day : Day} {c : Char} (hc : c ∈ day.chars) :
    c.toNat = 43 ∨ c.toNat = 45 ∨ 48 ≤ c.toNat ∧ c.toNat ≤ 57 := by
  simp only [chars, List.mem_append, List.mem_cons] at hc
  rcases hc with (hyear | rfl | hmonth) | rfl | hday
  · exact toNat_of_mem_yearText hyear
  · exact .inr (.inl rfl)
  · exact .inr (.inr (toNat_of_mem_padZeros hmonth))
  · exact .inr (.inl rfl)
  · exact .inr (.inr (toNat_of_mem_padZeros hday))

end MetricAlerts.Day
