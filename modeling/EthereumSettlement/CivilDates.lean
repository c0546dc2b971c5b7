import Mathlib.Algebra.Order.Ring.Nat
import Mathlib.Data.List.Basic
import Mathlib.Data.Nat.Find

/-!
# Civil dates and texts of fixed width

Days are counted from the first day of the year zero of the Gregorian calendar. A
date is found from the number of its day by taking the last year and the last month
that start no later, so the number is recovered by adding up the days before the
year, before the month and before the day. Numbers are written with leading zeros
in a given width and read back from that width.
-/

namespace EthereumSettlement.CivilDates

/-- The days before a year. -/
def daysBeforeYear (year : ℕ) : ℕ :=
  365 * year + (year + 3) / 4 + (year + 399) / 400 - (year + 99) / 100

/-- The year has a day more. -/
def isLeap (year : ℕ) : Bool := year % 4 = 0 ∧ (year % 100 ≠ 0 ∨ year % 400 = 0)

/-- The days of a year before a month, counted from zero. -/
def daysBeforeMonth (leap : Bool) (month : ℕ) : ℕ :=
  [0, 31, 59, 90, 120, 151, 181, 212, 243, 273, 304, 334].getD month 0 +
    if leap = true ∧ 2 ≤ month then 1 else 0

/-- A date of the Gregorian calendar. -/
structure CivilDate where
  /-- The year. -/
  year : ℕ
  /-- The month, from one. -/
  month : ℕ
  /-- The day of the month, from one. -/
  day : ℕ
  deriving DecidableEq

/-- The number of a date. -/
def CivilDate.toDays (date : CivilDate) : ℕ :=
  daysBeforeYear date.year + daysBeforeMonth (isLeap date.year) (date.month - 1) + (date.day - 1)

/-- The date of a number. -/
def CivilDate.ofDays (days : ℕ) : CivilDate :=
  let year := Nat.findGreatest (fun year => daysBeforeYear year ≤ days) 9999
  let rest := days - daysBeforeYear year
  let month := Nat.findGreatest (fun month => daysBeforeMonth (isLeap year) month ≤ rest) 11
  ⟨year, month + 1, rest - daysBeforeMonth (isLeap year) month + 1⟩

/-- The number of a date is recovered. -/
theorem CivilDate.toDays_ofDays (days : ℕ) : (CivilDate.ofDays days).toDays = days := by
  have hyear : daysBeforeYear (Nat.findGreatest (fun year => daysBeforeYear year ≤ days) 9999) ≤
      days :=
    Nat.findGreatest_spec (P := fun year => daysBeforeYear year ≤ days) (Nat.zero_le 9999)
      (Nat.zero_le days)
  simp only [CivilDate.ofDays, CivilDate.toDays, Nat.add_sub_cancel]
  generalize Nat.findGreatest (fun year => daysBeforeYear year ≤ days) 9999 = year at hyear ⊢
  have hstart : daysBeforeMonth (isLeap year) 0 ≤ days - daysBeforeYear year := by
    have hzero : daysBeforeMonth (isLeap year) 0 = 0 := by simp [daysBeforeMonth]
    omega
  have hmonth := Nat.findGreatest_spec
    (P := fun month => daysBeforeMonth (isLeap year) month ≤ days - daysBeforeYear year)
    (Nat.zero_le 11) hstart
  omega

/-- The last year and its last month that start no later leave fewer days than a month
has. -/
theorem CivilDate.ofDays_lt {days : ℕ} (h : days < daysBeforeYear 10000) :
    (CivilDate.ofDays days).year < 10000 ∧ (CivilDate.ofDays days).month < 100 ∧
      (CivilDate.ofDays days).day < 100 := by
  have hshort : ∀ leap : Bool, ∀ rest < 366,
      rest - daysBeforeMonth leap
        (Nat.findGreatest (fun month => daysBeforeMonth leap month ≤ rest) 11) + 1 < 100 := by
    decide +kernel
  have hlast := Nat.findGreatest_le (P := fun year => daysBeforeYear year ≤ days) 9999
  have hgreatest : days <
      daysBeforeYear (Nat.findGreatest (fun year => daysBeforeYear year ≤ days) 9999 + 1) := by
    by_cases hend : Nat.findGreatest (fun year => daysBeforeYear year ≤ days) 9999 = 9999
    · rw [hend]
      exact h
    · have hnext := Nat.findGreatest_is_greatest (P := fun year => daysBeforeYear year ≤ days)
        (Nat.lt_succ_self _) (by omega : _ + 1 ≤ 9999)
      exact Nat.lt_of_not_le hnext
  simp only [CivilDate.ofDays]
  generalize Nat.findGreatest (fun year => daysBeforeYear year ≤ days) 9999 = year at hlast hgreatest ⊢
  have hmonth := Nat.findGreatest_le
    (P := fun month => daysBeforeMonth (isLeap year) month ≤ days - daysBeforeYear year) 11
  have hrest : days - daysBeforeYear year < 366 ∨ days < daysBeforeYear year := by
    simp only [daysBeforeYear] at hgreatest ⊢
    omega
  refine ⟨by omega, by omega, ?_⟩
  rcases hrest with hrest | hrest
  · exact hshort (isLeap year) _ hrest
  · have hzero : days - daysBeforeYear year = 0 := by omega
    rw [hzero]
    exact hshort (isLeap year) 0 (by decide)

/-- The digits of a number in a given width. -/
def fixedDigits : ℕ → ℕ → List Char
  | 0, _ => []
  | width + 1, number => fixedDigits width (number / 10) ++ [Nat.digitChar (number % 10)]

/-- Read a number of a given width, and what follows it. -/
def readNumber (width : ℕ) (text : List Char) : Option (ℕ × List Char) :=
  if width ≤ text.length ∧ (text.take width).all Char.isDigit then
    some (Nat.ofDigitChars 10 (text.take width) 0, text.drop width)
  else none

/-- Read a character, and give what follows it. -/
def readChar (expected : Char) (text : List Char) : Option (List Char) :=
  if text.head? = some expected then some text.tail else none

/-- The width is the one that was asked for. -/
@[simp] theorem fixedDigits_length (width number : ℕ) :
    (fixedDigits width number).length = width := by
  induction width generalizing number with
  | zero => rfl
  | succ width ih => rw [fixedDigits, List.length_append, ih, List.length_singleton]

/-- Every character is a digit. -/
theorem fixedDigits_isDigit (width number : ℕ) :
    (fixedDigits width number).all Char.isDigit = true := by
  induction width generalizing number with
  | zero => rfl
  | succ width ih =>
    have hsmall : number % 10 < 10 := Nat.mod_lt _ (by decide)
    simp [fixedDigits, List.all_append, ih, Nat.isDigit_digitChar, hsmall]

/-- The digits have the value of the number, if the width suffices. -/
theorem ofDigitChars_fixedDigits {width number : ℕ} (h : number < 10 ^ width) :
    Nat.ofDigitChars 10 (fixedDigits width number) 0 = number := by
  induction width generalizing number with
  | zero =>
    rw [Nat.pow_zero] at h
    rw [fixedDigits, Nat.ofDigitChars_nil]
    omega
  | succ width ih =>
    rw [Nat.pow_succ] at h
    rw [fixedDigits, Nat.ofDigitChars_append, ih (by omega),
      Nat.ofDigitChars_cons_digitChar_of_lt_ten (Nat.mod_lt _ (by decide)), Nat.ofDigitChars_nil]
    omega

/-- A written number is read back. -/
theorem readNumber_fixedDigits {width number : ℕ} (h : number < 10 ^ width) (rest : List Char) :
    readNumber width (fixedDigits width number ++ rest) = some (number, rest) := by
  have htake : (fixedDigits width number ++ rest).take width = fixedDigits width number :=
    List.take_left' (fixedDigits_length width number)
  have hdrop : (fixedDigits width number ++ rest).drop width = rest :=
    List.drop_left' (fixedDigits_length width number)
  have hlong : width ≤ (fixedDigits width number ++ rest).length := by
    rw [List.length_append, fixedDigits_length]
    omega
  rw [readNumber, htake, hdrop, if_pos ⟨hlong, fixedDigits_isDigit width number⟩,
    ofDigitChars_fixedDigits h]

/-- A written character is read back. -/
@[simp] theorem readChar_cons (expected : Char) (rest : List Char) :
    readChar expected (expected :: rest) = some rest := by
  rw [readChar, List.head?_cons, if_pos rfl, List.tail_cons]

end EthereumSettlement.CivilDates
