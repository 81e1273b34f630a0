/-
The Gregorian calendar from the year 1 on: leap years, the lengths of the months,
the next day, and the number of a day, which the next day has one higher.
-/
import Mathlib.Tactic.Common

namespace Calendar

/-- A leap year. -/
def IsLeap (year : Nat) : Prop := year % 4 = 0 ∧ (year % 100 ≠ 0 ∨ year % 400 = 0)

instance (year : Nat) : Decidable (IsLeap year) := instDecidableAnd

/-- The days of a month. -/
def monthLength (year month : Nat) : Nat :=
  if month = 2 then (if IsLeap year then 29 else 28)
  else if month = 4 ∨ month = 6 ∨ month = 9 ∨ month = 11 then 30 else 31

/-- The days of a year in front of a month. -/
def daysBeforeMonth (year : Nat) : Nat → Nat
  | 0 | 1 => 0
  | month + 2 => daysBeforeMonth year (month + 1) + monthLength year (month + 1)

/-- The days of a year. -/
def yearLength (year : Nat) : Nat := if IsLeap year then 366 else 365

/-- The days in front of a year. -/
def daysBeforeYear : Nat → Nat
  | 0 | 1 => 0
  | year + 2 => daysBeforeYear (year + 1) + yearLength (year + 1)

theorem daysBeforeMonth_succ {year month : Nat} (h : 1 ≤ month) :
    daysBeforeMonth year (month + 1) = daysBeforeMonth year month + monthLength year month := by
  cases month with
  | zero => omega
  | succ month => rfl

theorem daysBeforeYear_succ {year : Nat} (h : 1 ≤ year) :
    daysBeforeYear (year + 1) = daysBeforeYear year + yearLength year := by
  cases year with
  | zero => omega
  | succ year => rfl

/-- The months make up the year. -/
theorem daysBeforeMonth_thirteen (year : Nat) : daysBeforeMonth year 13 = yearLength year := by
  by_cases h : IsLeap year
  · simp [daysBeforeMonth, monthLength, yearLength, h]
  · simp [daysBeforeMonth, monthLength, yearLength, h]

theorem isLeap_iff {year : Nat} : IsLeap year ↔ 4 ∣ year ∧ (¬ 100 ∣ year ∨ 400 ∣ year) := by
  simp only [IsLeap, Nat.dvd_iff_mod_eq_zero, ne_eq]

/-- Every fourth year has a day more, without the hundredths but with the four hundredths. -/
theorem daysBeforeYear_eq (year : Nat) :
    daysBeforeYear (year + 1) + year / 100 = 365 * year + year / 4 + year / 400 := by
  induction year with
  | zero => rfl
  | succ year ih =>
    rw [daysBeforeYear_succ (by omega), Nat.succ_div, Nat.succ_div, Nat.succ_div]
    simp only [yearLength, isLeap_iff]
    have hhundred : 100 ∣ year + 1 → 4 ∣ year + 1 := Nat.dvd_trans ⟨25, rfl⟩
    have hfourHundred : 400 ∣ year + 1 → 100 ∣ year + 1 := Nat.dvd_trans ⟨4, rfl⟩
    -- the four numbers are known but for what the new year adds to them
    generalize year / 100 = hundreds at *
    generalize year / 4 = fours at *
    generalize year / 400 = fourHundreds at *
    split_ifs <;> omega

/-! ## Dates -/

/-- A date of the calendar. -/
structure Date where
  year : Nat
  month : Nat
  day : Nat
  month_pos : 1 ≤ month
  month_le : month ≤ 12
  day_pos : 1 ≤ day
  day_le : day ≤ monthLength year month

theorem monthLength_pos (year month : Nat) : 1 ≤ monthLength year month := by
  unfold monthLength
  split_ifs <;> omega

/-- The next day. -/
def Date.next (d : Date) : Date :=
  if hday : d.day < monthLength d.year d.month then
    { d with day := d.day + 1, day_pos := by omega, day_le := hday }
  else if hmonth : d.month < 12 then
    { year := d.year, month := d.month + 1, day := 1, month_pos := by omega, month_le := hmonth,
      day_pos := Nat.le_refl 1, day_le := monthLength_pos .. }
  else
    { year := d.year + 1, month := 1, day := 1, month_pos := Nat.le_refl 1, month_le := by decide,
      day_pos := Nat.le_refl 1, day_le := monthLength_pos .. }

/-- How many days there are in front of a date. -/
def Date.number (d : Date) : Nat := daysBeforeYear d.year + daysBeforeMonth d.year d.month + (d.day - 1)

theorem Date.number_next {d : Date} (h : 1 ≤ d.year) : d.next.number = d.number + 1 := by
  have hpos := d.day_pos
  have hle := d.day_le
  unfold Date.next
  split
  · next hday =>
    simp only [Date.number]
    omega
  · next hday =>
    split
    · next hmonth =>
      simp only [Date.number, daysBeforeMonth_succ d.month_pos]
      omega
    · next hmonth =>
      have hdec : d.month = 12 := by
        have := d.month_le
        omega
      have hyear := daysBeforeMonth_thirteen d.year
      rw [daysBeforeMonth_succ (by decide)] at hyear
      rw [hdec] at hday hle
      have hnew : daysBeforeMonth (d.year + 1) 1 = 0 := rfl
      simp only [Date.number, daysBeforeYear_succ h, hdec, hnew]
      omega

end Calendar
