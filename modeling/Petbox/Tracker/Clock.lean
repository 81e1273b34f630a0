/-
Days and dates of the tracker: the weekday of a date (`btlink_protocol_util.c`), and
the wall clock (`rtc.c`), which goes from the system tick to a date by
`timestamp_to_date` (`utils_timer.c`) and back by `mktime`.
-/
import Petbox.Lib.Calendar
import Mathlib.Tactic.IntervalCases

namespace Petbox.Tracker

open Calendar

/-! ## The weekday of a date -/

/-- `btlink_applib_dt_dow`. -/
def applibDtDow (y : UInt16) (m d : UInt8) : UInt8 :=
  let (m, y) : UInt8 × UInt16 := if m < 3 then (m + 13, y - 1) else (m + 1, y)
  ((d.toNat + 26 * m.toNat / 10 + y.toNat + y.toNat / 4 - y.toNat / 100 + y.toNat / 400 + 6) % 7).toUInt8

/-- The weekday of a date. -/
def dow (date : Date) : UInt8 := applibDtDow date.year.toUInt16 date.month.toUInt8 date.day.toUInt8

theorem monthLength_le (year month : Nat) : monthLength year month ≤ 31 := by
  unfold monthLength
  split_ifs <;> omega

/-- What the formula makes of a month from March on, as of the next month. -/
def dowSum (year month day : Nat) : Nat :=
  day + 26 * month / 10 + year + year / 4 - year / 100 + year / 400 + 6

theorem applibDtDow_toNat (y : UInt16) {m : UInt8} (d : UInt8) (hy : 1 ≤ y.toNat) (hm : m.toNat ≤ 12) :
    (applibDtDow y m d).toNat =
      (if m.toNat < 3 then dowSum (y.toNat - 1) (m.toNat + 13) d.toNat
      else dowSum y.toNat (m.toNat + 1) d.toNat) % 7 := by
  have hthree : m < 3 ↔ m.toNat < 3 := UInt8.lt_iff_toNat_lt
  have hsub : (y - 1).toNat = y.toNat - 1 := UInt16.toNat_sub_of_le _ _ (UInt16.le_iff_toNat_le.2 hy)
  have hlate : (m + 13).toNat = m.toNat + 13 := by
    rw [UInt8.toNat_add]
    exact Nat.mod_eq_of_lt (by have : (13 : UInt8).toNat = 13 := rfl; omega)
  have hnext : (m + 1).toNat = m.toNat + 1 := by
    rw [UInt8.toNat_add]
    exact Nat.mod_eq_of_lt (by have : (1 : UInt8).toNat = 1 := rfl; omega)
  have hbyte (n : Nat) : (n % 7).toUInt8.toNat = n % 7 := by
    rw [Nat.toUInt8, UInt8.toNat_ofNat']
    omega
  unfold applibDtDow
  by_cases hlt : m.toNat < 3
  · simp only [hthree.2 hlt, hlt, if_true, hbyte, hsub, hlate, dowSum]
  · simp only [mt hthree.1 hlt, hlt, if_false, hbyte, hnext, dowSum]

/-- From March on the formula is that of the end of the year. -/
theorem daysBeforeMonth_late {year month : Nat} (hlow : 3 ≤ month) (hhigh : month ≤ 12) :
    (daysBeforeMonth year month + 1) % 7 = (yearLength year + 26 * (month + 1) / 10) % 7 := by
  by_cases hleap : IsLeap year
  · interval_cases month <;> simp [daysBeforeMonth, monthLength, yearLength, hleap]
  · interval_cases month <;> simp [daysBeforeMonth, monthLength, yearLength, hleap]

/-- January and February have the formula of the end of the year before. -/
theorem daysBeforeMonth_early {year month : Nat} (hlow : 1 ≤ month) (hhigh : month < 3) :
    (daysBeforeMonth year month + 1) % 7 = (0 + 26 * (month + 13) / 10) % 7 := by
  interval_cases month <;> simp [daysBeforeMonth, monthLength]

/-- The sum counts the days, for the days `n` in front of the year, `rest` from there to the end
of the year of the formula, and `b` in front of the month. -/
theorem dowSum_eq {year month day n b rest : Nat} (hday : 1 ≤ day)
    (hyear : n + rest + year / 100 = 365 * year + year / 4 + year / 400)
    (hb : (b + 1) % 7 = (rest + 26 * month / 10) % 7) : dowSum year month day % 7 = (n + b + (day - 1) + 1) % 7 := by
  have hle : year / 100 ≤ year := Nat.div_le_self ..
  unfold dowSum
  generalize year / 100 = hundreds at *
  generalize year / 4 = fours at *
  generalize year / 400 = fourHundreds at *
  generalize 26 * month / 10 = months at *
  omega

/-- The weekday counts the days, from a Monday on. -/
theorem dow_number {date : Date} (hlow : 1 ≤ date.year) (hhigh : date.year ≤ 65535) :
    (dow date).toNat = (date.number + 1) % 7 := by
  have hday := Nat.le_trans date.day_le (monthLength_le ..)
  have hpos := date.day_pos
  have hmonth := date.month_le
  have hy : date.year.toUInt16.toNat = date.year := by
    rw [Nat.toUInt16, UInt16.toNat_ofNat']
    omega
  have hm : date.month.toUInt8.toNat = date.month := by
    rw [Nat.toUInt8, UInt8.toNat_ofNat']
    omega
  have hd : date.day.toUInt8.toNat = date.day := by
    rw [Nat.toUInt8, UInt8.toNat_ofNat']
    omega
  rw [dow, applibDtDow_toNat _ _ (by omega) (by omega), hy, hm, hd]
  by_cases hearly : date.month < 3
  · have hyear := daysBeforeYear_eq (date.year - 1)
    rw [Nat.sub_add_cancel hlow] at hyear
    rw [if_pos hearly]
    exact dowSum_eq hpos hyear (daysBeforeMonth_early date.month_pos hearly)
  · have hyear := daysBeforeYear_eq date.year
    rw [daysBeforeYear_succ hlow] at hyear
    rw [if_neg hearly]
    exact dowSum_eq hpos hyear (daysBeforeMonth_late (Nat.le_of_not_lt hearly) hmonth)

theorem next_year_le (date : Date) : date.next.year ≤ date.year + 1 := by
  unfold Date.next
  split
  · exact Nat.le_succ _
  · split
    · exact Nat.le_succ _
    · exact Nat.le_refl _

theorem next_year_ge (date : Date) : date.year ≤ date.next.year := by
  unfold Date.next
  split
  · exact Nat.le_refl _
  · split
    · exact Nat.le_refl _
    · exact Nat.le_succ _

/-- **The next day has the next weekday.** -/
theorem dow_next (date : Date) (hlow : 1 ≤ date.year) (hhigh : date.year ≤ 65534) :
    dow date.next = (dow date + 1) % 7 := by
  have hle := next_year_le date
  have hge := next_year_ge date
  have hnext : (dow date.next).toNat = _ := dow_number (by omega) (by omega)
  rw [Date.number_next hlow] at hnext
  have hthis := dow_number hlow (show date.year ≤ 65535 by omega)
  apply UInt8.toNat_inj.1
  rw [hnext, UInt8.toNat_mod, UInt8.toNat_add, hthis]
  change _ = ((date.number + 1) % 7 + 1) % 256 % 7
  omega

/-- The last of February of the year 2100, which is no leap year. -/
def lastOfFebruary : Date := ⟨2100, 2, 28, by decide, by decide, by decide, by decide⟩

theorem dow_next_march : lastOfFebruary.next.month = 3 ∧ dow lastOfFebruary.next = (dow lastOfFebruary + 1) % 7 :=
  ⟨by decide, dow_next lastOfFebruary (by decide) (by decide)⟩

/-! ## The wall clock -/

/-- `sg_day_num`. -/
def sgDayNum : List Nat := [31, 28, 31, 30, 31, 30, 31, 31, 30, 31, 30, 31]

/-- The month loop of `timestamp_to_date`, from a month on. -/
def monthLoop : List Nat → (monthIndex dayNum : Nat) → Nat × Nat
  | [], monthIndex, dayNum => (monthIndex, dayNum)
  | length :: lengths, monthIndex, dayNum =>
    if length < dayNum then monthLoop lengths (monthIndex + 1) (dayNum - length) else (monthIndex, dayNum)

/-- `RTC_DATE_TIME`. -/
structure RtcDateTime where
  year : Nat
  month : Nat
  day : Nat
  hour : Nat
  minute : Nat
  sec : Nat
  deriving DecidableEq, Repr

/-- `timestamp_to_date` from the number of the day on: the year, the month and the day. -/
def dateOfDay (dayNum : Nat) : Nat × Nat × Nat :=
  let leapNum := (dayNum + 365) / 1461
  if (dayNum + 366) % 1461 = 0 then (dayNum / 366 + 1970, 12, 31)
  else
    let year := (dayNum - leapNum) / 365 + 1970
    let dayNum := (dayNum - leapNum) % 365 + 1
    if year % 4 = 0 ∧ dayNum = 60 then (year, 2, 29)
    else
      let dayNum := if year % 4 = 0 ∧ dayNum > 60 then dayNum - 1 else dayNum
      (year, (monthLoop sgDayNum 0 dayNum).1 + 1, (monthLoop sgDayNum 0 dayNum).2)

/-- `timestamp_to_date`. -/
def timestampToDate (timestampSec : UInt32) (timeZone : Int8) : RtcDateTime :=
  let minutes := timestampSec / 60
  let hours := (minutes + UInt32.ofInt timeZone.toInt * 60) / 60
  let (year, month, day) := dateOfDay (hours / 24).toNat
  { year, month, day, hour := (hours % 24).toNat, minute := (minutes % 60).toNat, sec := (timestampSec % 60).toNat }

/-- `rtc_timestamp` behind `set_local_timestamp`. -/
def setLocalTimestamp (timestamp sysTick : UInt32) : UInt32 := timestamp - sysTick / 100

/-- `get_local_timestamp`. -/
def getLocalTimestamp (rtcTimestamp sysTick : UInt32) : UInt32 := rtcTimestamp + sysTick / 100

/-- What is written of `struct tm`, for `mktime`. -/
structure StructTm where
  hour : Int
  min : Int
  sec : Int
  mon : Int
  mday : Int
  year : Int

/-- `mktime`: the seconds from the start of 1970 to the date of the calendar; fields out
of their range go on into the next ones. -/
def mktime (ts : StructTm) : Int :=
  let year := (1900 + ts.year + ts.mon / 12).toNat
  let month := (ts.mon % 12 + 1).toNat
  let days : Int := daysBeforeYear year + daysBeforeMonth year month + (ts.mday - 1) - daysBeforeYear 1970
  ((days * 24 + ts.hour) * 60 + ts.min) * 60 + ts.sec

/-- `time`. -/
def time (rtcTimestamp sysTick : UInt32) : Int :=
  let date := timestampToDate (getLocalTimestamp rtcTimestamp sysTick) 8
  mktime
    { hour := date.hour, min := date.minute, sec := date.sec, mon := date.month - 1, mday := date.day - 1,
      year := date.year - 1900 }

/-! ## The date of a day -/

/-- The days of a common year in front of a month. -/
def commonDays (month : Nat) : Nat := (sgDayNum.take (month - 1)).sum

/-- The day that `timestamp_to_date` puts into every fourth year. -/
def fourthDay (year month : Nat) : Nat := if year % 4 = 0 ∧ 2 < month then 1 else 0

theorem monthLoop_spec {lengths : List Nat} {i day : Nat} (hpos : 1 ≤ day) (hle : day ≤ lengths.sum) :
    ∃ k, (monthLoop lengths i day).1 = i + k ∧ k < lengths.length ∧ 1 ≤ (monthLoop lengths i day).2 ∧
      (monthLoop lengths i day).2 ≤ lengths.getD k 0 ∧ (lengths.take k).sum + (monthLoop lengths i day).2 = day := by
  induction lengths generalizing i day with
  | nil =>
    simp at hle
    omega
  | cons length lengths ih =>
    by_cases hlt : length < day
    · rw [List.sum_cons] at hle
      obtain ⟨k, hindex, hk, hday, hmax, hsum⟩ := @ih (i + 1) (day - length) (by omega) (by omega)
      rw [monthLoop, if_pos hlt]
      refine ⟨k + 1, ?_, ?_, hday, hmax, ?_⟩
      · omega
      · simpa using hk
      · rw [List.take_succ_cons, List.sum_cons]
        omega
    · rw [monthLoop, if_neg hlt]
      exact ⟨0, by simp, by simp, hpos, by simpa using hlt, by simp⟩

/-- The date of a day, with a leap day in every fourth year. -/
structure FourthCalendar (n : Nat) (date : Nat × Nat × Nat) : Prop where
  year_ge : 1970 ≤ date.1
  year_le : date.1 ≤ n / 365 + 1970
  month_pos : 1 ≤ date.2.1
  month_le : date.2.1 ≤ 12
  day_pos : 1 ≤ date.2.2
  number : n + 1 =
    365 * (date.1 - 1970) + (date.1 - 1969) / 4 + commonDays date.2.1 + fourthDay date.1 date.2.1 + date.2.2

/-- The date of a day of the year, counted from 1. -/
theorem FourthCalendar.ofDay {n year day : Nat} (hge : 1970 ≤ year) (hle : year ≤ n / 365 + 1970) (hpos : 1 ≤ day)
    (hday : day ≤ 365)
    (hn : n + 1 = 365 * (year - 1970) + (year - 1969) / 4 + day + if year % 4 = 0 ∧ 59 < day then 1 else 0) :
    FourthCalendar n (year, (monthLoop sgDayNum 0 day).1 + 1, (monthLoop sgDayNum 0 day).2) := by
  obtain ⟨k, hindex, hk, hday, hmax, hsum⟩ := @monthLoop_spec sgDayNum 0 day hpos hday
  rw [Nat.zero_add] at hindex
  have hlate : 2 < k + 1 ↔ 59 < day := by
    have htwo : ∀ k < 12, k < 2 ∧ (sgDayNum.take k).sum + sgDayNum.getD k 0 ≤ 59 ∨
        2 ≤ k ∧ 59 ≤ (sgDayNum.take k).sum := by decide
    rcases htwo k hk with hsmall | hlarge <;> omega
  exact {
    year_ge := hge
    year_le := hle
    month_pos := Nat.le_add_left ..
    month_le := by rw [hindex]; exact hk
    day_pos := hday
    number := by
      simp only [hindex, commonDays, Nat.add_sub_cancel, fourthDay, hlate]
      omega }

theorem dateOfDay_fourth {n : Nat} (h : n ≤ 100000) : FourthCalendar n (dateOfDay n) := by
  unfold dateOfDay
  by_cases hlast : (n + 366) % 1461 = 0
  · rw [if_pos hlast]
    -- the last day of a leap year, in which the division by 365 is one year off
    obtain ⟨cycle, hcycle⟩ : ∃ cycle, n = 1461 * cycle + 1095 := ⟨(n + 366) / 1461 - 1, by omega⟩
    have hyear : n / 366 = 4 * cycle + 2 := by omega
    have hmonth : commonDays 12 = 334 := by decide
    have hleap : fourthDay (4 * cycle + 2 + 1970) 12 = 1 := if_pos ⟨by omega, by decide⟩
    rw [hyear]
    exact ⟨Nat.le_add_left .., by simp only; omega, by simp, by simp, by simp, by simp only [hmonth, hleap]; omega⟩
  · simp only [if_neg hlast]
    have hleap : (n + 365) / 1461 = ((n - (n + 365) / 1461) / 365 + 1) / 4 := by omega
    generalize (n + 365) / 1461 = leapNum at *
    obtain ⟨year, day, hday, hsplit⟩ : ∃ year day, day < 365 ∧ n - leapNum = 365 * year + day :=
      ⟨(n - leapNum) / 365, (n - leapNum) % 365, by omega, by omega⟩
    have hdiv : (n - leapNum) / 365 = year := by omega
    have hmod : (n - leapNum) % 365 = day := by omega
    rw [hdiv] at hleap
    rw [hdiv, hmod]
    by_cases hextra : (year + 1970) % 4 = 0 ∧ day + 1 = 60
    · rw [if_pos hextra]
      have hmonth : commonDays 2 = 31 := by decide
      have hnone : fourthDay (year + 1970) 2 = 0 := if_neg fun h => absurd h.2 (by decide)
      exact ⟨Nat.le_add_left .., by simp only; omega, by simp, by simp, by simp, by simp only [hmonth, hnone]; omega⟩
    · rw [if_neg hextra]
      by_cases hlate : (year + 1970) % 4 = 0 ∧ day + 1 > 60
      · rw [if_pos hlate]
        refine .ofDay (Nat.le_add_left ..) (by omega) (by omega) (by omega) ?_
        rw [if_pos ⟨hlate.1, by omega⟩]
        omega
      · rw [if_neg hlate]
        refine .ofDay (Nat.le_add_left ..) (by omega) (by omega) (by omega) ?_
        rw [if_neg (by omega)]
        omega

/-! ## The calendar and the clock -/

/-- A date with a leap day in every fourth year, in the Gregorian calendar: the days from
March 2100 on are one less. -/
theorem daysBefore_fourth {year month : Nat} (hge : 1970 ≤ year) (hle : year < 2200) (hpos : 1 ≤ month)
    (hmonth : month ≤ 12) :
    daysBeforeYear year + daysBeforeMonth year month + (if 2100 < year ∨ year = 2100 ∧ 2 < month then 1 else 0) =
      daysBeforeYear 1970 + 365 * (year - 1970) + (year - 1969) / 4 + commonDays month + fourthDay year month := by
  have hyear := daysBeforeYear_eq (year - 1)
  rw [Nat.sub_add_cancel (by omega)] at hyear
  have hstart : daysBeforeYear 1970 + 19 = 365 * 1969 + 492 + 4 := daysBeforeYear_eq 1969
  have hleap : IsLeap year ↔ year % 4 = 0 ∧ year ≠ 2100 := by
    unfold IsLeap
    omega
  have hbefore : daysBeforeMonth year month = commonDays month + if IsLeap year ∧ 2 < month then 1 else 0 := by
    by_cases h : IsLeap year
    · interval_cases month <;> simp [daysBeforeMonth, monthLength, commonDays, sgDayNum, h]
    · interval_cases month <;> simp [daysBeforeMonth, monthLength, commonDays, sgDayNum, h]
  have hdays : daysBeforeYear year + (if 2100 < year then 1 else 0) =
      daysBeforeYear 1970 + 365 * (year - 1970) + (year - 1969) / 4 := by
    split_ifs <;> omega
  have hextra : (if IsLeap year ∧ 2 < month then 1 else 0) + (if year = 2100 ∧ 2 < month then 1 else 0) =
      fourthDay year month := by
    simp only [hleap, fourthDay]
    split_ifs <;> omega
  have hboth : (if 2100 < year ∨ year = 2100 ∧ 2 < month then 1 else 0) =
      (if 2100 < year then 1 else 0) + (if year = 2100 ∧ 2 < month then 1 else 0) := by
    split_ifs <;> omega
  rw [hbefore, hboth]
  omega

/-- The date of a timestamp, eight hours east. -/
theorem timestampToDate_eq (now : UInt32) :
    let hours := (now.toNat / 60 + 480) / 60
    timestampToDate now 8 =
      { year := (dateOfDay (hours / 24)).1, month := (dateOfDay (hours / 24)).2.1, day := (dateOfDay (hours / 24)).2.2,
        hour := hours % 24, minute := now.toNat / 60 % 60, sec := now.toNat % 60 } := by
  have hlt := now.toNat_lt
  have hzone : UInt32.ofInt (8 : Int8).toInt * 60 = 480 := by decide
  have hlocal : (now / 60 + 480).toNat = now.toNat / 60 + 480 := by
    rw [UInt32.toNat_add, UInt32.toNat_div]
    change (now.toNat / 60 + 480) % 4294967296 = _
    omega
  simp only [timestampToDate, hzone, UInt32.toNat_div, UInt32.toNat_mod, hlocal]
  rfl

/-- `mktime` of a date with a leap day in every fourth year. -/
theorem mktime_fourth {n : Nat} {date : Nat × Nat × Nat} (h : FourthCalendar n date) (hn : n < 83000)
    (hour minute sec : Nat) :
    ∃ days : Nat, (days = 1 ∨ days = 2) ∧
      mktime ⟨hour, minute, sec, date.2.1 - 1, date.2.2 - 1, date.1 - 1900⟩ =
        (((n : Int) - days) * 24 + hour) * 3600 + minute * 60 + sec := by
  obtain ⟨year, month, day⟩ := date
  obtain ⟨hge, hle, hpos, hmonth, hday, hnumber⟩ := h
  simp only at hge hle hpos hmonth hday hnumber
  have hbefore := daysBefore_fourth hge (by omega) hpos hmonth
  have hyear : (1900 + ((year : Int) - 1900) + ((month : Int) - 1) / 12).toNat = year := by omega
  have hmon : (((month : Int) - 1) % 12 + 1).toNat = month := by omega
  simp only [mktime, hyear, hmon]
  split_ifs at hbefore
  · exact ⟨2, .inr rfl, by omega⟩
  · exact ⟨1, .inl rfl, by omega⟩

/-- The clock shows the local time of a day or two before. -/
theorem time_eq (rtcTimestamp sysTick : UInt32) :
    ∃ days : Nat, (days = 1 ∨ days = 2) ∧
      time rtcTimestamp sysTick = (getLocalTimestamp rtcTimestamp sysTick).toNat + 28800 - 86400 * days := by
  unfold time
  generalize getLocalTimestamp rtcTimestamp sysTick = now
  have hlt := now.toNat_lt
  rw [timestampToDate_eq]
  have hn : (now.toNat / 60 + 480) / 60 / 24 < 83000 := by omega
  obtain ⟨days, hdays, htime⟩ := mktime_fourth (dateOfDay_fourth (Nat.le_of_lt (Nat.lt_trans hn (by decide)))) hn
    ((now.toNat / 60 + 480) / 60 % 24) (now.toNat / 60 % 60) (now.toNat % 60)
  refine ⟨days, hdays, htime.trans ?_⟩
  omega

/-! ## What the clock shows -/

/-- `os_sys_tick_get`, so many ticks of a hundredth of a second after the start. -/
def osSysTick (ticks : Nat) : UInt32 := UInt32.ofNat ticks

/-- The clock was set at a moment, and shows the local time some ticks later, to within one
second. -/
def ShowsLocalTime (timestamp : UInt32) (ticks elapsed : Nat) : Prop :=
  let shown := time (setLocalTimestamp timestamp (osSysTick ticks)) (osSysTick (ticks + elapsed))
  let due : Int := timestamp.toNat + elapsed / 100 + 8 * 3600
  due - 1 ≤ shown ∧ shown ≤ due + 1

/-- The timestamp goes with the tick, but for the rounding (`rest`, in ticks), the wraps of
the tick and those of the timestamp. -/
theorem getLocalTimestamp_eq (timestamp : UInt32) (ticks elapsed : Nat) :
    ∃ wraps rest : Int, -99 ≤ rest ∧ rest ≤ 198 ∧
      100 * ((getLocalTimestamp (setLocalTimestamp timestamp (osSysTick ticks))
        (osSysTick (ticks + elapsed))).toNat : Int) =
        100 * (timestamp.toNat + elapsed / 100) + 4294967296 * wraps + rest := by
  have htick (n : Nat) : (osSysTick n / 100).toNat = n % 4294967296 / 100 := by
    rw [UInt32.toNat_div, osSysTick, UInt32.toNat_ofNat']
    rfl
  have hset := UInt32.toNat_sub timestamp (osSysTick ticks / 100)
  have hget := UInt32.toNat_add (timestamp - osSysTick ticks / 100) (osSysTick (ticks + elapsed) / 100)
  rw [hset, htick, htick] at hget
  have hlt := timestamp.toNat_lt
  unfold getLocalTimestamp setLocalTimestamp
  generalize (timestamp - osSysTick ticks / 100 + osSysTick (ticks + elapsed) / 100).toNat = now at *
  generalize timestamp.toNat = start at *
  -- the two readings of the tick, and how often it has wrapped
  obtain ⟨wraps, tick, htick, hsplit⟩ : ∃ wraps tick, tick = ticks % 4294967296 ∧ ticks = 4294967296 * wraps + tick :=
    ⟨ticks / 4294967296, _, rfl, by omega⟩
  obtain ⟨wraps', tick', htick', hsplit'⟩ :
      ∃ wraps tick, tick = (ticks + elapsed) % 4294967296 ∧ ticks + elapsed = 4294967296 * wraps + tick :=
    ⟨(ticks + elapsed) / 4294967296, _, rfl, by omega⟩
  rw [← htick, ← htick'] at hget
  obtain ⟨turns, hturns⟩ : ∃ turns : Int, (now : Int) = start - tick / 100 + tick' / 100 + 4294967296 * turns := by
    change now = ((4294967296 - tick / 100 + start) % 4294967296 + tick' / 100) % 4294967296 at hget
    exact ⟨(now - (start - tick / 100 + tick' / 100)) / 4294967296, by omega⟩
  refine ⟨wraps - wraps' + 100 * turns, tick % 100 - tick' % 100 + elapsed % 100, ?_, ?_, ?_⟩ <;> omega

/-- **The clock never shows the local time.** -/
theorem not_showsLocalTime (timestamp : UInt32) (ticks elapsed : Nat) : ¬ ShowsLocalTime timestamp ticks elapsed := by
  obtain ⟨wraps, rest, hlow, hhigh, hnow⟩ := getLocalTimestamp_eq timestamp ticks elapsed
  obtain ⟨days, hdays, hshown⟩ :=
    time_eq (setLocalTimestamp timestamp (osSysTick ticks)) (osSysTick (ticks + elapsed))
  rintro ⟨hearly, hlate⟩
  rw [hshown] at hearly hlate
  -- a wrap of the tick is more than any number of days here
  have hwraps : wraps < 0 ∨ wraps = 0 ∨ 0 < wraps := lt_trichotomy wraps 0
  rcases hdays with rfl | rfl <;> omega

/-- Right behind the set it is a day behind. -/
theorem clock_a_day_behind :
    time (setLocalTimestamp 1631515431 0) 0 = 1631515431 + 8 * 3600 - 86400 ∧ ¬ ShowsLocalTime 1631515431 0 0 := by
  have hshown : time (setLocalTimestamp 1631515431 0) 0 = 1631515431 + 8 * 3600 - 86400 := by decide +kernel
  refine ⟨hshown, fun h => ?_⟩
  have hlow := h.1
  change _ ≤ time (setLocalTimestamp 1631515431 0) 0 at hlow
  rw [hshown] at hlow
  exact absurd hlow (by decide)

end Petbox.Tracker
