/-
The creation of an alarm (`hal/alarm.c`): when it is to expire, and what
becomes of the table.

`get_expiry_time` adds the day of the month to the days of the interval. The
period in milliseconds is an `int`, which ends after 24 days.
`alarm_create` fills the slot before the steps that can fail, and has nothing
but 0 to return when there is no slot.
-/
import Petbox.Tracker.Alarm

namespace Petbox.Tracker

open Mem Machine

/-! ## Expiry -/

/-- A time of day, in minutes. -/
def minuteOfDay (hour min : Int) : Int := hour * 60 + min

/-- What `localtime_r` gives. -/
structure Tm.Valid (now : Tm) : Prop where
  min : 0 ≤ now.tmMin ∧ now.tmMin < 60
  hour : 0 ≤ now.tmHour ∧ now.tmHour < 24
  mday : 1 ≤ now.tmMday ∧ now.tmMday ≤ 31

/-- The settings of an alarm: `hour[0~23], min[0~59], day_interval[1~31]`. -/
structure CronTm.Valid (tm : CronTm) : Prop where
  min : tm.min.toNat < 60
  hour : tm.hour.toNat < 24
  dayInterval : 1 ≤ tm.dayInterval.toNat ∧ tm.dayInterval.toNat ≤ 31

/-- A number of minutes after which the alarm is due: none too many, and the
right time of day at the end. -/
structure Due (tm : CronTm) (now : Tm) (e : Int) : Prop where
  pos : 0 < e
  le : e ≤ tm.dayInterval.toNat * 1440
  time : (minuteOfDay now.tmHour now.tmMin + e) % 1440 = minuteOfDay tm.hour.toNat tm.min.toNat

variable {H : Type*} {alarm : AlarmItem H} {now : Tm}

/-- The minutes to the alarm's time of day, which may be over, and the days: those
of the interval after the first, a day for a time that is over, and the day of
the month. -/
theorem getExpiryTime_cases (h : alarm.cronTm.hour.toNat < 24) (now : Tm) :
    ∃ d, d = minuteOfDay alarm.cronTm.hour.toNat alarm.cronTm.min.toNat - minuteOfDay now.tmHour now.tmMin ∧
      (0 ≤ d ∧ getExpiryTime alarm now = d + (now.tmMday + alarm.cronTm.dayInterval.toNat - 1) * 1440 ∨
        d < 0 ∧ getExpiryTime alarm now = d + (now.tmMday + alarm.cronTm.dayInterval.toNat) * 1440) := by
  refine ⟨_, rfl, ?_⟩
  simp only [getExpiryTime, if_pos h, minuteOfDay]
  by_cases hover : (alarm.cronTm.min.toNat : Int) - now.tmMin + 60 * (alarm.cronTm.hour.toNat - now.tmHour) < 0
  · rw [if_pos hover]
    exact .inr ⟨by omega, by omega⟩
  · rw [if_neg hover]
    exact .inl ⟨by omega, by omega⟩

/-- The alarm has the right time of day, and expires later than now. -/
theorem getExpiryTime_time (h : alarm.cronTm.Valid) (hnow : now.Valid) :
    0 < getExpiryTime alarm now ∧ (minuteOfDay now.tmHour now.tmMin + getExpiryTime alarm now) % 1440 =
      minuteOfDay alarm.cronTm.hour.toNat alarm.cronTm.min.toNat := by
  obtain ⟨hmin, hhour, hmday⟩ := hnow
  have hamin := h.min
  have hahour := h.hour
  have hint := h.dayInterval
  obtain ⟨d, hd, ⟨h0, heq⟩ | ⟨h0, heq⟩⟩ := getExpiryTime_cases h.hour now <;> rw [heq] <;>
    simp only [minuteOfDay] at hd ⊢ <;> omega

/-- **The expiry time is right exactly on the first of a month, at the very
minute of the alarm.** -/
theorem expiry_due_iff (h : alarm.cronTm.Valid) (hnow : now.Valid) :
    Due alarm.cronTm now (getExpiryTime alarm now) ↔
      now.tmMday = 1 ∧ now.tmHour = alarm.cronTm.hour.toNat ∧ now.tmMin = alarm.cronTm.min.toNat := by
  obtain ⟨hpos, htime⟩ := getExpiryTime_time h hnow
  obtain ⟨hmin, hhour, hmday⟩ := hnow
  have hamin := h.min
  have hahour := h.hour
  obtain ⟨d, hd, hcases⟩ := getExpiryTime_cases h.hour now
  simp only [minuteOfDay] at hd
  constructor
  · intro hdue
    have hle := hdue.le
    omega
  · intro hnow
    exact ⟨hpos, by omega, htime⟩

theorem expiry_due_iff_first :
    Due ⟨30, 8, 2⟩ ⟨30, 8, 1⟩
        (getExpiryTime { (AlarmItem.unused : AlarmItem Nat) with cronTm := ⟨30, 8, 2⟩ } ⟨30, 8, 1⟩) ↔
      (1 : Int) = 1 ∧ (8 : Int) = 8 ∧ (30 : Int) = 30 :=
  @expiry_due_iff Nat { AlarmItem.unused with cronTm := ⟨30, 8, 2⟩ } ⟨30, 8, 1⟩
    ⟨by decide, by decide, by decide⟩ ⟨by decide, by decide, by decide⟩

/-- At eight on the second of the month an alarm for nine, every day, is set to
49 hours. -/
theorem alarm_two_days_late :
    ¬ Due ⟨0, 9, 1⟩ ⟨0, 8, 2⟩
        (getExpiryTime { (AlarmItem.unused : AlarmItem Nat) with cronTm := ⟨0, 9, 1⟩ } ⟨0, 8, 2⟩) := by
  intro h
  exact absurd h.le (by decide)

/-! ## Creation -/

/-- Exactly one unused slot is filled with the time and the handler, and has a
timer that was created for it. -/
def FilledOne (s s' : Alarms H) (tm : CronTm) (handle : Option H) : Prop :=
  ∃ i < alarmMaxItem, (s.gAlarm i).id = alarmIdNoUsed ∧ (s'.gAlarm i).id ≠ alarmIdNoUsed ∧
    (s'.gAlarm i).cronTm = tm ∧ (s'.gAlarm i).handle = handle ∧ (∀ k ≠ i, s'.gAlarm k = s.gAlarm k) ∧
    (s'.gAlarm i).xTimer = some s.next ∧ ∃ timer, s'.timers s.next = some timer ∧ timer.slot = i

/-- A slot is free, the time lies ahead, and the timer is created. -/
structure CanCreate (s : Alarms H) (tm : CronTm) (now : Tm) (created : Bool) : Prop where
  free : ∃ i < alarmMaxItem, (s.gAlarm i).id = alarmIdNoUsed
  ahead : 0 < getExpiryTime { (AlarmItem.unused : AlarmItem H) with cronTm := tm } now
  timer : created = true

/-- `alarm_create` fills a slot or changes nothing, and says which. -/
structure Atomic (tm : CronTm) (handle : Option H) (now : Tm) (created : Bool) (s : Alarms H) : Prop where
  success : (alarmCreate tm handle now created s).1 = 0 ↔
    FilledOne s (alarmCreate tm handle now created s).2 tm handle
  failure : ¬ CanCreate s tm now created →
    (alarmCreate tm handle now created s).1 ≠ 0 ∧ (alarmCreate tm handle now created s).2.gAlarm = s.gAlarm

/-- The search for a free slot finds one if there is one. -/
theorem slotOf_isSome_iff {s : Alarms H} {id : UInt32} :
    (∃ i, s.slotOf id = some i) ↔ ∃ i < alarmMaxItem, (s.gAlarm i).id = id := by
  constructor
  · intro h
    obtain ⟨i, hi⟩ := h
    exact ⟨i, slotOf_some hi⟩
  · intro h
    obtain ⟨i, hlt, hid⟩ := h
    exact Option.isSome_iff_exists.1 (List.find?_isSome.2 ⟨i, List.mem_range.2 hlt, decide_eq_true hid⟩)

theorem slot_id_used {i : Nat} (hi : i < alarmMaxItem) : alarmIdStart + UInt32.ofNat i ≠ alarmIdNoUsed := by
  have key : ∀ k < alarmMaxItem, alarmIdStart + UInt32.ofNat k ≠ alarmIdNoUsed := by decide
  exact key i hi

/-- The expiry time depends on the settings alone. -/
theorem getExpiryTime_congr {a b : AlarmItem H} (h : a.cronTm = b.cronTm) (now : Tm) :
    getExpiryTime a now = getExpiryTime b now := by
  simp only [getExpiryTime, h]

section Create

variable {s : Alarms H} {tm : CronTm} {handle : Option H} {created : Bool} {i : Nat}

/-- Without a free slot nothing happens, and 0 is returned. -/
theorem alarmCreate_full (h : s.slotOf alarmIdNoUsed = none) : alarmCreate tm handle now created s = (0, s) := by
  unfold alarmCreate
  rw [h]

/-- The slot `alarm_create` fills, before `set_alarm`. -/
def filled (i : Nat) (tm : CronTm) (handle : Option H) (s : Alarms H) : Alarms H :=
  { s with
    gAlarm := store s.gAlarm i
      { s.gAlarm i with
        id := alarmIdStart + UInt32.ofNat i, cronTm := tm, handle := handle, name := "alarm" ++ toString i } }

theorem alarmCreate_slot (hi : s.slotOf alarmIdNoUsed = some i) :
    alarmCreate tm handle now created s = setAlarm i now created (filled i tm handle s) := by
  unfold alarmCreate
  rw [hi]
  rfl

theorem getExpiryTime_filled :
    getExpiryTime ((filled i tm handle s).gAlarm i) now =
      getExpiryTime { (AlarmItem.unused : AlarmItem H) with cronTm := tm } now := by
  refine getExpiryTime_congr ?_ now
  simp only [filled, store_self]

/-- With a free slot the creation returns 0 if the rest could be done. -/
theorem alarmCreate_ok (handle : Option H) (hi : s.slotOf alarmIdNoUsed = some i)
    (ht : 0 < getExpiryTime { (AlarmItem.unused : AlarmItem H) with cronTm := tm } now) :
    (alarmCreate tm handle now true s).1 = 0 ∧ FilledOne s (alarmCreate tm handle now true s).2 tm handle := by
  obtain ⟨hlt, hid⟩ := slotOf_some hi
  have ht' : ¬ getExpiryTime ((filled i tm handle s).gAlarm i) now ≤ 0 := by
    rw [getExpiryTime_filled]
    omega
  rw [alarmCreate_slot hi]
  simp only [setAlarm, if_neg ht', if_true]
  refine ⟨trivial, i, hlt, hid, ?_, ?_, ?_, fun k hk => ?_, ?_, _, store_self .., rfl⟩
  · simp only [filled, store_self]
    exact slot_id_used hlt
  · simp only [filled, store_self]
  · simp only [filled, store_self]
  · simp only [filled, store_ne hk]
  · simp only [filled, store_self]

/-- Without the rest the slot stays filled. -/
theorem alarmCreate_failed (hi : s.slotOf alarmIdNoUsed = some i)
    (hfail : getExpiryTime { (AlarmItem.unused : AlarmItem H) with cronTm := tm } now ≤ 0 ∨ created = false) :
    alarmCreate tm handle now created s = (-1, filled i tm handle s) := by
  rw [alarmCreate_slot hi]
  by_cases ht : getExpiryTime ((filled i tm handle s).gAlarm i) now ≤ 0
  · simp only [setAlarm, if_pos ht]
  · have hcreated : created = false := hfail.resolve_left (by rwa [getExpiryTime_filled] at ht)
    subst hcreated
    simp only [setAlarm, if_neg ht, Bool.false_eq_true, if_false]

/-- **The creation of an alarm is atomic exactly when it succeeds**: when a slot is
free, the time lies ahead and the timer is created. -/
theorem alarmCreate_atomic_iff (tm : CronTm) (handle : Option H) (now : Tm) (created : Bool) (s : Alarms H) :
    Atomic tm handle now created s ↔ CanCreate s tm now created := by
  constructor
  · intro h
    by_cases hcan : CanCreate s tm now created
    · exact hcan
    · obtain ⟨hret, hkeep⟩ := h.failure hcan
      cases hi : s.slotOf alarmIdNoUsed with
      | none =>
        rw [alarmCreate_full hi] at hret
        exact absurd rfl hret
      | some i =>
        obtain ⟨hlt, hid⟩ := slotOf_some hi
        have hfail : getExpiryTime { (AlarmItem.unused : AlarmItem H) with cronTm := tm } now ≤ 0 ∨
            created = false := by
          by_cases ht : getExpiryTime { (AlarmItem.unused : AlarmItem H) with cronTm := tm } now ≤ 0
          · exact .inl ht
          · exact .inr (Bool.eq_false_iff.2 fun hc => hcan ⟨⟨i, hlt, hid⟩, Int.not_le.1 ht, hc⟩)
        rw [alarmCreate_failed hi hfail] at hkeep
        have hslot := congrArg (fun table => (table i).id) hkeep
        simp only [filled, store_self, hid] at hslot
        exact absurd hslot (slot_id_used hlt)
  · intro hcan
    obtain ⟨hfree, ht, rfl⟩ := hcan
    obtain ⟨i, hi⟩ := slotOf_isSome_iff.2 hfree
    obtain ⟨hret, hfilled⟩ := alarmCreate_ok handle hi ht
    exact ⟨⟨fun _ => hfilled, fun _ => hret⟩, fun hnot => absurd ⟨hfree, ht, rfl⟩ hnot⟩

end Create

/-- After power on, with no timer to be had, the first slot is lost. -/
theorem slot_lost_on_failure :
    ¬ ∀ s : AlarmRun Nat, Reachable alarmStep .init s →
      ∀ tm handle now created, Atomic tm handle now created s.alarms := by
  intro h
  have hkeep := (h .init .refl ⟨0, 9, 1⟩ (some 1) ⟨0, 8, 1⟩ false).failure fun hcan => Bool.false_ne_true hcan.timer
  have hid : (32 : UInt32) = alarmIdNoUsed := congrArg (fun table => (table 0).id) hkeep.2
  exact absurd hid (by decide)

/-! ## The period -/

/-- A value of the type `int`. -/
def FitsInt (x : Int) : Prop := -2147483648 ≤ x ∧ x < 2147483648

/-- The period of the timer that `set_alarm` creates for slot `i` is computed
without an overflow, and is the expiry time in milliseconds. -/
structure PeriodExact (i : Nat) (now : Tm) (s : Alarms H) : Prop where
  seconds : FitsInt (getExpiryTime (s.gAlarm i) now * 60)
  milliseconds : FitsInt (getExpiryTime (s.gAlarm i) now * 60 * 1000)
  period : ∃ timer, (setAlarm i now true s).2.timers s.next = some timer ∧
    (timer.intervalMs.toNat : Int) = getExpiryTime (s.gAlarm i) now * 60000

/-- Minutes, by the settings and the local time alone: the days `get_expiry_time`
counts besides the time of day, and the time of day from now on. -/
def expiryMinutes (tm : CronTm) (now : Tm) : Int :=
  (now.tmMday + tm.dayInterval.toNat - 1) * 1440 +
    (minuteOfDay tm.hour.toNat tm.min.toNat - minuteOfDay now.tmHour now.tmMin) % 1440

/-- A time of day that is over is a day later. -/
theorem getExpiryTime_eq (hhour : alarm.cronTm.hour.toNat < 24) (hmin : alarm.cronTm.min.toNat < 60)
    (hnow : now.Valid) : getExpiryTime alarm now = expiryMinutes alarm.cronTm now := by
  obtain ⟨hnowMin, hnowHour, -⟩ := hnow
  obtain ⟨d, hd, hcases⟩ := getExpiryTime_cases hhour now
  simp only [expiryMinutes, ← hd]
  simp only [minuteOfDay] at hd
  cases hcases with
  | inl hahead =>
    rw [hahead.2, Int.emod_eq_of_lt hahead.1 (by omega)]
    omega
  | inr hover =>
    rw [hover.2, ← Int.add_emod_right d 1440, Int.emod_eq_of_lt (by omega) (by omega)]
    omega

/-- `set_alarm` creates a timer when the time lies ahead and the operating
system has one. -/
theorem setAlarm_eq_zero_iff {i : Nat} {created : Bool} {s : Alarms H} :
    (setAlarm i now created s).1 = 0 ↔ 0 < getExpiryTime (s.gAlarm i) now ∧ created = true := by
  unfold setAlarm
  by_cases ht : getExpiryTime (s.gAlarm i) now ≤ 0
  · simp only [if_pos ht]
    omega
  · cases created with
    | false => simp
    | true => simpa [if_neg ht] using ht

theorem setAlarm_intervalMs {i : Nat} {s : Alarms H} (ht : 0 < getExpiryTime (s.gAlarm i) now) :
    ∃ timer, (setAlarm i now true s).2.timers s.next = some timer ∧
      timer.intervalMs = UInt32.ofInt (getExpiryTime (s.gAlarm i) now * 60 * 1000) := by
  simp only [setAlarm, if_neg (Int.not_le.2 ht), if_true]
  exact ⟨_, store_self .., rfl⟩

/-- **The period of a timer is right exactly when the alarm expires within 24
days, 20 hours and 31 minutes**, counting the day of the month. -/
theorem periodExact_iff {i : Nat} {created : Bool} {s : Alarms H}
    (hhour : (s.gAlarm i).cronTm.hour.toNat < 24) (hmin : (s.gAlarm i).cronTm.min.toNat < 60)
    (hnow : now.Valid) (hset : (setAlarm i now created s).1 = 0) :
    PeriodExact i now s ↔ expiryMinutes (s.gAlarm i).cronTm now ≤ 35791 := by
  have ht := (setAlarm_eq_zero_iff.1 hset).1
  rw [← getExpiryTime_eq hhour hmin hnow]
  constructor
  · intro h
    have hms := h.milliseconds.2
    omega
  · intro hle
    refine ⟨⟨by omega, by omega⟩, ⟨by omega, by omega⟩, ?_⟩
    obtain ⟨timer, htimer, hms⟩ := setAlarm_intervalMs ht
    refine ⟨timer, htimer, ?_⟩
    rw [hms, UInt32.ofInt, UInt32.toNat_ofNat']
    omega

/-- On the first of the month, at eight, an alarm for nine in 24 days. -/
theorem periodExact_iff_first :
    PeriodExact 0 ⟨0, 8, 1⟩ (filled 0 ⟨0, 9, 24⟩ none (AlarmRun.init : AlarmRun Nat).alarms) ↔
      expiryMinutes ⟨0, 9, 24⟩ ⟨0, 8, 1⟩ ≤ 35791 :=
  @periodExact_iff Nat ⟨0, 8, 1⟩ 0 true _ (by decide) (by decide) ⟨by decide, by decide, by decide⟩ rfl

/-- At eight on the last of the month the period of an alarm for nine, every
day, does not fit. -/
theorem period_overflow :
    (setAlarm 0 ⟨0, 8, 31⟩ true (filled 0 ⟨0, 9, 1⟩ none (AlarmRun.init : AlarmRun Nat).alarms)).1 = 0 ∧
      ¬ PeriodExact 0 ⟨0, 8, 31⟩ (filled 0 ⟨0, 9, 1⟩ none (AlarmRun.init : AlarmRun Nat).alarms) := by
  refine ⟨rfl, fun h => ?_⟩
  exact absurd h.milliseconds.2 (by decide)

end Petbox.Tracker
