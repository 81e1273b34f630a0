/-
The alarms (`hal/alarm.c`): five slots, each with the handler of an alarm and
the operating system's timer for it.

All timers have one callback, which finds the slot of the timer that expired by
the timer's id. `set_alarm` creates every timer with the id of the first slot,
so it is always the first slot's handler that runs.
-/
import Petbox.Lib.Run
import Petbox.Lib.Mem

namespace Petbox.Tracker

open Mem Machine

def customTimerAlarm : UInt32 := 0x20
def alarmMaxItem : Nat := 5
def alarmIdNoUsed : UInt32 := 0xFFFFFFFF
def alarmIdStart : UInt32 := customTimerAlarm
def alarmIdEnd : UInt32 := customTimerAlarm + 5

/-! ## The table -/

/-- `cron_tm_t`. -/
structure CronTm where
  min : UInt8
  hour : UInt8
  dayInterval : UInt8
  deriving DecidableEq, Repr

/-- What is read of `struct tm`. -/
structure Tm where
  tmMin : Int
  tmHour : Int
  tmMday : Int

/-- `alarm_t`, for handlers `H`; the handler `none` is `NULL`. A timer's handle
is a number. -/
structure AlarmItem (H : Type*) where
  id : UInt32
  cronTm : CronTm
  handle : Option H
  xTimer : Option Nat
  name : String

/-- A timer of the operating system: what it was created with, whether it is
started, and (nothing reads it) the slot it was created for. -/
structure AlarmTimer where
  id : UInt32
  name : String
  intervalMs : UInt32
  reload : Bool
  active : Bool
  slot : Nat
  deriving DecidableEq, Repr

/-- `g_Alarm`, and the timers with the handle of the next one. -/
structure Alarms (H : Type*) where
  gAlarm : Nat → AlarmItem H
  timers : Nat → Option AlarmTimer
  next : Nat

section Code

variable {H : Type*}

/-- An item that `memset` has cleared and that is marked as unused. -/
def AlarmItem.unused : AlarmItem H :=
  { id := alarmIdNoUsed, cronTm := ⟨0, 0, 0⟩, handle := none, xTimer := none, name := "" }

/-- `alarm_init`. -/
def alarmInit (s : Alarms H) : Alarms H := { s with gAlarm := fun _ => .unused }

/-- `get_expiry_time`, in minutes, at a local time. -/
def getExpiryTime (alarm : AlarmItem H) (now : Tm) : Int :=
  let totalMin : Int := alarm.cronTm.min.toNat - now.tmMin
  let totalMin :=
    if alarm.cronTm.hour.toNat < 24 then totalMin + 60 * (alarm.cronTm.hour.toNat - now.tmHour) else totalMin
  let dMday := now.tmMday + (if totalMin < 0 then 1 else 0) + (alarm.cronTm.dayInterval.toNat - 1)
  totalMin + dMday * 24 * 60

/-- `os_timer_start` and `os_timer_stop`, when they succeed. -/
def setActive (active : Bool) (xTimer : Option Nat) (timers : Nat → Option AlarmTimer) : Nat → Option AlarmTimer :=
  xTimer.elim timers fun h => store timers h ((timers h).map fun timer => { timer with active })

/-- `set_alarm` for slot `i`; `created` is the answer of `os_timer_create`. The
timer is not started. -/
def setAlarm (i : Nat) (now : Tm) (created : Bool) (s : Alarms H) : Int × Alarms H :=
  let t := getExpiryTime (s.gAlarm i) now
  if t ≤ 0 then (-1, s)
  else if created then
    (0, { gAlarm := store s.gAlarm i { s.gAlarm i with xTimer := some s.next }
          timers := store s.timers s.next (some
            { id := customTimerAlarm, name := (s.gAlarm i).name, intervalMs := UInt32.ofInt (t * 60 * 1000)
              reload := false, active := false, slot := i })
          next := s.next + 1 })
  else (-1, s)

/-- `start_alarm` for slot `i`; `ok` is the answer of `os_timer_start`. -/
def startAlarm (i : Nat) (ok : Bool) (s : Alarms H) : Alarms H :=
  if ok then { s with timers := setActive true (s.gAlarm i).xTimer s.timers } else s

/-- `stop_alarm` for slot `i`; `ok` is the answer of `os_timer_stop`. -/
def stopAlarm (i : Nat) (ok : Bool) (s : Alarms H) : Alarms H :=
  if ok then { s with timers := setActive false (s.gAlarm i).xTimer s.timers } else s

/-- The first slot with an id. -/
def Alarms.slotOf (s : Alarms H) (id : UInt32) : Option Nat :=
  (List.range alarmMaxItem).find? fun i => (s.gAlarm i).id = id

/-- `alarm_create`. -/
def alarmCreate (tm : CronTm) (handle : Option H) (now : Tm) (created : Bool) (s : Alarms H) : Int × Alarms H :=
  match s.slotOf alarmIdNoUsed with
  | some i =>
    setAlarm i now created
      { s with
        gAlarm := store s.gAlarm i
          { s.gAlarm i with
            id := alarmIdStart + UInt32.ofNat i, cronTm := tm, handle := handle, name := "alarm" ++ toString i } }
  | none => (0, s)

/-- `alarm_delete`; `ok` is the answer of `os_timer_stop`. -/
def alarmDelete (id : UInt8) (ok : Bool) (s : Alarms H) : Int × Alarms H :=
  match s.slotOf id.toUInt32 with
  | some i =>
    let s := stopAlarm i ok s
    (0, { s with
          gAlarm := store s.gAlarm i
            { s.gAlarm i with id := alarmIdNoUsed, cronTm := ⟨0, 0, 0⟩, handle := none, name := "" } })
  | none => (0, s)

/-- What `alarm_timer_callback` calls: the handler it finds, and the slot it
finds it in. -/
structure AlarmCall (H : Type*) where
  slot : Nat
  handle : Option H

/-- `alarm_timer_callback`, for the timer that expired. -/
def alarmTimerCallback (timer : AlarmTimer) (s : Alarms H) : Option (AlarmCall H) :=
  if timer.id ≥ alarmIdStart ∧ timer.id < alarmIdEnd then
    let slot := (timer.id - alarmIdStart).toNat
    some { slot, handle := (s.gAlarm slot).handle }
  else none

end Code

/-! ## Runs -/

/-- What can happen: the calls of the module, with the local time and the
answers of the operating system, and the expiry of the timer with a handle. -/
inductive AlarmAction (H : Type*)
  | create (tm : CronTm) (handle : Option H) (now : Tm) (created : Bool)
  | delete (id : UInt8) (ok : Bool)
  | start (slot : Nat) (ok : Bool)
  | expire (handle : Nat)

/-- The alarms, with the handler that was given to the `alarm_create` that
filled each slot: `none` where the slot is empty. -/
structure AlarmRun (H : Type*) where
  alarms : Alarms H
  given : Nat → Option (Option H)

section Run

variable {H : Type*}

/-- The device after `alarm_init`. -/
def AlarmRun.init : AlarmRun H :=
  { alarms := alarmInit
      { gAlarm := fun _ => { AlarmItem.unused with id := 0 }, timers := fun _ => none, next := 0 }
    given := fun _ => none }

/-- The timer that expires, if it is one that was started; it is a one-shot
timer. -/
def Alarms.expiring (s : Alarms H) (handle : Nat) : Option AlarmTimer := (s.timers handle).filter (·.active)

def alarmStep (s : AlarmRun H) : AlarmAction H → Option (AlarmRun H)
  | .create tm handle now created =>
    some
      { alarms := (alarmCreate tm handle now created s.alarms).2
        given := (s.alarms.slotOf alarmIdNoUsed).elim s.given fun i => store s.given i (some handle) }
  | .delete id ok =>
    some
      { alarms := (alarmDelete id ok s.alarms).2
        given := (s.alarms.slotOf id.toUInt32).elim s.given fun i => store s.given i none }
  | .start slot ok => some { s with alarms := startAlarm slot ok s.alarms }
  | .expire handle =>
    (s.alarms.expiring handle).map fun _ =>
      { s with alarms := { s.alarms with timers := setActive false (some handle) s.alarms.timers } }

/-- When a timer expires, the handler given for its slot runs, found in a slot
that is not empty; and none runs when its slot is empty. -/
def Dispatched (s : AlarmRun H) : AlarmAction H → Prop
  | .expire handle => ∀ timer, s.alarms.expiring handle = some timer →
    match s.given timer.slot with
    | some g => ∃ call, alarmTimerCallback timer s.alarms = some call ∧ call.handle = g ∧ s.given call.slot ≠ none
    | none => alarmTimerCallback timer s.alarms = none
  | _ => True

/-- When a timer expires, the first slot is not empty, and its handler is the
one given for the timer's slot. -/
def FirstSlotServes (s : AlarmRun H) : AlarmAction H → Prop
  | .expire handle => ∀ timer, s.alarms.expiring handle = some timer →
    ∃ g, s.given 0 = some g ∧ s.given timer.slot = some g
  | _ => True

/-! ## What every run keeps -/

/-- A slot that is not empty holds its own id and the handler it was filled
with, an empty one is marked as unused, and every timer has the first slot's id. -/
structure AlarmRun.Ok (s : AlarmRun H) : Prop where
  filled : ∀ i < alarmMaxItem, ∀ g, s.given i = some g →
    (s.alarms.gAlarm i).handle = g ∧ (s.alarms.gAlarm i).id = alarmIdStart + UInt32.ofNat i
  empty : ∀ i < alarmMaxItem, s.given i = none → (s.alarms.gAlarm i).id = alarmIdNoUsed
  timerId : ∀ h timer, s.alarms.timers h = some timer → timer.id = customTimerAlarm

theorem init_alarmOk : (AlarmRun.init : AlarmRun H).Ok where
  filled _ _ _ h := nomatch h
  empty _ _ _ := rfl
  timerId _ _ h := nomatch h

/-- Starting and stopping a timer leaves its id. -/
theorem setActive_id {active : Bool} {xTimer : Option Nat} {timers : Nat → Option AlarmTimer} {id : UInt32}
    (hid : ∀ h timer, timers h = some timer → timer.id = id) :
    ∀ h timer, setActive active xTimer timers h = some timer → timer.id = id := by
  intro h timer ht
  cases xTimer with
  | none => exact hid h timer ht
  | some k =>
    by_cases hk : h = k
    · subst hk
      simp only [setActive, Option.elim_some, store_self, Option.map_eq_some_iff] at ht
      obtain ⟨old, hold, rfl⟩ := ht
      exact hid h old hold
    · simp only [setActive, Option.elim_some, store_ne hk] at ht
      exact hid h timer ht

/-- `set_alarm` writes nothing of the table but the handle of the timer it
creates, which gets the first slot's id. -/
theorem setAlarm_spec (i : Nat) (now : Tm) (created : Bool) (s : Alarms H) :
    (∀ k, ((setAlarm i now created s).2.gAlarm k).handle = (s.gAlarm k).handle ∧
      ((setAlarm i now created s).2.gAlarm k).id = (s.gAlarm k).id) ∧
    ((∀ h timer, s.timers h = some timer → timer.id = customTimerAlarm) →
      ∀ h timer, (setAlarm i now created s).2.timers h = some timer → timer.id = customTimerAlarm) := by
  simp only [setAlarm]
  split
  · exact ⟨fun _ => ⟨rfl, rfl⟩, id⟩
  · split
    · refine ⟨fun k => ?_, fun hid h timer ht => ?_⟩
      · by_cases hk : k = i
        · subst hk
          simp
        · simp [store_ne hk]
      · by_cases hh : h = s.next
        · subst hh
          simp only [store_self, Option.some.injEq] at ht
          rw [← ht]
        · simp only [store_ne hh] at ht
          exact hid h timer ht
    · exact ⟨fun _ => ⟨rfl, rfl⟩, id⟩

/-- A slot of the table and what was given for it, both written. -/
theorem AlarmRun.Ok.write {s : AlarmRun H} (h : s.Ok) {i : Nat} {alarms : Alarms H} {given : Option (Option H)}
    (hother : ∀ k ≠ i, (alarms.gAlarm k).handle = (s.alarms.gAlarm k).handle ∧
      (alarms.gAlarm k).id = (s.alarms.gAlarm k).id)
    (hfilled : ∀ g, given = some g →
      (alarms.gAlarm i).handle = g ∧ (alarms.gAlarm i).id = alarmIdStart + UInt32.ofNat i)
    (hempty : given = none → (alarms.gAlarm i).id = alarmIdNoUsed)
    (htimerId : ∀ h timer, alarms.timers h = some timer → timer.id = customTimerAlarm) :
    AlarmRun.Ok { alarms, given := store s.given i given } where
  filled k hk g hg := by
    by_cases hki : k = i
    · subst hki
      exact hfilled g (by simpa using hg)
    · simp only [store_ne hki] at hg
      rw [(hother k hki).1, (hother k hki).2]
      exact h.filled k hk g hg
  empty k hk hg := by
    by_cases hki : k = i
    · subst hki
      exact hempty (by simpa using hg)
    · simp only [store_ne hki] at hg
      rw [(hother k hki).2]
      exact h.empty k hk hg
  timerId := htimerId

theorem AlarmRun.Ok.create {s : AlarmRun H} (h : s.Ok) (tm : CronTm) (handle : Option H) (now : Tm)
    (created : Bool) {s' : AlarmRun H} (hs : alarmStep s (.create tm handle now created) = some s') : s'.Ok := by
  simp only [alarmStep, Option.some.injEq] at hs
  subst hs
  unfold alarmCreate
  cases hi : s.alarms.slotOf alarmIdNoUsed with
  | none => exact h
  | some i =>
    obtain ⟨htable, htimers⟩ := setAlarm_spec i now created
      { s.alarms with
        gAlarm := store s.alarms.gAlarm i
          { s.alarms.gAlarm i with
            id := alarmIdStart + UInt32.ofNat i, cronTm := tm, handle, name := "alarm" ++ toString i } }
    refine h.write (fun k hk => ?_) (fun g hg => ?_) (fun hg => absurd hg (by simp)) (htimers h.timerId)
    · rw [(htable k).1, (htable k).2]
      simp only [store_ne hk, and_self]
    · rw [(htable i).1, (htable i).2]
      simpa using hg

theorem AlarmRun.Ok.delete {s : AlarmRun H} (h : s.Ok) (id : UInt8) (ok : Bool) {s' : AlarmRun H}
    (hs : alarmStep s (.delete id ok) = some s') : s'.Ok := by
  simp only [alarmStep, Option.some.injEq] at hs
  subst hs
  unfold alarmDelete
  cases hi : s.alarms.slotOf id.toUInt32 with
  | none => exact h
  | some i =>
    have hstop : (stopAlarm i ok s.alarms).gAlarm = s.alarms.gAlarm := by
      cases ok with
      | true => rfl
      | false => rfl
    refine h.write (fun k hk => ?_) (fun g hg => absurd hg (by simp)) (fun _ => by simp) ?_
    · simp only [store_ne hk, hstop, and_self]
    · cases ok with
      | true => exact setActive_id h.timerId
      | false => exact h.timerId

theorem AlarmRun.Ok.step {s s' : AlarmRun H} (h : s.Ok) {a : AlarmAction H} (hs : alarmStep s a = some s') :
    s'.Ok := by
  cases a with
  | create tm handle now created => exact h.create tm handle now created hs
  | delete id ok => exact h.delete id ok hs
  | start slot ok =>
    simp only [alarmStep, Option.some.injEq] at hs
    subst hs
    cases ok with
    | true => exact ⟨h.filled, h.empty, fun k timer ht => setActive_id h.timerId k timer ht⟩
    | false => exact h
  | expire handle =>
    simp only [alarmStep, Option.map_eq_some_iff] at hs
    obtain ⟨_, -, rfl⟩ := hs
    have htimerId : ∀ k timer, setActive false (some handle) s.alarms.timers k = some timer →
        timer.id = customTimerAlarm := setActive_id h.timerId
    exact ⟨h.filled, h.empty, htimerId⟩

theorem slotOf_some {s : Alarms H} {id : UInt32} {i : Nat} (h : s.slotOf id = some i) :
    i < alarmMaxItem ∧ (s.gAlarm i).id = id := by
  unfold Alarms.slotOf at h
  exact ⟨List.mem_range.1 (List.mem_of_find?_eq_some h), by simpa using List.find?_some h⟩

/-! ## The callback -/

/-- With the id of a slot, the callback calls the handler of that slot. -/
theorem alarmTimerCallback_slot {timer : AlarmTimer} {i : Nat} (hi : i < alarmMaxItem)
    (hid : timer.id = alarmIdStart + UInt32.ofNat i) (s : Alarms H) :
    alarmTimerCallback timer s = some { slot := i, handle := (s.gAlarm i).handle } := by
  have hi32 : (UInt32.ofNat i).toNat = i := by
    rw [UInt32.toNat_ofNat']
    unfold alarmMaxItem at hi
    omega
  have hoff : (timer.id - alarmIdStart).toNat = i := by
    rw [hid, UInt32.add_comm, UInt32.add_sub_cancel, hi32]
  have hrange : timer.id ≥ alarmIdStart ∧ timer.id < alarmIdEnd := by
    unfold alarmMaxItem at hi
    rw [hid, ge_iff_le, UInt32.le_iff_toNat_le, UInt32.lt_iff_toNat_lt, UInt32.toNat_add, hi32]
    show 32 ≤ (32 + i) % 2 ^ 32 ∧ (32 + i) % 2 ^ 32 < 37
    omega
  simp only [alarmTimerCallback, if_pos hrange, hoff]

/-- The id that the table has for a slot would do: a timer created with it runs
the handler given for its slot. -/
theorem AlarmRun.Ok.own_id_dispatched {s : AlarmRun H} (h : s.Ok) {timer : AlarmTimer}
    (hslot : timer.slot < alarmMaxItem) {g : Option H} (hgiven : s.given timer.slot = some g)
    (hid : timer.id = (s.alarms.gAlarm timer.slot).id) :
    alarmTimerCallback timer s.alarms = some { slot := timer.slot, handle := g } := by
  obtain ⟨hhandle, hown⟩ := h.filled timer.slot hslot g hgiven
  rw [alarmTimerCallback_slot hslot (hid.trans hown), hhandle]

theorem AlarmRun.Ok.dispatched_iff {s : AlarmRun H} (h : s.Ok) (a : AlarmAction H) :
    Dispatched s a ↔ FirstSlotServes s a := by
  cases a with
  | create | delete | start => exact Iff.rfl
  | expire handle =>
    refine forall₂_congr fun timer hexp => ?_
    have htimer : s.alarms.timers handle = some timer := (Option.filter_eq_some_iff.1 hexp).1
    have hcall := alarmTimerCallback_slot (i := 0) (by decide) (h.timerId handle timer htimer) s.alarms
    cases hg : s.given timer.slot with
    | none => simp [hcall]
    | some g =>
      simp only [hcall, Option.some.injEq, exists_eq_left']
      constructor
      · rintro ⟨hhandle, hne⟩
        obtain ⟨g₀, hg₀⟩ := Option.ne_none_iff_exists'.1 hne
        rw [(h.filled 0 (by decide) g₀ hg₀).1] at hhandle
        exact ⟨g, hhandle ▸ hg₀, rfl⟩
      · rintro ⟨g', hg₀, hg'⟩
        subst hg'
        exact ⟨(h.filled 0 (by decide) g hg₀).1, by simp [hg₀]⟩

/-- **A timer's own handler runs exactly when it is also the first slot's.** In
every run from `alarm_init`, whatever the local time and the answers of the
operating system, each timer that expires runs the handler that was given to
the `alarm_create` that filled its slot, and none for an empty slot, if and
only if, whenever a timer expires, the first slot is filled with the same
handler as the timer's slot. -/
theorem alarms_dispatched_iff (as : List (AlarmAction H)) :
    Along alarmStep Dispatched AlarmRun.init as ↔ Along alarmStep FirstSlotServes AlarmRun.init as :=
  along_iff init_alarmOk as (fun _ _ _ h _ hs => h.step hs) fun _ a h => h.dispatched_iff a

end Run

/-- Two alarms, and the timer of the second one expires. -/
theorem second_alarm_not_dispatched :
    ¬ ∀ as : List (AlarmAction Nat), Along alarmStep Dispatched AlarmRun.init as := by
  intro h
  have hrun := h [.create ⟨30, 8, 1⟩ (some 1) ⟨0, 8, 1⟩ true, .create ⟨45, 8, 1⟩ (some 2) ⟨0, 8, 1⟩ true,
    .start 1 true, .expire 1]
  obtain ⟨call, hcall, hhandle, -⟩ := (((hrun.2 _ rfl).2 _ rfl).2 _ rfl).1 _ rfl
  obtain rfl := Option.some.inj hcall
  exact absurd hhandle (by decide)

end Petbox.Tracker
