/-
The petbox feeder and water pump (`hal/control.c`) under the control task's
messages (`app/control_task.c`): a message arrives or a one-shot timer
expires, and each handler runs to its end.

The part count of a message is 32 bits wide and `feed_food` takes it as an
8-bit one, tests its old value for "busy", and leaves the count to a timer
callback that decrements before it tests. A count of 0 in 8 bits therefore
starts the motor with nothing to count (`accept_zero`), and a count above 255
is another count. Within 1 to 255 the motor runs as long as it should.
-/
import Petbox.Lib.Run

namespace Petbox.Control

open Machine

/-! ## The handlers -/

/-- The three output pins of the feed motor. -/
structure MotoPins where
  en : Bool
  ctl1 : Bool
  ctl2 : Bool
  deriving DecidableEq, Repr

def feedMoto (onoff : Bool) : MotoPins :=
  if onoff then { en := true, ctl1 := true, ctl2 := false }
  else { en := false, ctl1 := false, ctl2 := false }

/-- `g_feed_food_num`, the motor's pins, and whether `feedfood_timer_handle` is running. -/
structure Feeder where
  feedFoodNum : UInt8
  moto : MotoPins
  timer : Bool
  deriving DecidableEq, Repr

/-- `status_bak` of `feed_water`, the pump's two pins, and whether
`feedwater_timer_handle` is running. -/
structure Water where
  statusBak : Bool
  pumpEn : Bool
  pumpLed : Bool
  timer : Bool
  deriving DecidableEq, Repr

/-- What the control task and its timers own. `initState` is the static flag of
`Control_Init`; the pad and interrupt set-up it guards is not modelled. -/
structure ControlState where
  feeder : Feeder
  water : Water
  initState : Bool
  deriving DecidableEq, Repr

def ControlState.start : ControlState :=
  { feeder := { feedFoodNum := 0, moto := feedMoto false, timer := false }
    water := { statusBak := false, pumpEn := false, pumpLed := false, timer := false }
    initState := false }

/-- The callback of the feed timer, which is one-shot: it runs with the timer stopped. -/
def feedfoodTimerCallback (f : Feeder) : Feeder :=
  let num := f.feedFoodNum - 1
  if num = 0 then { feedFoodNum := num, moto := feedMoto false, timer := false }
  else { f with feedFoodNum := num, timer := true }

def feedFood (num : UInt8) (f : Feeder) : Feeder :=
  if f.feedFoodNum = 0 then { feedFoodNum := num, moto := feedMoto true, timer := true } else f

def feedWater (status : Bool) (w : Water) : Water :=
  if w.statusBak ≠ status then
    if status then { statusBak := status, pumpEn := true, pumpLed := true, timer := true }
    else { w with statusBak := status, pumpEn := false, pumpLed := false }
  else w

/-- The callback of the water timer, one-shot as well. -/
def feedwaterTimerCallback (w : Water) : Water := feedWater false { w with timer := false }

/-- `T_CUSTOM_MSG_TYPE`: the custom types start at `IO_MSG_TYPE_I2C`. -/
def customMsgStart : UInt16 := 28
def customMsgWifi : UInt16 := 29
def customMsgControl : UInt16 := 30
def customMsgKeyboard : UInt16 := 31
def customMsgBattery : UInt16 := 32

/-- `T_CONTROL_MSG_SUBTYPE`. -/
def controlMsgInit : UInt16 := 0
def controlMsgFeedfoodStart : UInt16 := 1
def controlMsgFeedfoodStop : UInt16 := 2
def controlMsgFeedwater : UInt16 := 3
def controlMsgFoodstuck : UInt16 := 4
def controlMsgWaterLow : UInt16 := 5
def controlMsgFoodLittle : UInt16 := 6
def controlMsgPlayVoice : UInt16 := 7
def controlMsgReportRemain : UInt16 := 8

/-- `T_IO_MSG`, with the 32-bit member of its union. -/
structure IoMsg where
  type : UInt16
  subtype : UInt16
  param : UInt32
  deriving DecidableEq, Repr

def dpidFeedNum : UInt8 := 231
def dpidRealtimeData : UInt8 := 235
def dpidFeedRemaining : UInt8 := 237

/-- What a handler asks the Tuya SDK to send. -/
inductive Upload
  | enumUpdate (dpid value : UInt8)
  | valueUpdate (dpid : UInt8) (value : UInt32)
  | playVoice (num : UInt8)
  deriving DecidableEq, Repr

def controlExceptionSend (exception : UInt8) : List Upload := [.enumUpdate dpidRealtimeData exception]

def controlInit (c : ControlState) : ControlState := if c.initState then c else { c with initState := true }

/-- The switch of `control_handle_io_msg`. -/
def controlHandleIoMsg (m : IoMsg) (c : ControlState) : ControlState × List Upload :=
  if m.subtype = controlMsgInit then (controlInit c, [])
  else if m.subtype = controlMsgFeedfoodStart then ({ c with feeder := feedFood m.param.toUInt8 c.feeder }, [])
  else if m.subtype = controlMsgFeedfoodStop then (c, [])
  else if m.subtype = controlMsgFeedwater then ({ c with water := feedWater (m.param != 0) c.water }, [])
  else if m.subtype = controlMsgFoodstuck then (c, controlExceptionSend 1)
  else if m.subtype = controlMsgWaterLow then (c, controlExceptionSend 2)
  else if m.subtype = controlMsgPlayVoice then (c, [.playVoice m.param.toUInt8])
  else if m.subtype = controlMsgReportRemain then (c, [.valueUpdate dpidFeedRemaining m.param])
  else (c, [])

/-- The message `control_feed_num` sends first. -/
def feedfoodStart (num : UInt32) : IoMsg := ⟨customMsgControl, controlMsgFeedfoodStart, num⟩

@[simp] theorem handle_feedfoodStart (num : UInt32) (c : ControlState) :
    controlHandleIoMsg (feedfoodStart num) c = ({ c with feeder := feedFood num.toUInt8 c.feeder }, []) := rfl

/-- The feed motor turns: enabled, and its two control inputs apart. -/
def Feeder.MotoOn (f : Feeder) : Prop := f.moto = feedMoto true

theorem feedMoto_false_ne : feedMoto false ≠ feedMoto true := by decide

/-! ## Runs of the feeder -/

/-- What can happen to the feeder: the control task handles a START message, or
the feed timer, when it is running, expires. -/
inductive FeedAct
  | start (num : UInt32)
  | expire

def feedStep (c : ControlState) : FeedAct → Option ControlState
  | .start num => some (controlHandleIoMsg (feedfoodStart num) c).1
  | .expire =>
    if c.feeder.timer then some { c with feeder := feedfoodTimerCallback { c.feeder with timer := false } }
    else none

/-- The timer periods that end in a run. -/
def expirations : List FeedAct → Nat
  | [] => 0
  | .start _ :: as => expirations as
  | .expire :: as => expirations as + 1

/-- From `c` on, whatever else is asked of the feeder, the motor runs with the
timer until the `n`-th timer period ends, and is off then. -/
def RunsFor (c : ControlState) (n : Nat) : Prop :=
  (n = 0 → ¬ c.feeder.MotoOn) ∧
  ∀ as c', exec feedStep c as = some c' →
    (expirations as < n → c'.feeder.MotoOn ∧ c'.feeder.timer = true) ∧
    (expirations as + 1 = n → ∀ c'', feedStep c' .expire = some c'' → ¬ c''.feeder.MotoOn)

/-- A step as it is to be: the motor runs exactly when parts are left, and a
request accepted from an idle feeder runs it for as many periods as it asks. -/
def FeedOk (c : ControlState) (a : FeedAct) : Prop :=
  ∀ c', feedStep c a = some c' →
    (c'.feeder.MotoOn ↔ c'.feeder.feedFoodNum ≠ 0) ∧
    ∀ num, a = .start num → c.feeder.feedFoodNum = 0 → RunsFor c' num.toNat

/-- A request that finds the feeder idle asks for 1 to 255 parts. -/
def InRange (c : ControlState) (a : FeedAct) : Prop :=
  ∀ num, a = .start num → c.feeder.feedFoodNum = 0 → 1 ≤ num.toNat ∧ num.toNat ≤ 255

/-- The motor runs, and the timer with it, exactly when parts are left. -/
structure Feeder.Counts (f : Feeder) : Prop where
  moto : f.moto = feedMoto (decide (f.feedFoodNum ≠ 0))
  timer : f.timer = decide (f.feedFoodNum ≠ 0)

theorem start_counts : ControlState.start.feeder.Counts := ⟨rfl, rfl⟩

theorem Feeder.Counts.motoOn_iff {f : Feeder} (h : f.Counts) : f.MotoOn ↔ f.feedFoodNum ≠ 0 := by
  unfold Feeder.MotoOn
  rw [h.moto]
  by_cases hn : f.feedFoodNum = 0
  · simp [hn, feedMoto_false_ne]
  · simp [hn]

/-- A request to a busy feeder is ignored. -/
theorem feedFood_busy {f : Feeder} (h : f.feedFoodNum ≠ 0) (num : UInt8) : feedFood num f = f := if_neg h

theorem feedFood_idle {f : Feeder} (h : f.feedFoodNum = 0) (num : UInt8) :
    feedFood num f = { feedFoodNum := num, moto := feedMoto true, timer := true } := if_pos h

theorem toNat_sub_one {n : UInt8} (h : n ≠ 0) : (n - 1).toNat = n.toNat - 1 := by
  have hpos : n.toNat ≠ 0 := fun h0 => h (UInt8.toNat.inj h0)
  have hlt := n.toNat_lt
  simp only [UInt8.toNat_sub, UInt8.toNat_one]
  omega

theorem sub_one_eq_zero {n : UInt8} : n - 1 = 0 ↔ n = 1 := by
  constructor
  · intro h
    have := congrArg (· + 1) h
    simpa using this
  · intro h
    rw [h]
    rfl

theorem timerCallback_last {f : Feeder} (h : f.feedFoodNum = 1) :
    feedfoodTimerCallback f = { feedFoodNum := 0, moto := feedMoto false, timer := false } := by
  simp [feedfoodTimerCallback, h]

theorem timerCallback_more {f : Feeder} (h : f.feedFoodNum ≠ 1) :
    feedfoodTimerCallback f = { f with feedFoodNum := f.feedFoodNum - 1, timer := true } := by
  simp [feedfoodTimerCallback, sub_one_eq_zero, h]

/-- An expiration takes one part off and stops the motor with the last. -/
theorem Feeder.Counts.expire {f : Feeder} (h : f.Counts) (hn : f.feedFoodNum ≠ 0) :
    (feedfoodTimerCallback { f with timer := false }).Counts ∧
    (feedfoodTimerCallback { f with timer := false }).feedFoodNum.toNat = f.feedFoodNum.toNat - 1 := by
  by_cases h1 : f.feedFoodNum = 1
  · rw [timerCallback_last (by exact h1), h1]
    exact ⟨⟨rfl, rfl⟩, rfl⟩
  · rw [timerCallback_more (by exact h1)]
    have h0 : f.feedFoodNum - 1 ≠ 0 := fun h0 => h1 (sub_one_eq_zero.1 h0)
    refine ⟨⟨?_, by simp [h0]⟩, toNat_sub_one hn⟩
    simp only [h.moto, hn, h0, ne_eq, not_false_eq_true]

/-- What a step in range does to the feeder. -/
theorem feedStep_counts {c c' : ControlState} {a : FeedAct} (h : c.feeder.Counts) (ha : InRange c a)
    (hs : feedStep c a = some c') : c'.feeder.Counts := by
  cases a with
  | start num =>
    simp only [feedStep, handle_feedfoodStart, Option.some.injEq] at hs
    subst hs
    by_cases hn : c.feeder.feedFoodNum = 0
    · have hr := ha num rfl hn
      have hne : num.toUInt8 ≠ 0 := fun h0 => by
        have hz := congrArg UInt8.toNat h0
        simp only [UInt32.toNat_toUInt8, UInt8.toNat_zero] at hz
        omega
      rw [feedFood_idle hn]
      exact ⟨by simp [hne], by simp [hne]⟩
    · rw [feedFood_busy hn]
      exact h
  | expire =>
    simp only [feedStep] at hs
    split at hs
    · next ht =>
      simp only [Option.some.injEq] at hs
      subst hs
      exact (h.expire (by simpa [h.timer] using ht)).1
    · cases hs

/-! ## The parts of one request -/

/-- While parts are left, a run takes one off with each period and nothing else. -/
theorem exec_parts_left {c c' : ControlState} {as : List FeedAct} (h : c.feeder.Counts)
    (hlt : expirations as < c.feeder.feedFoodNum.toNat) (hx : exec feedStep c as = some c') :
    c'.feeder.Counts ∧ c'.feeder.feedFoodNum.toNat + expirations as = c.feeder.feedFoodNum.toNat := by
  induction as generalizing c with
  | nil =>
    simp only [exec_nil, Option.some.injEq] at hx
    subst hx
    exact ⟨h, rfl⟩
  | cons a as ih =>
    obtain ⟨u, hs, hx⟩ := exec_cons.1 hx
    have hn : c.feeder.feedFoodNum ≠ 0 := fun h0 => by simp [h0] at hlt
    cases a with
    | start num =>
      simp only [feedStep, handle_feedfoodStart, Option.some.injEq, feedFood_busy hn] at hs
      subst hs
      exact ih h hlt hx
    | expire =>
      have ht : c.feeder.timer = true := by simp [h.timer, hn]
      simp only [feedStep, ht, if_true, Option.some.injEq] at hs
      subst hs
      obtain ⟨hc, hnum⟩ := h.expire hn
      simp only [expirations] at hlt ⊢
      obtain ⟨hc', hnum'⟩ := ih hc (by simp only [hnum]; omega) hx
      simp only [hnum] at hnum'
      exact ⟨hc', by omega⟩

/-- With `n` parts left the motor runs for `n` periods. -/
theorem Feeder.Counts.runsFor {c : ControlState} (h : c.feeder.Counts) : RunsFor c c.feeder.feedFoodNum.toNat := by
  refine ⟨fun h0 hm => h.motoOn_iff.1 hm (UInt8.toNat.inj h0), fun as c' hx => ⟨fun hlt => ?_, fun heq c'' hs => ?_⟩⟩
  · obtain ⟨hc, hnum⟩ := exec_parts_left h hlt hx
    have hn : c'.feeder.feedFoodNum ≠ 0 := fun h0 => by simp [h0] at hnum; omega
    exact ⟨hc.motoOn_iff.2 hn, by simp [hc.timer, hn]⟩
  · obtain ⟨hc, hnum⟩ := exec_parts_left h (by omega) hx
    have hn : c'.feeder.feedFoodNum ≠ 0 := fun h0 => by simp [h0] at hnum; omega
    have ht : c'.feeder.timer = true := by simp [hc.timer, hn]
    simp only [feedStep, ht, if_true, Option.some.injEq] at hs
    subst hs
    obtain ⟨hc', hnum'⟩ := hc.expire hn
    rw [hc'.motoOn_iff, not_not]
    exact UInt8.toNat.inj (by rw [hnum']; simp; omega)

/-- The motor is off after as many periods as there are parts left. -/
theorem Feeder.Counts.stops {c : ControlState} (h : c.feeder.Counts) :
    ∃ as c', exec feedStep c as = some c' ∧ expirations as = c.feeder.feedFoodNum.toNat ∧ ¬ c'.feeder.MotoOn := by
  obtain ⟨n, hn⟩ : ∃ n, c.feeder.feedFoodNum.toNat = n := ⟨_, rfl⟩
  induction n generalizing c with
  | zero => exact ⟨[], c, rfl, hn.symm, fun hm => h.motoOn_iff.1 hm (UInt8.toNat.inj hn)⟩
  | succ n ih =>
    have hne : c.feeder.feedFoodNum ≠ 0 := fun h0 => by simp [h0] at hn
    obtain ⟨hc, hnum⟩ := h.expire hne
    have hs : feedStep c .expire =
        some { c with feeder := feedfoodTimerCallback { c.feeder with timer := false } } := by
      simp [feedStep, h.timer, hne]
    obtain ⟨as, c', hx, he, hm⟩ := ih (c := { c with feeder := feedfoodTimerCallback { c.feeder with timer := false } })
      hc (by simp only [hnum]; omega)
    refine ⟨.expire :: as, c', exec_cons.2 ⟨_, hs, hx⟩, ?_, hm⟩
    simp only [expirations, he, hnum]
    omega

/-- A step is as it is to be exactly when an accepted request is in range. -/
theorem feedOk_iff {c : ControlState} (h : c.feeder.Counts) (a : FeedAct) : FeedOk c a ↔ InRange c a := by
  constructor
  · intro hok num ha hn
    subst ha
    obtain ⟨hmoto, hruns⟩ := hok _ rfl
    have hruns := hruns num rfl hn
    simp only [handle_feedfoodStart, feedFood_idle hn] at hmoto hruns
    have hne : num.toUInt8 ≠ 0 := hmoto.1 rfl
    have hmod : num.toUInt8.toNat = num.toNat % 256 := UInt32.toNat_toUInt8 num
    have hpos : num.toUInt8.toNat ≠ 0 := fun h0 => hne (UInt8.toNat.inj h0)
    refine ⟨by omega, Nat.le_of_not_lt fun hgt => ?_⟩
    -- The motor is off after `num % 256` periods already.
    obtain ⟨as, c', hx, he, hm⟩ := Feeder.Counts.stops
      (c := { c with feeder := { feedFoodNum := num.toUInt8, moto := feedMoto true, timer := true } })
      ⟨by simp [hne], by simp [hne]⟩
    simp only at he
    exact hm ((hruns.2 as c' hx).1 (by omega)).1
  · intro ha c' hs
    have hc := feedStep_counts h ha hs
    refine ⟨hc.motoOn_iff, ?_⟩
    intro num heq hn
    subst heq
    have hr := ha num rfl hn
    have hnum : c'.feeder.feedFoodNum.toNat = num.toNat := by
      simp only [feedStep, handle_feedfoodStart, Option.some.injEq, feedFood_idle hn] at hs
      subst hs
      rw [UInt32.toNat_toUInt8]
      omega
    rw [← hnum]
    exact hc.runsFor

/-- **The feeder obeys its law exactly on runs whose accepted requests are in
range**: after every step the motor runs if and only if parts are left, and each
request accepted from the idle feeder runs the motor for as many periods as it
asks, if and only if every such request asks for 1 to 255 parts. -/
theorem feeder_law_iff (as : List FeedAct) :
    Along feedStep FeedOk .start as ↔ Along feedStep InRange .start as :=
  along_iff (J := fun c => c.feeder.Counts) start_counts as (fun _ _ _ h hin hs => feedStep_counts h hin hs)
    fun _ a h => feedOk_iff h a

/-- A request for 256 parts is a request for none: the motor starts and no part is left. -/
theorem feeder_law_fails_at_256 : ¬ ∀ as, Along feedStep FeedOk .start as := by
  intro h
  obtain ⟨hmoto, -⟩ := (h [.start 256]).1 _ rfl
  exact hmoto.1 rfl rfl

end Petbox.Control
