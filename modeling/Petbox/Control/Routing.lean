/-
The two message queues of the petbox: who puts what on which queue
(`hal/control.c`, `drivers/`, `app/keyboard.c`, `tuya/system.c`,
`tuya/protocol.c`, the two tasks), and what the tasks at their ends do with it.

Both queues carry the same `T_IO_MSG`, and each task drops a message of a type
that is not its own. Every sender uses the queue of the task it means, but one:
the feed key's message for the control task goes to the queue of the app task
that sends it.

What a handler does besides sending is kept as the list of its effects.
-/
import Petbox.Control.Ack
import Petbox.Control.AutoFeed

namespace Petbox.Control

open Machine

/-! ## Messages and queues -/

def customMsgWifiReset : UInt16 := 0
def customMsgWifiState : UInt16 := 1
def customMsgWifiSend : UInt16 := 2
def customMsgBatteryStatus : UInt16 := 0
def customMsgBatteryPowermode : UInt16 := 1
def customMsgBatteryCap : UInt16 := 2
def customMsgBatteryLowpower : UInt16 := 3
def wifiConnCloud : UInt8 := 0x04
def dpidWirelessElectricity : UInt8 := 145
def dpidWirelessPowermode : UInt8 := 146

/-- The queue a message is put on: `app_send_msg` or `control_send_msg`. -/
inductive Send
  | app (msg : IoMsg)
  | control (msg : IoMsg)
  deriving DecidableEq, Repr

/-- What `app_handle_io_msg` does with a message. -/
inductive AppEffect
  | send (s : Send)
  | resetWifi
  | upload (u : Upload)
  | getMaopi
  deriving DecidableEq, Repr

/-! ## The keyboard -/

inductive KeyStatus
  | null
  | sure
  | up
  | down
  | long
  deriving DecidableEq, Repr

/-- `T_KEY_EVENT`. -/
inductive KeyEvent
  | null
  | up
  | down
  | long
  deriving DecidableEq, Repr

def KeyEvent.code : KeyEvent → UInt32
  | .null => 0
  | .up => 1
  | .down => 2
  | .long => 3

def keyConfig : UInt16 := 0
def keyFeed : UInt16 := 1
def keyEventLongCount : UInt8 := 100

/-- `ST_KeyBoard` without its pin; the levels are `KEY_HIGH` or not. -/
structure Key where
  keyShield : Bool
  keyCount : UInt8
  keyLevel : Bool
  keyDownLevel : Bool
  keyStatus : KeyStatus
  keyEvent : KeyEvent
  deriving DecidableEq, Repr

def Key.start : Key :=
  { keyShield := true, keyCount := 0, keyLevel := false, keyDownLevel := false, keyStatus := .null, keyEvent := .null }

/-- `KeyReadLevel`, with the level of the key's pin. -/
def keyReadLevel (pin : Bool) (k : Key) : Key :=
  if k.keyShield then { k with keyLevel := pin == k.keyDownLevel } else k

/-- One pass of the loop of `ReadKeyStatus`, up to the test of the event. -/
def readKey (pin : Bool) (k : Key) : Key :=
  let k := keyReadLevel pin k
  match k.keyStatus with
  | .null => if k.keyLevel then { k with keyStatus := .sure, keyEvent := .null } else { k with keyEvent := .null }
  | .sure =>
    if k.keyLevel then { k with keyStatus := .down, keyEvent := .down, keyCount := 0 }
    else { k with keyStatus := .null, keyEvent := .null }
  | .down =>
    if ¬ k.keyLevel then { k with keyStatus := .up, keyEvent := .up }
    else if k.keyCount + 1 ≥ keyEventLongCount then
      { k with keyCount := k.keyCount + 1, keyStatus := .long, keyEvent := .long }
    else { k with keyCount := k.keyCount + 1, keyEvent := .null }
  | .long =>
    if ¬ k.keyLevel then { k with keyStatus := .up, keyEvent := .null }
    else if k.keyCount ≥ keyEventLongCount then { k with keyStatus := .long, keyEvent := .null }
    else { k with keyEvent := .null }
  | .up => if ¬ k.keyLevel then { k with keyStatus := .null, keyEvent := .null, keyCount := 0 } else k

/-- The message for an event of key `i`. -/
def keySends (i : UInt16) (k : Key) : List Send :=
  if k.keyEvent ≠ .null then [.app ⟨customMsgKeyboard, i, k.keyEvent.code⟩] else []

/-! ## The other senders -/

/-- `control_feed_num`. -/
def controlFeedNumSends (num : UInt32) : List Send := [.control (feedfoodStart num), .control playVoice]

/-- `control_feed_water`. -/
def controlFeedWaterSends (water : UInt8) : List Send :=
  [.control ⟨customMsgControl, controlMsgFeedwater, water.toUInt32⟩, .control playVoice]

/-- `FEED_WATER_DET_HANDLER`: the new `water_timer`, and what `control_feed_water` is called with. -/
def feedWaterDetHandler (autoFeed : Bool) (test arm : Nat) (waterTimer : Timer) : Timer × Option UInt8 :=
  if autoFeed then
    if expired (halGetTimeMs test) waterTimer then (countdown (halGetTimeMs arm) (30 * 60) initTimer, some 1)
    else (waterTimer, none)
  else (waterTimer, none)

/-- `EXCEPTION_REPORT_FREQ / EXCEPTION_CHECK_FREQ`. -/
def exceptionReportCount : UInt8 := 12

/-- One half of `device_status_check_callback`: a pin, its counter, and the message for it. -/
def deviceStatusCheck (pin : Bool) (subtype : UInt16) (count : UInt8) : UInt8 × List Send :=
  if pin then ((count + 1) % exceptionReportCount, if count = 0 then [.control ⟨customMsgControl, subtype, 0⟩] else [])
  else (0, [])

/-- `FOOD_STUCK_DET_HANDLER`. -/
def foodStuckDetHandler : List Send := [.control ⟨customMsgControl, controlMsgFoodstuck, 0⟩]

/-- `weight_timer_callback`. -/
def weightTimerCallback (weight : UInt32) : List Send := [.control ⟨customMsgControl, controlMsgReportRemain, weight⟩]

def customBatteryTimerId : UInt32 := 0x600

/-- `battery_timer_callback`. -/
def batteryTimerCallback (timerId : UInt32) (percent : UInt8) : List Send :=
  if timerId = customBatteryTimerId then [.app ⟨customMsgBattery, customMsgBatteryCap, percent.toUInt32⟩] else []

/-- The case `WIFI_STATE_CMD` of `data_handle`. -/
def wifiStateCmd (wifiWorkState : UInt8) : List Send :=
  [.app ⟨customMsgWifi, customMsgWifiState, wifiWorkState.toUInt32⟩]

/-! ## The app task -/

/-- `app_handle_io_msg`. -/
def appHandleIoMsg (m : IoMsg) : List AppEffect :=
  if m.type = customMsgWifi then
    if m.subtype = customMsgWifiReset then [.resetWifi]
    else if m.subtype = customMsgWifiState then
      if m.param.toUInt8 = wifiConnCloud then [.send (.control ⟨customMsgControl, controlMsgInit, 0⟩)] else []
    else []
  else if m.type = customMsgKeyboard then
    let keycode := m.subtype.toUInt8
    let keyaction := m.param.toUInt8
    if keyaction = KeyEvent.up.code.toUInt8 then
      if keycode = keyFeed.toUInt8 then [.send (.app ⟨customMsgControl, controlMsgFeedfoodStart, 1⟩)] else []
    else if keyaction = KeyEvent.down.code.toUInt8 then []
    else if keyaction = KeyEvent.long.code.toUInt8 then
      if keycode = keyConfig.toUInt8 then [.send (.app ⟨customMsgWifi, customMsgWifiReset, 0⟩)]
      else if keycode = keyFeed.toUInt8 then [.getMaopi]
      else []
    else []
  else if m.type = customMsgBattery then
    if m.subtype = customMsgBatteryPowermode then [.upload (.enumUpdate dpidWirelessPowermode m.param.toUInt8)]
    else if m.subtype = customMsgBatteryCap then
      [.upload (.valueUpdate dpidWirelessElectricity m.param.toUInt8.toUInt32)]
    else []
  else []

def AppEffect.toSend : AppEffect → Option Send
  | .send s => some s
  | _ => none

/-- The messages among the effects. -/
def appSends (m : IoMsg) : List Send := (appHandleIoMsg m).filterMap AppEffect.toSend

/-- The types `app_handle_io_msg` has a branch for. -/
def AppHandles (type : UInt16) : Prop := type = customMsgWifi ∨ type = customMsgKeyboard ∨ type = customMsgBattery

/-- The message of a short press of the feed key. -/
def feedKeyUp : IoMsg := ⟨customMsgKeyboard, keyFeed, KeyEvent.up.code⟩

/-- The app task reads a short press of the feed key. -/
def IsPress (m : IoMsg) : Prop :=
  m.type = customMsgKeyboard ∧ m.subtype.toUInt8 = keyFeed.toUInt8 ∧ m.param.toUInt8 = KeyEvent.up.code.toUInt8

instance (m : IoMsg) : Decidable (IsPress m) :=
  inferInstanceAs (Decidable (m.type = customMsgKeyboard ∧ m.subtype.toUInt8 = keyFeed.toUInt8 ∧
    m.param.toUInt8 = KeyEvent.up.code.toUInt8))

/-! ## The petbox as a state machine -/

/-- The two queues, and what the senders keep between their calls. A queued
message carries the number of the press it was sent for, if it was; `handled`
is what `control_handle_io_msg` was called with, the last call first. -/
structure Box where
  appQueue : List (IoMsg × Option Nat)
  controlQueue : List (IoMsg × Option Nat)
  config : Key
  feed : Key
  autoFeed : Bool
  foodTimer : Timer
  waterTimer : Timer
  stuckCount : UInt8
  waterLevelCount : UInt8
  presses : Nat
  handled : List (IoMsg × Option Nat)

def Box.start : Box where
  appQueue := []
  controlQueue := []
  config := .start
  feed := .start
  autoFeed := true
  foodTimer := { endTime := 0 }
  waterTimer := { endTime := 0 }
  stuckCount := 0
  waterLevelCount := 0
  presses := 0
  handled := []

/-- What can happen: the keyboard timer with the levels of the two pins, the
other timers and interrupts, the commands of the wifi module that reach a
queue, and a round of each of the two tasks. -/
inductive BoxAct
  | keyboard (config feed : Bool)
  | battery (timerId : UInt32) (percent : UInt8)
  | weight (weight : UInt32)
  | deviceStatus (waterLow stuck : Bool)
  | waterDet (test arm : Nat)
  | foodDet (test arm : Nat)
  | foodStuck
  | wifiState (state : UInt8)
  | feedNum (value : Nat → UInt8)
  | waterNum (value : UInt8)
  | usageMode (value : UInt8)
  | appTask
  | controlTask

/-- `app_send_msg` and `control_send_msg`, for the press `tag`. -/
def Box.send (tag : Option Nat) (s : Box) : Send → Box
  | .app m => { s with appQueue := (osMsgSend s.appQueue (m, tag)).1 }
  | .control m => { s with controlQueue := (osMsgSend s.controlQueue (m, tag)).1 }

def Box.sends (s : Box) (tag : Option Nat) (ms : List Send) : Box := ms.foldl (Box.send tag) s

/-- The press a message is handled for: a press is numbered when it is read. -/
def Box.pressOf (s : Box) (m : IoMsg) (tag : Option Nat) : Option Nat := if IsPress m then some s.presses else tag

/-- `app_main_task` between two of its waits. -/
def Box.appTask (s : Box) : Box :=
  match s.appQueue with
  | [] => s
  | (m, tag) :: appQueue =>
    { s with appQueue, presses := if IsPress m then s.presses + 1 else s.presses }.sends (s.pressOf m tag) (appSends m)

/-- `control_main_task` between two of its waits. -/
def Box.controlTask (s : Box) : Box :=
  match s.controlQueue with
  | [] => s
  | (m, tag) :: controlQueue =>
    { s with controlQueue, handled := if m.type = customMsgControl then (m, tag) :: s.handled else s.handled }

def boxStep (s : Box) : BoxAct → Option Box
  | .keyboard pin pin' =>
    let s := { s with config := readKey pin s.config, feed := readKey pin' s.feed }
    some (s.sends none (keySends keyConfig s.config ++ keySends keyFeed s.feed))
  | .battery timerId percent => some (s.sends none (batteryTimerCallback timerId percent))
  | .weight weight => some (s.sends none (weightTimerCallback weight))
  | .deviceStatus waterLow stuck =>
    let water := deviceStatusCheck waterLow controlMsgWaterLow s.waterLevelCount
    let food := deviceStatusCheck stuck controlMsgFoodstuck s.stuckCount
    some ({ s with waterLevelCount := water.1, stuckCount := food.1 }.sends none (water.2 ++ food.2))
  | .waterDet test arm =>
    let r := feedWaterDetHandler s.autoFeed test arm s.waterTimer
    some ({ s with waterTimer := r.1 }.sends none (r.2.elim [] controlFeedWaterSends))
  | .foodDet test arm =>
    let r := feedFoodDetHandler s.autoFeed test arm s.foodTimer
    some ({ s with foodTimer := r.1 }.sends none (r.2.elim [] controlFeedNumSends))
  | .foodStuck => some (s.sends none foodStuckDetHandler)
  | .wifiState state => some (s.sends none (wifiStateCmd state))
  | .feedNum value => some (s.sends none (controlFeedNumSends (byteToInt value)))
  | .waterNum value => some (s.sends none (controlFeedWaterSends value))
  | .usageMode value => some { s with autoFeed := value != 0 }
  | .appTask => some s.appTask
  | .controlTask => some s.controlTask

/-! ## What is to hold, and when it does -/

/-- What the control task handled for press `r`, the last message first. -/
def Box.handledFor (s : Box) (r : Nat) : List IoMsg :=
  (s.handled.filter fun x => x.2 == some r).map Prod.fst

/-- The app task reads a press with this action. -/
def ReadsPress (s : Box) (a : BoxAct) : Prop :=
  a = .appTask ∧ ∃ m tag rest, s.appQueue = (m, tag) :: rest ∧ IsPress m

/-- Every message is on the queue of a task that handles it, and every press
comes to one START message for one part that the control task handles. -/
structure Routed (ρ : InfRun boxStep .start) : Prop where
  control : ∀ i, ∀ x ∈ (ρ.state i).controlQueue, x.1.type = customMsgControl
  app : ∀ i, ∀ x ∈ (ρ.state i).appQueue, AppHandles x.1.type
  served : ∀ i, ReadsPress (ρ.state i) (ρ.act i) →
    ∃ k, ∀ j, k ≤ j → (ρ.state j).handledFor (ρ.state i).presses = [feedfoodStart 1]

/-! ## What the senders send -/

/-- A message on the queue of a task that handles it. -/
def Send.Ok : Send → Prop
  | .app m => AppHandles m.type
  | .control m => m.type = customMsgControl

def SendsOk (ms : List Send) : Prop := ∀ x ∈ ms, x.Ok

theorem SendsOk.nil : SendsOk [] := fun _ hx => absurd hx List.not_mem_nil

theorem SendsOk.cons {x : Send} {ms : List Send} (hx : x.Ok) (h : SendsOk ms) : SendsOk (x :: ms) := by
  intro y hy
  rcases List.mem_cons.1 hy with rfl | hy
  · exact hx
  · exact h y hy

theorem SendsOk.append {ms ms' : List Send} (h : SendsOk ms) (h' : SendsOk ms') : SendsOk (ms ++ ms') :=
  fun x hx => (List.mem_append.1 hx).elim (h x) (h' x)

theorem SendsOk.elim {β : Type} {f : β → List Send} (hf : ∀ b, SendsOk (f b)) (r : Option β) :
    SendsOk (r.elim [] f) := by
  cases r with
  | none => exact .nil
  | some b => exact hf b

theorem keySends_ok (i : UInt16) (k : Key) : SendsOk (keySends i k) := by
  unfold keySends
  split
  · exact .cons (.inr (.inl rfl)) .nil
  · exact .nil

theorem controlFeedNumSends_ok (num : UInt32) : SendsOk (controlFeedNumSends num) := .cons rfl (.cons rfl .nil)

theorem controlFeedWaterSends_ok (water : UInt8) : SendsOk (controlFeedWaterSends water) := .cons rfl (.cons rfl .nil)

theorem deviceStatusCheck_ok (pin : Bool) (subtype : UInt16) (count : UInt8) :
    SendsOk (deviceStatusCheck pin subtype count).2 := by
  unfold deviceStatusCheck
  by_cases hpin : pin = true
  · rw [if_pos hpin]
    by_cases hcount : count = 0
    · simp only [if_pos hcount]
      exact .cons rfl .nil
    · simp only [if_neg hcount]
      exact .nil
  · rw [if_neg hpin]
    exact .nil

theorem batteryTimerCallback_ok (timerId : UInt32) (percent : UInt8) :
    SendsOk (batteryTimerCallback timerId percent) := by
  unfold batteryTimerCallback
  split
  · exact .cons (.inr (.inr rfl)) .nil
  · exact .nil

/-- For a press the app task sends to itself. -/
theorem appSends_press {m : IoMsg} (h : IsPress m) :
    appSends m = [.app ⟨customMsgControl, controlMsgFeedfoodStart, 1⟩] := by
  have hw : ¬ m.type = customMsgWifi := by rw [h.1]; decide
  unfold appSends appHandleIoMsg
  rw [if_neg hw, if_pos h.1]
  simp only [h.2.1, h.2.2, if_true]
  rfl

/-- Whatever else the app task reads, its messages are on the right queue. -/
theorem appSends_ok {m : IoMsg} (h : ¬ IsPress m) : SendsOk (appSends m) := by
  have hreset : Send.Ok (.app ⟨customMsgWifi, customMsgWifiReset, 0⟩) := .inl rfl
  unfold appSends appHandleIoMsg
  split
  · split
    · exact .nil
    · split
      · split
        · exact .cons rfl .nil
        · exact .nil
      · exact .nil
  · split
    · next hk =>
      simp only
      split
      · next hup =>
        split
        · next hfeed => exact absurd ⟨hk, hfeed, hup⟩ h
        · exact .nil
      · split
        · exact .nil
        · split
          · split
            · exact .cons hreset .nil
            · split <;> exact .nil
          · exact .nil
    · split
      · split
        · exact .nil
        · split <;> exact .nil
      · exact .nil

/-- The messages of a sender, which leaves the queues alone otherwise. -/
def SentBySender (s s' : Box) : Prop :=
  ∃ t ms, s' = Box.sends t none ms ∧ t.appQueue = s.appQueue ∧ t.controlQueue = s.controlQueue ∧ SendsOk ms

/-- Everything a step can do: one of the senders, or a round of a task. -/
theorem boxStep_cases {s s' : Box} {a : BoxAct} (h : boxStep s a = some s') :
    (a ≠ .appTask ∧ SentBySender s s') ∨ (a = .appTask ∧ s' = s.appTask) ∨ (a = .controlTask ∧ s' = s.controlTask) := by
  have hsome {t : Box} (ht : some t = some s') : s' = t := (Option.some.inj ht).symm
  cases a with
  | keyboard pin pin' => exact .inl ⟨by simp, _, _, hsome h, rfl, rfl, (keySends_ok _ _).append (keySends_ok _ _)⟩
  | battery timerId percent => exact .inl ⟨by simp, _, _, hsome h, rfl, rfl, batteryTimerCallback_ok timerId percent⟩
  | weight weight => exact .inl ⟨by simp, _, _, hsome h, rfl, rfl, .cons rfl .nil⟩
  | deviceStatus waterLow stuck =>
    exact .inl ⟨by simp, _, _, hsome h, rfl, rfl, (deviceStatusCheck_ok _ _ _).append (deviceStatusCheck_ok _ _ _)⟩
  | waterDet test arm => exact .inl ⟨by simp, _, _, hsome h, rfl, rfl, .elim controlFeedWaterSends_ok _⟩
  | foodDet test arm => exact .inl ⟨by simp, _, _, hsome h, rfl, rfl, .elim controlFeedNumSends_ok _⟩
  | foodStuck => exact .inl ⟨by simp, _, _, hsome h, rfl, rfl, .cons rfl .nil⟩
  | wifiState state => exact .inl ⟨by simp, _, _, hsome h, rfl, rfl, .cons (.inl rfl) .nil⟩
  | feedNum value => exact .inl ⟨by simp, _, _, hsome h, rfl, rfl, controlFeedNumSends_ok _⟩
  | waterNum value => exact .inl ⟨by simp, _, _, hsome h, rfl, rfl, controlFeedWaterSends_ok value⟩
  | usageMode value => exact .inl ⟨by simp, _, [], hsome h, rfl, rfl, .nil⟩
  | appTask => exact .inr (.inl ⟨rfl, hsome h⟩)
  | controlTask => exact .inr (.inr ⟨rfl, hsome h⟩)

/-! ## The queues -/

/-- Every queued message is for the task it is queued for. -/
structure Box.Typed (s : Box) : Prop where
  control : ∀ x ∈ s.controlQueue, x.1.type = customMsgControl
  app : ∀ x ∈ s.appQueue, AppHandles x.1.type

theorem mem_osMsgSend {β : Type} {q : List β} {m x : β} (h : x ∈ (osMsgSend q m).1) : x ∈ q ∨ x = m := by
  rcases osMsgSend_eq q m with ⟨-, hq⟩ | ⟨-, hq⟩
  · rw [hq] at h
    rcases List.mem_append.1 h with h | h
    · exact .inl h
    · exact .inr (List.mem_singleton.1 h)
  · exact .inl (hq ▸ h)

theorem length_osMsgSend_le {β : Type} {q : List β} (m : β) (h : q.length ≤ maxNumberOfIoMessage) :
    (osMsgSend q m).1.length ≤ maxNumberOfIoMessage := by
  rcases osMsgSend_eq q m with ⟨hlt, hq⟩ | ⟨-, hq⟩
  · rw [hq, List.length_append, List.length_singleton]
    exact hlt
  · rw [hq]
    exact h

theorem Box.Typed.sends {s : Box} (h : s.Typed) (tag : Option Nat) {ms : List Send} (hms : SendsOk ms) :
    (s.sends tag ms).Typed := by
  induction ms generalizing s with
  | nil => exact h
  | cons x ms ih =>
    refine ih ?_ fun y hy => hms y (List.mem_cons_of_mem _ hy)
    have hx := hms x (List.mem_cons_self ..)
    cases x with
    | app m =>
      refine ⟨h.control, fun y hy => ?_⟩
      rcases mem_osMsgSend hy with hy | rfl
      · exact h.app y hy
      · exact hx
    | control m =>
      refine ⟨fun y hy => ?_, h.app⟩
      rcases mem_osMsgSend hy with hy | rfl
      · exact h.control y hy
      · exact hx

theorem length_sends_le {s : Box} (h : s.appQueue.length ≤ maxNumberOfIoMessage) (tag : Option Nat) (ms : List Send) :
    (s.sends tag ms).appQueue.length ≤ maxNumberOfIoMessage := by
  induction ms generalizing s with
  | nil => exact h
  | cons x ms ih =>
    refine ih ?_
    cases x with
    | app m => exact length_osMsgSend_le _ h
    | control m => exact h

/-- The control task takes from its queue, and does nothing to the other. -/
theorem controlTask_queues (s : Box) :
    s.controlTask.appQueue = s.appQueue ∧ ∀ x ∈ s.controlTask.controlQueue, x ∈ s.controlQueue := by
  unfold Box.controlTask
  split
  · exact ⟨rfl, fun x hx => hx⟩
  · next m tag rest hq => exact ⟨rfl, fun x hx => hq ▸ List.mem_cons_of_mem _ hx⟩

/-- A step that reads no press keeps every message on the right queue. -/
theorem Box.Typed.step {s s' : Box} {a : BoxAct} (h : s.Typed) (hno : ¬ ReadsPress s a) (hs : boxStep s a = some s') :
    s'.Typed := by
  rcases boxStep_cases hs with ⟨-, t, ms, rfl, happ, hcontrol, hms⟩ | ⟨ha, rfl⟩ | ⟨-, rfl⟩
  · have ht : t.Typed := ⟨hcontrol ▸ h.control, happ ▸ h.app⟩
    exact ht.sends none hms
  · unfold Box.appTask
    split
    · exact h
    · next m tag rest hq =>
      have hm : ¬ IsPress m := fun hm => hno ⟨ha, m, tag, rest, hq, hm⟩
      have hrest : ∀ x ∈ rest, AppHandles x.1.type := fun x hx => h.app x (hq ▸ List.mem_cons_of_mem _ hx)
      exact Box.Typed.sends
        (s := { s with appQueue := rest, presses := if IsPress m then s.presses + 1 else s.presses })
        ⟨h.control, hrest⟩ _ (appSends_ok hm)
  · obtain ⟨happ, hcontrol⟩ := controlTask_queues s
    exact ⟨fun x hx => h.control x (hcontrol x hx), happ ▸ h.app⟩

/-- The app queue never holds more than it has room for. -/
theorem appQueue_room (s : Box) (a : BoxAct) (s' : Box) (h : s.appQueue.length ≤ maxNumberOfIoMessage)
    (hs : boxStep s a = some s') : s'.appQueue.length ≤ maxNumberOfIoMessage := by
  rcases boxStep_cases hs with ⟨-, t, ms, rfl, happ, -, -⟩ | ⟨-, rfl⟩ | ⟨-, rfl⟩
  · exact length_sends_le (happ ▸ h) none ms
  · unfold Box.appTask
    split
    · exact h
    · next m tag rest hq =>
      rw [hq, List.length_cons] at h
      exact length_sends_le (Nat.le_of_succ_le h) _ _
  · rw [(controlTask_queues s).1]
    exact h

/-- Reading a press leaves a message on the app queue that the app task drops. -/
theorem not_typed_of_press {s s' : Box} {a : BoxAct} (hroom : s.appQueue.length ≤ maxNumberOfIoMessage)
    (h : ReadsPress s a) (hs : boxStep s a = some s') : ¬ s'.Typed := by
  obtain ⟨rfl, m, tag, rest, hq, hm⟩ := h
  rw [hq, List.length_cons] at hroom
  obtain rfl := Option.some.inj hs
  intro htyped
  have happ : s.appTask.appQueue =
      rest ++ [(⟨customMsgControl, controlMsgFeedfoodStart, 1⟩, s.pressOf m tag)] := by
    unfold Box.appTask
    rw [hq]
    simp only [appSends_press hm, Box.sends, List.foldl_cons, List.foldl_nil, Box.send]
    rcases osMsgSend_eq rest ((⟨customMsgControl, controlMsgFeedfoodStart, 1⟩ : IoMsg), s.pressOf m tag) with
      ⟨-, hsend⟩ | ⟨hfull, -⟩
    · exact hsend
    · omega
  have hdropped : ¬ AppHandles customMsgControl := by unfold AppHandles; decide
  exact hdropped (htyped.app (⟨customMsgControl, controlMsgFeedfoodStart, 1⟩, s.pressOf m tag) (by rw [happ]; simp))

/-! ## Whole runs -/

theorem run_typed {ρ : InfRun boxStep .start} (hno : ∀ i, ¬ ReadsPress (ρ.state i) (ρ.act i)) (i : Nat) :
    (ρ.state i).Typed := by
  induction i with
  | zero =>
    rw [ρ.start]
    exact ⟨fun x hx => absurd hx List.not_mem_nil, fun x hx => absurd hx List.not_mem_nil⟩
  | succ i ih => exact ih.step (hno i) (ρ.next i)

theorem run_room (ρ : InfRun boxStep .start) (i : Nat) : (ρ.state i).appQueue.length ≤ maxNumberOfIoMessage :=
  ρ.inv (I := fun s => s.appQueue.length ≤ maxNumberOfIoMessage) (by decide) appQueue_room i

/-- **The petbox routes its messages exactly as long as nobody presses the feed
key.** In every run, whatever the timers, the interrupts, the wifi module and
the two tasks do and in whatever order: every queued message is for the task it
is queued for and every short press comes to one START message for one part
handled by the control task, if and only if the app task reads no short press. -/
theorem messages_routed_iff (ρ : InfRun boxStep .start) :
    Routed ρ ↔ ∀ i, ¬ ReadsPress (ρ.state i) (ρ.act i) := by
  constructor
  · intro h i hpress
    exact not_typed_of_press (run_room ρ i) hpress (ρ.next i) ⟨h.control (i + 1), h.app (i + 1)⟩
  · intro hno
    exact ⟨fun i => (run_typed hno i).control, fun i => (run_typed hno i).app, fun i h => absurd h (hno i)⟩

/-- The feed key is down for two rounds of the keyboard timer and up in the third. -/
def pressActs : List BoxAct := [.keyboard true false, .keyboard true false, .keyboard true true, .appTask, .appTask]

/-- A short press is read, and its message is dropped. -/
theorem press_not_routed : ¬ ∀ ρ : InfRun boxStep .start, Routed ρ := by
  intro h
  obtain ⟨s, hs⟩ : ∃ s, exec boxStep .start pressActs = some s := ⟨_, rfl⟩
  have hidle : boxStep s .controlTask = some s := by
    obtain rfl := Option.some.inj hs
    rfl
  have hrouted := h (InfRun.stutter hs hidle)
  have hpress : ReadsPress ((InfRun.stutter hs hidle).state 4) ((InfRun.stutter hs hidle).act 4) :=
    ⟨rfl, feedKeyUp, none, [], rfl, by decide⟩
  exact not_typed_of_press (run_room _ 4) hpress ((InfRun.stutter hs hidle).next 4) ⟨hrouted.control 5, hrouted.app 5⟩

end Petbox.Control
