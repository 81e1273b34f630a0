/-
The device's side of the module protocol: `data_handle` with the answers it
makes (`tuya/system.c`), and the functions of `tuya/mcu_api.c` that send to the
module without being asked.

A session is what a run of these comes to: the frames sent, the registers the
SDK keeps, and the messages for the two tasks. Every handled frame and every
call does to the SDK what its event does to the session (`Shows.run`).
-/
import Petbox.Control.Routing
import Petbox.Lib.CString
import Petbox.Wifi.DataPoint

namespace Petbox.Wifi

open CStr Mem Pack
open Petbox.Control (Send controlFeedNumSends controlFeedWaterSends dpidFeedNum)

def heatBeatCmd : UInt8 := 0
def productInfoCmd : UInt8 := 1
def workModeCmd : UInt8 := 2
def wifiStateCmd : UInt8 := 3
def wifiResetCmd : UInt8 := 4
def wifiModeCmd : UInt8 := 5
def dataQuertCmd : UInt8 := 6
def stateQueryCmd : UInt8 := 8
def wifiTestCmd : UInt8 := 0x0e
def voiceRecordStartCmd : UInt8 := 0xa0
def voiceRecordStopCmd : UInt8 := 0xa1
def voicePlayRecordCmd : UInt8 := 0xa2

def resetWifiError : UInt8 := 0
def resetWifiSuccess : UInt8 := 1
def setWificonfigError : UInt8 := 0
def setWificonfigSuccess : UInt8 := 1
def wifiSateUnknow : UInt8 := 0xff
def disable : UInt8 := 0

def productKey : String := "qp4ugawf8wxflwtx"
def mcuVer : String := "1.0.0"

/-- `CONFIG_MODE`, which is `CONFIG_MODE_SPECIAL`. -/
def configMode : String := "2"

/-- The variables of the SDK besides its receive side, `mcu_reset_state` of
`heat_beat_check`, `g_auto_feed_flag`, and the messages sent to the two tasks. -/
structure Sdk where
  uart : Uart
  mcuResetState : UInt8
  resetWifiFlag : UInt8
  setWifimodeFlag : UInt8
  wifiWorkState : UInt8
  autoFeed : Bool
  sends : List Send

/-- After `wifi_protocol_init`; the transmit buffer holds anything. -/
def Sdk.init (txBuf : Nat → UInt8) : Sdk where
  uart := ⟨txBuf, disable, []⟩
  mcuResetState := dpFalse
  resetWifiFlag := resetWifiError
  setWifimodeFlag := setWificonfigError
  wifiWorkState := wifiSateUnknow
  autoFeed := true
  sends := []

/-- What the build decides: `Env`, and for which string literals `my_memcpy` counts up. -/
structure Site extends Env where
  up : String → Bool

/-- A build without anything behind the table. -/
def Site.plain : Site := ⟨⟨⟨0, 0⟩, 0⟩, fun _ => true⟩

/-! ## Records with a length of 8 bits -/

/-- `length = set_wifi_uart_byte(length, byte)`. -/
def setByte (byte length : UInt8) : Emit UInt8 := do
  let len ← setWifiUartByte length.toUInt16 byte
  return len.toUInt8

/-- `my_strlen` of a string literal. -/
def myStrlen (str : String) : Nat := (cstr (ascii str)).length

/-- `length = set_wifi_uart_buffer(length, str, my_strlen(str))`. -/
def setText (site : Site) (str : String) (length : UInt8) : Emit UInt8 := do
  let len ← setWifiUartBuffer length.toUInt16 (some ⟨bufOf (ascii str), site.up str⟩) (UInt16.ofNat (myStrlen str))
  return len.toUInt8

/-- The record is written, and a frame made of it. -/
def Uart.sendFrame (u : Uart) (frType : UInt8) (record : Emit UInt8) : Uart :=
  wifiUartWriteFrame { u with txBuf := afterStores u.txBuf record.stores } frType mcuTxVer record.val.toUInt16

/-! ## Answers -/

def heatBeatCheck (s : Sdk) : Sdk :=
  if s.mcuResetState = dpFalse then
    { s with uart := s.uart.sendFrame heatBeatCmd (setByte 0 0), mcuResetState := 1 }
  else { s with uart := s.uart.sendFrame heatBeatCmd (setByte 1 0) }

/-- The record of `product_info_update`. -/
def productInfoRecord (site : Site) (length : UInt8) : Emit UInt8 := do
  let length ← setText site "\x7b\"p\":\"" length
  let length ← setText site productKey length
  let length ← setText site "\",\"v\":\"" length
  let length ← setText site mcuVer length
  let length ← setText site "\",\"m\":" length
  let length ← setText site configMode length
  setText site "\x7d" length

def productInfoUpdate (site : Site) (s : Sdk) : Sdk :=
  { s with uart := s.uart.sendFrame productInfoCmd (productInfoRecord site 0) }

def getMcuWifiMode (s : Sdk) : Sdk := { s with uart := s.uart.sendFrame workModeCmd (pure 0) }

def moduleRecord (status : UInt8) (u : Uart) : Uart :=
  if status ≠ 0 then u.sendFrame voiceRecordStartCmd (pure 0) else u.sendFrame voiceRecordStopCmd (pure 0)

def modulePlayVoice (num : UInt8) (u : Uart) : Uart := u.sendFrame voicePlayRecordCmd (setByte num 0)

/-- `all_data_update` reports nothing. -/
def allDataUpdate (s : Sdk) : Sdk := s

/-- `wifi_test_result` only logs. -/
def wifiTestResult (_result _rssi : UInt8) (s : Sdk) : Sdk := s

/-- The function a handler calls, `control_history` among them, which only logs. -/
def Sdk.carryOut (s : Sdk) : ControlAction → Sdk
  | .feedNum num => { s with sends := s.sends ++ controlFeedNumSends num }
  | .history _ => s
  | .record status => { s with uart := moduleRecord status s.uart }
  | .feedWater water => { s with sends := s.sends ++ controlFeedWaterSends water }
  | .setAutoFeed state => { s with autoFeed := state }

/-- The report at the end of a handler. -/
def Sdk.report (s : Sdk) (dpid : UInt8) (r : DpReport) : Sdk := { s with uart := (r.call dpid s.uart).2 }

/-- What comes of a data point is done: the action, then the report. -/
def Sdk.perform (s : Sdk) (out : DpOutcome) : Sdk :=
  let s := out.action.elim s s.carryOut
  out.report.elim s fun r => s.report r.1 r.2

/-- `data_handle`. A frame of no type named here is left alone. -/
def dataHandle (site : Site) (fuel : Nat) (buf : Nat → UInt8) (offset : Nat) (s : Sdk) : Option Sdk :=
  let cmdType := buf (offset + frameType)
  if cmdType = heatBeatCmd then some (heatBeatCheck s)
  else if cmdType = productInfoCmd then some (productInfoUpdate site s)
  else if cmdType = workModeCmd then some (getMcuWifiMode s)
  else if cmdType = wifiStateCmd then
    let s := { s with wifiWorkState := buf (offset + dataStart) }
    let s := { s with uart := s.uart.sendFrame wifiStateCmd (pure 0) }
    some { s with sends := s.sends ++ Control.wifiStateCmd s.wifiWorkState }
  else if cmdType = wifiResetCmd then some { s with resetWifiFlag := resetWifiSuccess }
  else if cmdType = wifiModeCmd then some { s with setWifimodeFlag := setWificonfigSuccess }
  else if cmdType = dataQuertCmd then
    (dataQuert site.toEnv buf offset fuel).val.map fun outs => outs.foldl (fun s out => s.perform out.2) s
  else if cmdType = stateQueryCmd then some (allDataUpdate s)
  else if cmdType = wifiTestCmd then
    some (wifiTestResult (buf (offset + dataStart)) (buf (offset + dataStart + 1)) s)
  else some s

/-! ## Calls of the application -/

def mcuResetWifi (s : Sdk) : Sdk :=
  { s with resetWifiFlag := resetWifiError, uart := s.uart.sendFrame wifiResetCmd (pure 0) }

def mcuSetWifiMode (mode : UInt8) (s : Sdk) : Sdk :=
  { s with setWifimodeFlag := setWificonfigError, uart := s.uart.sendFrame wifiModeCmd (setByte mode 0) }

def mcuStartWifitest (s : Sdk) : Sdk := { s with uart := s.uart.sendFrame wifiTestCmd (pure 0) }

/-- A call of the application that sends to the module. -/
inductive Ask
  | resetWifi
  | setWifiMode (mode : UInt8)
  | startWifitest
  | playVoice (num : UInt8)
  | report (dpid : UInt8) (r : DpReport)

def Sdk.ask (s : Sdk) : Ask → Sdk
  | .resetWifi => mcuResetWifi s
  | .setWifiMode mode => mcuSetWifiMode mode s
  | .startWifitest => mcuStartWifitest s
  | .playVoice num => { s with uart := modulePlayVoice num s.uart }
  | .report dpid r => s.report dpid r

/-! ## Sessions -/

/-- What a handled frame asks for. -/
inductive Demand
  | heatBeat
  | productInfo
  | workMode
  | wifiState (state : UInt8)
  | wifiReset
  | wifiMode
  | dataQuert (outs : List DpOutcome)
  | nothing

/-- A frame handled, or a call of the application. -/
inductive Event
  | frame (h : Demand)
  | ask (a : Ask)

/-- The type and the data of each frame sent, and what the SDK keeps. -/
structure Session where
  frames : List (UInt8 × List UInt8)
  beaten : Bool
  resetDone : Bool
  modeDone : Bool
  workState : UInt8
  autoFeed : Bool
  sends : List Send

def Session.start : Session where
  frames := []
  beaten := false
  resetDone := false
  modeDone := false
  workState := wifiSateUnknow
  autoFeed := true
  sends := []

/-- The product information, a JSON text. -/
def productInfo : List UInt8 :=
  ascii ("\x7b\"p\":\"" ++ productKey ++ "\",\"v\":\"" ++ mcuVer ++ "\",\"m\":" ++ configMode ++ "\x7d")

def Session.send (S : Session) (frType : UInt8) (data : List UInt8) : Session :=
  { S with frames := S.frames ++ [(frType, data)] }

def Session.carryOut (S : Session) : ControlAction → Session
  | .feedNum num => { S with sends := S.sends ++ controlFeedNumSends num }
  | .history _ => S
  | .record status => S.send (if status ≠ 0 then voiceRecordStartCmd else voiceRecordStopCmd) []
  | .feedWater water => { S with sends := S.sends ++ controlFeedWaterSends water }
  | .setAutoFeed state => { S with autoFeed := state }

def Session.perform (S : Session) (out : DpOutcome) : Session :=
  let S := out.action.elim S S.carryOut
  out.report.elim S fun r => S.send stateUploadCmd (r.2.data r.1)

def Session.handle (S : Session) : Demand → Session
  | .heatBeat => { S.send heatBeatCmd [if S.beaten then 1 else 0] with beaten := true }
  | .productInfo => S.send productInfoCmd productInfo
  | .workMode => S.send workModeCmd []
  | .wifiState state =>
    { S.send wifiStateCmd [] with workState := state, sends := S.sends ++ Control.wifiStateCmd state }
  | .wifiReset => { S with resetDone := true }
  | .wifiMode => { S with modeDone := true }
  | .dataQuert outs => outs.foldl Session.perform S
  | .nothing => S

def Session.ask (S : Session) : Ask → Session
  | .resetWifi => { S.send wifiResetCmd [] with resetDone := false }
  | .setWifiMode mode => { S.send wifiModeCmd [mode] with modeDone := false }
  | .startWifitest => S.send wifiTestCmd []
  | .playVoice num => S.send voicePlayRecordCmd [num]
  | .report dpid r => S.send stateUploadCmd (r.data dpid)

def Session.run (S : Session) : Event → Session
  | .frame h => S.handle h
  | .ask a => S.ask a

/-- What the frame at `offset` asks for. -/
def handled (site : Site) (fuel : Nat) (buf : Nat → UInt8) (offset : Nat) : Option Demand :=
  let cmdType := buf (offset + frameType)
  if cmdType = heatBeatCmd then some .heatBeat
  else if cmdType = productInfoCmd then some .productInfo
  else if cmdType = workModeCmd then some .workMode
  else if cmdType = wifiStateCmd then some (.wifiState (buf (offset + dataStart)))
  else if cmdType = wifiResetCmd then some .wifiReset
  else if cmdType = wifiModeCmd then some .wifiMode
  else if cmdType = dataQuertCmd then
    (dataQuert site.toEnv buf offset fuel).val.map fun outs => .dataQuert (outs.map Prod.snd)
  else some .nothing

/-! ## Records -/

/-- A writer of these bytes: it puts them behind the first `length` bytes of the
record, and adds their number to the length. -/
def Appends (write : UInt8 → Emit UInt8) (bytes : List UInt8) : Prop :=
  ∀ length : UInt8, length.toNat + bytes.length < 256 →
    Fills (write length).stores (dataStart + length.toNat) bytes ∧
      (write length).val.toNat = length.toNat + bytes.length

theorem appends_pure : Appends pure [] := fun _ _ => ⟨fills_nil _, rfl⟩

theorem appends_setByte (byte : UInt8) : Appends (setByte byte) [byte] := by
  intro length h
  rw [List.length_singleton] at h ⊢
  refine ⟨?_, ?_⟩
  · have hstores : (setByte byte length).stores = cells (dataStart + length.toNat) [byte] := rfl
    rw [hstores]
    exact fills_cells _ _
  · have hval : (setByte byte length).val = (length.toUInt16 + 1).toUInt8 := rfl
    rw [hval, UInt16.toNat_toUInt8, UInt16.toNat_add, UInt8.toNat_toUInt16, UInt16.toNat_one]
    omega

theorem slice_bufOf (bytes : List UInt8) : slice (bufOf bytes) 0 bytes.length = bytes := by
  refine List.ext_getElem (length_slice ..) fun i h1 h2 => ?_
  rw [← Option.some_inj, ← List.getElem?_eq_getElem h1, getElem?_slice h2, Nat.zero_add, bufOf,
    List.getD_eq_getElem?_getD, List.getElem?_eq_getElem h2, Option.getD_some]

theorem appends_setText (site : Site) {str : String} (h : Text (ascii str)) :
    Appends (setText site str) (ascii str) := by
  intro length hlen
  have hstr : myStrlen str = (ascii str).length := congrArg List.length (cstr_text h)
  have hcount : (UInt16.ofNat (ascii str).length).toNat = (ascii str).length := by
    rw [UInt16.toNat_ofNat']
    exact Nat.mod_eq_of_lt (by omega)
  refine ⟨?_, ?_⟩
  · have hstores : (setText site str length).stores =
        (copyFrom (dataStart + length.toNat) (some ⟨bufOf (ascii str), site.up str⟩)
          (UInt16.ofNat (myStrlen str)).toNat).stores ++ [] ++ [] := rfl
    have hfills := copyFrom_fills (dataStart + length.toNat) ⟨bufOf (ascii str), site.up str⟩ (ascii str).length
    rw [slice_bufOf] at hfills
    rwa [hstores, List.append_nil, List.append_nil, hstr, hcount]
  · have hval : (setText site str length).val = (length.toUInt16 + UInt16.ofNat (myStrlen str)).toUInt8 := rfl
    rw [hval, hstr, UInt16.toNat_toUInt8, UInt16.toNat_add, UInt8.toNat_toUInt16, hcount]
    omega

theorem Appends.then {first second : UInt8 → Emit UInt8} {bytes more : List UInt8} (h : Appends first bytes)
    (h' : Appends second more) : Appends (fun length => first length >>= second) (bytes ++ more) := by
  intro length hlen
  rw [List.length_append] at hlen
  obtain ⟨hfills, hval⟩ := h length (by omega)
  obtain ⟨hfills', hval'⟩ := h' (first length).val (by omega)
  rw [hval, ← Nat.add_assoc] at hfills'
  refine ⟨hfills.append hfills', ?_⟩
  rw [val_bind, hval', hval, List.length_append, Nat.add_assoc]

theorem productInfoRecord_appends (site : Site) : Appends (productInfoRecord site) productInfo := by
  have text : ∀ str : String, Text (ascii str) → Appends (setText site str) (ascii str) :=
    fun _ h => appends_setText site h
  exact (text _ (by decide)).then <| (text _ (by decide)).then <| (text _ (by decide)).then <|
    (text _ (by decide)).then <| (text _ (by decide)).then <| (text _ (by decide)).then (text _ (by decide))

/-! ## Frames on the wire -/

/-- The transmit side after these frames; `rest` is what lies behind the buffer. -/
structure Carried (rest : Nat → UInt8) (u : Uart) (frames : List (UInt8 × List UInt8)) : Prop where
  sent : u.sent = frames.flatMap fun f => txFrame f.1 f.2
  fits : ∀ f ∈ frames, (txFrame f.1 f.2).length ≤ txBufSize
  behind : ∀ i, txBufSize ≤ i → u.txBuf i = rest i
  goesOn : u.stopUpdateFlag ≠ enable

section Carried

variable {rest : Nat → UInt8} {u : Uart} {frames : List (UInt8 × List UInt8)}

theorem carried_start (txBuf : Nat → UInt8) : Carried txBuf ⟨txBuf, disable, []⟩ [] where
  sent := rfl
  fits _ h := absurd h List.not_mem_nil
  behind _ _ := rfl
  goesOn := show disable ≠ enable by decide

/-- A frame that fits the buffer is sent as it is, and nothing is stored behind the buffer. -/
theorem Carried.send {u' : Uart} (h : Carried rest u frames) (frType : UInt8) {data : List UInt8}
    (hfits : data.length ≤ 48) (hsent : u'.sent = u.sent ++ txFrame frType data)
    (hbehind : ∀ i, data.length + 7 ≤ i → u'.txBuf i = u.txBuf i) (hstop : u'.stopUpdateFlag = u.stopUpdateFlag) :
    Carried rest u' (frames ++ [(frType, data)]) where
  sent := by
    rw [hsent, h.sent, List.flatMap_append, List.flatMap_singleton]
  fits f hf := by
    rcases List.mem_append.1 hf with hf | hf
    · exact h.fits f hf
    · rw [List.mem_singleton.1 hf, length_txFrame]
      exact Nat.add_le_add_right hfits 7
  behind i hi := by
    have hi : 55 ≤ i := hi
    rw [hbehind i (by omega), h.behind i hi]
  goesOn := hstop ▸ h.goesOn

theorem Carried.sendFrame (h : Carried rest u frames) (frType : UInt8) {write : UInt8 → Emit UInt8}
    {data : List UInt8} (hw : Appends write data) (hfits : data.length ≤ 48) :
    Carried rest (u.sendFrame frType (write 0)) (frames ++ [(frType, data)]) := by
  obtain ⟨hfills, hval⟩ := hw 0 (by rw [UInt8.toNat_zero]; omega)
  rw [UInt8.toNat_zero, Nat.zero_add] at hval
  have hdata : slice (afterStores u.txBuf (write 0).stores) dataStart data.length = data := hfills.bytes u.txBuf
  have hspec := wifiUartWriteFrame_sends (u := { u with txBuf := afterStores u.txBuf (write 0).stores }) frType
    (show (write 0).val.toUInt16.toNat = data.length from hval) (by omega) hdata
  refine h.send frType hfits hspec.1 (fun i hi => (hspec.2 i hi).trans (afterStores_frame fun s hs => ?_)) rfl
  have := (hfills.within s hs).2
  have h6 : dataStart = 6 := rfl
  rw [UInt8.toNat_zero, h6] at this
  omega

theorem Carried.report (h : Carried rest u frames) (dpid : UInt8) {r : DpReport} (hr : r.dataLen ≤ 44) :
    Carried rest (r.call dpid u).2 (frames ++ [(stateUploadCmd, r.data dpid)]) := by
  obtain ⟨record, hcall, hw⟩ := call_writes dpid r
  have hlen := length_data_le dpid r
  have hspec := hw.reportUpdate h.goesOn (by omega)
  rw [hcall]
  refine h.send stateUploadCmd (by omega) hspec.1 hspec.2 ?_
  rw [reportUpdate, beq_eq_false_iff_ne.2 h.goesOn]
  rfl

end Carried

/-! ## The SDK goes through the session -/

/-- The byte of a flag. -/
def flagByte (b : Bool) : UInt8 := if b then 1 else 0

/-- The SDK's state shows what the session has come to. -/
structure Shows (rest : Nat → UInt8) (s : Sdk) (S : Session) : Prop where
  uart : Carried rest s.uart S.frames
  beaten : s.mcuResetState = flagByte S.beaten
  resetDone : s.resetWifiFlag = flagByte S.resetDone
  modeDone : s.setWifimodeFlag = flagByte S.modeDone
  workState : s.wifiWorkState = S.workState
  autoFeed : s.autoFeed = S.autoFeed
  sends : s.sends = S.sends

/-- Every report made for a data point is short. -/
def DpOutcome.Short (out : DpOutcome) : Prop := ∀ dpid r, out.report = some (dpid, r) → r.dataLen ≤ 44

def Demand.Short : Demand → Prop
  | .dataQuert outs => ∀ out ∈ outs, out.Short
  | _ => True

def Ask.Short : Ask → Prop
  | .report _ r => r.dataLen ≤ 44
  | _ => True

def Event.Short : Event → Prop
  | .frame h => h.Short
  | .ask a => a.Short

section Shows

variable {rest : Nat → UInt8} {s : Sdk} {S : Session}

theorem shows_init (txBuf : Nat → UInt8) : Shows txBuf (.init txBuf) .start :=
  ⟨carried_start txBuf, rfl, rfl, rfl, rfl, rfl, rfl⟩

/-- A frame of its own. -/
theorem Shows.send (h : Shows rest s S) (frType : UInt8) {write : UInt8 → Emit UInt8} {data : List UInt8}
    (hw : Appends write data) (hfits : data.length ≤ 48) :
    Shows rest { s with uart := s.uart.sendFrame frType (write 0) } (S.send frType data) :=
  { h with uart := h.uart.sendFrame frType hw hfits }

theorem Shows.carryOut (h : Shows rest s S) (a : ControlAction) : Shows rest (s.carryOut a) (S.carryOut a) := by
  cases a with
  | feedNum num => exact { h with sends := congrArg (· ++ controlFeedNumSends num) h.sends }
  | history => exact h
  | record status =>
    refine { h with uart := ?_ }
    simp only [Sdk.carryOut, moduleRecord, Session.carryOut, Session.send]
    by_cases hs : status ≠ 0
    · rw [if_pos hs, if_pos hs]
      exact h.uart.sendFrame voiceRecordStartCmd appends_pure (Nat.zero_le 48)
    · rw [if_neg hs, if_neg hs]
      exact h.uart.sendFrame voiceRecordStopCmd appends_pure (Nat.zero_le 48)
  | feedWater water => exact { h with sends := congrArg (· ++ controlFeedWaterSends water) h.sends }
  | setAutoFeed state => exact { h with autoFeed := rfl }

theorem Shows.report (h : Shows rest s S) (dpid : UInt8) {r : DpReport} (hr : r.dataLen ≤ 44) :
    Shows rest (s.report dpid r) (S.send stateUploadCmd (r.data dpid)) :=
  { h with uart := h.uart.report dpid hr }

theorem Shows.perform (h : Shows rest s S) {out : DpOutcome} (hout : out.Short) :
    Shows rest (s.perform out) (S.perform out) := by
  have hact : Shows rest (out.action.elim s s.carryOut) (out.action.elim S S.carryOut) := by
    cases out.action with
    | none => exact h
    | some a => exact h.carryOut a
  simp only [Sdk.perform, Session.perform]
  cases hr : out.report with
  | none => exact hact
  | some r => exact hact.report r.1 (hout r.1 r.2 hr)

theorem Shows.performAll (h : Shows rest s S) {outs : List DpOutcome} (houts : ∀ out ∈ outs, out.Short) :
    Shows rest (outs.foldl Sdk.perform s) (outs.foldl Session.perform S) := by
  induction outs generalizing s S with
  | nil => exact h
  | cons out outs ih =>
    obtain ⟨hout, houts⟩ := List.forall_mem_cons.1 houts
    exact ih (h.perform hout) houts

/-- A call of the application does what it does to the session. -/
theorem Shows.ask (h : Shows rest s S) {a : Ask} (ha : a.Short) : Shows rest (s.ask a) (S.ask a) := by
  cases a with
  | resetWifi => exact { h with uart := h.uart.sendFrame wifiResetCmd appends_pure (Nat.zero_le 48), resetDone := rfl }
  | setWifiMode mode =>
    exact { h with uart := h.uart.sendFrame wifiModeCmd (appends_setByte mode) (by simp), modeDone := rfl }
  | startWifitest => exact { h with uart := h.uart.sendFrame wifiTestCmd appends_pure (Nat.zero_le 48) }
  | playVoice num => exact { h with uart := h.uart.sendFrame voicePlayRecordCmd (appends_setByte num) (by simp) }
  | report dpid r => exact h.report dpid ha

/-! ## `data_handle` -/

/-- `data_handle` does not return: it is called with a command, and the loop over
its data points comes back to one. -/
def Spins (buf : Nat → UInt8) (offset : Nat) : Prop :=
  buf (offset + frameType) = dataQuertCmd ∧ ComesBack buf offset

theorem handled_dataQuert (site : Site) {fuel : Nat} {buf : Nat → UInt8} {offset : Nat}
    (h : buf (offset + frameType) = dataQuertCmd) :
    handled site fuel buf offset =
      (dataQuert site.toEnv buf offset fuel).val.map fun outs => .dataQuert (outs.map Prod.snd) := by
  unfold handled
  simp only [h]
  rfl

theorem handled_of_ne (site : Site) {fuel : Nat} {buf : Nat → UInt8} {offset : Nat}
    (h : buf (offset + frameType) ≠ dataQuertCmd) : (handled site fuel buf offset).isSome := by
  unfold handled
  dsimp only
  split_ifs <;> rfl

/-- A frame asks for something if and only if the call for it returns. -/
theorem handled_none_iff (site : Site) (buf : Nat → UInt8) (offset : Nat) :
    handled site quertFuel buf offset = none ↔ Spins buf offset := by
  by_cases h : buf (offset + frameType) = dataQuertCmd
  · rw [handled_dataQuert site h, Option.map_eq_none_iff, dataQuert_none_iff, Spins, and_iff_right h]
  · exact ⟨fun hnone => absurd hnone (Option.isSome_iff_ne_none.1 (handled_of_ne site h)), fun hspin => absurd hspin.1 h⟩

theorem dataHandle_none_iff (site : Site) (buf : Nat → UInt8) (offset : Nat) (s : Sdk) :
    dataHandle site quertFuel buf offset s = none ↔ Spins buf offset := by
  have hsame : dataHandle site quertFuel buf offset s = none ↔ handled site quertFuel buf offset = none := by
    unfold Petbox.Wifi.dataHandle handled
    dsimp only
    split_ifs <;> simp
  rw [hsame, handled_none_iff]

theorem DpOutcome.short_of_report_none {out : DpOutcome} (h : out.report = none) : out.Short := fun _ _ hr =>
  absurd (h.symm.trans hr) (Option.some_ne_none _).symm

theorem byteHandle_short (buf : Nat → UInt8) (action : UInt8 → ControlAction) (dpid : UInt8)
    {report : UInt8 → DpReport} (h : ∀ v, (report v).dataLen = 0) (value : Nat) :
    (byteHandle buf action dpid report value).val.Short := by
  intro d r hr
  obtain ⟨-, rfl⟩ := Prod.mk.inj (Option.some.inj hr)
  rw [h]
  exact Nat.zero_le 44

theorem dpDownloadHandle_short (env : Env) (buf : Nat → UInt8) (dpid : UInt8) (value : Nat) :
    (dpDownloadHandle env buf dpid value).val.Short := by
  have hfeed : (dpDownloadFeedNumHandle buf value).val.Short := by
    intro d r hr
    obtain ⟨-, rfl⟩ := Prod.mk.inj (Option.some.inj hr)
    exact Nat.zero_le 44
  unfold dpDownloadHandle
  split_ifs
  · exact hfeed
  · exact byteHandle_short _ _ _ (fun _ => rfl) _
  · exact byteHandle_short _ _ _ (fun _ => rfl) _
  · exact byteHandle_short _ _ _ (fun _ => rfl) _
  · exact byteHandle_short _ _ _ (fun _ => rfl) _
  · exact DpOutcome.short_of_report_none rfl

theorem dataPointHandle_short (env : Env) (buf : Nat → UInt8) (value : Nat) :
    (dataPointHandle env buf value).val.Short := by
  simp only [dataPointHandle, Access.val_bind, Access.val_ite, Access.val_pure]
  split
  · exact DpOutcome.short_of_report_none rfl
  · exact dpDownloadHandle_short env buf _ _

theorem dataQuertFrom_short {env : Env} {buf : Nat → UInt8} {offset fuel : Nat} {i : UInt16}
    {outs : List (UInt16 × DpOutcome)} (h : (dataQuertFrom env buf offset fuel i).val = some outs) :
    ∀ out ∈ outs.map Prod.snd, out.Short := by
  induction fuel generalizing i outs with
  | zero => cases h
  | succ fuel ih =>
    by_cases hi : i < totalLen buf offset
    · simp only [dataQuertFrom, if_pos hi, Access.val_bind, Access.val_pure] at h
      obtain ⟨more, hmore, rfl⟩ := Option.map_eq_some_iff.1 h
      rw [List.map_cons]
      exact List.forall_mem_cons.2 ⟨dataPointHandle_short env buf _, ih hmore⟩
    · simp only [dataQuertFrom, if_neg hi, Access.val_pure, Option.some.injEq] at h
      subst h
      exact fun out hout => absurd hout List.not_mem_nil

theorem Shows.heatBeat (h : Shows rest s S) : Shows rest (heatBeatCheck s) (S.handle .heatBeat) := by
  unfold heatBeatCheck
  by_cases hb : s.mcuResetState = dpFalse
  · have hS : S.beaten = false := by
      have := h.beaten.symm.trans hb
      cases hS : S.beaten with
      | false => rfl
      | true => rw [hS] at this; exact absurd this (by decide)
    rw [if_pos hb, Session.handle, hS]
    exact { h with uart := h.uart.sendFrame heatBeatCmd (appends_setByte 0) (by simp), beaten := rfl }
  · have hS : S.beaten = true := by
      cases hS : S.beaten with
      | true => rfl
      | false => exact absurd (h.beaten.trans (by rw [hS]; rfl)) hb
    rw [if_neg hb, Session.handle, hS]
    exact { h with
      uart := h.uart.sendFrame heatBeatCmd (appends_setByte 1) (by simp), beaten := h.beaten.trans (by rw [hS]) }

/-- **`data_handle` does to the SDK what the frame asks of the session**, and
returns if and only if the frame's own loop does. -/
theorem Shows.dataHandle (h : Shows rest s S) (site : Site) (fuel : Nat) (buf : Nat → UInt8) (offset : Nat) :
    dataHandle site fuel buf offset s = none ∧ handled site fuel buf offset = none ∨
      ∃ s' d, dataHandle site fuel buf offset s = some s' ∧ handled site fuel buf offset = some d ∧ d.Short ∧
        Shows rest s' (S.handle d) := by
  have hinfo : productInfo.length ≤ 48 := by decide
  unfold Petbox.Wifi.dataHandle handled
  dsimp only
  split_ifs
  · exact .inr ⟨_, _, rfl, rfl, trivial, h.heatBeat⟩
  · exact .inr ⟨_, _, rfl, rfl, trivial, h.send productInfoCmd (productInfoRecord_appends site) hinfo⟩
  · exact .inr ⟨_, _, rfl, rfl, trivial, h.send workModeCmd appends_pure (Nat.zero_le 48)⟩
  · exact .inr ⟨_, _, rfl, rfl, trivial,
      { h with
        uart := h.uart.sendFrame wifiStateCmd appends_pure (Nat.zero_le 48)
        workState := rfl
        sends := congrArg (· ++ Control.wifiStateCmd _) h.sends }⟩
  · exact .inr ⟨_, _, rfl, rfl, trivial, { h with resetDone := rfl }⟩
  · exact .inr ⟨_, _, rfl, rfl, trivial, { h with modeDone := rfl }⟩
  · cases houts : (dataQuert site.toEnv buf offset fuel).val with
    | none => exact .inl ⟨rfl, rfl⟩
    | some outs =>
      have hshort := dataQuertFrom_short houts
      refine .inr ⟨_, _, rfl, rfl, hshort, ?_⟩
      have hall := h.performAll hshort
      rwa [List.foldl_map] at hall
  · exact .inr ⟨_, _, rfl, rfl, trivial, h⟩
  · exact .inr ⟨_, _, rfl, rfl, trivial, h⟩
  · exact .inr ⟨_, _, rfl, rfl, trivial, h⟩

end Shows

end Petbox.Wifi
