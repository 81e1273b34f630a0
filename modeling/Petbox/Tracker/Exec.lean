/-
Execution of a parsed frame (`btlink_protocol_cmd.c`): every member of a
section has its own change test, and a section in which something changed is
written to its NV item.

`btlink_cmd_process` then assembles an acknowledgement in a local buffer that
nothing sends; it is left out.
-/
import Petbox.Tracker.Frame
import Petbox.Tracker.Nv
import Petbox.Lib.Tracked

namespace Petbox.Tracker

open CStr Update

/-- `os_timer_start`, `os_timer_stop` and the expiration of a one-shot timer,
over whatever the operating system keeps of it. -/
structure OsTimer (τ : Type) where
  /-- The timer after a reset. -/
  idle : τ
  start : τ → Bool × τ
  stop : τ → Bool × τ
  /-- The timer at its expiration, if it can expire now. -/
  expire : τ → Option τ

/-- The state of the tracker: `g_btlink_config`, the NV items, the minute timer
and the counters. -/
structure Device (τ : Type) where
  config : Config
  nv : EnvStore
  minTimer : τ
  /-- `g_con_send_min_cnt` -/
  conSendMinCnt : UInt16
  /-- `g_send_cnt` of `btlink_protocol_util.c` -/
  sendCnt : UInt32
  /-- what `btlink_set_log_mode` was given last -/
  logMode : UInt32

/-! ## `btlink_cmd_exec_ips` -/

/-- `IP_ALL_MATCH`: the last term of the macro is `a[3] ^ a[3]`. -/
def ipAllMatch (a b : List UInt8) : Bool :=
  ((a.getD 0 0 ^^^ b.getD 0 0) ||| (a.getD 1 0 ^^^ b.getD 1 0) ||| (a.getD 2 0 ^^^ b.getD 2 0)
    ||| (a.getD 3 0 ^^^ a.getD 3 0)) == 0

/-- The address and its length are copied, the port is not. -/
def copyAddr (arg : ArgServer) (cfg : ConfigServer) : ConfigServer :=
  { cfg with
    sock := { cfg.sock with addr := cfg.sock.addr.overwrite arg.sock.addr.bytes, addrLen := arg.sock.addrLen } }

def copyHost (arg : ArgServer) (cfg : ConfigServer) : ConfigServer :=
  { cfg with host := cfg.host.overwrite arg.host.bytes }

/-- The main server, or the backup server, without its port. -/
def execHost (arg : ArgServer) : Update ConfigServer := fun s =>
  if arg.mode ≠ s.1.mode then
    let cfg := { s.1 with mode := arg.mode }
    if arg.mode = ipsPriIp then ({ copyAddr arg cfg with host := .zero _ }, true)
    else if arg.mode = ipsPriDn then (copyHost arg cfg, true)
    else (cfg, true)
  else if arg.mode = ipsPriIp then
    if ipAllMatch arg.sock.addr.bytes s.1.sock.addr.bytes then s else (copyAddr arg s.1, true)
  else if arg.mode = ipsPriDn then
    if strncmpEq s.1.host.bytes arg.host.bytes lenIpsHost then s else (copyHost arg s.1, true)
  else s

def execPort (arg : ArgServer) : Update ConfigServer :=
  assign (·.sock.port) (fun c port => { c with sock := { c.sock with port } }) arg.sock.port

def onPri : Update ConfigServer → Update ConfigIps := focus (·.pri) fun c pri => { c with pri }

def onSec : Update ConfigServer → Update ConfigIps := focus (·.sec) fun c sec => { c with sec }

/-- `btlink_cmd_exec_ips` up to the test of `need_save`. -/
def execIps (arg : ArgIps) : Update ConfigIps :=
  chain
    [assign (·.reportMode) (fun c reportMode => { c with reportMode }) arg.reportMode,
      assign (·.bufferMode) (fun c bufferMode => { c with bufferMode }) arg.bufferMode,
      onPri (execHost arg.pri), onPri (execPort arg.pri),
      onSec (execHost arg.sec), onSec (execPort arg.sec)]

/-! ## Strings -/

/-- A string of the frame that is not empty and differs from the array in the
first `len` bytes replaces it. -/
def assignString {n : Nat} (arg : List UInt8) (len : Nat) : Update (CharArray n) := fun s =>
  if cstr arg ≠ [] ∧ strncmpEq s.1.bytes arg len = false then
    ((s.1.overwrite (List.replicate len 0)).strncpy arg len, true)
  else s

/-! ## `btlink_cmd_exec_apn` -/

def execApnRecord (arg : ApnRecord) : Update ApnRecord :=
  chain
    [focus (·.mccMnc) (fun r mccMnc => { r with mccMnc }) (assignString arg.mccMnc.bytes maxMccMncLen),
      focus (·.apnName) (fun r apnName => { r with apnName }) (assignString arg.apnName.bytes maxApnLen),
      focus (·.apnUserName) (fun r apnUserName => { r with apnUserName })
        (assignString arg.apnUserName.bytes maxApnUserNameLen),
      focus (·.apnPassword) (fun r apnPassword => { r with apnPassword })
        (assignString arg.apnPassword.bytes maxApnPasswordLen)]

/-- The pass for one value of `idx`; the arrays have two rows. -/
def execApnIdx (arg : ArgApn) : Nat → Update ConfigApn
  | 0 => focus (·.first) (fun c first => { c with first }) (execApnRecord arg.first)
  | 1 => focus (·.second) (fun c second => { c with second }) (execApnRecord arg.second)
  | _ => fun s => s

/-- `btlink_cmd_exec_apn` up to the test of `need_save`. The loop runs to the
quantity that was just stored. -/
def execApn (arg : ArgApn) : Update ConfigApn := fun s =>
  let s := assign (·.apnQuantity) (fun c apnQuantity => { c with apnQuantity }) arg.apnQuantity s
  chain ((List.range s.1.apnQuantity.toNat).map (execApnIdx arg)) s

/-! ## `btlink_cmd_exec_scs` -/

def execScs (arg : ArgScs) : Update ConfigScs :=
  chain
    [focus (·.devPassword) (fun c devPassword => { c with devPassword })
        (assignString arg.devPassword.bytes lenScsPassword),
      assign (·.dataZoneMask) (fun c dataZoneMask => { c with dataZoneMask }) arg.dataZoneMask]

/-! ## `btlink_cmd_exec_lss` -/

/-- `btlink_cmd_exec_lss` up to the test of `need_save`, without the change
handler of the send interval. -/
def execLss (arg : ArgLss) : Update ConfigLss :=
  chain
    [assign (·.modeSelection) (fun c modeSelection => { c with modeSelection }) arg.modeSelection,
      assign (·.continueSendInterval) (fun c continueSendInterval => { c with continueSendInterval })
        arg.continueSendInterval,
      assign (·.startMode) (fun c startMode => { c with startMode }) arg.startMode,
      focus (·.specTimeOfDay) (fun c specTimeOfDay => { c with specTimeOfDay })
        (assignString arg.specTimeOfDay.bytes maxSpecTimeDayLen),
      assign (·.wakeupInterval) (fun c wakeupInterval => { c with wakeupInterval }) arg.wakeupInterval,
      assign (·.psmNetHoldTime) (fun c psmNetHoldTime => { c with psmNetHoldTime }) arg.psmNetHoldTime,
      assign (·.reportFreq) (fun c reportFreq => { c with reportFreq }) arg.reportFreq,
      assign (·.gnssEnable) (fun c gnssEnable => { c with gnssEnable }) arg.gnssEnable,
      assign (·.gnssFixDelay) (fun c gnssFixDelay => { c with gnssFixDelay }) arg.gnssFixDelay,
      assign (·.agpsMode) (fun c agpsMode => { c with agpsMode }) arg.agpsMode,
      assign (·.batLowPercent) (fun c batLowPercent => { c with batLowPercent }) arg.batLowPercent,
      assign (·.sensorEnable) (fun c sensorEnable => { c with sensorEnable }) arg.sensorEnable,
      assign (·.nonMoveDuration) (fun c nonMoveDuration => { c with nonMoveDuration }) arg.nonMoveDuration]

/-! ## What the sections of `AT@SCS` and `AT@LSS` become -/

theorem sets_assignString {n : Nat} (arg : List UInt8) (len : Nat) :
    Sets (assignString arg len) fun a : CharArray n => (assignString arg len (a, false)).1 := by
  rintro ⟨a, flag⟩
  change (assignString arg len (a, flag)).1 = (assignString arg len (a, false)).1
  unfold assignString
  by_cases h : cstr arg ≠ [] ∧ strncmpEq a.bytes arg len = false
  · rw [if_pos h, if_pos h]
  · rw [if_neg h, if_neg h]

theorem execScs_fst (arg : ArgScs) (s : ConfigScs × Bool) : (execScs arg s).1 =
    { devPassword := (assignString arg.devPassword.bytes lenScsPassword (s.1.devPassword, false)).1
      dataZoneMask := arg.dataZoneMask } :=
  sets_chain (.cons (sets_focus (sets_assignString _ _)) (.cons (sets_assign (fun _ => rfl) _) .nil)) s

theorem execLss_fst (arg : ArgLss) (s : ConfigLss × Bool) : (execLss arg s).1 =
    { arg with specTimeOfDay :=
        (assignString arg.specTimeOfDay.bytes maxSpecTimeDayLen (s.1.specTimeOfDay, false)).1 } := by
  have hmode : Sets (assign ConfigLss.modeSelection (fun c modeSelection => { c with modeSelection })
      arg.modeSelection) _ := sets_assign (fun _ => rfl) _
  have hinterval : Sets (assign ConfigLss.continueSendInterval
      (fun c continueSendInterval => { c with continueSendInterval }) arg.continueSendInterval) _ :=
    sets_assign (fun _ => rfl) _
  have hstart : Sets (assign ConfigLss.startMode (fun c startMode => { c with startMode })
      arg.startMode) _ := sets_assign (fun _ => rfl) _
  have htime : Sets (focus ConfigLss.specTimeOfDay (fun c specTimeOfDay => { c with specTimeOfDay })
      (assignString arg.specTimeOfDay.bytes maxSpecTimeDayLen)) _ := sets_focus (sets_assignString _ _)
  have hwakeup : Sets (assign ConfigLss.wakeupInterval (fun c wakeupInterval => { c with wakeupInterval })
      arg.wakeupInterval) _ := sets_assign (fun _ => rfl) _
  have hhold : Sets (assign ConfigLss.psmNetHoldTime (fun c psmNetHoldTime => { c with psmNetHoldTime })
      arg.psmNetHoldTime) _ := sets_assign (fun _ => rfl) _
  have hfreq : Sets (assign ConfigLss.reportFreq (fun c reportFreq => { c with reportFreq })
      arg.reportFreq) _ := sets_assign (fun _ => rfl) _
  have hgnss : Sets (assign ConfigLss.gnssEnable (fun c gnssEnable => { c with gnssEnable })
      arg.gnssEnable) _ := sets_assign (fun _ => rfl) _
  have hfix : Sets (assign ConfigLss.gnssFixDelay (fun c gnssFixDelay => { c with gnssFixDelay })
      arg.gnssFixDelay) _ := sets_assign (fun _ => rfl) _
  have hagps : Sets (assign ConfigLss.agpsMode (fun c agpsMode => { c with agpsMode })
      arg.agpsMode) _ := sets_assign (fun _ => rfl) _
  have hbattery : Sets (assign ConfigLss.batLowPercent (fun c batLowPercent => { c with batLowPercent })
      arg.batLowPercent) _ := sets_assign (fun _ => rfl) _
  have hsensor : Sets (assign ConfigLss.sensorEnable (fun c sensorEnable => { c with sensorEnable })
      arg.sensorEnable) _ := sets_assign (fun _ => rfl) _
  have hstill : Sets (assign ConfigLss.nonMoveDuration (fun c nonMoveDuration => { c with nonMoveDuration })
      arg.nonMoveDuration) _ := sets_assign (fun _ => rfl) _
  have hends := List.Forall₂.cons hbattery (.cons hsensor (.cons hstill .nil))
  have hreports := List.Forall₂.cons hgnss (.cons hfix (.cons hagps hends))
  have htimes := List.Forall₂.cons htime (.cons hwakeup (.cons hhold (.cons hfreq hreports)))
  have hsteps := List.Forall₂.cons hmode (.cons hinterval (.cons hstart htimes))
  exact sets_chain hsteps s

section Timer

variable {τ : Type} (os : OsTimer τ)

/-- `btlink_start_min_timer`: 0 when the timer was started, else -1. -/
def startMinTimer (t : τ) : Int × τ := (if (os.start t).1 then 0 else -1, (os.start t).2)

/-- `btlink_stop_min_timer`: 0 when the timer was stopped, else -1. -/
def stopMinTimer (t : τ) : Int × τ := (if (os.stop t).1 then 0 else -1, (os.stop t).2)

/-- `btlink_lss_con_send_interval_change_hdlr`. -/
def conSendIntervalChangeHdlr (preSendInterval currSendInterval : UInt16) (t : Device τ) : Device τ :=
  { t with
    minTimer :=
      if preSendInterval = 0 then (startMinTimer os t.minTimer).2
      else if currSendInterval = 0 then (stopMinTimer os t.minTimer).2
      else if (stopMinTimer os t.minTimer).1 ≠ 0 then
        (startMinTimer os (stopMinTimer os t.minTimer).2).2
      else (stopMinTimer os t.minTimer).2
    conSendMinCnt := 0 }

/-! ## `btlink_cmd_exec` and `btlink_check_and_exec_protocol` -/

def cmdExecIps (arg : ArgIps) (t : Device τ) : Device τ :=
  let r := execIps arg (t.config.ips, false)
  let config := { t.config with ips := r.1 }
  { t with config, nv := if r.2 then btlinkProNvIpsWrite config t.nv else t.nv }

def cmdExecApn (arg : ArgApn) (t : Device τ) : Device τ :=
  let r := execApn arg (t.config.apn, false)
  let config := { t.config with apn := r.1 }
  { t with config, nv := if r.2 then btlinkProNvApnWrite config t.nv else t.nv }

def cmdExecScs (arg : ArgScs) (t : Device τ) : Device τ :=
  let r := execScs arg (t.config.scs, false)
  let config := { t.config with scs := r.1 }
  { t with config, nv := if r.2 then btlinkProNvScsWrite config t.nv else t.nv }

/-- `btlink_cmd_exec_lss`: the change handler sees the old interval and the new
one, and neither reads nor writes the configuration. -/
def cmdExecLss (arg : ArgLss) (t : Device τ) : Device τ :=
  let r := execLss arg (t.config.lss, false)
  let config := { t.config with lss := r.1 }
  let timed := if t.config.lss.continueSendInterval ≠ arg.continueSendInterval then
      conSendIntervalChangeHdlr os t.config.lss.continueSendInterval arg.continueSendInterval t
    else t
  { timed with config, nv := if r.2 then btlinkProNvLssWrite config t.nv else t.nv }

def cmdExec (t : Device τ) : DnlnkArg → Device τ
  | .ips arg => cmdExecIps arg t
  | .apn arg => cmdExecApn arg t
  | .scs arg => cmdExecScs arg t
  | .lss arg => cmdExecLss os arg t
  | .rth _ => t

def checkAndExecProtocol (t : Device τ) (msgContent : List UInt8) (msgLength : Nat) (past : Nat → UInt8) :
    Bool × Device τ :=
  match parseDnlnkFrame t.config (rawDnlnkFrame msgContent msgLength past) with
  | some frame => (true, cmdExec os t frame.arg)
  | none => (false, t)

/-- A frame that is accepted was parsed, and is executed. -/
theorem checkAndExecProtocol_true {t : Device τ} {content : List UInt8} {len : Nat} {past : Nat → UInt8}
    (h : (checkAndExecProtocol os t content len past).1 = true) :
    ∃ frame, parseDnlnkFrame t.config (rawDnlnkFrame content len past) = some frame ∧
      (checkAndExecProtocol os t content len past).2 = cmdExec os t frame.arg := by
  unfold checkAndExecProtocol at h ⊢
  split at h
  · next frame hparse => exact ⟨frame, hparse, rfl⟩
  · exact absurd h (by simp)

theorem checkAndExecProtocol_false {t : Device τ} {content : List UInt8} {len : Nat} {past : Nat → UInt8}
    (h : (checkAndExecProtocol os t content len past).1 = false) :
    (checkAndExecProtocol os t content len past).2 = t := by
  unfold checkAndExecProtocol at h ⊢
  split at h
  · exact absurd h (by simp)
  · rfl

end Timer

end Petbox.Tracker
