/-
The tracker's configuration (`btlink_protocol_cmd.h`), its factory values
(`btlink_nv.c`) and how its four sections lie in memory: the bytes
`btlink_pro_nv_*_write` hands to the store.

The members that the source repeats under `pri_` and `sec_` are one
`ConfigServer`, and the members it repeats for `idx` 0 and 1 are one
`ApnRecord`. `socket_type_enum` takes one byte, as with the short enums of the
target. Padding is 0: the sections start as zeros and are only copied whole.
`cfg_rth` and `imei` are written by no command and are left out.
-/
import Petbox.Lib.Layout

namespace Petbox.Tracker

open CStr

def maxSockAddrLen : Nat := 28
def ipAddrLen : UInt16 := 4

def lenIpsReportMode : Nat := 1
def lenIpsBufferMode : Nat := 1
def lenIpsHost : Nat := 60
def lenIpsPort : Nat := 5
def maxIpsReportMode : UInt8 := 2
def maxIpsBufferMode : UInt8 := 2
def maxIpsPort : UInt32 := 65535

def lenApnNums : Nat := 2
def lenApnMccMnc : Nat := 5
def lenApnName : Nat := 40
def lenApnUserName : Nat := 30
def lenApnPassword : Nat := 30
def maxApnNums : UInt16 := 2
def maxMccMncLen : Nat := 7
def maxApnUserNameLen : Nat := 32
def maxApnPasswordLen : Nat := 32
def maxApnLen : Nat := 42

def lenScsPassword : Nat := 20
def lenScsDataZoneMask : Nat := 8
def maxPasswordLen : Nat := lenScsPassword
def minPasswordLen : Nat := 4

def maxSpecTimeDayLen : Nat := 5

/-- `BTLINK_IPS_PRI_IP`: the server is set by its address. -/
def ipsPriIp : UInt8 := 0

/-- `BTLINK_IPS_PRI_DN`: the server is set by its domain name. -/
def ipsPriDn : UInt8 := 1

/-- `sockaddr_struct`. -/
structure SockAddr where
  sockType : UInt8
  addrLen : UInt16
  port : UInt16
  addr : CharArray maxSockAddrLen
  deriving DecidableEq

/-- `pri_mode`, `pri_host` and `pri` of `btlink_config_ips_struct`, or the
members of the backup server. -/
structure ConfigServer where
  mode : UInt8
  host : CharArray (1 + lenIpsHost)
  sock : SockAddr
  deriving DecidableEq

/-- `btlink_config_ips_struct`. -/
structure ConfigIps where
  reportMode : UInt8
  bufferMode : UInt8
  pri : ConfigServer
  sec : ConfigServer
  deriving DecidableEq

/-- What `btlink_config_apn_struct` holds at one index of its arrays. -/
structure ApnRecord where
  mccMnc : CharArray maxMccMncLen
  apnName : CharArray maxApnLen
  apnUserName : CharArray maxApnUserNameLen
  apnPassword : CharArray maxApnPasswordLen
  deriving DecidableEq

/-- `btlink_config_apn_struct`: the records at index 0 and 1. -/
structure ConfigApn where
  apnQuantity : UInt8
  first : ApnRecord
  second : ApnRecord
  deriving DecidableEq

/-- `btlink_config_scs_struct`. -/
structure ConfigScs where
  devPassword : CharArray lenScsPassword
  dataZoneMask : UInt32
  deriving DecidableEq

/-- `btlink_config_lss_struct`. -/
structure ConfigLss where
  modeSelection : UInt8
  continueSendInterval : UInt16
  startMode : UInt8
  specTimeOfDay : CharArray maxSpecTimeDayLen
  wakeupInterval : UInt8
  psmNetHoldTime : UInt32
  reportFreq : UInt8
  gnssEnable : UInt8
  gnssFixDelay : UInt8
  agpsMode : UInt8
  batLowPercent : UInt8
  sensorEnable : UInt8
  nonMoveDuration : UInt8
  deriving DecidableEq

/-- `btlink_config_struct`. -/
structure Config where
  ips : ConfigIps
  apn : ConfigApn
  scs : ConfigScs
  lss : ConfigLss
  deriving DecidableEq

/-! ## Factory values -/

def zeroSockAddr : SockAddr := { sockType := 0, addrLen := 0, port := 0, addr := .zero _ }

def zeroServer : ConfigServer := { mode := ipsPriIp, host := .zero _, sock := zeroSockAddr }

def zeroRecord : ApnRecord :=
  { mccMnc := .zero _, apnName := .zero _, apnUserName := .zero _, apnPassword := .zero _ }

/-- `nv_default_ips`. -/
def nvDefaultIps : ConfigIps := { reportMode := 0, bufferMode := 1, pri := zeroServer, sec := zeroServer }

/-- `nv_default_apn`. -/
def nvDefaultApn : ConfigApn := { apnQuantity := 0, first := zeroRecord, second := zeroRecord }

/-- `nv_default_scs`: the password is `btl100`. -/
def nvDefaultScs : ConfigScs :=
  { devPassword := .ofBytes _ [0x62, 0x74, 0x6c, 0x31, 0x30, 0x30], dataZoneMask := 0x0000000F }

/-- `nv_default_lss`. -/
def nvDefaultLss : ConfigLss where
  modeSelection := 0x00
  continueSendInterval := 0x0005
  startMode := 0x00
  specTimeOfDay := .ofBytes _ [0x31, 0x32, 0x30, 0x30, 0x00]
  wakeupInterval := 0x01
  psmNetHoldTime := 0x00000000
  reportFreq := 0x01
  gnssEnable := 0x00
  gnssFixDelay := 0x05
  agpsMode := 0x00
  batLowPercent := 0x0a
  sensorEnable := 0x00
  nonMoveDuration := 0x06

/-- `g_btlink_config` when the program starts: a global without initialiser. -/
def zeroConfig : Config where
  ips := { reportMode := 0, bufferMode := 0, pri := zeroServer, sec := zeroServer }
  apn := nvDefaultApn
  scs := { devPassword := .zero _, dataZoneMask := 0 }
  lss :=
    { modeSelection := 0, continueSendInterval := 0, startMode := 0, specTimeOfDay := .zero _,
      wakeupInterval := 0, psmNetHoldTime := 0, reportFreq := 0, gnssEnable := 0, gnssFixDelay := 0,
      agpsMode := 0, batLowPercent := 0, sensorEnable := 0, nonMoveDuration := 0 }

/-! ## The sections in memory -/

namespace Layouts

open Layout

def sockAddr : Layout SockAddr :=
  iso (prod (padded u8 1) (prod u16 (prod u16 (chars _))))
    (fun s => (s.sockType, s.addrLen, s.port, s.addr)) (fun p => ⟨p.1, p.2.1, p.2.2.1, p.2.2.2⟩)
    fun _ => rfl

def server : Layout ConfigServer :=
  iso (prod u8 (prod (chars _) sockAddr)) (fun s => (s.mode, s.host, s.sock))
    (fun p => ⟨p.1, p.2.1, p.2.2⟩) fun _ => rfl

def ips : Layout ConfigIps :=
  iso (prod u8 (prod u8 (prod server server))) (fun c => (c.reportMode, c.bufferMode, c.pri, c.sec))
    (fun p => ⟨p.1, p.2.1, p.2.2.1, p.2.2.2⟩) fun _ => rfl

/-- The arrays lie one after the other, each with both of its rows. -/
def apn : Layout ConfigApn :=
  iso (prod u8 (prod (prod (chars _) (chars _)) (prod (prod (chars _) (chars _))
      (prod (prod (chars _) (chars _)) (prod (chars _) (chars _))))))
    (fun c => (c.apnQuantity, (c.first.mccMnc, c.second.mccMnc), (c.first.apnName, c.second.apnName),
      (c.first.apnUserName, c.second.apnUserName), c.first.apnPassword, c.second.apnPassword))
    (fun p => ⟨p.1, ⟨p.2.1.1, p.2.2.1.1, p.2.2.2.1.1, p.2.2.2.2.1⟩,
      ⟨p.2.1.2, p.2.2.1.2, p.2.2.2.1.2, p.2.2.2.2.2⟩⟩)
    fun _ => rfl

def scs : Layout ConfigScs :=
  iso (prod (chars _) u32) (fun c => (c.devPassword, c.dataZoneMask)) (fun p => ⟨p.1, p.2⟩) fun _ => rfl

def lss : Layout ConfigLss :=
  iso (prod (padded u8 1) (prod u16 (prod u8 (prod (chars _) (prod (padded u8 1) (prod u32
      (prod u8 (prod u8 (prod u8 (prod u8 (prod u8 (prod u8 (padded u8 1)))))))))))))
    (fun c => (c.modeSelection, c.continueSendInterval, c.startMode, c.specTimeOfDay, c.wakeupInterval,
      c.psmNetHoldTime, c.reportFreq, c.gnssEnable, c.gnssFixDelay, c.agpsMode, c.batLowPercent,
      c.sensorEnable, c.nonMoveDuration))
    (fun p => ⟨p.1, p.2.1, p.2.2.1, p.2.2.2.1, p.2.2.2.2.1, p.2.2.2.2.2.1, p.2.2.2.2.2.2.1,
      p.2.2.2.2.2.2.2.1, p.2.2.2.2.2.2.2.2.1, p.2.2.2.2.2.2.2.2.2.1, p.2.2.2.2.2.2.2.2.2.2.1,
      p.2.2.2.2.2.2.2.2.2.2.2.1, p.2.2.2.2.2.2.2.2.2.2.2.2⟩)
    fun _ => rfl

end Layouts

end Petbox.Tracker
