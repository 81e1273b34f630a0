/-
The downlink frame parser of the tracker (`btlink_protocol_hdlr.c`): from the
raw bytes of a line such as `AT@RTH=btl100,1,,,,,0001#` to a parsed frame.

Every parsing function of the source returns false as soon as something is
wrong and its caller gives up, so a parser here is a function of the position
in the raw frame to a result and the next position, or to nothing. The parsed
frame lives on the stack and is dropped on failure.

`raw_frame.data` has 160 bytes; what is read behind it is `past`. The copy of
the parameter text into `para_string` is kept as the bytes it writes; the
sender's number is not modelled: nothing here reads it.
-/
import Petbox.Tracker.Util
import Petbox.Lib.Mem

namespace Petbox.Tracker

open CStr Mem

def chrSeparator : UInt8 := 0x2c
def chrTail : UInt8 := 0x23
def lenReserved : Nat := 0
def headerChklen : Nat := 3
def lenHeader : Nat := 3
def lenSerialNum : Nat := 4
def lenParameter : Nat := 128
def maxDnlnkFrameSize : Nat := 160
def dnlnkHeader : List UInt8 := ascii "AT@"
def dnlnkHeaderLc : List UInt8 := ascii "at@"

def lenLssModeSelect : Nat := 1
def lenLssContSendInterval : Nat := 4
def lenLssStartMode : Nat := 1
def lenLssSpecTimeDay : Nat := 4
def lenLssWakeupInterval : Nat := 2
def lenLssPsmNetHoldTime : Nat := 5
def lenLssReportFreg : Nat := 3
def lenLssGnssEnable : Nat := 1
def lenLssGnssFixDelay : Nat := 2
def lenLssAgpsMode : Nat := 1
def lenLssBatLowPercent : Nat := 2
def lenLssSensorEnable : Nat := 1
def lenLssNonMoveDur : Nat := 3
def maxLssModeSelect : UInt8 := 2
def maxLssContSendInterval : UInt16 := 1440
def maxLssStartMode : UInt8 := 2
def maxLssNetHoldTime : UInt32 := 86400
def minLssReportFreq : UInt8 := 1
def maxLssReportFreq : UInt8 := 100
def maxLssGnssEnable : UInt8 := 1
def minLssGnssFixDelay : UInt8 := 5
def maxLssGnssFixDelay : UInt8 := 60
def maxLssAgpsMode : UInt8 := 1
def maxLssBatLowPercent : UInt8 := 30
def maxLssSensorEnable : UInt8 := 1
def minLssNonMoveDur : UInt8 := 1
def maxLssNonMoveDur : UInt8 := 100
def lenRthSubCommand : Nat := 1
def maxRthSubCommand : UInt8 := 7

/-- `btlink_frame_header_index`, without the two values that stand for no header. -/
inductive FrameHeader
  | ips
  | apn
  | scs
  | lss
  | rth
  deriving DecidableEq, Repr

/-- `btlink_dn_frame_header_str`. -/
def FrameHeader.str : FrameHeader → List UInt8
  | .ips => ascii "IPS"
  | .apn => ascii "APN"
  | .scs => ascii "SCS"
  | .lss => ascii "LSS"
  | .rth => ascii "RTH"

def frameHeaders : List FrameHeader := [.ips, .apn, .scs, .lss, .rth]

/-- `btlink_raw_dnlnk_frame_struct`; its `position` is the state of the parser. -/
structure RawFrame where
  length : Nat
  data : Nat → UInt8

/-- The raw frame `btlink_check_and_exec_protocol` makes of a message: `length`
is 8 bits wide, and `strncpy` fills `data` up with zeros. -/
def rawDnlnkFrame (msgContent : List UInt8) (msgLength : Nat) (past : Nat → UInt8) : RawFrame where
  length := msgLength % 256
  data i := if i < maxDnlnkFrameSize then (cstr (msgContent.take msgLength)).getD i 0 else past i

/-! ## Parsed arguments -/

/-- `pri_mode`, `pri_host` and `pri` of `btlink_arg_ips_struct`, or the members of
the backup server. -/
structure ArgServer where
  mode : UInt8
  host : CharArray lenIpsHost
  sock : SockAddr

/-- `btlink_arg_ips_struct`. -/
structure ArgIps where
  reportMode : UInt8
  bufferMode : UInt8
  pri : ArgServer
  sec : ArgServer

/-- `btlink_arg_apn_struct` has the members of `btlink_config_apn_struct`. -/
abbrev ArgApn := ConfigApn

/-- `btlink_arg_scs_struct`. -/
structure ArgScs where
  devPassword : CharArray maxApnPasswordLen
  dataZoneMask : UInt32

/-- `btlink_arg_lss_struct` has the members of `btlink_config_lss_struct`. -/
abbrev ArgLss := ConfigLss

/-- `btlink_dnlnk_arg_union`, with the `type` that says which member is in use. -/
inductive DnlnkArg
  | ips (arg : ArgIps)
  | apn (arg : ArgApn)
  | scs (arg : ArgScs)
  | lss (arg : ArgLss)
  | rth (subCommand : UInt8)

/-- What a successful parse leaves in `btlink_parsed_dnlnk_frame_struct`; `ack`
and `valid` are then true. `paraString` is what `strncpy` writes from
`para_string` on, behind the end of that array too. -/
structure ParsedFrame where
  password : List UInt8
  arg : DnlnkArg
  serialNumber : List UInt8
  paraString : List UInt8

/-- The server of a frame that was just cleared. -/
def zeroArgServer : ArgServer := { mode := 0, host := .zero _, sock := zeroSockAddr }

/-! ## Fields -/

/-- A parser: from a position to a result and the next position. -/
abbrev Parse := StateT Nat Option

/-- The loop of `btlink_get_frame_field`, with room for `n` more characters. -/
def fieldLoop (raw : RawFrame) (separator tail : UInt8) : Nat → Nat → List UInt8
  | 0, _ => []
  | n + 1, position =>
    if position < raw.length ∧ raw.data position ≠ separator ∧ raw.data position ≠ tail
        ∧ raw.data position ≠ 0 then
      raw.data position :: fieldLoop raw separator tail n (position + 1)
    else []

/-- `max_length`, 8 bits wide: a reserved argument takes anything. -/
def fieldMaxLength (raw : RawFrame) (fieldMaxLen position : Nat) : Nat :=
  if fieldMaxLen = 0 then (256 + raw.length - position) % 256 else fieldMaxLen

/-- `btlink_get_frame_field`: a separator is skipped, the tail is not. -/
def getFrameField (raw : RawFrame) (fieldMaxLen : Nat) (separator tail : UInt8) : Parse (List UInt8) :=
  fun position =>
    let field := fieldLoop raw separator tail (fieldMaxLength raw fieldMaxLen position) position
    if position + field.length < raw.length ∧ raw.data (position + field.length) = separator then
      some (field, position + field.length + 1)
    else if raw.data (position + field.length) = tail then some (field, position + field.length)
    else none

/-- `btlink_get_frame_arg_field`, and what its caller makes of the field. -/
def argField {β : Type} (raw : RawFrame) (maxLen : Nat) (check : List UInt8 → Option β) : Parse β :=
  fun position => (getFrameField raw maxLen chrSeparator chrTail position).bind fun r =>
    (check r.1).map fun v => (v, r.2)

/-- A string argument: the field is copied into an array of the frame. -/
def argString (raw : RawFrame) (maxLen n : Nat) : Parse (CharArray n) :=
  argField raw maxLen fun field => some ((CharArray.zero n).strncpy field maxLen)

section Number

variable {β γ : Type}

/-- What a numeric argument makes of a field: digits only, the number converted
to the type `β` of a local variable, a test, and the assignment to the frame. -/
def checkNumber (maxLen : Nat) (ofInt : Int → β) (legal : β → Bool) (store : β → γ)
    (buffer : List UInt8) : Option γ :=
  if isdigitBuffer buffer maxLen then
    if legal (ofInt (atoiBuffer buffer)) then some (store (ofInt (atoiBuffer buffer))) else none
  else none

/-- A numeric argument that may be left empty: then it is the value of the configuration. -/
def argNumber (raw : RawFrame) (maxLen : Nat) (ofInt : Int → β) (legal : β → Bool) (store : β → γ)
    (current : γ) : Parse γ :=
  argField raw maxLen fun buffer =>
    if buffer = [] then some current else checkNumber maxLen ofInt legal store buffer

end Number

/-- `btlink_get_frame_arg_reserved`. -/
def getFrameArgReserved (raw : RawFrame) : Nat → Parse Unit
  | 0 => pure ()
  | total + 1 => do
    argField raw lenReserved fun _ => some ()
    getFrameArgReserved raw total

/-! ## `AT@IPS` -/

/-- An empty host field: the server of the configuration. -/
def hostFromConfig (cfg : ConfigServer) (arg : ArgServer) : ArgServer :=
  let arg := { arg with mode := cfg.mode }
  if cfg.mode = ipsPriIp then
    { arg with sock := { arg.sock with
        addr := arg.sock.addr.overwrite (cfg.sock.addr.bytes.take cfg.sock.addrLen.toNat)
        addrLen := cfg.sock.addrLen } }
  else if cfg.mode = ipsPriDn then { arg with host := arg.host.strncpy cfg.host.bytes lenIpsHost }
  else arg

/-- A host field that names an address: the octets and the length of the address. -/
def hostAddr (arg : ArgServer) (octets : List UInt8) : ArgServer :=
  { arg with
    mode := ipsPriIp
    sock := { arg.sock with addr := arg.sock.addr.overwrite octets, addrLen := ipAddrLen } }

/-- A nonempty host field: an address, zeros, or a domain name with a dot that
is neither its first character nor, when it is the first dot, its last. -/
def hostFromField (buffer : List UInt8) (arg : ArgServer) : Option ArgServer :=
  let check := socIpCheck buffer
  -- `btlink_soc_ip_check` stores octets into the frame also when it fails
  let scratch := { arg with sock := { arg.sock with addr := arg.sock.addr.overwrite check.octets } }
  if check.ret && check.validity then some (hostAddr arg check.octets)
  else if ipAllZero buffer then some (hostAddr scratch [0, 0, 0, 0])
  else if chrDot ∉ buffer ∨ buffer.idxOf chrDot = 0 ∨ buffer.length = buffer.idxOf chrDot + 1 then none
  else some { scratch with mode := ipsPriDn, host := arg.host.strncpy buffer buffer.length }

/-- The main host, or the backup host. -/
def argHost (raw : RawFrame) (cfg : ConfigServer) (arg : ArgServer) : Parse ArgServer :=
  argField raw lenIpsHost fun buffer =>
    if buffer = [] then some (hostFromConfig cfg arg) else hostFromField buffer arg

/-- The main port, or the backup port. -/
def argPort (raw : RawFrame) (cfg : ConfigServer) (arg : ArgServer) : Parse ArgServer := do
  let port ← argNumber raw lenIpsPort UInt32.ofInt (· ≤ maxIpsPort) UInt32.toUInt16 cfg.sock.port
  pure { arg with sock := { arg.sock with port } }

/-- `btlink_get_dnlnk_frame_arg_ips`. -/
def getDnlnkFrameArgIps (cfg : ConfigIps) (raw : RawFrame) : Parse ArgIps := do
  let reportMode ← argNumber raw lenIpsReportMode UInt8.ofInt (· ≤ maxIpsReportMode) id cfg.reportMode
  let bufferMode ← argNumber raw lenIpsBufferMode UInt8.ofInt (· ≤ maxIpsBufferMode) id cfg.bufferMode
  getFrameArgReserved raw 2
  let pri ← argHost raw cfg.pri zeroArgServer
  let pri ← argPort raw cfg.pri pri
  let sec ← argHost raw cfg.sec zeroArgServer
  let sec ← argPort raw cfg.sec sec
  getFrameArgReserved raw 6
  pure { reportMode, bufferMode, pri, sec }

/-! ## `AT@APN` -/

/-- One pass of the loop over `idx`. -/
def argApnRecord (raw : RawFrame) : Parse ApnRecord := do
  let mccMnc ← argString raw lenApnMccMnc maxMccMncLen
  let apnName ← argString raw lenApnName maxApnLen
  let apnUserName ← argString raw lenApnUserName maxApnUserNameLen
  let apnPassword ← argString raw lenApnPassword maxApnPasswordLen
  pure { mccMnc, apnName, apnUserName, apnPassword }

def argApnRecords (raw : RawFrame) : Nat → Parse (List ApnRecord)
  | 0 => pure []
  | n + 1 => do
    let record ← argApnRecord raw
    let records ← argApnRecords raw n
    pure (record :: records)

/-- `btlink_get_dnlnk_frame_arg_apn`. -/
def getDnlnkFrameArgApn (cfg : ConfigApn) (raw : RawFrame) : Parse ArgApn := do
  let apnQuantity ← argNumber raw lenApnNums UInt16.ofInt (· ≤ maxApnNums) UInt16.toUInt8 cfg.apnQuantity
  let records ← argApnRecords raw apnQuantity.toNat
  getFrameArgReserved raw 4
  pure { apnQuantity, first := records.getD 0 zeroRecord, second := records.getD 1 zeroRecord }

/-! ## `AT@SCS` -/

/-- A new password: 4 to 20 letters and digits, or nothing. -/
def checkNewPassword (field : List UInt8) : Option (CharArray maxApnPasswordLen) :=
  let devPassword := (CharArray.zero maxApnPasswordLen).strncpy field lenScsPassword
  if minPasswordLen ≤ field.length ∧ field.length ≤ maxPasswordLen then
    if isalnumBuffer field lenScsPassword then some devPassword else none
  else if field.length ≠ 0 then none
  else some devPassword

/-- The data zone mask. -/
def checkDataZoneMask (current : UInt32) (buffer : List UInt8) : Option UInt32 :=
  if buffer = [] then some current
  else if isxdigitBuffer buffer lenScsDataZoneMask then some (hexString2Int buffer)
  else none

/-- `btlink_get_dnlnk_frame_arg_scs`: it reads the password itself, in front of its arguments. -/
def getDnlnkFrameArgScs (cfg : ConfigScs) (raw : RawFrame) : Parse (List UInt8 × ArgScs) := do
  let password ← argField raw lenScsPassword fun field =>
    if passwordMatch cfg.devPassword field then some field else none
  let devPassword ← argField raw lenScsPassword checkNewPassword
  let dataZoneMask ← argField raw lenScsDataZoneMask (checkDataZoneMask cfg.dataZoneMask)
  getFrameArgReserved raw 4
  pure (password, { devPassword, dataZoneMask })

/-! ## `AT@LSS` -/

/-- The wakeup intervals: 1 to 4, 6, 8, 12 or 24. -/
def legalWakeupInterval (n : UInt8) : Bool :=
  (1 ≤ n && n ≤ 4) || n == 6 || n == 8 || n == 12 || n == 24

/-- `btlink_get_dnlnk_frame_arg_lss`. -/
def getDnlnkFrameArgLss (cfg : ConfigLss) (raw : RawFrame) : Parse ArgLss := do
  let modeSelection ← argNumber raw lenLssModeSelect UInt8.ofInt (· ≤ maxLssModeSelect) id cfg.modeSelection
  let continueSendInterval ← argNumber raw lenLssContSendInterval UInt16.ofInt
    (· ≤ maxLssContSendInterval) id cfg.continueSendInterval
  let startMode ← argNumber raw lenLssStartMode UInt8.ofInt (· ≤ maxLssStartMode) id cfg.startMode
  let specTimeOfDay ← argString raw lenLssSpecTimeDay maxSpecTimeDayLen
  let wakeupInterval ← argNumber raw lenLssWakeupInterval UInt8.ofInt legalWakeupInterval id cfg.wakeupInterval
  let psmNetHoldTime ← argNumber raw lenLssPsmNetHoldTime UInt32.ofInt (· ≤ maxLssNetHoldTime) id
    cfg.psmNetHoldTime
  let reportFreq ← argNumber raw lenLssReportFreg UInt8.ofInt
    (fun n => minLssReportFreq ≤ n && n ≤ maxLssReportFreq) id cfg.reportFreq
  let gnssEnable ← argNumber raw lenLssGnssEnable UInt8.ofInt (· ≤ maxLssGnssEnable) id cfg.gnssEnable
  let gnssFixDelay ← argNumber raw lenLssGnssFixDelay UInt8.ofInt
    (fun n => minLssGnssFixDelay ≤ n && n ≤ maxLssGnssFixDelay) id cfg.gnssFixDelay
  let agpsMode ← argNumber raw lenLssAgpsMode UInt8.ofInt (· ≤ maxLssAgpsMode) id cfg.agpsMode
  let batLowPercent ← argNumber raw lenLssBatLowPercent UInt8.ofInt (· ≤ maxLssBatLowPercent) id
    cfg.batLowPercent
  getFrameArgReserved raw 4
  let sensorEnable ← argNumber raw lenLssSensorEnable UInt8.ofInt (· ≤ maxLssSensorEnable) id cfg.sensorEnable
  let nonMoveDuration ← argNumber raw lenLssNonMoveDur UInt8.ofInt
    (fun n => minLssNonMoveDur ≤ n && n ≤ maxLssNonMoveDur) id cfg.nonMoveDuration
  getFrameArgReserved raw 4
  pure
    { modeSelection, continueSendInterval, startMode, specTimeOfDay, wakeupInterval, psmNetHoldTime,
      reportFreq, gnssEnable, gnssFixDelay, agpsMode, batLowPercent, sensorEnable, nonMoveDuration }

/-! ## `AT@RTH` -/

/-- `btlink_get_dnlnk_frame_arg_rth`: the sub command may not be left empty. -/
def getDnlnkFrameArgRth (raw : RawFrame) : Parse UInt8 := do
  let subCommand ← argField raw lenRthSubCommand
    (checkNumber lenRthSubCommand UInt8.ofInt (· ≤ maxRthSubCommand) id)
  getFrameArgReserved raw 4
  pure subCommand

/-! ## The frame -/

/-- `btlink_get_dnlnk_frame_type`. -/
def getDnlnkFrameType (raw : RawFrame) : Parse FrameHeader := fun position =>
  (frameHeaders.find? fun t => strncmpEq t.str (slice raw.data position lenHeader) lenHeader).map
    fun t => (t, position + lenHeader)

/-- `btlink_get_dnlnk_frame_password`. -/
def getDnlnkFramePassword (cfg : Config) (raw : RawFrame) : Parse (List UInt8) :=
  argField raw lenScsPassword fun field => if passwordMatch cfg.scs.devPassword field then some field else none

/-- `verify_serial_number`. -/
def verifySerialNumber (sn : List UInt8) : Bool := (List.range lenSerialNum).all fun i => isDigit (sn.getD i 0)

/-- `btlink_get_dnlnk_frame_sn`. -/
def getDnlnkFrameSn (raw : RawFrame) : Parse (List UInt8) :=
  argField raw lenSerialNum fun sn => if verifySerialNumber sn then some sn else none

/-- `btlink_verify_dnlnk_frame_tail`. -/
def verifyDnlnkFrameTail (raw : RawFrame) : Parse Unit := fun position =>
  if raw.data position = chrTail then some ((), position) else none

/-- The password and `btlink_get_dnlnk_frame_arg`: all frame types but one read
the password in front of their arguments. -/
def getDnlnkFrameArg (cfg : Config) (raw : RawFrame) : FrameHeader → Parse (List UInt8 × DnlnkArg)
  | .ips => do
    let password ← getDnlnkFramePassword cfg raw
    let arg ← getDnlnkFrameArgIps cfg.ips raw
    pure (password, .ips arg)
  | .apn => do
    let password ← getDnlnkFramePassword cfg raw
    let arg ← getDnlnkFrameArgApn cfg.apn raw
    pure (password, .apn arg)
  | .scs => do
    let r ← getDnlnkFrameArgScs cfg.scs raw
    pure (r.1, .scs r.2)
  | .lss => do
    let password ← getDnlnkFramePassword cfg raw
    let arg ← getDnlnkFrameArgLss cfg.lss raw
    pure (password, .lss arg)
  | .rth => do
    let password ← getDnlnkFramePassword cfg raw
    let subCommand ← getDnlnkFrameArgRth raw
    pure (password, .rth subCommand)

/-- `para_pos`: behind the header, the type and `=`. -/
def paraPos : Nat := headerChklen + lenHeader + 1

/-- What `strncpy` makes of the text up to `position`. -/
def paraText (raw : RawFrame) (position : Nat) : List UInt8 :=
  strncpyBytes (slice raw.data paraPos (position - paraPos)) (position - paraPos)

/-- The copy to `para_string`: as many bytes as there are up to the tail. -/
def getParaString (raw : RawFrame) : Parse (List UInt8) := fun position => some (paraText raw position, position)

/-- `btlink_parse_dnlnk_frame` behind the header. -/
def parseBody (cfg : Config) (raw : RawFrame) : Parse ParsedFrame := do
  let type ← getDnlnkFrameType raw
  -- skip '='
  modify (· + 1)
  let arg ← getDnlnkFrameArg cfg raw type
  let serialNumber ← getDnlnkFrameSn raw
  verifyDnlnkFrameTail raw
  let paraString ← getParaString raw
  pure { password := arg.1, arg := arg.2, serialNumber, paraString }

/-- `btlink_parse_dnlnk_frame`. -/
def parseDnlnkFrame (cfg : Config) (raw : RawFrame) : Option ParsedFrame :=
  if 0 < raw.length ∧ (strncmpEq (slice raw.data 0 headerChklen) dnlnkHeader headerChklen = true
      ∨ strncmpEq (slice raw.data 0 headerChklen) dnlnkHeaderLc headerChklen = true) then
    (parseBody cfg raw headerChklen).map Prod.fst
  else none

end Petbox.Tracker
