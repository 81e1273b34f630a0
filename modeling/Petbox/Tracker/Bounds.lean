/-
What the assign path reads and writes: the way of a command line through
`at_dnlnk_content`, `raw_frame.data` and the fields into the parsed frame, with
every access to these buffers.

The strings of the parsed frame are `argument` buffers, and the `buffer` of a
parsing function is as large as that function makes it. The tests that look at
a string once more, behind its copy, are left out, and so are the octets of an
address, which are no string.
-/
import Petbox.Lib.Access
import Petbox.Tracker.FrameText
import Petbox.Tracker.WellFormed

namespace Petbox.Tracker

open CStr Mem Reader Access

def lenContent : Nat := 255
/-- `sizeof(p_buffer)`, of a pointer. -/
def sizeofPointer : Nat := 4

/-- The buffers of the path. -/
inductive Buf
  | atDnlnkContent
  | data
  | buffer (size : Nat)
  | argument (size : Nat)
  | paraString
  deriving DecidableEq, Repr

def Buf.size : Buf → Nat
  | atDnlnkContent => maxDnlnkFrameSize + 2
  | data => maxDnlnkFrameSize
  | buffer n => n
  | argument n => n
  | paraString => 1 + lenParameter

/-- What happens on the path: an access to a buffer, a field the parser comes
to, with its maximum length, and the test for the tail. -/
inductive Event
  | access (b : Buf) (i : Nat)
  | field (position maxLen : Nat)
  | tail (position : Nat)
  deriving DecidableEq, Repr

/-- Accesses to the `n` cells from `start` on. -/
def cellsFrom (b : Buf) (start n : Nat) : List Event := (List.range n).map fun i => .access b (start + i)

/-- `raw_frame->data[i]`. -/
def readData (raw : RawFrame) (i : Nat) : Logged Event UInt8 := (read raw.data i).rename (.access .data)

/-! ## Fields -/

/-- The loop of `btlink_get_frame_field`, with `i` characters in a buffer of
`size` bytes and room for `n` more. The character is read before `i` is tested. -/
def fieldLoopEvents (raw : RawFrame) (size : Nat) : Nat → Nat → Nat → Logged Event (List UInt8)
  | 0, position, _ =>
    if position < raw.length then do
      let _ ← readData raw position
      pure []
    else pure []
  | n + 1, position, i =>
    if position < raw.length then do
      let c ← readData raw position
      if c ≠ chrSeparator ∧ c ≠ chrTail ∧ c ≠ 0 then do
        touch [.access (.buffer size) i]
        let field ← fieldLoopEvents raw size n (position + 1) (i + 1)
        pure (c :: field)
      else pure []
    else pure []

/-- The test for the tail behind a field. -/
def fieldTailEvents (raw : RawFrame) (field : List UInt8) (position : Nat) :
    Logged Event (Option (List UInt8 × Nat)) := do
  let c ← readData raw position
  pure (if c = chrTail then some (field, position) else none)

/-- `btlink_get_frame_field`. -/
def getFrameFieldEvents (raw : RawFrame) (size fieldMaxLen : Nat) : Scan Event Nat (List UInt8) :=
  fun position => do
    let field ← fieldLoopEvents raw size (fieldMaxLength raw fieldMaxLen position) position 0
    touch [.access (.buffer size) field.length]
    if position + field.length < raw.length then do
      let c ← readData raw (position + field.length)
      if c = chrSeparator then pure (some (field, position + field.length + 1))
      else fieldTailEvents raw field (position + field.length)
    else fieldTailEvents raw field (position + field.length)

/-- What a parsing function uses for a field: the size of its buffer, how much of
it is cleared, and what it does with the field it has read. -/
structure FieldUse where
  size : Nat := lenContent + 1
  cleared : Nat := lenContent + 1
  after : List UInt8 → List Event := fun _ => []

/-- `btlink_get_frame_arg_field`, and what its caller makes of the field. -/
def argFieldEvents {β : Type} (raw : RawFrame) (maxLen : Nat) (use : FieldUse) (check : List UInt8 → Option β) :
    Scan Event Nat β := fun position => do
  touch (.field position maxLen :: cellsFrom (.buffer use.size) 0 use.cleared)
  let r ← getFrameFieldEvents raw use.size maxLen position
  touch (r.elim [] fun r => use.after r.1)
  pure (r.bind fun r => (check r.1).map fun v => (v, r.2))

/-- `strncpy` from the buffer to a string of the parsed frame, in the row of an array. -/
def fieldCopy (size maxLen n rows row : Nat) (field : List UInt8) : List Event :=
  cellsFrom (.argument (rows * n)) (row * n) maxLen ++ cellsFrom (.buffer size) 0 (min maxLen (field.length + 1))

/-- A string argument. -/
def argStringEvents (raw : RawFrame) (maxLen n rows row : Nat) : Scan Event Nat (CharArray n) :=
  argFieldEvents raw maxLen { after := fieldCopy (lenContent + 1) maxLen n rows row } fun field =>
    some ((CharArray.zero n).strncpy field maxLen)

/-- A numeric argument. -/
def argNumberEvents {β γ : Type} (raw : RawFrame) (maxLen : Nat) (ofInt : Int → β) (legal : β → Bool) (store : β → γ)
    (current : γ) : Scan Event Nat γ :=
  argFieldEvents raw maxLen {} fun buffer =>
    if buffer = [] then some current else checkNumber maxLen ofInt legal store buffer

/-- `btlink_get_frame_arg_reserved`: the buffer is cleared as far as a pointer is long. -/
def getFrameArgReservedEvents (raw : RawFrame) : Nat → Scan Event Nat Unit
  | 0 => pure ()
  | total + 1 => do
    argFieldEvents raw lenReserved { cleared := sizeofPointer } fun _ => some ()
    getFrameArgReservedEvents raw total

/-! ## The arguments -/

/-- The copy of a host: the one of the configuration, or the domain name in the field. -/
def hostCopy (cfg : ConfigServer) (field : List UInt8) : List Event :=
  if field = [] then
    if cfg.mode = ipsPriDn then cellsFrom (.argument lenIpsHost) 0 lenIpsHost else []
  else
    match hostFromField field zeroArgServer with
    | some arg =>
      if arg.mode = ipsPriDn then
        cellsFrom (.argument lenIpsHost) 0 field.length ++ cellsFrom (.buffer (lenContent + 1)) 0 field.length
      else []
    | none => []

def argHostEvents (raw : RawFrame) (cfg : ConfigServer) (arg : ArgServer) : Scan Event Nat ArgServer :=
  argFieldEvents raw lenIpsHost { after := hostCopy cfg } fun buffer =>
    if buffer = [] then some (hostFromConfig cfg arg) else hostFromField buffer arg

def argPortEvents (raw : RawFrame) (cfg : ConfigServer) (arg : ArgServer) : Scan Event Nat ArgServer := do
  let port ← argNumberEvents raw lenIpsPort UInt32.ofInt (· ≤ maxIpsPort) UInt32.toUInt16 cfg.sock.port
  pure { arg with sock := { arg.sock with port } }

/-- `btlink_get_dnlnk_frame_arg_ips`. -/
def argIpsEvents (cfg : ConfigIps) (raw : RawFrame) : Scan Event Nat ArgIps := do
  let reportMode ← argNumberEvents raw lenIpsReportMode UInt8.ofInt (· ≤ maxIpsReportMode) id cfg.reportMode
  let bufferMode ← argNumberEvents raw lenIpsBufferMode UInt8.ofInt (· ≤ maxIpsBufferMode) id cfg.bufferMode
  getFrameArgReservedEvents raw 2
  let pri ← argHostEvents raw cfg.pri zeroArgServer
  let pri ← argPortEvents raw cfg.pri pri
  let sec ← argHostEvents raw cfg.sec zeroArgServer
  let sec ← argPortEvents raw cfg.sec sec
  getFrameArgReservedEvents raw 6
  pure { reportMode, bufferMode, pri, sec }

/-- How many rows the arrays of `btlink_arg_apn_struct` have. -/
def apnRows : Nat := 2

/-- One pass of the loop over `idx`. -/
def argApnRecordEvents (raw : RawFrame) (idx : Nat) : Scan Event Nat ApnRecord := do
  let mccMnc ← argStringEvents raw lenApnMccMnc maxMccMncLen apnRows idx
  let apnName ← argStringEvents raw lenApnName maxApnLen apnRows idx
  let apnUserName ← argStringEvents raw lenApnUserName maxApnUserNameLen apnRows idx
  let apnPassword ← argStringEvents raw lenApnPassword maxApnPasswordLen apnRows idx
  pure { mccMnc, apnName, apnUserName, apnPassword }

def argApnRecordsEvents (raw : RawFrame) : Nat → Nat → Scan Event Nat (List ApnRecord)
  | _, 0 => pure []
  | idx, n + 1 => do
    let record ← argApnRecordEvents raw idx
    let records ← argApnRecordsEvents raw (idx + 1) n
    pure (record :: records)

/-- `btlink_get_dnlnk_frame_arg_apn`. -/
def argApnEvents (cfg : ConfigApn) (raw : RawFrame) : Scan Event Nat ArgApn := do
  let apnQuantity ← argNumberEvents raw lenApnNums UInt16.ofInt (· ≤ maxApnNums) UInt16.toUInt8 cfg.apnQuantity
  let records ← argApnRecordsEvents raw 0 apnQuantity.toNat
  getFrameArgReservedEvents raw 4
  pure { apnQuantity, first := records.getD 0 zeroRecord, second := records.getD 1 zeroRecord }

/-- The password, with a buffer of `size` bytes. -/
def passwordEvents (devPassword : CharArray lenScsPassword) (raw : RawFrame) (size : Nat) :
    Scan Event Nat (List UInt8) :=
  argFieldEvents raw lenScsPassword
    { size, cleared := size, after := fieldCopy size lenScsPassword (lenScsPassword + 1) 1 0 } fun field =>
      if passwordMatch devPassword field then some field else none

/-- `btlink_get_dnlnk_frame_arg_scs`. -/
def argScsEvents (cfg : ConfigScs) (raw : RawFrame) : Scan Event Nat (List UInt8 × ArgScs) := do
  let password ← passwordEvents cfg.devPassword raw (lenContent + 1)
  let devPassword ← argFieldEvents raw lenScsPassword
    { after := fieldCopy (lenContent + 1) lenScsPassword maxApnPasswordLen 1 0 } checkNewPassword
  let dataZoneMask ← argFieldEvents raw lenScsDataZoneMask {} (checkDataZoneMask cfg.dataZoneMask)
  getFrameArgReservedEvents raw 4
  pure (password, { devPassword, dataZoneMask })

/-- `btlink_get_dnlnk_frame_arg_lss`. -/
def argLssEvents (cfg : ConfigLss) (raw : RawFrame) : Scan Event Nat ArgLss := do
  let modeSelection ← argNumberEvents raw lenLssModeSelect UInt8.ofInt (· ≤ maxLssModeSelect) id cfg.modeSelection
  let continueSendInterval ← argNumberEvents raw lenLssContSendInterval UInt16.ofInt
    (· ≤ maxLssContSendInterval) id cfg.continueSendInterval
  let startMode ← argNumberEvents raw lenLssStartMode UInt8.ofInt (· ≤ maxLssStartMode) id cfg.startMode
  let specTimeOfDay ← argStringEvents raw lenLssSpecTimeDay maxSpecTimeDayLen 1 0
  let wakeupInterval ← argNumberEvents raw lenLssWakeupInterval UInt8.ofInt legalWakeupInterval id cfg.wakeupInterval
  let psmNetHoldTime ← argNumberEvents raw lenLssPsmNetHoldTime UInt32.ofInt (· ≤ maxLssNetHoldTime) id
    cfg.psmNetHoldTime
  let reportFreq ← argNumberEvents raw lenLssReportFreg UInt8.ofInt
    (fun n => minLssReportFreq ≤ n && n ≤ maxLssReportFreq) id cfg.reportFreq
  let gnssEnable ← argNumberEvents raw lenLssGnssEnable UInt8.ofInt (· ≤ maxLssGnssEnable) id cfg.gnssEnable
  let gnssFixDelay ← argNumberEvents raw lenLssGnssFixDelay UInt8.ofInt
    (fun n => minLssGnssFixDelay ≤ n && n ≤ maxLssGnssFixDelay) id cfg.gnssFixDelay
  let agpsMode ← argNumberEvents raw lenLssAgpsMode UInt8.ofInt (· ≤ maxLssAgpsMode) id cfg.agpsMode
  let batLowPercent ← argNumberEvents raw lenLssBatLowPercent UInt8.ofInt (· ≤ maxLssBatLowPercent) id
    cfg.batLowPercent
  getFrameArgReservedEvents raw 4
  let sensorEnable ← argNumberEvents raw lenLssSensorEnable UInt8.ofInt (· ≤ maxLssSensorEnable) id cfg.sensorEnable
  let nonMoveDuration ← argNumberEvents raw lenLssNonMoveDur UInt8.ofInt
    (fun n => minLssNonMoveDur ≤ n && n ≤ maxLssNonMoveDur) id cfg.nonMoveDuration
  getFrameArgReservedEvents raw 4
  pure
    { modeSelection, continueSendInterval, startMode, specTimeOfDay, wakeupInterval, psmNetHoldTime,
      reportFreq, gnssEnable, gnssFixDelay, agpsMode, batLowPercent, sensorEnable, nonMoveDuration }

/-- `btlink_get_dnlnk_frame_arg_rth`. -/
def argRthEvents (raw : RawFrame) : Scan Event Nat UInt8 := do
  let subCommand ← argFieldEvents raw lenRthSubCommand {}
    (checkNumber lenRthSubCommand UInt8.ofInt (· ≤ maxRthSubCommand) id)
  getFrameArgReservedEvents raw 4
  pure subCommand

/-! ## The frame -/

/-- The password and the arguments. -/
def frameArgEvents (cfg : Config) (raw : RawFrame) : FrameHeader → Scan Event Nat (List UInt8 × DnlnkArg)
  | .ips => do
    let password ← passwordEvents cfg.scs.devPassword raw (lenScsPassword + 1)
    let arg ← argIpsEvents cfg.ips raw
    pure (password, .ips arg)
  | .apn => do
    let password ← passwordEvents cfg.scs.devPassword raw (lenScsPassword + 1)
    let arg ← argApnEvents cfg.apn raw
    pure (password, .apn arg)
  | .scs => do
    let r ← argScsEvents cfg.scs raw
    pure (r.1, .scs r.2)
  | .lss => do
    let password ← passwordEvents cfg.scs.devPassword raw (lenScsPassword + 1)
    let arg ← argLssEvents cfg.lss raw
    pure (password, .lss arg)
  | .rth => do
    let password ← passwordEvents cfg.scs.devPassword raw (lenScsPassword + 1)
    let subCommand ← argRthEvents raw
    pure (password, .rth subCommand)

/-- `btlink_get_dnlnk_frame_type`: `strncmp` looks at three characters at most. -/
def frameTypeEvents (raw : RawFrame) : Scan Event Nat FrameHeader := fun position => do
  touch (cellsFrom .data position lenHeader)
  pure (getDnlnkFrameType raw position)

/-- The `=` is skipped. -/
def skipEvents : Scan Event Nat Unit := fun position => pure (some ((), position + 1))

/-- `btlink_get_dnlnk_frame_sn`. -/
def frameSnEvents (raw : RawFrame) : Scan Event Nat (List UInt8) :=
  argFieldEvents raw lenSerialNum
    { size := lenSerialNum + 1
      cleared := lenSerialNum + 1
      after := fieldCopy (lenSerialNum + 1) lenSerialNum (lenSerialNum + 1) 1 0 } fun sn =>
        if verifySerialNumber sn then some sn else none

/-- `btlink_verify_dnlnk_frame_tail`. -/
def frameTailEvents (raw : RawFrame) : Scan Event Nat Unit := fun position => do
  touch [.tail position]
  let c ← readData raw position
  pure (if c = chrTail then some ((), position) else none)

/-- The text of `para_string`; `paraStringEvents` are the accesses of its copy. -/
def paraStringText (raw : RawFrame) : Scan Event Nat (List UInt8) := fun position => pure (getParaString raw position)

/-- `btlink_parse_dnlnk_frame` behind the type. -/
def fieldsEvents (cfg : Config) (raw : RawFrame) (type : FrameHeader) : Scan Event Nat ParsedFrame := do
  let arg ← frameArgEvents cfg raw type
  let serialNumber ← frameSnEvents raw
  frameTailEvents raw
  let paraString ← paraStringText raw
  pure { password := arg.1, arg := arg.2, serialNumber, paraString }

/-- `btlink_parse_dnlnk_frame` behind the header, up to the tail. -/
def bodyEvents (cfg : Config) (raw : RawFrame) : Scan Event Nat ParsedFrame := do
  let type ← frameTypeEvents raw
  skipEvents
  fieldsEvents cfg raw type

/-- The copy to `para_string` of a frame that ends at `position`; `para_pos` is 7. -/
def paraStringEvents (position : Nat) : List Event :=
  cellsFrom .paraString 0 (lenParameter + 1) ++ (cellsFrom .paraString 0 (position - 7) ++
    cellsFrom .data 7 (position - 7))

/-- `btlink_parse_dnlnk_frame`. -/
def parseDnlnkFrameEvents (cfg : Config) (raw : RawFrame) : Logged Event (Option ParsedFrame) :=
  if 0 < raw.length then do
    touch (cellsFrom .data 0 headerChklen)
    if strncmpEq (slice raw.data 0 headerChklen) dnlnkHeader headerChklen = true
        ∨ strncmpEq (slice raw.data 0 headerChklen) dnlnkHeaderLc headerChklen = true then do
      let r ← bodyEvents cfg raw headerChklen
      touch (r.elim [] fun r => paraStringEvents r.2)
      pure (r.map Prod.fst)
    else pure none
  else pure none

/-- The assign branch of `rmmi_protocol_cmd_entry`, and `btlink_check_and_exec_protocol`
up to the parser: the line is copied twice, and its length taken in between. -/
def assignEvents (cfg : Config) (line : List UInt8) (past : Nat → UInt8) : Logged Event (Option ParsedFrame) := do
  let content := atDnlnkContent line
  let dnlnkLen := (cstr content).length
  touch (cellsFrom .atDnlnkContent 0 (maxDnlnkFrameSize + 2) ++ cellsFrom .atDnlnkContent 0 content.length)
  touch (cellsFrom .atDnlnkContent 0 (dnlnkLen + 1))
  touch (cellsFrom .data 0 maxDnlnkFrameSize ++ (cellsFrom .data 0 dnlnkLen ++ cellsFrom .atDnlnkContent 0 dnlnkLen))
  parseDnlnkFrameEvents cfg (rawDnlnkFrame content dnlnkLen past)

/-! ## The parser is the parser -/

section Val

variable {raw : RawFrame}

@[simp] theorem readData_val (raw : RawFrame) (i : Nat) : (readData raw i).val = raw.data i := rfl

theorem fieldLoopEvents_val (size n position i : Nat) :
    (fieldLoopEvents raw size n position i).val = fieldLoop raw chrSeparator chrTail n position := by
  induction n generalizing position i with
  | zero =>
    unfold fieldLoopEvents
    split <;> rfl
  | succ n ih =>
    unfold fieldLoopEvents fieldLoop
    simp only [val_ite, val_bind, val_pure, ih]
    split
    · next hin =>
      split
      · next hc => exact (if_pos ⟨hin, hc⟩).symm
      · next hc => exact (if_neg fun h => hc h.2).symm
    · next hin => exact (if_neg fun h => hin h.1).symm

theorem getFrameFieldEvents_val (size maxLen : Nat) :
    Follows (getFrameFieldEvents raw size maxLen) (getFrameField raw maxLen chrSeparator chrTail) := by
  intro position
  simp only [getFrameFieldEvents, getFrameField, val_bind, val_ite, val_pure, fieldLoopEvents_val]
  generalize fieldLoop raw chrSeparator chrTail (fieldMaxLength raw maxLen position) position = field
  by_cases hin : position + field.length < raw.length
  · rw [if_pos hin]
    by_cases hsep : raw.data (position + field.length) = chrSeparator
    · exact (if_pos hsep).trans (if_pos ⟨hin, hsep⟩).symm
    · exact (if_neg hsep).trans (if_neg fun h => hsep h.2).symm
  · rw [if_neg hin]
    exact (if_neg fun h => hin h.1).symm

theorem argFieldEvents_val {β : Type} (maxLen : Nat) (use : FieldUse) (check : List UInt8 → Option β) :
    Follows (argFieldEvents raw maxLen use check) (argField raw maxLen check) := by
  intro position
  simp only [argFieldEvents, val_bind, val_pure, getFrameFieldEvents_val use.size maxLen position, argField]

theorem reservedEvents_val (total : Nat) :
    Follows (getFrameArgReservedEvents raw total) (getFrameArgReserved raw total) := by
  induction total with
  | zero => exact .pure ()
  | succ total ih => exact (argFieldEvents_val _ _ _).bind fun _ => ih

theorem argPortEvents_val (cfg : ConfigServer) (arg : ArgServer) :
    Follows (argPortEvents raw cfg arg) (argPort raw cfg arg) :=
  (argFieldEvents_val _ _ _).bind fun _ => .pure _

theorem argIpsEvents_val (cfg : ConfigIps) : Follows (argIpsEvents cfg raw) (getDnlnkFrameArgIps cfg raw) := by
  refine (argFieldEvents_val _ _ _).bind fun _ => ?_
  refine (argFieldEvents_val _ _ _).bind fun _ => ?_
  refine (reservedEvents_val 2).bind fun _ => ?_
  refine (argFieldEvents_val _ _ _).bind fun pri => ?_
  refine (argPortEvents_val _ pri).bind fun _ => ?_
  refine (argFieldEvents_val _ _ _).bind fun sec => ?_
  refine (argPortEvents_val _ sec).bind fun _ => ?_
  exact (reservedEvents_val 6).bind fun _ => .pure _

theorem argApnRecordsEvents_val (idx n : Nat) : Follows (argApnRecordsEvents raw idx n) (argApnRecords raw n) := by
  induction n generalizing idx with
  | zero => exact .pure _
  | succ n ih =>
    have hrecord : Follows (argApnRecordEvents raw idx) (argApnRecord raw) :=
      (argFieldEvents_val _ _ _).bind fun _ => (argFieldEvents_val _ _ _).bind fun _ =>
        (argFieldEvents_val _ _ _).bind fun _ => (argFieldEvents_val _ _ _).bind fun _ => .pure _
    exact hrecord.bind fun _ => (ih (idx + 1)).bind fun _ => .pure _

theorem argApnEvents_val (cfg : ConfigApn) : Follows (argApnEvents cfg raw) (getDnlnkFrameArgApn cfg raw) := by
  refine (argFieldEvents_val _ _ _).bind fun _ => ?_
  refine (argApnRecordsEvents_val _ _).bind fun _ => ?_
  exact (reservedEvents_val 4).bind fun _ => .pure _

theorem argScsEvents_val (cfg : ConfigScs) : Follows (argScsEvents cfg raw) (getDnlnkFrameArgScs cfg raw) := by
  refine (argFieldEvents_val _ _ _).bind fun _ => ?_
  refine (argFieldEvents_val _ _ _).bind fun _ => ?_
  refine (argFieldEvents_val _ _ _).bind fun _ => ?_
  exact (reservedEvents_val 4).bind fun _ => .pure _

theorem argLssEvents_val (cfg : ConfigLss) : Follows (argLssEvents cfg raw) (getDnlnkFrameArgLss cfg raw) := by
  refine (argFieldEvents_val _ _ _).bind fun _ => ?_
  refine (argFieldEvents_val _ _ _).bind fun _ => ?_
  refine (argFieldEvents_val _ _ _).bind fun _ => ?_
  refine (argFieldEvents_val _ _ _).bind fun _ => ?_
  refine (argFieldEvents_val _ _ _).bind fun _ => ?_
  refine (argFieldEvents_val _ _ _).bind fun _ => ?_
  refine (argFieldEvents_val _ _ _).bind fun _ => ?_
  refine (argFieldEvents_val _ _ _).bind fun _ => ?_
  refine (argFieldEvents_val _ _ _).bind fun _ => ?_
  refine (argFieldEvents_val _ _ _).bind fun _ => ?_
  refine (argFieldEvents_val _ _ _).bind fun _ => ?_
  refine (reservedEvents_val 4).bind fun _ => ?_
  refine (argFieldEvents_val _ _ _).bind fun _ => ?_
  refine (argFieldEvents_val _ _ _).bind fun _ => ?_
  exact (reservedEvents_val 4).bind fun _ => .pure _

theorem argRthEvents_val : Follows (argRthEvents raw) (getDnlnkFrameArgRth raw) :=
  (argFieldEvents_val _ _ _).bind fun _ => (reservedEvents_val 4).bind fun _ => .pure _

theorem frameArgEvents_val (cfg : Config) (type : FrameHeader) :
    Follows (frameArgEvents cfg raw type) (getDnlnkFrameArg cfg raw type) := by
  cases type with
  | ips => exact (argFieldEvents_val _ _ _).bind fun _ => (argIpsEvents_val _).bind fun _ => .pure _
  | apn => exact (argFieldEvents_val _ _ _).bind fun _ => (argApnEvents_val _).bind fun _ => .pure _
  | scs => exact (argScsEvents_val _).bind fun _ => .pure _
  | lss => exact (argFieldEvents_val _ _ _).bind fun _ => (argLssEvents_val _).bind fun _ => .pure _
  | rth => exact (argFieldEvents_val _ _ _).bind fun _ => argRthEvents_val.bind fun _ => .pure _

theorem fieldsEvents_val (cfg : Config) (type : FrameHeader) :
    Follows (fieldsEvents cfg raw type) (do
      let arg ← getDnlnkFrameArg cfg raw type
      let serialNumber ← getDnlnkFrameSn raw
      verifyDnlnkFrameTail raw
      let paraString ← getParaString raw
      pure { password := arg.1, arg := arg.2, serialNumber, paraString }) := by
  refine (frameArgEvents_val cfg type).bind fun _ => ?_
  refine (argFieldEvents_val _ _ _).bind fun _ => ?_
  refine Follows.bind (fun _ => rfl) fun _ => ?_
  exact Follows.bind (fun _ => rfl) fun _ => .pure _

theorem bodyEvents_val (cfg : Config) : Follows (bodyEvents cfg raw) (parseBody cfg raw) := by
  refine Follows.bind (fun _ => rfl) fun type => ?_
  exact Follows.bind (fun _ => rfl) fun _ => fieldsEvents_val cfg type

theorem parseDnlnkFrameEvents_val (cfg : Config) :
    (parseDnlnkFrameEvents cfg raw).val = parseDnlnkFrame cfg raw := by
  unfold parseDnlnkFrameEvents parseDnlnkFrame
  simp only [val_ite, val_bind, val_pure, bodyEvents_val cfg headerChklen]
  by_cases hpos : 0 < raw.length
  · rw [if_pos hpos]
    simp only [hpos, true_and]
  · rw [if_neg hpos]
    simp only [hpos, false_and, if_false]

end Val

/-- The frame the path makes of a line is the one that is executed. -/
theorem assignEvents_val {line : List UInt8} (ht : Text line) (cfg : Config) (past : Nat → UInt8) :
    (assignEvents cfg line past).val =
      parseDnlnkFrame cfg (rawDnlnkFrame (atDnlnkContent line) (atDnlnkContent line).length past) := by
  have hcstr : cstr (atDnlnkContent line) = atDnlnkContent line := cstr_text (ht.take _)
  simp only [assignEvents, val_bind, parseDnlnkFrameEvents_val, hcstr]

/-! ## When the path stays inside -/

/-- An access is inside its buffer. -/
def Event.InBounds : Event → Prop
  | .access b i => i < b.size
  | .field _ _ => True
  | .tail _ => True

instance : DecidablePred Event.InBounds
  | .access b i => inferInstanceAs (Decidable (i < b.size))
  | .field _ _ => instDecidableTrue
  | .tail _ => instDecidableTrue

/-- A line of 160 characters is read to its end: from where a field starts there
is no comma and no `#`, and no more than the field may have; or the test for
the tail comes to the end. -/
def Event.RunsOut (line : List UInt8) : Event → Prop
  | .access _ _ => False
  | .field p maxLen =>
    line.length = maxDnlnkFrameSize ∧ FieldText (line.drop p) ∧ FieldFits maxLen (line.drop p)
  | .tail p => p = maxDnlnkFrameSize

/-- The raw frame of a line that fits. -/
structure HoldsLine (raw : RawFrame) (line : List UInt8) : Prop where
  fits : line.length ≤ maxDnlnkFrameSize
  length : raw.length = line.length
  cells : ∀ {p n}, p + n ≤ line.length → slice raw.data p n = (line.drop p).take n

theorem holdsLine_raw {line : List UInt8} (hfits : line.length ≤ maxDnlnkFrameSize) (ht : Text line)
    (past : Nat → UInt8) : HoldsLine (rawDnlnkFrame line line.length past) line :=
  ⟨hfits, rawDnlnkFrame_length hfits past, rawDnlnkFrame_slice hfits ht past⟩

section Field

variable {raw : RawFrame} {line : List UInt8} {P : Event → Prop} {p maxLen : Nat}

/-- The characters a field has, from a place in the line. -/
def fieldRead (raw : RawFrame) (maxLen p : Nat) : List UInt8 :=
  fieldLoop raw chrSeparator chrTail (fieldMaxLength raw maxLen p) p

theorem HoldsLine.inside (h : HoldsLine raw line) (hp : p ≤ max 7 line.length) :
    p + (fieldRead raw maxLen p).length ≤ max 7 line.length := by
  have := (fieldLoop_spec raw (fieldMaxLength raw maxLen p) p).2.2.2
  rw [h.length] at this
  unfold fieldRead
  omega

/-- The field ends at index 160 when the line is read to its end. -/
theorem HoldsLine.runsOut_iff (h : HoldsLine raw line) (hp : p ≤ max 7 line.length) :
    p + (fieldRead raw maxLen p).length = maxDnlnkFrameSize ↔ (Event.field p maxLen).RunsOut line := by
  have hfits := h.fits
  unfold maxDnlnkFrameSize at hfits
  constructor
  · intro hend
    obtain ⟨hroom, hcells, htext, hin⟩ := fieldLoop_spec raw (fieldMaxLength raw maxLen p) p
    rw [← fieldRead] at hroom hcells htext hin
    rw [h.length] at hin
    unfold maxDnlnkFrameSize at hend
    have hlen : line.length = 160 := by omega
    have hdrop : line.drop p = fieldRead raw maxLen p := by
      rw [← hcells, h.cells (by omega), List.take_of_length_le (by rw [List.length_drop]; omega)]
    rw [Event.RunsOut, hdrop]
    refine ⟨hlen, htext, ?_⟩
    rcases Nat.eq_zero_or_pos maxLen with hz | hpos
    · exact .inl hz
    · exact .inr (Nat.le_trans hroom (Nat.le_of_eq (if_neg (by omega))))
  · intro hout
    obtain ⟨hlen, htext, hmax⟩ := hout
    unfold maxDnlnkFrameSize at hlen
    have hdrop : (line.drop p).length = 160 - p := by rw [List.length_drop, hlen]
    have hin : p + (line.drop p).length ≤ max p raw.length := by
      rw [h.length]
      omega
    have hcells : slice raw.data p (line.drop p).length = line.drop p := by
      rw [h.cells (by omega), List.take_of_length_le (Nat.le_refl _)]
    have hread : fieldRead raw maxLen p = line.drop p :=
      fieldLoop_eq hcells htext hin (.inl (by rw [h.length]; omega)) (hmax.room (by rw [h.length]; omega) hin)
    rw [hread, hdrop]
    unfold maxDnlnkFrameSize
    omega

@[simp] theorem within_readData {i : Nat} : Within P (readData raw i) ↔ P (.access .data i) := by
  rw [readData, within_rename, within_read]

/-- The loop reads inside the line, and writes the characters of the field. -/
theorem fieldLoopEvents_within {size n i : Nat} (hdata : ∀ j < raw.length, P (.access .data j))
    (hbuf : ∀ j < i + (fieldLoop raw chrSeparator chrTail n p).length, P (.access (.buffer size) j)) :
    Within P (fieldLoopEvents raw size n p i) := by
  induction n generalizing p i with
  | zero =>
    unfold fieldLoopEvents
    simp only [within_ite, within_bind, within_readData, within_pure, and_true, implies_true]
    exact hdata p
  | succ n ih =>
    unfold fieldLoopEvents
    simp only [within_ite, within_bind, within_readData, within_touch, List.forall_mem_singleton, within_pure,
      and_true, implies_true]
    intro hin
    refine ⟨hdata p hin, fun hc => ?_⟩
    have hloop : fieldLoop raw chrSeparator chrTail (n + 1) p =
        raw.data p :: fieldLoop raw chrSeparator chrTail n (p + 1) := by
      rw [fieldLoop]
      exact if_pos ⟨hin, hc⟩
    rw [hloop, List.length_cons] at hbuf
    exact ⟨hbuf i (by omega), ih fun j hj => hbuf j (by omega)⟩

/-- What decides is the read behind the field. -/
theorem getFrameFieldEvents_within {size : Nat} (hdata : ∀ j < raw.length, P (.access .data j))
    (hbuf : ∀ j ≤ (fieldRead raw maxLen p).length, P (.access (.buffer size) j)) :
    Within P (getFrameFieldEvents raw size maxLen p) ↔ P (.access .data (p + (fieldRead raw maxLen p).length)) := by
  have hloop : Within P (fieldLoopEvents raw size (fieldMaxLength raw maxLen p) p 0) :=
    fieldLoopEvents_within hdata fun j hj => hbuf j (by rw [fieldRead]; omega)
  have hval : (fieldLoopEvents raw size (fieldMaxLength raw maxLen p) p 0).val = fieldRead raw maxLen p :=
    fieldLoopEvents_val _ _ _ _
  simp only [getFrameFieldEvents, fieldTailEvents, within_bind, within_ite, within_touch, List.forall_mem_singleton,
    within_readData, within_pure, and_true, implies_true, hval]
  constructor
  · intro h
    by_cases hin : p + (fieldRead raw maxLen p).length < raw.length
    · exact hdata _ hin
    · exact h.2.2.2 hin
  · intro h
    exact ⟨hloop, hbuf _ (Nat.le_refl _), fun _ => ⟨h, trivial, fun _ => h⟩, fun _ => h⟩

/-- Accesses that are inside. -/
def Inside (l : List Event) : Prop := ∀ e ∈ l, ∃ b i, e = .access b i ∧ i < b.size

theorem Inside.nil : Inside [] := fun _ h => absurd h List.not_mem_nil

theorem Inside.append {l l' : List Event} (h : Inside l) (h' : Inside l') : Inside (l ++ l') :=
  List.forall_mem_append.2 ⟨h, h'⟩

theorem inside_cells {b : Buf} {start n : Nat} (h : start + n ≤ b.size) : Inside (cellsFrom b start n) := by
  intro e he
  obtain ⟨i, hi, rfl⟩ := List.mem_map.1 he
  have := List.mem_range.1 hi
  exact ⟨b, start + i, rfl, by omega⟩

theorem quiet_cells (b : Buf) (start n : Nat) : ∀ e ∈ cellsFrom b start n, ¬ e.RunsOut line := by
  intro e he hout
  obtain ⟨i, -, rfl⟩ := List.mem_map.1 he
  exact hout

theorem Inside.inBounds {l : List Event} (h : Inside l) : ∀ e ∈ l, e.InBounds := by
  intro e he
  obtain ⟨b, i, rfl, hi⟩ := h e he
  exact hi

theorem Inside.quiet {l : List Event} (h : Inside l) : ∀ e ∈ l, ¬ e.RunsOut line := by
  intro e he hout
  obtain ⟨b, i, rfl, -⟩ := h e he
  exact hout

/-- The buffer of a parsing function has room for a field and its 0, and what is
done with the field stays inside. -/
structure FieldUse.Fits (use : FieldUse) (maxLen : Nat) : Prop where
  room : (maxLen = 0 ∧ maxDnlnkFrameSize < use.size) ∨ (0 < maxLen ∧ maxLen < use.size)
  cleared : use.cleared ≤ use.size
  after : ∀ f, FieldFits maxLen f → Inside (use.after f)

/-- The invariant of the position. -/
def InLine (line : List UInt8) (position : Nat) : Prop := position ≤ max 7 line.length

/-- What is asked of a part of the parser: its accesses are inside exactly when
it does not read the line to its end. -/
abbrev Confined {β : Type} (line : List UInt8) (A : β → Prop) (x : Scan Event Nat β) : Prop :=
  Agrees (InLine line) Event.InBounds (fun e => ¬ e.RunsOut line) A x

/-- A field and its 0 are inside the buffer. -/
theorem FieldUse.Fits.read_lt {use : FieldUse} (huse : use.Fits maxLen) (h : HoldsLine raw line)
    (hp : p ≤ max 7 line.length) : (fieldRead raw maxLen p).length < use.size := by
  have hfits := h.fits
  have hinside : p + (fieldRead raw maxLen p).length ≤ max 7 line.length := h.inside hp
  rcases huse.room with ⟨-, hsize⟩ | ⟨hpos, hsize⟩
  · unfold maxDnlnkFrameSize at hfits hsize
    omega
  · refine Nat.lt_of_le_of_lt (Nat.le_trans (fieldLoop_spec raw (fieldMaxLength raw maxLen p) p).1 ?_) hsize
    exact Nat.le_of_eq (if_neg (by omega))

/-- What is done with the field that is read is inside. -/
theorem FieldUse.Fits.after_inside {use : FieldUse} (huse : use.Fits maxLen) (p : Nat) :
    Inside (((getFrameFieldEvents raw use.size maxLen p).val).elim [] fun r => use.after r.1) := by
  rw [getFrameFieldEvents_val use.size maxLen p]
  cases hr : getFrameField raw maxLen chrSeparator chrTail p with
  | none => exact .nil
  | some r =>
    refine huse.after r.1 ?_
    rcases Nat.eq_zero_or_pos maxLen with hz | hpos
    · exact .inl hz
    · exact .inr ((getFrameField_some hr).2 hpos)

/-- **One field.** The only access that may be outside is the one behind the field. -/
theorem argField_confined {β : Type} {A : β → Prop} {use : FieldUse} {check : List UInt8 → Option β}
    (h : HoldsLine raw line) (huse : use.Fits maxLen) (hA : ∀ f v, check f = some v → A v) :
    Confined line A (argFieldEvents raw maxLen use check) := by
  intro p hp
  have hfits := h.fits
  have hinside : p + (fieldRead raw maxLen p).length ≤ max 7 line.length := h.inside hp
  have hroom := huse.read_lt h hp
  have hval : (argFieldEvents raw maxLen use check p).val = argField raw maxLen check p := argFieldEvents_val _ _ _ p
  have hafter := @FieldUse.Fits.after_inside raw maxLen use huse p
  have hclear : Inside (cellsFrom (.buffer use.size) 0 use.cleared) :=
    inside_cells (by simpa [Buf.size] using huse.cleared)
  constructor
  · have hin : Within Event.InBounds (getFrameFieldEvents raw use.size maxLen p) ↔
        p + (fieldRead raw maxLen p).length < maxDnlnkFrameSize := by
      refine getFrameFieldEvents_within (fun j hj => ?_) fun j hj => Nat.lt_of_le_of_lt hj hroom
      exact Nat.lt_of_lt_of_le (h.length ▸ hj) hfits
    have hquiet : Within (fun e => ¬ e.RunsOut line) (getFrameFieldEvents raw use.size maxLen p) :=
      (getFrameFieldEvents_within (fun _ _ h => h) fun _ _ h => h).2 fun h => h
    simp only [argFieldEvents, within_bind, within_touch, within_pure, and_true, List.forall_mem_cons]
    constructor
    · intro hall
      refine ⟨⟨fun hout => ?_, hclear.quiet⟩, hquiet, hafter.quiet⟩
      have := hin.1 hall.2.1
      rw [(h.runsOut_iff hp).2 hout] at this
      exact absurd this (Nat.lt_irrefl _)
    · intro hall
      refine ⟨⟨trivial, hclear.inBounds⟩, hin.2 ?_, hafter.inBounds⟩
      have hne : p + (fieldRead raw maxLen p).length ≠ maxDnlnkFrameSize :=
        fun hend => hall.1.1 ((h.runsOut_iff hp).1 hend)
      unfold maxDnlnkFrameSize at hfits hne ⊢
      omega
  · intro v q hv
    rw [hval, argField_some_iff] at hv
    obtain ⟨f, hf, hc⟩ := hv
    refine ⟨?_, hA f v hc⟩
    obtain ⟨hat, -⟩ := getFrameField_some hf
    have hin := hat.inside
    rw [h.length] at hin
    unfold InLine at hp ⊢
    rcases hat.stop with ⟨hlt, -, rfl⟩ | ⟨-, rfl⟩
    · rw [h.length] at hlt
      omega
    · omega

end Field

section Confined

variable {raw : RawFrame} {line : List UInt8} (h : HoldsLine raw line)

theorem fits_plain {maxLen : Nat} (hlen : 0 < maxLen ∧ maxLen < 256) : FieldUse.Fits {} maxLen where
  room := .inr hlen
  cleared := Nat.le_refl _
  after _ _ := .nil

theorem fits_copy {size maxLen n rows row : Nat} (hlen : 0 < maxLen ∧ maxLen < size)
    (hrow : row * n + maxLen ≤ rows * n) :
    FieldUse.Fits { size, cleared := size, after := fieldCopy size maxLen n rows row } maxLen where
  room := .inr hlen
  cleared := Nat.le_refl _
  after f _ := (inside_cells hrow).append (inside_cells (by simp only [Buf.size]; omega))

theorem inside_hostCopy (cfg : ConfigServer) {f : List UInt8} (hlen : f.length ≤ lenIpsHost) :
    Inside (hostCopy cfg f) := by
  have hbuf : 0 + f.length ≤ Buf.size (.buffer (lenContent + 1)) := by
    rw [Nat.zero_add]
    exact Nat.le_trans hlen (by decide)
  unfold hostCopy
  split
  · split
    · exact inside_cells (by decide)
    · exact .nil
  · split
    · split
      · exact (inside_cells (by rwa [Nat.zero_add])).append (inside_cells hbuf)
      · exact .nil
    · exact .nil

theorem fits_host (cfg : ConfigServer) : FieldUse.Fits { after := hostCopy cfg } lenIpsHost where
  room := .inr ⟨by decide, show lenIpsHost < lenContent + 1 by decide⟩
  cleared := Nat.le_refl _
  after _ hf := inside_hostCopy cfg (hf.resolve_left (by decide))

include h

theorem argNumber_confined {β γ : Type} {maxLen : Nat} {ofInt : Int → β} {legal : β → Bool} {store : β → γ}
    {current : γ} (hlen : 0 < maxLen ∧ maxLen < 256) :
    Confined line (fun _ => True) (argNumberEvents raw maxLen ofInt legal store current) :=
  argField_confined h (fits_plain hlen) fun _ _ _ => trivial

theorem argString_confined {maxLen n rows row : Nat} (hlen : 0 < maxLen ∧ maxLen < 256)
    (hrow : row * n + maxLen ≤ rows * n) :
    Confined line (fun _ => True) (argStringEvents raw maxLen n rows row) :=
  argField_confined h (fits_copy hlen hrow) fun _ _ _ => trivial

theorem reserved_confined (total : Nat) : Confined line (fun _ => True) (getFrameArgReservedEvents raw total) := by
  induction total with
  | zero => exact .pure trivial
  | succ total ih =>
    have hfits : FieldUse.Fits { cleared := sizeofPointer } lenReserved :=
      ⟨.inl ⟨rfl, by decide⟩, by decide, fun _ _ => .nil⟩
    exact (argField_confined h hfits fun _ _ _ => trivial).bind fun _ _ => ih

theorem argHost_confined (cfg : ConfigServer) (arg : ArgServer) :
    Confined line (fun _ => True) (argHostEvents raw cfg arg) :=
  argField_confined h (fits_host cfg) fun _ _ _ => trivial

theorem argPort_confined (cfg : ConfigServer) (arg : ArgServer) :
    Confined line (fun _ => True) (argPortEvents raw cfg arg) :=
  (argNumber_confined h (by decide)).bind fun _ _ => .pure trivial

theorem argIps_confined (cfg : ConfigIps) : Confined line (fun _ => True) (argIpsEvents cfg raw) := by
  refine (argNumber_confined h (by decide)).bind fun _ _ => ?_
  refine (argNumber_confined h (by decide)).bind fun _ _ => ?_
  refine (reserved_confined h 2).bind fun _ _ => ?_
  refine (argHost_confined h _ _).bind fun pri _ => ?_
  refine (argPort_confined h _ pri).bind fun _ _ => ?_
  refine (argHost_confined h _ _).bind fun sec _ => ?_
  refine (argPort_confined h _ sec).bind fun _ _ => ?_
  exact (reserved_confined h 6).bind fun _ _ => .pure trivial

theorem argApnRecord_confined {idx : Nat} (hidx : idx < apnRows) :
    Confined line (fun _ => True) (argApnRecordEvents raw idx) := by
  have hrow {maxLen n : Nat} (hn : maxLen ≤ n) : idx * n + maxLen ≤ apnRows * n := by
    have hmul : (idx + 1) * n ≤ apnRows * n := Nat.mul_le_mul_right n hidx
    rw [Nat.succ_mul] at hmul
    omega
  refine (argString_confined h (by decide) (hrow (by decide))).bind fun _ _ => ?_
  refine (argString_confined h (by decide) (hrow (by decide))).bind fun _ _ => ?_
  refine (argString_confined h (by decide) (hrow (by decide))).bind fun _ _ => ?_
  exact (argString_confined h (by decide) (hrow (by decide))).bind fun _ _ => .pure trivial

theorem argApnRecords_confined {idx n : Nat} (hidx : idx + n ≤ apnRows) :
    Confined line (fun _ => True) (argApnRecordsEvents raw idx n) := by
  induction n generalizing idx with
  | zero => exact .pure trivial
  | succ n ih =>
    exact (argApnRecord_confined h (by omega)).bind fun _ _ => (ih (by omega)).bind fun _ _ => .pure trivial

/-- There are as many rows as the quantity that is in force at most. -/
theorem argApn_confined {cfg : ConfigApn} (hcfg : cfg.apnQuantity ≤ 2) :
    Confined line (fun _ => True) (argApnEvents cfg raw) := by
  have hquantity : Confined line (fun v : UInt8 => v.toNat ≤ apnRows)
      (argNumberEvents raw lenApnNums UInt16.ofInt (· ≤ maxApnNums) UInt16.toUInt8 cfg.apnQuantity) := by
    refine argField_confined h (fits_plain (by decide)) fun f v hc => ?_
    split at hc
    · exact Option.some.inj hc ▸ UInt8.le_iff_toNat_le.1 hcfg
    · unfold checkNumber at hc
      split at hc
      · split at hc
        · next hlegal =>
          have hle := UInt16.le_iff_toNat_le.1 (of_decide_eq_true hlegal)
          rw [← Option.some.inj hc, UInt16.toNat_toUInt8]
          exact Nat.le_trans (Nat.mod_le _ _) hle
        · exact absurd hc (by simp)
      · exact absurd hc (by simp)
  refine hquantity.bind fun _ hv => ?_
  refine (argApnRecords_confined h (by omega)).bind fun _ _ => ?_
  exact (reserved_confined h 4).bind fun _ _ => .pure trivial

theorem password_confined (devPassword : CharArray lenScsPassword) {size : Nat} (hsize : lenScsPassword < size) :
    Confined line (fun _ => True) (passwordEvents devPassword raw size) :=
  argField_confined h (fits_copy ⟨by decide, hsize⟩ (by decide)) fun _ _ _ => trivial

theorem argScs_confined (cfg : ConfigScs) : Confined line (fun _ => True) (argScsEvents cfg raw) := by
  refine (password_confined h _ (by decide)).bind fun _ _ => ?_
  refine (argField_confined (A := fun _ => True) h (fits_copy (by decide) (by decide)) fun _ _ _ => trivial).bind
    fun _ _ => ?_
  refine (argField_confined (A := fun _ => True) h (fits_plain (by decide)) fun _ _ _ => trivial).bind fun _ _ => ?_
  exact (reserved_confined h 4).bind fun _ _ => .pure trivial

theorem argLss_confined (cfg : ConfigLss) : Confined line (fun _ => True) (argLssEvents cfg raw) := by
  refine (argNumber_confined h (by decide)).bind fun _ _ => ?_
  refine (argNumber_confined h (by decide)).bind fun _ _ => ?_
  refine (argNumber_confined h (by decide)).bind fun _ _ => ?_
  refine (argString_confined h (by decide) (by decide)).bind fun _ _ => ?_
  refine (argNumber_confined h (by decide)).bind fun _ _ => ?_
  refine (argNumber_confined h (by decide)).bind fun _ _ => ?_
  refine (argNumber_confined h (by decide)).bind fun _ _ => ?_
  refine (argNumber_confined h (by decide)).bind fun _ _ => ?_
  refine (argNumber_confined h (by decide)).bind fun _ _ => ?_
  refine (argNumber_confined h (by decide)).bind fun _ _ => ?_
  refine (argNumber_confined h (by decide)).bind fun _ _ => ?_
  refine (reserved_confined h 4).bind fun _ _ => ?_
  refine (argNumber_confined h (by decide)).bind fun _ _ => ?_
  refine (argNumber_confined h (by decide)).bind fun _ _ => ?_
  exact (reserved_confined h 4).bind fun _ _ => .pure trivial

theorem argRth_confined : Confined line (fun _ => True) (argRthEvents raw) :=
  (argField_confined (A := fun _ => True) h (fits_plain (by decide)) fun _ _ _ => trivial).bind fun _ _ =>
    (reserved_confined h 4).bind fun _ _ => .pure trivial

theorem frameArg_confined {cfg : Config} (hcfg : cfg.apn.apnQuantity ≤ 2) (type : FrameHeader) :
    Confined line (fun _ => True) (frameArgEvents cfg raw type) := by
  have hpassword : Confined line (fun _ => True) (passwordEvents cfg.scs.devPassword raw (lenScsPassword + 1)) :=
    password_confined h _ (by decide)
  cases type with
  | ips => exact hpassword.bind fun _ _ => (argIps_confined h _).bind fun _ _ => .pure trivial
  | apn => exact hpassword.bind fun _ _ => (argApn_confined h hcfg).bind fun _ _ => .pure trivial
  | scs => exact (argScs_confined h _).bind fun _ _ => .pure trivial
  | lss => exact hpassword.bind fun _ _ => (argLss_confined h _).bind fun _ _ => .pure trivial
  | rth => exact hpassword.bind fun _ _ => (argRth_confined h).bind fun _ _ => .pure trivial

theorem frameTail_confined : Confined line (fun _ => True) (frameTailEvents raw) := by
  intro p hp
  have hle : p ≤ maxDnlnkFrameSize := Nat.le_trans hp (Nat.max_le.2 ⟨by decide, h.fits⟩)
  constructor
  · simp only [frameTailEvents, within_bind, within_touch, List.forall_mem_singleton, within_readData, within_pure,
      and_true]
    constructor
    · intro hin
      exact ⟨Nat.ne_of_lt hin.2, fun hout => hout⟩
    · intro hout
      exact ⟨trivial, Nat.lt_of_le_of_ne hle hout.1⟩
  · intro _ q hq
    have heq : (if raw.data p = chrTail then some ((), p) else none) = some ((), q) := hq
    split at heq
    · exact ⟨(Prod.mk.inj (Option.some.inj heq)).2 ▸ hp, trivial⟩
    · exact absurd heq (by simp)

omit h in
theorem paraStringText_confined : Confined line (fun _ => True) (paraStringText raw) := by
  intro p hp
  constructor
  · exact iff_of_true (within_pure _) (within_pure _)
  · intro text q hq
    exact ⟨(Prod.mk.inj (Option.some.inj hq)).2 ▸ hp, trivial⟩

theorem fields_confined {cfg : Config} (hcfg : cfg.apn.apnQuantity ≤ 2) (type : FrameHeader) :
    Confined line (fun _ => True) (fieldsEvents cfg raw type) := by
  refine (frameArg_confined h hcfg type).bind fun _ _ => ?_
  refine (argField_confined (A := fun _ => True) h (fits_copy (by decide) (by decide)) fun _ _ _ => trivial).bind
    fun _ _ => ?_
  refine (frameTail_confined h).bind fun _ _ => ?_
  exact (paraStringText_confined).bind fun _ _ => .pure trivial

/-- Behind the header the path is inside exactly when it does not read the line to
its end. -/
theorem body_confined {cfg : Config} (hcfg : cfg.apn.apnQuantity ≤ 2) :
    (Within Event.InBounds (bodyEvents cfg raw headerChklen) ↔
      Within (fun e => ¬ e.RunsOut line) (bodyEvents cfg raw headerChklen)) ∧
    ∀ frame r, parseBody cfg raw headerChklen = some (frame, r) → r ≤ max 7 line.length := by
  have hcells : Inside (cellsFrom .data headerChklen lenHeader) := inside_cells (by decide)
  have hstart : InLine line 7 := Nat.le_max_left ..
  have hbody {P : Event → Prop} : Within P (bodyEvents cfg raw headerChklen) ↔
      (∀ e ∈ cellsFrom .data headerChklen lenHeader, P e) ∧
      ∀ type q, getDnlnkFrameType raw headerChklen = some (type, q) → Within P (fieldsEvents cfg raw type (q + 1)) := by
    rw [bodyEvents, Scan.within_bind, frameTypeEvents, within_bind, within_touch, and_assoc]
    refine and_congr_right fun _ => ?_
    rw [and_iff_right (within_pure _)]
    refine forall_congr' fun type => forall_congr' fun q => imp_congr_right fun _ => ?_
    rw [Scan.within_bind, skipEvents, and_iff_right (within_pure _)]
    constructor
    · intro hall
      exact hall () (q + 1) rfl
    · intro hall u q' hq
      obtain ⟨-, rfl⟩ := Prod.mk.inj (Option.some.inj hq)
      exact hall
  constructor
  · rw [hbody, hbody]
    refine and_congr (iff_of_true hcells.inBounds hcells.quiet) ?_
    refine forall_congr' fun type => forall_congr' fun q => imp_congr_right fun hq => ?_
    obtain ⟨-, rfl⟩ := getDnlnkFrameType_iff.1 hq
    exact (fields_confined h hcfg type 7 hstart).1
  · intro frame r hr
    obtain ⟨type, q, htype, hr⟩ := bind_some_iff.1 hr
    obtain ⟨-, rfl⟩ := getDnlnkFrameType_iff.1 htype
    obtain ⟨_, q, hskip, hr⟩ := bind_some_iff.1 hr
    obtain ⟨-, rfl⟩ := Prod.mk.inj (Option.some.inj hskip)
    exact ((fields_confined h hcfg type 7 hstart).2 frame r ((fieldsEvents_val cfg type 7).trans hr)).1

/-- The `#` a frame ends at is the first one behind the type. -/
theorem tail_index {cfg : Config} {frame : ParsedFrame} {r : Nat}
    (hr : parseBody cfg raw headerChklen = some (frame, r)) : (line.drop 7).idxOf chrTail = r - 7 := by
  have hfits := h.fits
  have hlt : raw.length < 256 := by
    unfold maxDnlnkFrameSize at hfits
    rw [h.length]
    omega
  obtain ⟨type, -, fs, q, hfs, -, hsn, -⟩ := (parseBody_iff hlt).1 hr
  obtain ⟨text, _, -, htext, h7, hmax, htail, -⟩ := SerialAt.text hfs hsn
  rw [h.length] at hmax
  rcases Nat.lt_or_ge r line.length with hin | hout
  · have hcell : line.getD r 0 = chrTail := by
      have hone := h.cells (p := r) (n := 1) (by omega)
      rw [slice_succ, slice_zero, hsn.tail, List.drop_eq_getElem_cons hin, List.take_succ_cons, List.take_zero] at hone
      rw [List.getD_eq_getElem _ _ hin]
      exact (List.cons.inj hone).1.symm
    have hsplit : line.drop 7 = text ++ chrTail :: line.drop (r + 1) := by
      rw [h.cells (by omega)] at htext
      rw [List.getD_eq_getElem _ _ hin] at hcell
      rw [← htext, ← hcell, ← List.drop_eq_getElem_cons hin]
      conv_lhs => rw [← List.take_append_drop (r - 7) (line.drop 7), List.drop_drop]
      rw [show 7 + (r - 7) = r by omega]
    have hlen : text.length = r - 7 := by rw [← htext, length_slice]
    rw [hsplit, List.idxOf_append_of_notMem htail, List.idxOf_cons_self, hlen, Nat.add_zero]
  · -- the `#` is the byte behind the line, which has none
    have hrest : line.drop 7 = text := by
      rcases Nat.lt_or_ge line.length 7 with hshort | hlong
      · rw [List.drop_eq_nil_of_le (Nat.le_of_lt hshort), ← htext, show r - 7 = 0 by omega, slice_zero]
      · rw [← htext, h.cells (by omega), List.take_of_length_le (by rw [List.length_drop]; omega)]
    rw [hrest, List.idxOf_of_notMem htail, ← htext, length_slice]

omit h in
theorem quiet_paraString (r : Nat) : ∀ e ∈ paraStringEvents r, ¬ e.RunsOut line :=
  List.forall_mem_append.2 ⟨quiet_cells _ _ _, List.forall_mem_append.2 ⟨quiet_cells _ _ _, quiet_cells _ _ _⟩⟩

omit h in
/-- The copy to `para_string` is inside exactly when the text fits. -/
theorem paraString_inBounds {r : Nat} (hle : r ≤ maxDnlnkFrameSize) :
    (∀ e ∈ paraStringEvents r, e.InBounds) ↔ r - 7 ≤ lenParameter + 1 := by
  constructor
  · intro hall
    by_contra hgt
    have hin : Event.access .paraString (lenParameter + 1) ∈ paraStringEvents r := by
      refine List.mem_append_right _ (List.mem_append_left _ (List.mem_map.2 ⟨lenParameter + 1, ?_, ?_⟩))
      · exact List.mem_range.2 (by omega)
      · rw [Nat.zero_add]
    exact absurd (hall _ hin) (by decide)
  · intro hfit
    have hcopy : Inside (cellsFrom .paraString 0 (r - 7)) := inside_cells (by simp only [Buf.size]; omega)
    have hread : Inside (cellsFrom .data 7 (r - 7)) := by
      refine inside_cells ?_
      have := Nat.max_le.2 ⟨(by decide : 7 ≤ maxDnlnkFrameSize), hle⟩
      simp only [Buf.size]
      omega
    exact ((inside_cells (by decide)).append (hcopy.append hread)).inBounds

/-- The parser stays inside exactly when it does not read the line to its end, and
what it copies to `para_string` fits. -/
theorem parse_inside_iff {cfg : Config} (hcfg : cfg.apn.apnQuantity ≤ 2) :
    Within Event.InBounds (parseDnlnkFrameEvents cfg raw) ↔
      Within (fun e => ¬ e.RunsOut line) (parseDnlnkFrameEvents cfg raw) ∧
      ((parseDnlnkFrame cfg raw).isSome = true → (line.drop 7).idxOf chrTail ≤ lenParameter + 1) := by
  obtain ⟨hbody, hend⟩ := body_confined h hcfg
  have hcells : Inside (cellsFrom .data 0 headerChklen) := inside_cells (by decide)
  unfold parseDnlnkFrameEvents parseDnlnkFrame
  by_cases hpos : 0 < raw.length
  · simp only [if_pos hpos, within_bind, within_touch]
    rw [and_iff_right hcells.inBounds, and_iff_right (fun e he => hcells.quiet e he)]
    simp only [hpos, true_and]
    split
    · simp only [within_bind, within_touch, within_pure, and_true, bodyEvents_val cfg headerChklen, hbody, and_assoc]
      refine and_congr_right fun _ => ?_
      cases hr : parseBody cfg raw headerChklen with
      | none => simp
      | some r =>
        obtain ⟨frame, r⟩ := r
        have hle : r ≤ maxDnlnkFrameSize := Nat.le_trans (hend frame r hr) (Nat.max_le.2 ⟨by decide, h.fits⟩)
        rw [tail_index h hr]
        simp only [Option.elim_some, Option.map_some, Option.isSome_some, forall_const]
        rw [paraString_inBounds hle, and_iff_right (quiet_paraString r)]
    · simp
  · simp [hpos]

end Confined

section Line

variable {line : List UInt8}

theorem atDnlnkContent_eq_self (hfits : line.length ≤ maxDnlnkFrameSize + 1) : atDnlnkContent line = line := by
  rw [atDnlnkContent, Nat.min_eq_left hfits, List.take_length]

theorem length_atDnlnkContent_le (line : List UInt8) : (atDnlnkContent line).length ≤ maxDnlnkFrameSize + 1 := by
  rw [atDnlnkContent, List.length_take]
  omega

/-- The two copies of the line: only the second may go outside, when the line has
more characters than `raw_frame.data`. -/
theorem copies_within {P : Event → Prop} {cfg : Config} {past : Nat → UInt8} (ht : Text line) :
    Within P (assignEvents cfg line past) ↔
      ((∀ e ∈ cellsFrom .atDnlnkContent 0 (maxDnlnkFrameSize + 2), P e) ∧
        (∀ e ∈ cellsFrom .atDnlnkContent 0 (atDnlnkContent line).length, P e) ∧
        (∀ e ∈ cellsFrom .atDnlnkContent 0 ((atDnlnkContent line).length + 1), P e) ∧
        (∀ e ∈ cellsFrom .data 0 maxDnlnkFrameSize, P e) ∧
        ∀ e ∈ cellsFrom .data 0 (atDnlnkContent line).length, P e) ∧
      Within P (parseDnlnkFrameEvents cfg
        (rawDnlnkFrame (atDnlnkContent line) (atDnlnkContent line).length past)) := by
  have hcstr : cstr (atDnlnkContent line) = atDnlnkContent line := cstr_text (ht.take _)
  simp only [assignEvents, within_bind, within_touch, List.forall_mem_append, hcstr]
  constructor
  · rintro ⟨⟨hcopy, hcontent⟩, hstrlen, ⟨hdata, hstore, -⟩, hparse⟩
    exact ⟨⟨hcopy, hcontent, hstrlen, hdata, hstore⟩, hparse⟩
  · rintro ⟨⟨hcopy, hcontent, hstrlen, hdata, hstore⟩, hparse⟩
    exact ⟨⟨hcopy, hcontent⟩, hstrlen, ⟨hdata, hstore, hcontent⟩, hparse⟩

/-- The copies of the line are inside exactly when it has no more characters than
`raw_frame.data`. -/
theorem copies_inBounds (line : List UInt8) :
    ((∀ e ∈ cellsFrom .atDnlnkContent 0 (maxDnlnkFrameSize + 2), e.InBounds) ∧
      (∀ e ∈ cellsFrom .atDnlnkContent 0 (atDnlnkContent line).length, e.InBounds) ∧
      (∀ e ∈ cellsFrom .atDnlnkContent 0 ((atDnlnkContent line).length + 1), e.InBounds) ∧
      (∀ e ∈ cellsFrom .data 0 maxDnlnkFrameSize, e.InBounds) ∧
      ∀ e ∈ cellsFrom .data 0 (atDnlnkContent line).length, e.InBounds) ↔
    line.length ≤ maxDnlnkFrameSize := by
  have hle := length_atDnlnkContent_le line
  have hcontent {n : Nat} (hn : n ≤ maxDnlnkFrameSize + 2) : ∀ e ∈ cellsFrom .atDnlnkContent 0 n, e.InBounds :=
    (inside_cells (by rwa [Nat.zero_add])).inBounds
  rw [and_iff_right (hcontent (Nat.le_refl _)), and_iff_right (hcontent (by omega)),
    and_iff_right (hcontent (by omega)), and_iff_right (inside_cells (Nat.le_refl _)).inBounds]
  have hlen : (atDnlnkContent line).length ≤ maxDnlnkFrameSize ↔ line.length ≤ maxDnlnkFrameSize := by
    rw [atDnlnkContent, List.length_take]
    omega
  rw [← hlen]
  constructor
  · intro hall
    by_contra hgt
    have hcell : Event.access .data maxDnlnkFrameSize ∈ cellsFrom .data 0 (atDnlnkContent line).length :=
      List.mem_map.2 ⟨maxDnlnkFrameSize, List.mem_range.2 (by omega), by rw [Nat.zero_add]⟩
    exact absurd (hall _ hcell) (by decide)
  · intro hfits
    exact (inside_cells (by rwa [Nat.zero_add])).inBounds

end Line

section Device

variable {τ : Type} {os : OsTimer τ} {nv : EnvStore} {t : Device τ} {line : List UInt8}

/-- **The bounds of the assign path.** On a device that has run for any time, the way
of a command line through the buffers stays inside them exactly when the line fits
in `raw_frame.data`, no field is read up to the end of that array, and the
characters in front of the `#` of an accepted frame fit in `para_string`. -/
theorem assign_inside_iff (hnv : SavedByFirmware os nv) (ht : Machine.Reachable (step os) (powerOn os nv) t)
    (hline : Text line) (past : Nat → UInt8) :
    Within Event.InBounds (assignEvents t.config line past) ↔
      line.length ≤ maxDnlnkFrameSize ∧
      Within (fun e => ¬ e.RunsOut line) (assignEvents t.config line past) ∧
      ((parseDnlnkFrame t.config (rawDnlnkFrame line line.length past)).isSome = true →
        (line.drop 7).idxOf chrTail ≤ lenParameter + 1) := by
  have hcfg : t.config.apn.apnQuantity ≤ 2 :=
    (intact_of_reachable hnv.storeWf ht).wf.wellFormed.apnQuantity
  rw [copies_within hline, copies_within hline, copies_inBounds]
  refine and_congr_right fun hfits => ?_
  rw [atDnlnkContent_eq_self (by omega), parse_inside_iff (holdsLine_raw hfits hline past) hcfg]
  refine and_congr_left fun _ => (and_iff_right ⟨?_, ?_, ?_, ?_, ?_⟩).symm
  all_goals exact quiet_cells _ _ _

end Device

/-- `AT@RTH=btl100,1,` with a parameter of 120 characters. -/
def longParameter : List UInt8 := ascii "AT@RTH=btl100,1," ++ (List.replicate 120 120 ++ ascii ",,,,0001#")

/-- A frame of 145 characters is accepted, and the copy to `para_string` leaves it. -/
theorem paraString_overrun :
    Text longParameter ∧ longParameter.length ≤ 180 ∧ (getExtendedOperation longParameter 4).1 = .assign ∧
    Event.access .paraString 129 ∈
      (assignEvents (powerOn plainTimer fun _ => none).config longParameter fun _ => 0).log ∧
    ¬ Within Event.InBounds (assignEvents (powerOn plainTimer fun _ => none).config longParameter fun _ => 0) := by
  have hcell : Event.access .paraString 129 ∈
      (assignEvents (powerOn plainTimer fun _ => none).config longParameter fun _ => 0).log := by decide +kernel
  exact ⟨by decide +kernel, by decide +kernel, by decide +kernel, hcell, fun h => absurd (h _ hcell) (by decide)⟩

/-- `AT@RTH=btl100,1` with the parameter `now`. -/
def shortParameter : List UInt8 := ascii "AT@RTH=btl100,1,now,,,,0001#"

theorem assign_inside_iff_short :
    Within Event.InBounds (assignEvents (powerOn plainTimer fun _ => none).config shortParameter fun _ => 0) ↔
      shortParameter.length ≤ maxDnlnkFrameSize ∧
      Within (fun e => ¬ e.RunsOut shortParameter)
        (assignEvents (powerOn plainTimer fun _ => none).config shortParameter fun _ => 0) ∧
      ((parseDnlnkFrame (powerOn plainTimer fun _ => none).config
          (rawDnlnkFrame shortParameter shortParameter.length fun _ => 0)).isSome = true →
        (shortParameter.drop 7).idxOf chrTail ≤ lenParameter + 1) :=
  assign_inside_iff (.empty fun _ _ => rfl) .refl (by decide +kernel) _

end Petbox.Tracker
