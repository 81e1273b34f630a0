/-
The command entry of the tracker (`btlink_cmd_rmmi.c`, `btlink_cmd_parse`,
`btlink_timer.c`) and the tracker as a state machine: a line arrives, the
minute timer expires, or the device is reset.

A command line is the list of the characters `btlink_cmd_parse` copies; reading
behind it reads 0. The scan of `rmmi_is_btlink_cmd` runs over the caller's
memory instead, so it may look behind what is copied. What is printed for a
configuration section is one output, with the section's type and the
configuration it is printed from.
-/
import Petbox.Tracker.Exec
import Petbox.Lib.Run

namespace Petbox.Tracker

open CStr Mem

def semicolonChar : UInt8 := 0x3b
def quotesChar : UInt8 := 0x22
def commaChar : UInt8 := 0x2c
def queryChar : UInt8 := 0x3f
def equalsChar : UInt8 := 0x3d
def backslashChar : UInt8 := 0x5c
def commandLineSize : Nat := 180
def lenPassword : Nat := 20
def btlinkQuerySize : Nat := 256

/-- `T_CMD_PARSE_RESULT`, as far as it occurs here. -/
inductive CmdParseResult
  | sucess
  | err
  | cmdNotSupport
  deriving DecidableEq, Repr

/-- `ExtendedOperation_t`, as far as it occurs here. -/
inductive ExtendedOperation
  | action
  | query
  | assign
  | range
  deriving DecidableEq, Repr

/-- What a command prints. -/
inductive Output
  | ok
  | error
  | passwordError
  | debugHelp
  | protocolParam (type : FrameHeader) (config : Config)
  deriving DecidableEq

/-- The functions of the command table. -/
inductive CmdFunc
  | vgDebug
  | rmmiProtocolCmdEntry
  deriving DecidableEq, Repr

/-- `g_btlink_at_cmd_table`. -/
def btlinkAtCmdTable : List (List UInt8 × CmdFunc) :=
  [(ascii "@DEBUG", .vgDebug), (ascii "@IPS", .rmmiProtocolCmdEntry), (ascii "@APN", .rmmiProtocolCmdEntry),
    (ascii "@SCS", .rmmiProtocolCmdEntry), (ascii "@LSS", .rmmiProtocolCmdEntry),
    (ascii "@RTH", .rmmiProtocolCmdEntry)]

/-! ## Finding the command -/

/-- Comparison of a name from index `i` on with the characters two places
behind: whether its last `n` characters match, and the index it stops at. -/
def scanName (name : List UInt8) (character : Nat → UInt8) : Nat → Nat → Bool × Nat
  | 0, i => (true, i)
  | n + 1, i =>
    if toUpper (name.getD i 0) ≠ toUpper (character (i + 2)) then (false, i)
    else scanName name character n (i + 1)

/-- `rmmi_is_btlink_cmd`. -/
def rmmiIsBtlinkCmd (stringPtr : Nat → UInt8) : Bool :=
  btlinkAtCmdTable.any fun e => (scanName e.1 stringPtr e.1.length 0).1

/-- The table scan of `parseCommandBuffer`; the index runs on from entry to entry. -/
def lookupCmd (character : Nat → UInt8) : Nat → List (List UInt8 × CmdFunc) → Option (List UInt8 × CmdFunc)
  | _, [] => none
  | commandIndex, e :: es =>
    if (scanName e.1 character (e.1.length - commandIndex) commandIndex).1 then some e
    else lookupCmd character (scanName e.1 character (e.1.length - commandIndex) commandIndex).2 es

/-- `commandBuffer_p->character[i]`. -/
def charAt (line : List UInt8) (i : Nat) : UInt8 := line.getD i 0

/-- `btlink_getExtendedOperation`: the operation and the new position. -/
def getExtendedOperation (line : List UInt8) (position : Nat) : ExtendedOperation × Nat :=
  let position := position + 2
  if position < line.length then
    if charAt line position = queryChar then (.query, position + 1)
    else if charAt line position = equalsChar then
      if position + 1 < line.length ∧ charAt line (position + 1) = queryChar then (.range, position + 2)
      else (.assign, position + 1)
    else (.action, position)
  else (.action, position)

/-! ## Quoted strings -/

/-- `getHexaValue`. -/
def getHexaValue (c : UInt8) : Option UInt8 :=
  if 0x30 ≤ c && c ≤ 0x39 then some (c - 0x30)
  else if 0x61 ≤ c && c ≤ 0x66 then some (c - 0x61 + 10)
  else if 0x41 ≤ c && c ≤ 0x46 then some (c - 0x41 + 10)
  else none

/-- The loop of `btlink_getExtendedString` on what is left of the line: the
characters it puts out, and the line from where it stops; nothing when a
backslash is not followed by two hexadecimal digits. -/
def quotedLoop (maxStringLength : Nat) : List UInt8 → Nat → Option (List UInt8 × List UInt8)
  | c :: d :: rest, length =>
    if c ≠ quotesChar ∧ length ≤ maxStringLength then
      if c = backslashChar then
        match rest with
        | e :: x :: y :: more =>
          match getHexaValue d, getHexaValue e with
          | some first, some second =>
            (quotedLoop maxStringLength (x :: y :: more) (length + 1)).map fun r =>
              ((16 * first + second) :: r.1, r.2)
          | _, _ => none
        | _ => none
      else (quotedLoop maxStringLength (d :: rest) (length + 1)).map fun r => (c :: r.1, r.2)
    else some ([], c :: d :: rest)
  | rest, _ => some ([], rest)

/-- `btlink_getExtendedString`: the string when the function returns true. -/
def getExtendedString (line : List UInt8) (position maxStringLength : Nat) : Option (List UInt8) :=
  if position + 1 < line.length then
    if charAt line position = commaChar then some []
    else if charAt line position = semicolonChar then some []
    else if charAt line position ≠ quotesChar then none
    else (quotedLoop maxStringLength (line.drop (position + 1)) 0).bind fun r =>
      if r.2.headD 0 = quotesChar ∧ r.1.length ≤ maxStringLength then some r.1 else none
  else some []

/-! ## The commands -/

/-- `btlink_find_protocol_type`. -/
def findProtocolType (header : List UInt8) : Option FrameHeader :=
  frameHeaders.find? fun t => isSameStrIgnoreLc t.str header

/-- `btlink_do_protocol_query`: the last character goes, and the three at index
3 name the type. -/
def doProtocolQuery (config : Config) (atBuf : List UInt8) : CmdParseResult × List Output :=
  let queryContent := (cstr (atBuf.take btlinkQuerySize)).dropLast
  match findProtocolType (cstr ((queryContent.drop 3).take 3)) with
  | some type => (.sucess, [.protocolParam type config])
  | none => (.err, [])

/-- `at_dnlnk_content`: the first characters of the line, a carriage return included. -/
def atDnlnkContent (line : List UInt8) : List UInt8 := line.take (min line.length (maxDnlnkFrameSize + 1))

section Entry

variable {τ : Type} (os : OsTimer τ)

/-- `rmmi_protocol_cmd_entry`, called with the position behind the name. -/
def rmmiProtocolCmdEntry (t : Device τ) (line : List UInt8) (position : Nat) (past : Nat → UInt8) :
    CmdParseResult × Device τ × List Output :=
  match getExtendedOperation line position with
  | (.assign, _) =>
    let r := checkAndExecProtocol os t (atDnlnkContent line) (atDnlnkContent line).length past
    (if r.1 then .sucess else .err, r.2, [])
  | (.query, position) =>
    match getExtendedString line position lenPassword with
    | some password =>
      if 0 < password.length ∧ passwordMatch t.config.scs.devPassword password = true then
        let r := doProtocolQuery t.config line
        (r.1, t, r.2)
      else (.err, t, [.passwordError])
    | none => (.err, t, [])
  | (.range, _) => (.err, t, [])
  | (.action, _) => (.err, t, [])

/-- `vgDEBUG`. -/
def vgDebug (t : Device τ) (line : List UInt8) (position : Nat) : CmdParseResult × Device τ × List Output :=
  match getExtendedOperation line position with
  | (.assign, position) =>
    let value := ((line.drop position).takeWhile isXDigit).foldl
      (fun value c => value * 16 + ((getHexaValue c).getD 0).toUInt32) (0 : UInt32)
    (.sucess, { t with logMode := value }, [])
  | _ => (.sucess, t, [.debugHelp])

/-- `parseCommandBuffer` with `g_btlink_at_cmd_table`. -/
def parseCommandBuffer (t : Device τ) (line : List UInt8) (past : Nat → UInt8) :
    CmdParseResult × Device τ × List Output :=
  if 0 < line.length then
    match lookupCmd (charAt line) 0 btlinkAtCmdTable with
    | some (name, .vgDebug) => vgDebug t line name.length
    | some (name, .rmmiProtocolCmdEntry) => rmmiProtocolCmdEntry os t line name.length past
    | none => (.cmdNotSupport, t, [])
  else (.cmdNotSupport, t, [])

/-- `rmmi_btlink_cmd_hdlr`: it always returns true. -/
def rmmiBtlinkCmdHdlr (t : Device τ) (line : List UInt8) (past : Nat → UInt8) : Device τ × List Output :=
  let r := parseCommandBuffer os t line past
  (r.2.1, r.2.2 ++ [if r.1 = .sucess then .ok else .error])

/-- The characters `btlink_cmd_parse` copies: a C string of at most `cmd_len`
and at most 180 characters. -/
def commandLine (cmd : Nat → UInt8) (cmdLen : Nat) : List UInt8 :=
  cstr (slice cmd 0 (if cmdLen ≥ commandLineSize then commandLineSize else cmdLen))

/-- `btlink_cmd_parse`: the return code is 0 when the line is a command of the table. -/
def btlinkCmdParse (t : Device τ) (cmd : Nat → UInt8) (cmdLen : Nat) (past : Nat → UInt8) :
    Int × Device τ × List Output :=
  if rmmiIsBtlinkCmd cmd then
    let r := rmmiBtlinkCmdHdlr os t (commandLine cmd cmdLen) past
    (0, r.1, r.2)
  else (-1, t, [])

/-! ## The tracker as a state machine -/

/-- `btlink_get_report_count`: the counter goes up by one and starts again above 0xffff. -/
def nextReportCount (cnt : UInt32) : UInt32 := if cnt + 1 > 0xffff then 0 else cnt + 1

/-- `btlink_min_timer_callback`: the report is assembled at every expiration,
and takes a count number. -/
def minTimerCallback (t : Device τ) : Device τ :=
  { t with
    conSendMinCnt :=
      if t.conSendMinCnt + 1 ≥ t.config.lss.continueSendInterval then 0 else t.conSendMinCnt + 1
    sendCnt := nextReportCount t.sendCnt
    minTimer := (startMinTimer os t.minTimer).2 }

/-- The tracker after a reset: the globals are cleared, the NV items are kept,
and `btlink_pro_nv_init` runs. -/
def powerOn (nv : EnvStore) : Device τ where
  config := (btlinkProNvInit zeroConfig nv).1
  nv := (btlinkProNvInit zeroConfig nv).2
  minTimer := os.idle
  conSendMinCnt := 0
  sendCnt := 0
  logMode := 0

/-- What can happen to the tracker. -/
inductive Action
  /-- a line in memory, `cmdLen` characters long; `past` is what lies behind the raw frame -/
  | line (cmd : Nat → UInt8) (cmdLen : Nat) (past : Nat → UInt8)
  | minTimer
  | reboot

/-- One step. Only the expiration of a timer that cannot expire is not possible. -/
def step (t : Device τ) : Action → Option (Device τ)
  | .line cmd cmdLen past => some (btlinkCmdParse os t cmd cmdLen past).2.1
  | .minTimer => (os.expire t.minTimer).map fun minTimer => minTimerCallback os { t with minTimer }
  | .reboot => some (powerOn os t.nv)

/-! ## What a line does -/

omit os in
theorem lookupCmd_mem {character : Nat → UInt8} {i : Nat} {table : List (List UInt8 × CmdFunc)}
    {e : List UInt8 × CmdFunc} (h : lookupCmd character i table = some e) : e ∈ table := by
  induction table generalizing i with
  | nil => exact absurd h (by simp [lookupCmd])
  | cons d es ih =>
    unfold lookupCmd at h
    split at h
    · rw [Option.some.injEq] at h
      exact h ▸ List.mem_cons_self ..
    · exact List.mem_cons_of_mem _ (ih h)

/-- The names of the protocol commands have four characters. -/
theorem protocol_name_length {e : List UInt8 × CmdFunc} (h : e ∈ btlinkAtCmdTable)
    (hf : e.2 = .rmmiProtocolCmdEntry) : e.1.length = 4 := by
  have key : ∀ e ∈ btlinkAtCmdTable, e.2 = .rmmiProtocolCmdEntry → e.1.length = 4 := by decide
  exact key e h hf

theorem getExtendedOperation_assign {line : List UInt8} {position q : Nat}
    (h : getExtendedOperation line position = (.assign, q)) :
    position + 2 < line.length ∧ charAt line (position + 2) = equalsChar ∧ q = position + 3 := by
  simp only [getExtendedOperation] at h
  split at h
  · next hlt =>
    split at h
    · exact absurd h (by simp)
    · split at h
      · next heq =>
        split at h
        · exact absurd h (by simp)
        · rw [Prod.mk.injEq] at h
          exact ⟨hlt, heq, by omega⟩
      · exact absurd h (by simp)
  · exact absurd h (by simp)

theorem getExtendedOperation_query {line : List UInt8} {position q : Nat}
    (h : getExtendedOperation line position = (.query, q)) :
    position + 2 < line.length ∧ charAt line (position + 2) = queryChar ∧ q = position + 3 := by
  simp only [getExtendedOperation] at h
  split at h
  · next hlt =>
    split at h
    · next heq =>
      rw [Prod.mk.injEq] at h
      exact ⟨hlt, heq, by omega⟩
    · split at h
      · split at h <;> exact absurd h (by simp)
      · exact absurd h (by simp)
  · exact absurd h (by simp)

/-- What `rmmi_protocol_cmd_entry` can do to the state: nothing, or what
`btlink_check_and_exec_protocol` does with the first characters of the line. -/
theorem rmmiProtocolCmdEntry_state (t : Device τ) (line : List UInt8) (position : Nat) (past : Nat → UInt8) :
    (rmmiProtocolCmdEntry os t line position past).2.1 = t ∨
    ((∃ q, getExtendedOperation line position = (.assign, q)) ∧
      (rmmiProtocolCmdEntry os t line position past).2.1
        = (checkAndExecProtocol os t (atDnlnkContent line) (atDnlnkContent line).length past).2) := by
  cases hop : getExtendedOperation line position with
  | mk op q =>
    cases op with
    | assign => exact .inr ⟨⟨q, rfl⟩, by simp only [rmmiProtocolCmdEntry, hop]⟩
    | query =>
      refine .inl ?_
      simp only [rmmiProtocolCmdEntry, hop]
      split
      · split <;> rfl
      · rfl
    | range => exact .inl (by simp only [rmmiProtocolCmdEntry, hop])
    | action => exact .inl (by simp only [rmmiProtocolCmdEntry, hop])

theorem vgDebug_state (t : Device τ) (line : List UInt8) (position : Nat) :
    ∃ value, (vgDebug t line position).2.1 = { t with logMode := value } := by
  unfold vgDebug
  split
  · exact ⟨_, rfl⟩
  · exact ⟨t.logMode, rfl⟩

/-- What a line can do to the state: set the log mode, or, as a protocol
command with an `=` at index 6, what `btlink_check_and_exec_protocol` does. -/
theorem btlinkCmdParse_state (t : Device τ) (cmd : Nat → UInt8) (cmdLen : Nat) (past : Nat → UInt8) :
    (∃ value, (btlinkCmdParse os t cmd cmdLen past).2.1 = { t with logMode := value }) ∨
    (6 < (commandLine cmd cmdLen).length ∧ charAt (commandLine cmd cmdLen) 6 = equalsChar ∧
      (btlinkCmdParse os t cmd cmdLen past).2.1
        = (checkAndExecProtocol os t (atDnlnkContent (commandLine cmd cmdLen))
            (atDnlnkContent (commandLine cmd cmdLen)).length past).2) := by
  simp only [btlinkCmdParse]
  split
  · simp only [rmmiBtlinkCmdHdlr, parseCommandBuffer]
    split
    · split
      · exact .inl (vgDebug_state t _ _)
      · next name hl =>
        have hname : name.length = 4 := protocol_name_length (lookupCmd_mem hl) rfl
        rw [hname]
        rcases rmmiProtocolCmdEntry_state os t (commandLine cmd cmdLen) 4 past with h | ⟨⟨q, hq⟩, h⟩
        · exact .inl ⟨t.logMode, h⟩
        · obtain ⟨hlt, heq, -⟩ := getExtendedOperation_assign hq
          exact .inr ⟨hlt, heq, h⟩
      · exact .inl ⟨t.logMode, rfl⟩
    · exact .inl ⟨t.logMode, rfl⟩
  · exact .inl ⟨t.logMode, rfl⟩

/-- What a step does. A line sets the log mode, to what it was if it does nothing
else, or has a frame that is executed. -/
inductive Happens (t : Device τ) : Action → Device τ → Prop
  | mode (cmd : Nat → UInt8) (cmdLen : Nat) (past : Nat → UInt8) (logMode : UInt32) :
      Happens t (.line cmd cmdLen past) { t with logMode }
  | frame {cmd : Nat → UInt8} {cmdLen : Nat} {past : Nat → UInt8} {content : List UInt8} {len : Nat}
      {frame : ParsedFrame} (hparse : parseDnlnkFrame t.config (rawDnlnkFrame content len past) = some frame) :
      Happens t (.line cmd cmdLen past) (cmdExec os t frame.arg)
  | expiration {minTimer : τ} (hexpire : os.expire t.minTimer = some minTimer) :
      Happens t .minTimer (minTimerCallback os { t with minTimer })
  | reset : Happens t .reboot (powerOn os t.nv)

theorem happens_of_step {t t' : Device τ} {a : Action} (h : step os t a = some t') : Happens os t a t' := by
  cases a with
  | line cmd cmdLen past =>
    obtain rfl : (btlinkCmdParse os t cmd cmdLen past).2.1 = t' := Option.some.inj h
    rcases btlinkCmdParse_state os t cmd cmdLen past with ⟨value, hv⟩ | hr
    · rw [hv]
      exact .mode cmd cmdLen past value
    · rw [hr.2.2]
      unfold checkAndExecProtocol
      split
      · next frame hparse => exact .frame hparse
      · exact .mode cmd cmdLen past t.logMode
  | minTimer =>
    obtain ⟨minTimer, hexpire, rfl⟩ := Option.map_eq_some_iff.1 h
    exact .expiration hexpire
  | reboot =>
    obtain rfl : powerOn os t.nv = t' := Option.some.inj h
    exact .reset

theorem doProtocolQuery_param {config cfg : Config} {atBuf : List UInt8} {type : FrameHeader}
    (h : .protocolParam type cfg ∈ (doProtocolQuery config atBuf).2) : cfg = config := by
  simp only [doProtocolQuery] at h
  split at h
  · simp only [List.mem_singleton, Output.protocolParam.injEq] at h
    exact h.2
  · exact absurd h (by simp)

/-- A section is printed only for a query with a quoted string that is not
empty and is a password, and as it is. -/
theorem btlinkCmdParse_param {t : Device τ} {cmd : Nat → UInt8} {cmdLen : Nat} {past : Nat → UInt8}
    {type : FrameHeader} {cfg : Config}
    (h : .protocolParam type cfg ∈ (btlinkCmdParse os t cmd cmdLen past).2.2) :
    cfg = t.config ∧ charAt (commandLine cmd cmdLen) 6 = queryChar ∧
      ∃ password, getExtendedString (commandLine cmd cmdLen) 7 lenPassword = some password ∧
        0 < password.length ∧ passwordMatch t.config.scs.devPassword password = true := by
  simp only [btlinkCmdParse] at h
  split at h
  · -- neither `OK` nor `ERROR` is a section
    have h : .protocolParam type cfg ∈ (parseCommandBuffer os t (commandLine cmd cmdLen) past).2.2 := by
      simp only [rmmiBtlinkCmdHdlr, List.mem_append, List.mem_singleton] at h
      rcases h with h | h
      · exact h
      · split at h <;> exact absurd h (by simp)
    simp only [parseCommandBuffer] at h
    split at h
    · split at h
      · unfold vgDebug at h
        split at h <;> exact absurd h (by simp)
      · next name hl =>
        have hname : name.length = 4 := protocol_name_length (lookupCmd_mem hl) rfl
        rw [hname] at h
        simp only [rmmiProtocolCmdEntry] at h
        split at h
        · exact absurd h (by simp)
        · next q hop =>
          obtain ⟨-, hq, rfl⟩ := getExtendedOperation_query hop
          split at h
          · next password hstr =>
            split at h
            · next hm => exact ⟨doProtocolQuery_param h, hq, password, hstr, hm.1, hm.2⟩
            · exact absurd h (by simp)
          · exact absurd h (by simp)
        · exact absurd h (by simp)
        · exact absurd h (by simp)
      · exact absurd h (by simp)
    · exact absurd h (by simp)
  · exact absurd h (by simp)

end Entry

end Petbox.Tracker
