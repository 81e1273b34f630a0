/-
The printers of the configuration (`btlink_assem_asc_msg.c`), and the fields
that stand in what they print.

Each printer writes into the rest of a buffer of 512 bytes; `bufLen` is what is
left of it. A buffer is its C string.
-/
import Petbox.Tracker.WellFormed
import Petbox.Lib.Print

namespace Petbox.Tracker

open CStr Mem Reader Print

def lenIpsIp : Nat := 15

/-- Some fields, each behind its comma. -/
def separated (fs : List (List UInt8)) : List UInt8 := fs.flatMap fun f => chrSeparator :: f

/-- `addr_pri`, or `addr_sec`. -/
def serverText (c : ConfigServer) : List UInt8 :=
  let octet (i : Nat) : List UInt8 := fmtD (c.sock.addr.bytes.getD i 0).toUInt32
  if c.mode = ipsPriIp then
    snprintf (lenIpsIp + 1) (octet 0 ++ chrDot :: (octet 1 ++ chrDot :: (octet 2 ++ chrDot :: octet 3)))
  else snprintf (lenIpsHost + 1) c.host.str

/-- `btlink_prot_assemble_cfg_ips_ascii`. -/
def protAssembleCfgIpsAscii (cfg : ConfigIps) (bufLen : Nat) : List UInt8 :=
  snprintf bufLen <| separated
    [fmtD cfg.reportMode.toUInt32, fmtD cfg.bufferMode.toUInt32, [], [],
      serverText cfg.pri, fmtD cfg.pri.sock.port.toUInt32, serverText cfg.sec, fmtD cfg.sec.sock.port.toUInt32,
      [], [], [], [], [], []]

/-- `snprintf` at the end of what is in the buffer: the length is kept in 8 bits,
and the size of the buffer is given as before. -/
def appendAscii (bufLen : Nat) (buff text : List UInt8) : List UInt8 :=
  buff.take (buff.length % 256) ++ snprintf bufLen text

/-- The strings of the arrays at an index. -/
def apnRow (cfg : ConfigApn) (idx : Nat) : List (List UInt8) :=
  let row := if idx = 0 then cfg.first else cfg.second
  [row.mccMnc.str, row.apnName.str, row.apnUserName.str, row.apnPassword.str]

/-- `btlink_prot_assemble_cfg_apn_ascii`. -/
def protAssembleCfgApnAscii (cfg : ConfigApn) (bufLen : Nat) : List UInt8 :=
  let buff := snprintf bufLen (separated [fmtD cfg.apnQuantity.toUInt32])
  let buff := (List.range cfg.apnQuantity.toNat).foldl
    (fun buff idx => appendAscii bufLen buff (separated (apnRow cfg idx))) buff
  appendAscii bufLen buff (separated [[], [], [], []])

/-- `btlink_prot_assemble_cfg_scs_ascii`: a password of 20 characters is not
ended, and `%s` runs on into the mask and into what lies behind the section. -/
def protAssembleCfgScsAscii (cfg : ConfigScs) (behind : List UInt8) (bufLen : Nat) : List UInt8 :=
  snprintf bufLen <| separated
    [cstr (Layouts.scs.encode cfg ++ behind), hexDigits 8 cfg.dataZoneMask.toNat, [], [], [], []]

/-- `btlink_prot_assemble_cfg_lss_ascii`. -/
def protAssembleCfgLssAscii (cfg : ConfigLss) (bufLen : Nat) : List UInt8 :=
  snprintf bufLen <| separated
    [fmtD cfg.modeSelection.toUInt32, fmtD cfg.continueSendInterval.toUInt32, fmtD cfg.startMode.toUInt32,
      cfg.specTimeOfDay.str, fmtD cfg.wakeupInterval.toUInt32, fmtD cfg.psmNetHoldTime, fmtD cfg.reportFreq.toUInt32,
      fmtD cfg.gnssEnable.toUInt32, fmtD cfg.gnssFixDelay.toUInt32, fmtD cfg.agpsMode.toUInt32,
      fmtD cfg.batLowPercent.toUInt32, [], [], [], [], fmtD cfg.sensorEnable.toUInt32,
      fmtD cfg.nonMoveDuration.toUInt32, [], [], [], []]

/-- `assemble_packet_func`, by the type in `multi_alc_header_index`. `cfg_lss`
lies right behind the 24 bytes of `cfg_scs`. -/
def assemblePacketFunc (type : FrameHeader) (cfg : Config) (bufLen : Nat) : List UInt8 :=
  match type with
  | .ips => protAssembleCfgIpsAscii cfg.ips bufLen
  | .apn => protAssembleCfgApnAscii cfg.apn bufLen
  | .scs => protAssembleCfgScsAscii cfg.scs (Layouts.lss.encode cfg.lss) bufLen
  | .lss => protAssembleCfgLssAscii cfg.lss bufLen
  | .rth => []

/-- An assign frame with these arguments. -/
def assignFrame (type : FrameHeader) (password args sn : List UInt8) : List UInt8 :=
  dnlnkHeader ++ (type.str ++ equalsChar :: (password ++ (args ++ chrSeparator :: (sn ++ [chrTail]))))

/-! ## The frame of fields is accepted -/

/-- A first field, the others behind their commas, and a last comma. -/
theorem joined_separated (f : List UInt8) (fs : List (List UInt8)) :
    joined (f :: fs) = f ++ (separated fs ++ [chrSeparator]) := by
  induction fs generalizing f with
  | nil => simp [joined, separated]
  | cons g fs ih =>
    rw [joined_cons, ih]
    simp [separated]

theorem isDigit_fieldText {f : List UInt8} (h : ∀ c ∈ f, isDigit c = true) : FieldText f := by
  intro c hc
  have hd := h c hc
  refine ⟨?_, ?_, ?_⟩ <;>
  · intro he
    rw [he] at hd
    exact absurd hd (by decide)

/-- A piece of a text that fits the buffer. -/
theorem rawDnlnkFrame_piece {s a b c : List UInt8} (hs : s = a ++ (b ++ c)) (hmax : s.length ≤ maxDnlnkFrameSize)
    (ht : Text s) (past : Nat → UInt8) : slice (rawDnlnkFrame s s.length past).data a.length b.length = b := by
  have hlen : a.length + b.length ≤ s.length := by
    rw [hs, List.length_append, List.length_append]
    omega
  rw [rawDnlnkFrame_slice hmax ht past hlen, hs, List.drop_left, List.take_left]

theorem joined_text {fs : List (List UInt8)} (hfs : ∀ f ∈ fs, FieldText f) : Text (joined fs) := by
  intro c hc
  obtain ⟨f, hf, hc⟩ := List.mem_flatMap.1 hc
  rcases List.mem_append.1 hc with hc | hc
  · exact (hfs f hf c hc).2.2
  · rw [List.mem_singleton.1 hc]
    decide

/-- The parts of an assign frame. -/
theorem assignFrame_eq (type : FrameHeader) (password sn : List UInt8) (fs : List (List UInt8)) :
    assignFrame type password (separated fs) sn =
      dnlnkHeader ++ (type.str ++ ([equalsChar] ++ (joined (password :: fs) ++ (sn ++ [chrTail])))) := by
  rw [joined_separated]
  simp [assignFrame]

theorem assignFrame_text {type : FrameHeader} {password sn : List UInt8} {fs : List (List UInt8)}
    (hfs : ∀ f ∈ password :: fs, FieldText f) (hsn : FieldText sn) :
    Text (assignFrame type password (separated fs) sn) := by
  intro c hc
  rw [assignFrame_eq] at hc
  simp only [List.mem_append, List.mem_singleton] at hc
  rcases hc with hc | hc | rfl | hc | hc | rfl
  · exact (show Text dnlnkHeader by decide) c hc
  · exact (text_header type).1 c hc
  · decide
  · exact joined_text hfs c hc
  · exact (hsn c hc).2.2
  · decide

theorem verifySerialNumber_digits {sn : List UInt8} (hlen : sn.length = lenSerialNum)
    (hsn : ∀ c ∈ sn, isDigit c = true) : verifySerialNumber sn = true := by
  unfold verifySerialNumber
  rw [List.all_eq_true]
  intro i hi
  have hi : i < sn.length := hlen ▸ List.mem_range.1 hi
  rw [List.getD_eq_getElem _ _ hi]
  exact hsn _ (List.getElem_mem hi)

/-- A frame whose fields are in the language of its type is accepted. -/
theorem parseDnlnkFrame_assign {cfg : Config} {type : FrameHeader} {password sn : List UInt8}
    {fs : List (List UInt8)} {arg : DnlnkArg} (past : Nat → UInt8) (hfs : ∀ f ∈ password :: fs, FieldText f)
    (hlang : (frameLang cfg type).Has (password :: fs) (password, arg)) (hlen : sn.length = lenSerialNum)
    (hsn : ∀ c ∈ sn, isDigit c = true)
    (hmax : (assignFrame type password (separated fs) sn).length ≤ maxDnlnkFrameSize) :
    parseDnlnkFrame cfg (rawDnlnkFrame (assignFrame type password (separated fs) sn)
      (assignFrame type password (separated fs) sn).length past) =
      some { password, arg, serialNumber := sn, paraString := joined (password :: fs) ++ sn } := by
  have htypeLen := (text_header type).2
  have hsntext := isDigit_fieldText hsn
  have htext : Text (assignFrame type password (separated fs) sn) := assignFrame_text hfs hsntext
  have hframe := assignFrame_eq type password sn fs
  generalize assignFrame type password (separated fs) sn = s at hmax htext hframe ⊢
  have hraw := rawDnlnkFrame_length hmax past
  have h7 : (dnlnkHeader ++ type.str ++ [equalsChar]).length = 7 := by
    simp [htypeLen, show dnlnkHeader.length = 3 from rfl, lenHeader]
  have hsize : s.length = 7 + (joined (password :: fs)).length + sn.length + 1 := by
    rw [hframe, ← h7]
    simp only [List.length_append, List.length_singleton]
    omega
  have hfields : slice (rawDnlnkFrame s s.length past).data 7 (joined (password :: fs)).length
      = joined (password :: fs) := by
    rw [← h7]
    exact rawDnlnkFrame_piece (c := sn ++ [chrTail]) (by rw [hframe]; simp) hmax htext past
  have hserial : slice (rawDnlnkFrame s s.length past).data (7 + (joined (password :: fs)).length) sn.length = sn := by
    rw [← h7, ← List.length_append]
    exact rawDnlnkFrame_piece (c := [chrTail]) (by rw [hframe]; simp) hmax htext past
  have htail : slice (rawDnlnkFrame s s.length past).data (7 + (joined (password :: fs)).length + sn.length) 1
      = [chrTail] := by
    rw [← h7, ← List.length_append, ← List.length_append]
    exact rawDnlnkFrame_piece (b := [chrTail]) (c := []) (by rw [hframe]; simp) hmax htext past
  have htail := (List.cons.inj htail).1
  have hpara : joined (password :: fs) ++ sn = paraText (rawDnlnkFrame s s.length past)
      (7 + (joined (password :: fs)).length + sn.length) := by
    have htext : Text (joined (password :: fs) ++ sn) := by
      intro c hc
      rcases List.mem_append.1 hc with hc | hc
      · exact joined_text hfs c hc
      · exact hsntext.text c hc
    have hcells : slice (rawDnlnkFrame s s.length past).data 7 ((joined (password :: fs)).length + sn.length)
        = joined (password :: fs) ++ sn := by
      rw [slice_add, hfields, hserial]
    rw [paraText, show paraPos = 7 from rfl, Nat.add_assoc, Nat.add_sub_cancel_left, hcells]
    exact (strncpyBytes_text htext List.length_append.symm).symm
  have hmax' : s.length ≤ 160 := hmax
  refine (parseDnlnkFrame_iff (by rw [hraw]; omega)).2 ⟨by rw [hraw]; omega, .inl ?_, type, ?_, password :: fs, _, _,
    fields_of_joined hfs hfields (by rw [hraw]; omega), hlang,
    ⟨⟨hserial, hsntext, ?_, .inr ⟨htail, rfl⟩⟩, Nat.le_of_eq hlen, verifySerialNumber_digits hlen hsn, htail⟩, hpara⟩
  · exact rawDnlnkFrame_piece (a := []) (b := dnlnkHeader) (hframe.trans (List.nil_append _).symm) hmax htext past
  · rw [← htypeLen]
    exact rawDnlnkFrame_piece (a := dnlnkHeader) hframe hmax htext past
  · rw [hraw]
    exact Nat.le_trans (by rw [hsize]; exact Nat.le_succ _) (Nat.le_max_right ..)

end Petbox.Tracker
