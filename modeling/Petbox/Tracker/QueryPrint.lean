/-
The answer to a query (`quec_print_protocol_param`): the header, the IMEI, the
section the assembler of the type prints, and a `#`, put together in
`g_print_prot_buf`.

An assembler prints with `snprintf` and returns the `strlen` of what it left.
The one of the APN section does this several times, and keeps its length in 8
bits in between. The one of the SCS section prints the password as a string; a
password that fills its array does not end there.
-/
import Petbox.Tracker.RoundTrip
import Petbox.Lib.PrintBuf

namespace Petbox.Tracker

open CStr Mem Print PrintBuf Pack

/-! ## The password in the answer -/

theorem scs_encode (c : ConfigScs) :
    Layouts.scs.encode c = c.devPassword.bytes ++ Layout.u32.encode c.dataZoneMask := rfl

/-- `%s` of a password that fills its array runs on into the mask. -/
theorem cstr_scs_full {c : ConfigScs} (h : ¬ c.devPassword.str.length < lenScsPassword) (behind : List UInt8) :
    cstr (Layouts.scs.encode c ++ behind)
      = c.devPassword.str ++ cstr (Layout.u32.encode c.dataZoneMask ++ behind) := by
  have hsize := c.devPassword.size
  have hstr : c.devPassword.str = c.devPassword.bytes := by
    rcases cstr_split c.devPassword.bytes with hs | ⟨r, hr⟩
    · exact hs
    · have hlen := congrArg List.length hr
      rw [List.length_append, List.length_cons] at hlen
      unfold CharArray.str at h
      omega
  have htext : Text c.devPassword.bytes := hstr ▸ text_cstr _
  rw [scs_encode, List.append_assoc, cstr_append htext, hstr]

/-- The mask begins with its low byte. -/
theorem cstr_mask (mask : UInt32) (behind : List UInt8) :
    cstr (Layout.u32.encode mask ++ behind) = [] ↔ mask.toNat % 256 = 0 := by
  have hhead : ∃ rest, Layout.u32.encode mask ++ behind = mask.toNat.toUInt8 :: rest := ⟨_, rfl⟩
  obtain ⟨rest, hrest⟩ := hhead
  have hbyte : mask.toNat.toUInt8.toNat = mask.toNat % 256 := UInt8.toNat_ofNat'
  rw [hrest, ← hbyte]
  by_cases hzero : mask.toNat.toUInt8 = 0
  · rw [hzero]
    exact iff_of_true (cstr_zero rest) rfl
  · rw [cstr_cons hzero]
    refine iff_of_false (List.cons_ne_nil _ _) fun h => hzero ?_
    exact UInt8.toNat_inj.1 h

theorem length_scsText (password : List UInt8) (c : ConfigScs) :
    (separated [password, hexDigits 8 c.dataZoneMask.toNat, [], [], [], []]).length = password.length + 14 := by
  simp only [separated, List.flatMap_cons, List.flatMap_nil, List.length_append, List.length_cons, length_hexDigits,
    List.length_nil]

/-- **What the query prints for the SCS section** is the password and the mask,
if and only if the password leaves a place in its array or the low byte of the
mask, which lies behind it, is 0. -/
theorem scs_printed_iff (cfg : Config) {bufLen : Nat} (hbuf : 36 ≤ bufLen) :
    assemblePacketFunc .scs cfg bufLen = separated (scsFields cfg.scs) ↔
      cfg.scs.devPassword.str.length < lenScsPassword ∨ cfg.scs.dataZoneMask.toNat % 256 = 0 := by
  have hle : cfg.scs.devPassword.str.length ≤ 20 :=
    Nat.le_trans (length_cstr_le _) (Nat.le_of_eq cfg.scs.devPassword.size)
  have hfields := length_scsText cfg.scs.devPassword.str cfg.scs
  have hwhole : snprintf bufLen (separated (scsFields cfg.scs)) = separated (scsFields cfg.scs) :=
    snprintf_fits (by unfold scsFields; omega)
  change snprintf bufLen (separated [cstr (Layouts.scs.encode cfg.scs ++ Layouts.lss.encode cfg.lss),
    hexDigits 8 cfg.scs.dataZoneMask.toNat, [], [], [], []]) = _ ↔ _
  by_cases hshort : cfg.scs.devPassword.str.length < lenScsPassword
  · rw [cstr_scs hshort]
    exact iff_of_true hwhole (.inl hshort)
  · rw [cstr_scs_full hshort, or_iff_right hshort, ← cstr_mask _ (Layouts.lss.encode cfg.lss)]
    constructor
    · intro heq
      have hlen := congrArg List.length heq
      unfold scsFields snprintf at hlen
      rw [List.length_take, length_scsText, length_scsText, List.length_append] at hlen
      exact List.length_eq_zero_iff.1 (by omega)
    · intro hnil
      rw [hnil, List.append_nil]
      exact hwhole

/-- A device whose mask is 0, and whose password has 8 characters. -/
theorem scs_printed_iff_short :
    assemblePacketFunc .scs { zeroConfig with scs := nvDefaultScs } 482 = separated (scsFields nvDefaultScs) :=
  (scs_printed_iff { zeroConfig with scs := nvDefaultScs } (by decide)).2 (.inl (by decide))

/-- A new device that was given a password of 20 characters. -/
def longPassword : Device Bool :=
  (btlinkCmdParse plainTimer (powerOn plainTimer fun _ => none)
    (fun i => (ascii "AT@SCS=btl100,abcdefghij0123456789,,,,,,0001#").getD i 0) 45 fun _ => 0).2.1

/-- The low byte of the mask, 0x0F, is printed behind the password. -/
theorem password_runs_on :
    Machine.Reachable (step plainTimer) (powerOn plainTimer fun _ => none) longPassword ∧
      longPassword.config.scs.devPassword.str = ascii "abcdefghij0123456789" ∧
      assemblePacketFunc .scs longPassword.config 482
        = ascii ",abcdefghij0123456789" ++ 0x0F :: ascii ",0000000F,,,," ∧
      assemblePacketFunc .scs longPassword.config 482 ≠ separated (scsFields longPassword.config.scs) :=
  ⟨⟨[lineAction "AT@SCS=btl100,abcdefghij0123456789,,,,,,0001#"], rfl⟩, by decide +kernel, by decide +kernel,
    by decide +kernel⟩

/-! ## The printers -/

def maxAtrspFrameSize : UInt16 := 512

/-- The size of `g_print_prot_buf`. -/
def printProtBufSize : Nat := maxAtrspFrameSize.toNat + 1

def atrspHeader : List UInt8 := ascii "+QRY"
def chrAtsepHdr : UInt8 := 0x3a

def deviceType : Nat := 0x10
def proMarVer : Nat := 1
def proMinVer : Nat := 1

/-- `g_btlink_pro_verno`, three times `%02x`: no digit is above 9. -/
def proVerno : List UInt8 := hexDigits 2 deviceType ++ (hexDigits 2 proMarVer ++ hexDigits 2 proMinVer)

/-- `g_btlink_config.imei`, as `btlink_set_imei` sets it. -/
def imei : List UInt8 := ascii "123456789012345"

/-- `btlink_prot_pack_char_ascii`. -/
def protPackCharAscii (buff : Nat) (bufLen : UInt16) (ch num : UInt8) : Printer UInt16 := do
  let len := if num.toUInt16 < bufLen then num.toUInt16 else bufLen
  store buff (List.replicate len.toNat ch)
  return len

/-- `btlink_prot_pack_string_ascii`, of a string and its length. -/
def protPackStringAscii (buff : Nat) (bufLen : UInt16) (str : List UInt8) (withSep : Bool) : Printer UInt16 := do
  let strLen := if withSep then str.length + 1 else str.length
  let len := if strLen < bufLen.toNat then strLen.toUInt16 else bufLen
  if withSep then
    store buff [chrSeparator]
    store (buff + 1) (strncpyBytes str (len.toUInt32 - 1).toNat)
  else store buff (strncpyBytes str len.toNat)
  return len

/-- `btlink_prot_print_cfg_head_ascii`. -/
def protPrintCfgHeadAscii (buff : Nat) (bufLen : UInt16) (type : FrameHeader) : Printer UInt16 := do
  let len : UInt16 := 0
  let len := len + (← protPackStringAscii (buff + len.toNat) (bufLen - len) atrspHeader false)
  let len := len + (← protPackStringAscii (buff + len.toNat) (bufLen - len) type.str false)
  let len := len + (← protPackCharAscii (buff + len.toNat) (bufLen - len) chrAtsepHdr 1)
  let len := len + (← protPackStringAscii (buff + len.toNat) (bufLen - len) proVerno false)
  let len := len + (← protPackStringAscii (buff + len.toNat) (bufLen - len) imei true)
  return len

/-- `btlink_prot_print_cfg_tail_ascii`. -/
def protPrintCfgTailAscii (buff : Nat) (bufLen : UInt16) : Printer UInt16 := do
  let len : UInt16 := 0
  let len := len + (← protPackCharAscii (buff + len.toNat) (bufLen - len) chrTail 1)
  return len

/-- An assembler that prints once: the text is cut to the buffer, and its length
is returned. -/
def printOnce (buff : Nat) (bufLen : UInt16) (text : List UInt8) : Printer UInt16 := do
  print buff bufLen.toNat text
  let len ← strlen printProtBufSize buff
  return len.toUInt16

/-- `len = strlen(buff)` and the `snprintf` behind it. -/
def printBehind (buff : Nat) (bufLen : UInt16) (text : List UInt8) : Printer Unit := do
  let len ← strlen printProtBufSize buff
  let len ← narrow len
  print (buff + len.toNat) bufLen.toNat text

/-- `btlink_prot_assemble_cfg_apn_ascii` in its buffer. -/
def protAssembleCfgApn (cfg : ConfigApn) (buff : Nat) (bufLen : UInt16) : Printer UInt16 := do
  print buff bufLen.toNat (separated [fmtD cfg.apnQuantity.toUInt32])
  (List.range cfg.apnQuantity.toNat).forM fun idx => printBehind buff bufLen (separated (apnRow cfg idx))
  printBehind buff bufLen (separated [[], [], [], []])
  let len ← strlen printProtBufSize buff
  return len.toUInt16

/-- The call of `assemble_packet_func`, by the type in `multi_alc_header_index`. -/
def assemblePacket (type : FrameHeader) (cfg : Config) (buff : Nat) (bufLen : UInt16) : Printer UInt16 :=
  match type with
  | .ips => printOnce buff bufLen (protAssembleCfgIpsAscii cfg.ips bufLen.toNat)
  | .apn => protAssembleCfgApn cfg.apn buff bufLen
  | .scs => printOnce buff bufLen (protAssembleCfgScsAscii cfg.scs (Layouts.lss.encode cfg.lss) bufLen.toNat)
  | .lss => printOnce buff bufLen (protAssembleCfgLssAscii cfg.lss bufLen.toNat)
  | .rth => return 0

/-- `quec_print_protocol_param`, up to the `cmd_uart_print`. -/
def quecPrintProtocolParam (type : FrameHeader) (cfg : Config) : Printer UInt16 := do
  store 0 (List.replicate printProtBufSize 0)
  let bufLen := maxAtrspFrameSize
  let len ← protPrintCfgHeadAscii 0 bufLen type
  let len := len + (← assemblePacket type cfg len.toNat (bufLen - len))
  let len := len + (← protPrintCfgTailAscii len.toNat (bufLen - len))
  return len

/-- The string in `g_print_prot_buf` behind the stores of a run. -/
def printedText (m : Nat → UInt8) (r : Printed UInt16) : List UInt8 :=
  cstr (slice (afterStores m r.stores) 0 printProtBufSize)

/-! ## What they print -/

/-- The header and the IMEI. -/
def headText (type : FrameHeader) : List UInt8 :=
  atrspHeader ++ (type.str ++ (chrAtsepHdr :: (proVerno ++ chrSeparator :: imei)))

theorem length_headText (type : FrameHeader) : (headText type).length = 30 := by
  cases type <;> decide +kernel

theorem headText_text (type : FrameHeader) : Text (headText type) := by
  intro c hc
  rcases List.mem_append.1 hc with hc | hc
  · exact (show Text atrspHeader by decide) c hc
  · rcases List.mem_append.1 hc with hc | hc
    · exact (text_header type).1 c hc
    · exact (show Text (chrAtsepHdr :: (proVerno ++ chrSeparator :: imei)) by decide) c hc

/-- A string that fits is packed whole. -/
theorem adds_packString {t str : List UInt8} {buff : Nat} {bufLen n : UInt16} (hbuff : buff = t.length)
    (hstr : Text str) (hn : str.length.toUInt16 = n) (hlen : str.length < bufLen.toNat)
    (hsize : t.length + str.length ≤ printProtBufSize) :
    Adds printProtBufSize (protPackStringAscii buff bufLen str false) t str n := by
  have hcount : n.toNat = str.length := by
    rw [← hn]
    exact UInt16.toNat_ofNat_of_lt' (Nat.lt_trans hlen bufLen.toNat_lt)
  have hbytes : strncpyBytes str n.toNat = str := strncpyBytes_text hstr hcount
  unfold protPackStringAscii
  simp only [Bool.false_eq_true, if_false, if_pos hlen, hn, hbytes]
  exact (adds_store hbuff hsize).map fun _ => n

/-- The same behind a comma. -/
theorem adds_packSep {t str : List UInt8} {buff : Nat} {bufLen n : UInt16} (hbuff : buff = t.length)
    (hstr : Text str) (hn : (str.length + 1).toUInt16 = n) (hlen : str.length + 1 < bufLen.toNat)
    (hsize : t.length + (str.length + 1) ≤ printProtBufSize) :
    Adds printProtBufSize (protPackStringAscii buff bufLen str true) t (chrSeparator :: str) n := by
  have hcount : n.toNat = str.length + 1 := by
    rw [← hn]
    exact UInt16.toNat_ofNat_of_lt' (Nat.lt_trans hlen bufLen.toNat_lt)
  have hone : (n.toUInt32 - 1).toNat = str.length := by
    have hle : (1 : UInt32) ≤ n.toUInt32 := by
      rw [UInt32.le_iff_toNat_le, UInt16.toNat_toUInt32, hcount]
      exact Nat.le_add_left 1 _
    rw [UInt32.toNat_sub_of_le _ _ hle, UInt16.toNat_toUInt32, hcount]
    rfl
  have hbytes : strncpyBytes str (n.toUInt32 - 1).toNat = str := strncpyBytes_text hstr hone
  unfold protPackStringAscii
  simp only [if_true, if_pos hlen, hn, hbytes]
  have hfirst : Adds printProtBufSize (store buff [chrSeparator]) t [chrSeparator] () := by
    refine adds_store hbuff ?_
    rw [List.length_singleton]
    omega
  have hsecond : Adds printProtBufSize (store (buff + 1) str) (t ++ [chrSeparator]) str () := by
    refine adds_store ?_ ?_
    · rw [List.length_append, List.length_singleton, hbuff]
    · rw [List.length_append, List.length_singleton]
      omega
  exact Adds.bind (u := [chrSeparator]) (v := str) hfirst (hsecond.map fun _ => n)

theorem adds_packChar {t : List UInt8} {buff : Nat} {bufLen : UInt16} {ch : UInt8} (hbuff : buff = t.length)
    (hlen : 1 < bufLen) (hsize : t.length + 1 ≤ printProtBufSize) :
    Adds printProtBufSize (protPackCharAscii buff bufLen ch 1) t [ch] 1 := by
  have hnum : (if (1 : UInt8).toUInt16 < bufLen then (1 : UInt8).toUInt16 else bufLen) = 1 := if_pos hlen
  unfold protPackCharAscii
  simp only [hnum]
  exact (adds_store hbuff hsize).map fun _ => 1

theorem adds_head (type : FrameHeader) :
    Adds printProtBufSize (protPrintCfgHeadAscii 0 maxAtrspFrameSize type) [] (headText type) 30 := by
  obtain ⟨htext, hlen⟩ := text_header type
  refine (adds_packString (n := 4) rfl (by decide) rfl (by decide) (by decide)).bind ?_
  refine (adds_packString (n := 3) rfl htext (hlen ▸ rfl) (hlen ▸ by decide) (hlen ▸ by decide)).bind ?_
  refine (adds_packChar (by cases type <;> rfl) (by decide) (by cases type <;> decide)).bind ?_
  refine (adds_packString (n := 6) (by cases type <;> rfl) (by decide) rfl (by decide)
    (by cases type <;> decide)).bind ?_
  exact (adds_packSep (n := 16) (by cases type <;> rfl) (by decide) rfl (by decide)
    (by cases type <;> decide)).map fun n => 0 + 4 + 3 + 1 + 6 + n

theorem adds_tail {t : List UInt8} {buff : Nat} {bufLen : UInt16} (hbuff : buff = t.length) (hbuf : 1 < bufLen)
    (hsize : t.length < printProtBufSize) :
    Adds printProtBufSize (protPrintCfgTailAscii buff bufLen) t [chrTail] 1 := by
  have hbuf' : 1 < bufLen - 0 := by rwa [UInt16.sub_zero]
  exact (adds_packChar hbuff hbuf' hsize).map fun n => 0 + n

section Pieces

variable {head t : List UInt8} {bufLen : UInt16}

/-- A piece printed behind a text that 8 bits can count. -/
theorem adds_printBehind (hsize : head.length + 256 ≤ printProtBufSize) (hbuf : 256 ≤ bufLen.toNat) (ht : Text t)
    {text : List UInt8} (hlen : t.length + text.length < 256) :
    Adds printProtBufSize (printBehind head.length bufLen text) (head ++ t) text () := by
  have hcount : t.length.toUInt8.toNat = t.length := UInt8.toNat_ofNat_of_lt' (show t.length < 256 by omega)
  unfold printBehind
  refine (adds_strlen rfl rfl ht).bind_nil ?_
  refine (adds_narrow (by omega)).bind_nil ?_
  refine adds_print ?_ ?_ ?_
  · rw [hcount, List.length_append]
  · omega
  · rw [List.length_append]
    omega

theorem adds_forM (hsize : head.length + 256 ≤ printProtBufSize) (hbuf : 256 ≤ bufLen.toNat) (idxs : List Nat)
    {g : Nat → List UInt8} (hg : ∀ i, Text (g i)) (ht : Text t) (hlen : t.length + (idxs.flatMap g).length < 256) :
    Adds printProtBufSize (idxs.forM fun i => printBehind head.length bufLen (g i)) (head ++ t) (idxs.flatMap g)
      () := by
  induction idxs generalizing t with
  | nil => exact Adds.pure ()
  | cons i idxs ih =>
    rw [List.flatMap_cons, List.length_append] at hlen
    rw [List.flatMap_cons]
    refine (adds_printBehind hsize hbuf ht (by omega)).bind ?_
    rw [List.append_assoc]
    refine ih ?_ ?_
    · intro c hc
      exact (List.mem_append.1 hc).elim (ht c) (hg i c)
    · rw [List.length_append]
      omega

/-- An assembler that prints its fields at once. -/
theorem adds_printOnce (hsize : head.length + 256 ≤ printProtBufSize) (hbuf : 256 ≤ bufLen.toNat) {text : List UInt8}
    (htext : Text text) (hlen : text.length < 256) :
    Adds printProtBufSize (printOnce head.length bufLen text) head text text.length.toUInt16 := by
  unfold printOnce
  have hprint : Adds printProtBufSize (print head.length bufLen.toNat text) head text () :=
    adds_print rfl (by omega) (by omega)
  exact hprint.bind_end ((adds_strlen rfl rfl htext).map fun n => n.toUInt16)

theorem separated_text {fs : List (List UInt8)} (hfs : ∀ f ∈ fs, FieldText f) : Text (separated fs) := by
  intro c hc
  obtain ⟨f, hf, hc⟩ := List.mem_flatMap.1 hc
  cases hc with
  | head => decide
  | tail _ hc => exact (hfs f hf c hc).2.2

theorem apnRow_text {c : ConfigApn} (h : ApnWf c) (idx : Nat) : Text (separated (apnRow c idx)) := by
  have hrow (r : ApnRecord) (hr : ApnRecordWf r) :
      Text (separated [r.mccMnc.str, r.apnName.str, r.apnUserName.str, r.apnPassword.str]) := by
    refine separated_text ?_
    simp only [List.forall_mem_cons, hr.mccMnc.text, hr.apnName.text, hr.apnUserName.text, hr.apnPassword.text,
      List.not_mem_nil, false_imp_iff, implies_true, and_self]
  unfold apnRow
  by_cases hidx : idx = 0
  · rw [if_pos hidx]
    exact hrow c.first h.first
  · rw [if_neg hidx]
    exact hrow c.second h.second

/-- The assembler of the APN section prints the quantity, the used records one
by one, and the reserved fields. -/
theorem adds_assembleApn (hsize : head.length + 256 ≤ printProtBufSize) (hbuf : 256 ≤ bufLen.toNat) {c : ConfigApn}
    (h : ApnWf c) (hlen : (separated (apnFields c)).length < 256) :
    Adds printProtBufSize (protAssembleCfgApn c head.length bufLen) head (separated (apnFields c))
      (separated (apnFields c)).length.toUInt16 := by
  have hrows : (List.range c.apnQuantity.toNat).flatMap (fun idx => separated (apnRow c idx))
      = separated ((usedRecords c).flatMap recordFields) := by
    have hmap := congrArg (List.flatMap separated) (apnRow_used h).1
    rw [List.flatMap_map, List.flatMap_map] at hmap
    rw [hmap]
    exact List.flatMap_assoc.symm
  have hparts : separated (apnFields c) = separated [fmtD c.apnQuantity.toUInt32] ++
      ((List.range c.apnQuantity.toNat).flatMap (fun idx => separated (apnRow c idx)) ++
        separated [[], [], [], []]) := by
    rw [hrows]
    simp [apnFields, separated]
  have hquantity : Text (separated [fmtD c.apnQuantity.toUInt32]) :=
    separated_text (List.forall_mem_singleton.2 (fieldText_u8 _))
  have hused : Text ((List.range c.apnQuantity.toNat).flatMap fun idx => separated (apnRow c idx)) := by
    intro b hb
    obtain ⟨idx, -, hb⟩ := List.mem_flatMap.1 hb
    exact apnRow_text h idx b hb
  have hrest : Text (separated [[], [], [], []]) := by decide
  rw [hparts] at hlen ⊢
  unfold protAssembleCfgApn
  have hloop (t : List UInt8) (ht : Text t) :=
    adds_forM hsize hbuf (List.range c.apnQuantity.toNat) (apnRow_text h) ht
  generalize separated [fmtD c.apnQuantity.toUInt32] = quantity at hlen hquantity ⊢
  generalize (List.range c.apnQuantity.toNat).flatMap (fun idx => separated (apnRow c idx)) = used
    at hlen hused hloop ⊢
  generalize separated [[], [], [], []] = rest at hlen hrest ⊢
  rw [List.length_append, List.length_append] at hlen
  have hfront : Text (quantity ++ used) := fun b hb => (List.mem_append.1 hb).elim (hquantity b) (hused b)
  have hall : Text (quantity ++ (used ++ rest)) := fun b hb =>
    (List.mem_append.1 hb).elim (hquantity b) fun hb => (List.mem_append.1 hb).elim (hused b) (hrest b)
  refine Adds.bind (u := quantity) (adds_print rfl (by omega) (by omega)) ?_
  refine Adds.bind (u := used) (hloop quantity hquantity (by omega)) ?_
  rw [List.append_assoc]
  refine (adds_printBehind hsize hbuf hfront (by rw [List.length_append]; omega)).bind_end ?_
  exact (adds_strlen rfl (by rw [List.append_assoc, List.append_assoc]) hall).map fun n => n.toUInt16

/-- What the assembler of a type leaves behind the head: what the printer of the
section writes. -/
theorem adds_assemblePacket (hsize : head.length + 256 ≤ printProtBufSize) (hbuf : 256 ≤ bufLen.toNat) {c : Config}
    (h : ConfigWf c) {type : FrameHeader} (htype : type ≠ .rth)
    (hscs : type = .scs → c.scs.devPassword.str.length < lenScsPassword) :
    Adds printProtBufSize (assemblePacket type c head.length bufLen) head (separated (printedFields c type))
      (separated (printedFields c type)).length.toUInt16 := by
  have hprint := assemblePacketFunc_eq h htype hscs hbuf
  have hlen := length_printed h type
  have htext : Text (separated (printedFields c type)) := separated_text (printedFields_text h type)
  have honce := adds_printOnce hsize hbuf htext hlen
  rw [← hprint] at honce ⊢
  cases type with
  | ips => exact honce
  | apn =>
    rw [hprint]
    exact adds_assembleApn hsize hbuf h.apn hlen
  | scs => exact honce
  | lss => exact honce
  | rth => exact absurd rfl htype

end Pieces

/-- What the query prints, from any memory. -/
theorem quecPrintProtocolParam_run {c : Config} (h : ConfigWf c) {type : FrameHeader} (htype : type ≠ .rth)
    (hscs : type = .scs → c.scs.devPassword.str.length < lenScsPassword) (m : Nat → UInt8) :
    AddsAt printProtBufSize m (quecPrintProtocolParam type c m) []
      (headText type ++ (separated (printedFields c type) ++ [chrTail]))
      (30 + (separated (printedFields c type)).length.toUInt16 + 1) := by
  have hlen := length_printed h type
  have hhead := length_headText type
  have hcount : (separated (printedFields c type)).length.toUInt16.toNat = (separated (printedFields c type)).length :=
    UInt16.toNat_ofNat_of_lt' (Nat.lt_trans hlen (by decide))
  have hsum : (30 + (separated (printedFields c type)).length.toUInt16).toNat
      = 30 + (separated (printedFields c type)).length := by
    rw [UInt16.toNat_add, hcount, show (30 : UInt16).toNat = 30 from rfl]
    exact Nat.mod_eq_of_lt (by omega)
  have hassemble := @adds_assemblePacket (headText type) (maxAtrspFrameSize - 30) (by rw [hhead]; decide) (by decide)
    c h type htype hscs
  rw [hhead] at hassemble
  refine Adds.of_clear ((adds_head type).bind (Adds.bind (u := separated (printedFields c type)) hassemble ?_)) m
  refine (adds_tail ?_ ?_ ?_).map fun n => 30 + (separated (printedFields c type)).length.toUInt16 + n
  · rw [hsum, List.length_append, hhead]
  · have hle : 30 + (separated (printedFields c type)).length.toUInt16 ≤ maxAtrspFrameSize := by
      rw [UInt16.le_iff_toNat_le, hsum, show maxAtrspFrameSize.toNat = 512 from rfl]
      omega
    rw [UInt16.lt_iff_toNat_lt, UInt16.toNat_sub_of_le _ _ hle, hsum, show maxAtrspFrameSize.toNat = 512 from rfl,
      show (1 : UInt16).toNat = 1 from rfl]
    omega
  · rw [List.length_append, hhead, show printProtBufSize = 513 from rfl]
    omega

section Queries

variable {τ : Type} {os : OsTimer τ} {t : Device τ} {nv : EnvStore}

/-- **The answers are complete.** In every reachable configuration, and whatever
the buffer held before, the text printed for the sections IPS, APN and LSS is
the header, the IMEI, all fields of the section and a `#`; it has at most 512
characters, every store is inside the buffer, and no length is cut to 8 bits. -/
theorem query_complete (hnv : SavedByFirmware os nv) (ht : Machine.Reachable (step os) (powerOn os nv) t)
    {type : FrameHeader} (htype : type = .ips ∨ type = .apn ∨ type = .lss) (m : Nat → UInt8) :
    let run := quecPrintProtocolParam type t.config m
    printedText m run = headText type ++ (separated (printedFields t.config type) ++ [chrTail]) ∧
      (printedText m run).length ≤ maxAtrspFrameSize.toNat ∧
      (∀ s ∈ run.stores, s.1 < printProtBufSize) ∧
      ∀ n ∈ run.narrowed, n < 256 := by
  intro run
  have h := (intact_of_reachable hnv.storeWf ht).wf
  have hrth : type ≠ .rth := by rcases htype with rfl | rfl | rfl <;> decide
  have hscs : type ≠ .scs := by rcases htype with rfl | rfl | rfl <;> decide
  have hrun : AddsAt printProtBufSize m run [] _ _ := quecPrintProtocolParam_run h hrth (fun heq => absurd heq hscs) m
  have hfields : Text (separated (printedFields t.config type)) := separated_text (printedFields_text h type)
  have htext : Text (headText type ++ (separated (printedFields t.config type) ++ [chrTail])) := by
    intro b hb
    rcases List.mem_append.1 hb with hb | hb
    · exact headText_text type b hb
    · rcases List.mem_append.1 hb with hb | hb
      · exact hfields b hb
      · rw [List.mem_singleton.1 hb]
        decide
  have hprinted : printedText m run = headText type ++ (separated (printedFields t.config type) ++ [chrTail]) :=
    Holds.cstr (t := []) hrun.holds htext
  have hlen := length_printed h type
  refine ⟨hprinted, ?_, hrun.within, hrun.narrowed⟩
  rw [hprinted, List.length_append, List.length_append, length_headText, List.length_singleton,
    show maxAtrspFrameSize.toNat = 512 from rfl]
  omega

end Queries

/-- The APN section of a new device. -/
theorem query_complete_apn :
    printedText (fun _ => 0xff) (quecPrintProtocolParam .apn (powerOn plainTimer fun _ => none).config fun _ => 0xff)
      = ascii "+QRYAPN:100101,123456789012345,0,,,,#" :=
  (query_complete (.empty fun _ _ => rfl) (@Machine.Reachable.refl _ _ (step plainTimer)
    (powerOn plainTimer fun _ => none)) (.inr (.inl rfl)) fun _ => 0xff).1

end Petbox.Tracker
