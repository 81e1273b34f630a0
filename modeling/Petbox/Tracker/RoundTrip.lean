/-
What the tracker prints of its configuration it takes back: the frame made of a
printed section is accepted and changes nothing.

It rests on the configuration being well formed. Every printed number is legal
and not too long for its field, every printed string can stand in a field, and
a server prints as a host field that is read as the same server: an address as
its four octets, a domain name as itself.
-/
import Petbox.Tracker.Printer

namespace Petbox.Tracker

open CStr Mem Reader Print Update

/-! ## One field -/

/-- A printed number is read back. -/
theorem number_fmt {β γ : Type} {maxLen : Nat} {ofInt : Int → β} {legal : β → Bool} {store : β → γ} {current w : γ}
    {v : UInt32} (hlen : 0 < maxLen ∧ maxLen ≤ 9) (hfit : v.toNat < 10 ^ maxLen)
    (hlegal : legal (ofInt (v.toNat : Nat)) = true) (hstore : store (ofInt (v.toNat : Nat)) = w) :
    FieldFits maxLen (fmtD v) ∧ NumberIs ofInt legal store current (fmtD v) w := by
  have hpow : 10 ^ maxLen ≤ 10 ^ 9 := Nat.pow_le_pow_right (by omega) hlen.2
  rw [fmtD_nonneg (by omega)]
  refine ⟨.inr (length_dec hlen.1 hfit), ?_⟩
  unfold NumberIs
  rw [if_neg (dec_ne_nil _), decimal_dec]
  exact ⟨isDigit_dec _, hlegal, hstore.symm⟩

theorem ofInt_u8 (x : UInt8) : UInt8.ofInt (x.toUInt32.toNat : Nat) = x := by
  apply UInt8.toNat_inj.1
  rw [toNat_ofInt_u8, UInt8.toNat_toUInt32]
  exact Nat.mod_eq_of_lt x.toNat_lt

theorem ofInt_u16 (x : UInt16) : UInt16.ofInt (x.toUInt32.toNat : Nat) = x := by
  apply UInt16.toNat_inj.1
  have := x.toNat_lt
  simp only [UInt16.ofInt, UInt16.toNat_ofNat', UInt16.toNat_toUInt32]
  omega

theorem ofInt_u32 (x : UInt32) : UInt32.ofInt (x.toNat : Nat) = x := by
  apply UInt32.toNat_inj.1
  rw [toNat_ofInt_u32]
  exact Nat.mod_eq_of_lt x.toNat_lt

theorem number_u8 {maxLen : Nat} {legal : UInt8 → Bool} {current x : UInt8} (hlen : 0 < maxLen ∧ maxLen ≤ 9)
    (hfit : x.toNat < 10 ^ maxLen) (hlegal : legal x = true) :
    FieldFits maxLen (fmtD x.toUInt32) ∧ NumberIs UInt8.ofInt legal id current (fmtD x.toUInt32) x := by
  refine number_fmt hlen (by simpa using hfit) ?_ (ofInt_u8 x)
  rw [ofInt_u8]
  exact hlegal

theorem number_upTo {maxLen : Nat} {hi current x : UInt8} (hx : x ≤ hi)
    (hlen : (0 < maxLen ∧ maxLen ≤ 9) ∧ hi.toNat < 10 ^ maxLen) :
    FieldFits maxLen (fmtD x.toUInt32) ∧ NumberIs UInt8.ofInt (· ≤ hi) id current (fmtD x.toUInt32) x :=
  number_u8 hlen.1 (Nat.lt_of_le_of_lt (UInt8.le_iff_toNat_le.1 hx) hlen.2) (decide_eq_true hx)

theorem number_between {maxLen : Nat} {lo hi current x : UInt8} (hx : lo ≤ x ∧ x ≤ hi)
    (hlen : (0 < maxLen ∧ maxLen ≤ 9) ∧ hi.toNat < 10 ^ maxLen) :
    FieldFits maxLen (fmtD x.toUInt32) ∧
      NumberIs UInt8.ofInt (fun n => lo ≤ n && n ≤ hi) id current (fmtD x.toUInt32) x :=
  number_u8 hlen.1 (Nat.lt_of_le_of_lt (UInt8.le_iff_toNat_le.1 hx.2) hlen.2) (by simpa using hx)

theorem fieldText_fmtD {v : UInt32} (h : v.toNat < 2147483648) : FieldText (fmtD v) := by
  rw [fmtD_nonneg h]
  exact isDigit_fieldText (isDigit_dec _)

/-- The string that is there already is not assigned. -/
theorem assignString_keep {n : Nat} {a : CharArray n} {arg : List UInt8} (b : Bool)
    (h : cstr (arg.take n) = a.str) : assignString arg n (a, b) = (a, b) := by
  have heq : strncmpEq a.bytes arg n = true := by
    rw [strncmpEq_iff, List.take_of_length_le (Nat.le_of_eq a.size), h]
    rfl
  unfold assignString
  rw [if_neg fun h => absurd (heq.symm.trans h.2) (by simp)]

theorem assignString_read {maxLen n : Nat} {a : CharArray n} (h : StringWf maxLen a) (hn : maxLen ≤ n) (b : Bool) :
    assignString ((CharArray.zero n).strncpy a.str maxLen).bytes n (a, b) = (a, b) := by
  refine assignString_keep b ?_
  rw [List.take_of_length_le (Nat.le_of_eq (CharArray.size _))]
  exact str_strncpy_zero h.text.text h.length hn

/-! ## `AT@LSS` -/

/-- The printed fields of the section. -/
def lssFields (c : ConfigLss) : List (List UInt8) :=
  [fmtD c.modeSelection.toUInt32, fmtD c.continueSendInterval.toUInt32, fmtD c.startMode.toUInt32,
    c.specTimeOfDay.str, fmtD c.wakeupInterval.toUInt32, fmtD c.psmNetHoldTime, fmtD c.reportFreq.toUInt32,
    fmtD c.gnssEnable.toUInt32, fmtD c.gnssFixDelay.toUInt32, fmtD c.agpsMode.toUInt32,
    fmtD c.batLowPercent.toUInt32, [], [], [], [], fmtD c.sensorEnable.toUInt32,
    fmtD c.nonMoveDuration.toUInt32, [], [], [], []]

/-- What the parser makes of them. -/
def lssRead (c : ConfigLss) : ArgLss :=
  { c with specTimeOfDay := (CharArray.zero maxSpecTimeDayLen).strncpy c.specTimeOfDay.str lenLssSpecTimeDay }

theorem lss_has {c : ConfigLss} (h : LssWf c) : (lssLang c).Has (lssFields c) (lssRead c) := by
  have hinterval : c.continueSendInterval.toUInt32.toNat < 10 ^ lenLssContSendInterval := by
    have := UInt16.le_iff_toNat_le.1 h.continueSendInterval
    rw [UInt16.toNat_toUInt32]
    exact Nat.lt_of_le_of_lt this (by decide)
  have hwakeup : c.wakeupInterval.toNat < 10 ^ lenLssWakeupInterval := by
    have hmem := legalWakeupInterval_mem h.wakeupInterval
    have hall : ∀ n ∈ ([1, 2, 3, 4, 6, 8, 12, 24] : List UInt8), n.toNat < 10 ^ lenLssWakeupInterval := by
      decide +kernel
    exact hall _ hmem
  have hpsm : c.psmNetHoldTime.toNat < 10 ^ lenLssPsmNetHoldTime :=
    Nat.lt_of_le_of_lt (UInt32.le_iff_toNat_le.1 h.psmNetHoldTime) (by decide)
  refine Lang.one_bind (number_upTo h.modeSelection (by decide)) ?_
  refine Lang.one_bind (number_fmt (by decide) hinterval ?_ (ofInt_u16 _)) ?_
  · rw [ofInt_u16]
    exact decide_eq_true h.continueSendInterval
  refine Lang.one_bind (number_upTo h.startMode (by decide)) ?_
  refine Lang.one_bind ⟨.inr h.specTimeOfDay.length, rfl⟩ ?_
  refine Lang.one_bind (number_u8 (by decide) hwakeup h.wakeupInterval) ?_
  refine Lang.one_bind (number_fmt (by decide) hpsm ?_ (ofInt_u32 _)) ?_
  · rw [ofInt_u32]
    exact decide_eq_true h.psmNetHoldTime
  refine Lang.one_bind (number_between h.reportFreq (by decide)) ?_
  refine Lang.one_bind (number_upTo h.gnssEnable (by decide)) ?_
  refine Lang.one_bind (number_between h.gnssFixDelay (by decide)) ?_
  refine Lang.one_bind (number_upTo h.agpsMode (by decide)) ?_
  refine Lang.one_bind (number_upTo h.batLowPercent (by decide)) ?_
  refine ⟨(), [[], [], [], []], _, rfl, rfl, ?_⟩
  refine Lang.one_bind (number_upTo h.sensorEnable (by decide)) ?_
  refine Lang.one_bind (number_between h.nonMoveDuration (by decide)) ?_
  exact ⟨(), [[], [], [], []], [], rfl, rfl, Lang.has_pure⟩

theorem execLss_read {c : ConfigLss} (h : LssWf c) (b : Bool) : execLss (lssRead c) (c, b) = (c, b) := by
  apply chain_keep
  simp only [List.forall_mem_cons]
  exact ⟨assign_keep rfl, assign_keep rfl, assign_keep rfl,
    focus_keep (fun _ => rfl) (assignString_read h.specTimeOfDay (by decide) b), assign_keep rfl, assign_keep rfl,
    assign_keep rfl, assign_keep rfl, assign_keep rfl, assign_keep rfl, assign_keep rfl, assign_keep rfl,
    assign_keep rfl, List.forall_mem_nil _⟩

/-! ## `AT@SCS` -/

theorem hexLoop_digitChar (v : UInt32) {d : Nat} (h : d < 16) :
    hexLoop v (digitChar d) = v * 16 + UInt32.ofNat d := by
  have hpiece : ∀ d < 16, (if isDigit (digitChar d) then (digitChar d).toUInt32 - 0x30
      else (digitChar d ||| 0x20).toUInt32 - 0x61 + 10) = UInt32.ofNat d := by decide
  have := hpiece d h
  unfold hexLoop
  split at this
  · next hd =>
    rw [if_pos hd, ← this]
    grind
  · next hd =>
    rw [if_neg hd, ← this]
    grind

/-- The loop computes the number the digits stand for, in 32 bits. -/
theorem foldl_hexDigits (k n : Nat) : (hexDigits k n).foldl hexLoop 0 = UInt32.ofNat (n % 16 ^ k) := by
  induction k generalizing n with
  | zero => simp [hexDigits, Nat.mod_one]
  | succ k ih =>
    rw [hexDigits, List.foldl_append, ih, List.foldl_cons, List.foldl_nil,
      hexLoop_digitChar _ (Nat.mod_lt _ (by decide)), Nat.pow_succ']
    apply UInt32.toNat_inj.1
    have hsplit : n % (16 * 16 ^ k) = n % 16 + 16 * (n / 16 % 16 ^ k) := Nat.mod_mul
    simp only [UInt32.toNat_add, UInt32.toNat_mul, UInt32.toNat_ofNat', UInt32.reduceToNat]
    omega

theorem foldl_dropZeros (ds : List UInt8) : (ds.dropWhile (· == 0x30)).foldl hexLoop 0 = ds.foldl hexLoop 0 := by
  induction ds with
  | nil => rfl
  | cons c ds ih =>
    rw [List.dropWhile_cons]
    split
    · next hc =>
      rw [ih, List.foldl_cons, show c = 0x30 by simpa using hc]
      rfl
    · rfl

/-- Printed digits have no sign and no prefix. -/
theorem hexString2Int_digits {ds : List UInt8} (h : ∀ c ∈ ds, isXDigit c = true) :
    hexString2Int ds = ds.foldl hexLoop 0 := by
  have hne (x : UInt8) (hx : isXDigit x = false) : x ∉ ds := by
    intro hmem
    exact absurd ((h x hmem).symm.trans hx) (by simp)
  unfold hexString2Int
  split
  next sign rest hsign =>
  split at hsign
  · exact absurd (List.mem_cons_self ..) (hne 0x2d (by decide))
  · obtain ⟨rfl, rfl⟩ := Prod.mk.inj hsign
    simp only
    split
    · exact absurd (List.mem_cons_of_mem _ (List.mem_cons_self ..)) (hne 0x78 (by decide))
    · exact absurd (List.mem_cons_of_mem _ (List.mem_cons_self ..)) (hne 0x58 (by decide))
    · rw [foldl_dropZeros]
      grind

theorem hexString2Int_print (v : UInt32) : hexString2Int (hexDigits 8 v.toNat) = v := by
  rw [hexString2Int_digits (isXDigit_hexDigits 8 _), foldl_hexDigits]
  apply UInt32.toNat_inj.1
  have := v.toNat_lt
  rw [UInt32.toNat_ofNat']
  omega

theorem isAlnum_fieldText {f : List UInt8} (h : ∀ c ∈ f, isAlnum c = true) : FieldText f := by
  intro c hc
  have hd := h c hc
  refine ⟨?_, ?_, ?_⟩ <;>
  · intro he
    rw [he] at hd
    exact absurd hd (by decide)

/-- The printed fields of the section. -/
def scsFields (c : ConfigScs) : List (List UInt8) :=
  [c.devPassword.str, hexDigits 8 c.dataZoneMask.toNat, [], [], [], []]

/-- What the parser makes of them. -/
def scsRead (c : ConfigScs) : ArgScs where
  devPassword := (CharArray.zero maxApnPasswordLen).strncpy c.devPassword.str lenScsPassword
  dataZoneMask := c.dataZoneMask

theorem passwordLang_device {c : ConfigScs} (h : ScsWf c) :
    FieldFits lenScsPassword c.devPassword.str ∧
      (if passwordMatch c.devPassword c.devPassword.str then some c.devPassword.str else none)
        = some c.devPassword.str := by
  refine ⟨.inr h.max, if_pos ?_⟩
  have hsize := c.devPassword.size
  have hself : strncmpEq c.devPassword.bytes c.devPassword.str lenScsPassword = true := by
    rw [strncmpEq_iff, List.take_of_length_le (Nat.le_of_eq hsize),
      List.take_of_length_le (show _ ≤ lenScsPassword from h.max)]
    exact (cstr_text (text_cstr _)).symm
  unfold passwordMatch
  rw [hself, Bool.true_or]

theorem scs_has {c : ConfigScs} (h : ScsWf c) :
    (scsLang c).Has (c.devPassword.str :: scsFields c) (c.devPassword.str, scsRead c) := by
  have hpassword : checkNewPassword c.devPassword.str = some (scsRead c).devPassword := by
    have hne : c.devPassword.str ≠ [] := by
      intro hnil
      have := h.min
      rw [hnil] at this
      exact absurd this (by decide)
    have halnum : isalnumBuffer c.devPassword.str lenScsPassword = true :=
      (testBuffer_iff (by decide) h.max).2 ⟨hne, h.alnum⟩
    unfold checkNewPassword
    simp only
    rw [if_pos ⟨h.min, h.max⟩, if_pos halnum]
    rfl
  have hmask : checkDataZoneMask c.dataZoneMask (hexDigits 8 c.dataZoneMask.toNat) = some c.dataZoneMask := by
    have hlen := length_hexDigits 8 c.dataZoneMask.toNat
    have hne : hexDigits 8 c.dataZoneMask.toNat ≠ [] := by
      intro hnil
      rw [hnil] at hlen
      exact absurd hlen (by decide)
    unfold checkDataZoneMask
    rw [if_neg hne, hexString2Int_print]
    exact if_pos ((testBuffer_iff (by decide) (Nat.le_of_eq hlen)).2 ⟨hne, isXDigit_hexDigits 8 _⟩)
  refine Lang.one_bind (passwordLang_device h) ?_
  refine Lang.one_bind ⟨.inr h.max, hpassword⟩ ?_
  refine Lang.one_bind ⟨.inr (Nat.le_of_eq (length_hexDigits ..)), hmask⟩ ?_
  exact ⟨(), [[], [], [], []], [], rfl, rfl, Lang.has_pure⟩

theorem execScs_read {c : ConfigScs} (h : ScsWf c) (b : Bool) : execScs (scsRead c) (c, b) = (c, b) := by
  have htext : Text c.devPassword.str := text_cstr _
  apply chain_keep
  simp only [List.forall_mem_cons]
  refine ⟨focus_keep (fun _ => rfl) (assignString_keep b ?_), assign_keep rfl, List.forall_mem_nil _⟩
  simp only [scsRead]
  rw [CharArray.bytes_strncpy (by decide), List.take_left' (length_strncpyBytes ..), cstr_strncpyBytes,
    List.take_of_length_le (show _ ≤ lenScsPassword from h.max), cstr_text htext]

/-! ## `AT@APN` -/

/-- What the parser makes of a printed record. -/
def recordRead (r : ApnRecord) : ApnRecord where
  mccMnc := (CharArray.zero maxMccMncLen).strncpy r.mccMnc.str lenApnMccMnc
  apnName := (CharArray.zero maxApnLen).strncpy r.apnName.str lenApnName
  apnUserName := (CharArray.zero maxApnUserNameLen).strncpy r.apnUserName.str lenApnUserName
  apnPassword := (CharArray.zero maxApnPasswordLen).strncpy r.apnPassword.str lenApnPassword

/-- The records that are in use. -/
def usedRecords (c : ConfigApn) : List ApnRecord := [c.first, c.second].take c.apnQuantity.toNat

def recordFields (r : ApnRecord) : List (List UInt8) :=
  [r.mccMnc.str, r.apnName.str, r.apnUserName.str, r.apnPassword.str]

/-- The printed fields of the section. -/
def apnFields (c : ConfigApn) : List (List UInt8) :=
  fmtD c.apnQuantity.toUInt32 :: ((usedRecords c).flatMap recordFields ++ [[], [], [], []])

/-- What the parser makes of them. -/
def apnRead (c : ConfigApn) : ArgApn where
  apnQuantity := c.apnQuantity
  first := ((usedRecords c).map recordRead).getD 0 zeroRecord
  second := ((usedRecords c).map recordRead).getD 1 zeroRecord

theorem record_has {r : ApnRecord} (h : ApnRecordWf r) : apnRecordLang.Has (recordFields r) (recordRead r) := by
  refine Lang.one_bind ⟨.inr h.mccMnc.length, rfl⟩ ?_
  refine Lang.one_bind ⟨.inr h.apnName.length, rfl⟩ ?_
  refine Lang.one_bind ⟨.inr h.apnUserName.length, rfl⟩ ?_
  exact Lang.one_bind ⟨.inr h.apnPassword.length, rfl⟩ Lang.has_pure

theorem records_has {rs : List ApnRecord} (h : ∀ r ∈ rs, ApnRecordWf r) :
    (apnRecordsLang rs.length).Has (rs.flatMap recordFields) (rs.map recordRead) := by
  induction rs with
  | nil => exact Lang.has_pure
  | cons r rs ih =>
    rw [List.forall_mem_cons] at h
    exact ⟨recordRead r, recordFields r, rs.flatMap recordFields, List.flatMap_cons, record_has h.1,
      rs.map recordRead, rs.flatMap recordFields, [], (List.append_nil _).symm, ih h.2, Lang.has_pure⟩

theorem usedRecords_wf {c : ConfigApn} (h : ApnWf c) : ∀ r ∈ usedRecords c, ApnRecordWf r := by
  intro r hr
  have := List.mem_of_mem_take hr
  simp only [List.mem_cons, List.not_mem_nil, or_false] at this
  rcases this with rfl | rfl
  · exact h.first
  · exact h.second

theorem length_usedRecords {c : ConfigApn} (h : ApnWf c) : (usedRecords c).length = c.apnQuantity.toNat := by
  have hle : c.apnQuantity.toNat ≤ 2 := UInt8.le_iff_toNat_le.1 h.apnQuantity
  rw [usedRecords, List.length_take]
  exact Nat.min_eq_left hle

theorem apn_has {c : ConfigApn} (h : ApnWf c) : (apnLang c).Has (apnFields c) (apnRead c) := by
  have hle : c.apnQuantity.toNat ≤ 2 := UInt8.le_iff_toNat_le.1 h.apnQuantity
  have hnat : (UInt16.ofInt (c.apnQuantity.toUInt32.toNat : Nat)).toNat = c.apnQuantity.toNat := by
    simp only [UInt16.ofInt, UInt16.toNat_ofNat', UInt8.toNat_toUInt32]
    omega
  have hstore : (UInt16.ofInt (c.apnQuantity.toUInt32.toNat : Nat)).toUInt8 = c.apnQuantity := by
    apply UInt8.toNat_inj.1
    rw [UInt16.toNat_toUInt8, hnat]
    omega
  refine Lang.one_bind (number_fmt (by decide) ?_ ?_ hstore) ?_
  · rw [UInt8.toNat_toUInt32]
    exact Nat.lt_of_le_of_lt hle (by decide)
  · rw [decide_eq_true_iff, UInt16.le_iff_toNat_le, hnat]
    exact hle
  refine ⟨(usedRecords c).map recordRead, (usedRecords c).flatMap recordFields, _, rfl, ?_, ?_⟩
  · rw [← length_usedRecords h]
    exact records_has (usedRecords_wf h)
  · exact ⟨(), [[], [], [], []], [], rfl, rfl, Lang.has_pure⟩

theorem execApnRecord_read {r : ApnRecord} (h : ApnRecordWf r) (b : Bool) :
    execApnRecord (recordRead r) (r, b) = (r, b) := by
  apply chain_keep
  simp only [List.forall_mem_cons]
  exact ⟨focus_keep (fun _ => rfl) (assignString_read h.mccMnc (by decide) b),
    focus_keep (fun _ => rfl) (assignString_read h.apnName (by decide) b),
    focus_keep (fun _ => rfl) (assignString_read h.apnUserName (by decide) b),
    focus_keep (fun _ => rfl) (assignString_read h.apnPassword (by decide) b), List.forall_mem_nil _⟩

theorem execApn_read {c : ConfigApn} (h : ApnWf c) (b : Bool) : execApn (apnRead c) (c, b) = (c, b) := by
  have hle : c.apnQuantity.toNat ≤ 2 := UInt8.le_iff_toNat_le.1 h.apnQuantity
  have hassign : assign (·.apnQuantity) (fun c apnQuantity => { c with apnQuantity }) (apnRead c).apnQuantity (c, b)
      = (c, b) := assign_keep rfl
  unfold execApn
  simp only [hassign]
  apply chain_keep
  intro u hu
  obtain ⟨idx, hidx, rfl⟩ := List.mem_map.1 hu
  have hidx := List.mem_range.1 hidx
  rcases idx with _ | _ | idx
  · have hfirst : (apnRead c).first = recordRead c.first := by
      obtain ⟨n, hn⟩ : ∃ n, c.apnQuantity.toNat = n + 1 := ⟨c.apnQuantity.toNat - 1, by omega⟩
      simp [apnRead, usedRecords, hn]
    unfold execApnIdx
    rw [hfirst]
    exact focus_keep (fun _ => rfl) (execApnRecord_read h.first b)
  · have hsecond : (apnRead c).second = recordRead c.second := by
      have hn : c.apnQuantity.toNat = 2 := by omega
      simp [apnRead, usedRecords, hn]
    unfold execApnIdx
    rw [hsecond]
    exact focus_keep (fun _ => rfl) (execApnRecord_read h.second b)
  · rfl

/-! ## `AT@IPS` -/

/-- An octet as it is printed. -/
theorem octet_fmtD (o : UInt8) : Octet (fmtD o.toUInt32) o ∧ (fmtD o.toUInt32).length ≤ 3 := by
  have hlt := o.toNat_lt
  have hnat : o.toUInt32.toNat = o.toNat := UInt8.toNat_toUInt32 o
  rw [fmtD_nonneg (by omega), hnat]
  exact ⟨⟨dec_ne_nil _, isDigit_dec _, (decimal_dec _).symm⟩, length_dec (by decide) (by omega)⟩

/-- A server set by its address prints as a dotted quad. -/
theorem serverText_quad {c : ConfigServer} (hmode : c.mode = ipsPriIp) :
    DottedQuad (serverText c) (c.sock.addr.bytes.take 4) ∧ (serverText c).length ≤ lenIpsIp := by
  obtain ⟨w, x, y, z, rest, hbytes⟩ : ∃ w x y z rest, c.sock.addr.bytes = w :: x :: y :: z :: rest := by
    have hsize : c.sock.addr.bytes.length = 28 := c.sock.addr.size
    match c.sock.addr.bytes, hsize with
    | w :: x :: y :: z :: rest, _ => exact ⟨w, x, y, z, rest, rfl⟩
  obtain ⟨hw, hwlen⟩ := octet_fmtD w
  obtain ⟨hx, hxlen⟩ := octet_fmtD x
  obtain ⟨hy, hylen⟩ := octet_fmtD y
  obtain ⟨hz, hzlen⟩ := octet_fmtD z
  have hlen : (fmtD w.toUInt32 ++ chrDot :: (fmtD x.toUInt32 ++ chrDot :: (fmtD y.toUInt32 ++ chrDot ::
      fmtD z.toUInt32))).length ≤ lenIpsIp := by
    simp only [List.length_append, List.length_cons]
    unfold lenIpsIp
    omega
  have htext : serverText c = fmtD w.toUInt32 ++ chrDot :: (fmtD x.toUInt32 ++ chrDot :: (fmtD y.toUInt32 ++
      chrDot :: fmtD z.toUInt32)) := by
    unfold serverText
    simp only [if_pos hmode, hbytes]
    exact snprintf_fits (Nat.lt_succ_of_le hlen)
  rw [htext]
  refine ⟨⟨_, _, _, _, w, x, y, z, hw, hx, hy, hz, rfl, ?_⟩, hlen⟩
  rw [hbytes]
  rfl

/-- A dotted quad of zeros is printed as `btlink_util_ip_all_zero` knows it. -/
theorem serverText_zeros {c : ConfigServer} (hmode : c.mode = ipsPriIp)
    (hzero : c.sock.addr.bytes.take 4 = [0, 0, 0, 0]) : ipAllZero (serverText c) = true := by
  have hcell (i : Nat) (hi : i < 4) : c.sock.addr.bytes.getD i 0 = 0 := by
    have hsize : c.sock.addr.bytes.length = 28 := c.sock.addr.size
    match c.sock.addr.bytes, hsize, hzero with
    | w :: x :: y :: z :: rest, _, hzero =>
      simp only [List.take_succ_cons, List.take_zero, List.cons.injEq, and_true] at hzero
      obtain ⟨rfl, rfl, rfl, rfl⟩ := hzero
      match i, hi with
      | 0, _ | 1, _ | 2, _ | 3, _ => rfl
  have htext : serverText c = ascii "0.0.0.0" := by
    unfold serverText
    simp only [if_pos hmode, hcell 0 (by decide), hcell 1 (by decide), hcell 2 (by decide), hcell 3 (by decide)]
    decide
  rw [htext]
  decide

theorem serverText_name {c : ConfigServer} (h : ServerWf c) (hmode : c.mode = ipsPriDn) :
    serverText c = c.host.str := by
  have hne : ¬ c.mode = ipsPriIp := by rw [hmode]; decide
  unfold serverText
  rw [if_neg hne]
  exact snprintf_fits (Nat.lt_succ_of_le h.wellFormed.host.1)

theorem DottedQuad.text {f octets : List UInt8} (h : DottedQuad f octets) : FieldText f ∧ f ≠ [] := by
  obtain ⟨a, b, c, d, w, x, y, z, ha, hb, hc, hd, rfl, -⟩ := h
  have hdot : chrDot ≠ chrSeparator ∧ chrDot ≠ chrTail ∧ chrDot ≠ 0 := by decide
  refine ⟨fun e he => ?_, by simp⟩
  simp only [List.mem_append, List.mem_cons] at he
  rcases he with he | rfl | he | rfl | he | rfl | he
  · exact isDigit_fieldText ha.digits e he
  · exact hdot
  · exact isDigit_fieldText hb.digits e he
  · exact hdot
  · exact isDigit_fieldText hc.digits e he
  · exact hdot
  · exact isDigit_fieldText hd.digits e he

/-- A dotted quad is read as its octets, zeros when they are written as such. -/
theorem hostFromField_quad {f octets : List UInt8} (h : DottedQuad f octets)
    (hzero : octets = [0, 0, 0, 0] → ipAllZero f = true) :
    ∃ arg, hostFromField f zeroArgServer = some arg ∧ AddrArg arg octets := by
  obtain ⟨hret, hoctets⟩ := socIpCheck_quad h
  have hlen : octets.length = 4 := hoctets ▸ socIpCheck_length.2 hret
  have hvalid := socIpCheck_validity hret
  rw [hoctets] at hvalid
  unfold hostFromField
  simp only [hret, Bool.true_and, hvalid, hoctets]
  by_cases hz : octets = [0, 0, 0, 0]
  · subst hz
    rw [if_neg (by simp), if_pos (hzero rfl)]
    exact ⟨_, rfl, addrArg_hostAddr _ rfl⟩
  · rw [if_pos (by simpa using hz)]
    exact ⟨_, rfl, addrArg_hostAddr _ hlen⟩

/-- The address that is there already is not assigned. -/
theorem execHost_same_addr {c : ConfigServer} {arg : ArgServer} (hmode : c.mode = ipsPriIp)
    (harg : AddrArg arg (c.sock.addr.bytes.take 4)) (b : Bool) : execHost arg (c, b) = (c, b) := by
  have hmatch : ipAllMatch arg.sock.addr.bytes c.sock.addr.bytes = true := by
    rw [ipAllMatch_iff (by rw [CharArray.size]; decide) (by rw [CharArray.size]; decide)]
    exact take_three harg.addr
  unfold execHost
  rw [if_neg (by rw [harg.mode, hmode]; simp), if_pos harg.mode, if_pos hmatch]

/-- The name that is there already is not assigned. -/
theorem execHost_same_name {c : ConfigServer} {arg : ArgServer} (h : ServerOk c) (hmode : c.mode = ipsPriDn)
    (harg : NameArg arg c.host.str) (b : Bool) : execHost arg (c, b) = (c, b) := by
  have hmodes : ¬ ipsPriDn = ipsPriIp := by decide
  have htext : Text c.host.str := text_cstr _
  have hsame : strncmpEq c.host.bytes arg.host.bytes lenIpsHost = true := by
    rw [strncmpEq_iff, ← h.host_str, List.take_of_length_le (Nat.le_of_eq arg.host.size), harg.host,
      cstr_append htext, cstr_replicate, List.append_nil]
  unfold execHost
  rw [if_neg (by rw [harg.mode, hmode]; simp), if_neg (by rw [harg.mode]; exact hmodes), if_pos harg.mode,
    if_pos hsame]

/-- **A server prints as a field that is read as the same server.** -/
theorem server_read {c : ConfigServer} (h : ServerWf c) :
    FieldText (serverText c) ∧ (serverText c).length ≤ lenIpsHost ∧ serverText c ≠ [] ∧
    ∃ arg, hostFromField (serverText c) zeroArgServer = some arg ∧ ∀ b, execHost arg (c, b) = (c, b) := by
  have hmodes : ipsPriIp ≠ ipsPriDn := by decide
  rcases h.ok.mode with hmode | hmode
  · obtain ⟨hquad, hlen⟩ := serverText_quad hmode
    obtain ⟨arg, harg, haddr⟩ := hostFromField_quad hquad (serverText_zeros hmode)
    exact ⟨hquad.text.1, Nat.le_trans hlen (by decide), hquad.text.2, arg, harg, execHost_same_addr hmode haddr⟩
  · obtain ⟨htext, arg, harg, hargmode⟩ := h.name hmode
    have hlen := h.wellFormed.host.1
    rw [serverText_name h hmode]
    have hname : NameArg arg c.host.str := by
      rcases hostFromField_some htext.text hlen harg with ⟨octets, -, ha⟩ | ⟨-, ha⟩
      · exact absurd (ha.mode.symm.trans hargmode) hmodes
      · exact ha
    exact ⟨htext, hlen, (h.name hmode).ne_nil, arg, harg, execHost_same_name h.ok hmode hname⟩

/-- The printed fields of the section. -/
def ipsFields (c : ConfigIps) : List (List UInt8) :=
  [fmtD c.reportMode.toUInt32, fmtD c.bufferMode.toUInt32, [], [],
    serverText c.pri, fmtD c.pri.sock.port.toUInt32, serverText c.sec, fmtD c.sec.sock.port.toUInt32,
    [], [], [], [], [], []]

theorem port_has {c : ConfigServer} (arg : ArgServer) : (portLang c arg).Has [fmtD c.sock.port.toUInt32]
    { arg with sock := { arg.sock with port := c.sock.port } } := by
  have hlt := c.sock.port.toNat_lt
  have hnat : c.sock.port.toUInt32.toNat = c.sock.port.toNat := UInt16.toNat_toUInt32 _
  refine Lang.one_bind (number_fmt (by decide) ?_ ?_ ?_) Lang.has_pure
  · exact hnat ▸ Nat.lt_trans hlt (by decide)
  · rw [ofInt_u32, decide_eq_true_iff, UInt32.le_iff_toNat_le, hnat]
    exact Nat.le_of_lt_succ hlt
  · rw [ofInt_u32]
    exact UInt16.toUInt16_toUInt32 _

theorem ips_has {c : ConfigIps} (h : IpsWf c) :
    ∃ arg, (ipsLang c).Has (ipsFields c) arg ∧ ∀ b, execIps arg (c, b) = (c, b) := by
  obtain ⟨-, hprilen, hprine, pri, hpri, hpriKeep⟩ := server_read h.pri
  obtain ⟨-, hseclen, hsecne, sec, hsec, hsecKeep⟩ := server_read h.sec
  refine ⟨{ reportMode := c.reportMode
            bufferMode := c.bufferMode
            pri := { pri with sock := { pri.sock with port := c.pri.sock.port } }
            sec := { sec with sock := { sec.sock with port := c.sec.sock.port } } }, ?_, fun b => ?_⟩
  · refine Lang.one_bind (number_upTo h.reportMode (by decide)) ?_
    refine Lang.one_bind (number_upTo h.bufferMode (by decide)) ?_
    refine ⟨(), [[], []], _, rfl, rfl, ?_⟩
    refine Lang.one_bind ⟨.inr hprilen, (if_neg hprine).trans hpri⟩ ?_
    refine ⟨_, [_], _, rfl, port_has pri, ?_⟩
    refine Lang.one_bind ⟨.inr hseclen, (if_neg hsecne).trans hsec⟩ ?_
    refine ⟨_, [_], _, rfl, port_has sec, ?_⟩
    exact ⟨(), [[], [], [], [], [], []], [], rfl, rfl, Lang.has_pure⟩
  · apply chain_keep
    simp only [List.forall_mem_cons]
    refine ⟨assign_keep rfl, assign_keep rfl, ?_, ?_, ?_, ?_, List.forall_mem_nil _⟩
    · exact focus_keep (fun _ => rfl) (by rw [execHost_port]; exact hpriKeep b)
    · exact focus_keep (fun _ => rfl) (assign_keep rfl)
    · exact focus_keep (fun _ => rfl) (by rw [execHost_port]; exact hsecKeep b)
    · exact focus_keep (fun _ => rfl) (assign_keep rfl)

/-! ## The printers print these fields -/

theorem appendAscii_fits {bufLen : Nat} {buff text : List UInt8} (hbuff : buff.length < 256)
    (htext : text.length < bufLen) : appendAscii bufLen buff text = buff ++ text := by
  unfold appendAscii
  rw [Nat.mod_eq_of_lt hbuff, List.take_length, snprintf_fits htext]

theorem length_separated_record {r : ApnRecord} (h : ApnRecordWf r) : (separated (recordFields r)).length ≤ 109 := by
  have h1 : r.mccMnc.str.length ≤ 5 := h.mccMnc.length
  have h2 : r.apnName.str.length ≤ 40 := h.apnName.length
  have h3 : r.apnUserName.str.length ≤ 30 := h.apnUserName.length
  have h4 : r.apnPassword.str.length ≤ 30 := h.apnPassword.length
  simp only [separated, recordFields, List.flatMap_cons, List.flatMap_nil, List.length_append, List.length_cons,
    List.length_nil]
  omega

/-- Texts that are short enough together are put one behind the other. -/
theorem foldl_appendAscii {bufLen : Nat} (hbuf : 256 ≤ bufLen) {texts : List (List UInt8)} {buff : List UInt8}
    (h : buff.length + texts.flatten.length < 256) : texts.foldl (appendAscii bufLen) buff = buff ++ texts.flatten := by
  induction texts generalizing buff with
  | nil => exact (List.append_nil buff).symm
  | cons text texts ih =>
    rw [List.flatten_cons, List.length_append] at h
    rw [List.foldl_cons, appendAscii_fits (by omega) (by omega), ih (by rw [List.length_append]; omega),
      List.flatten_cons, List.append_assoc]

theorem apnRow_used {c : ConfigApn} (h : ApnWf c) :
    (List.range c.apnQuantity.toNat).map (apnRow c) = (usedRecords c).map recordFields ∧
      ((usedRecords c).flatMap fun r => separated (recordFields r)).length ≤ 218 := by
  have hle : c.apnQuantity.toNat ≤ 2 := UInt8.le_iff_toNat_le.1 h.apnQuantity
  have hfirst := length_separated_record h.first
  have hsecond := length_separated_record h.second
  obtain hq | hq | hq : c.apnQuantity.toNat = 0 ∨ c.apnQuantity.toNat = 1 ∨ c.apnQuantity.toNat = 2 := by omega
  · simp [usedRecords, hq]
  · refine ⟨by simp [usedRecords, hq, apnRow, recordFields], ?_⟩
    simp only [usedRecords, hq, List.take_succ_cons, List.take_zero, List.flatMap_cons, List.flatMap_nil,
      List.length_append, List.length_nil]
    omega
  · refine ⟨by simp [usedRecords, hq, apnRow, recordFields, List.range_succ], ?_⟩
    simp only [usedRecords, hq, List.take_succ_cons, List.take_zero, List.flatMap_cons, List.flatMap_nil,
      List.length_append, List.length_nil]
    omega

/-- The section never fills the buffer, nor the 8 bits of `len`. -/
theorem protAssembleCfgApnAscii_eq {c : ConfigApn} (h : ApnWf c) {bufLen : Nat} (hbuf : 256 ≤ bufLen) :
    protAssembleCfgApnAscii c bufLen = separated (apnFields c) := by
  obtain ⟨hrows, hlen⟩ := apnRow_used h
  have hnum : (separated [fmtD c.apnQuantity.toUInt32]).length ≤ 4 := by
    have := (octet_fmtD c.apnQuantity).2
    simp only [separated, List.flatMap_cons, List.flatMap_nil, List.length_append, List.length_cons, List.length_nil]
    omega
  have hlast : (separated [[], [], [], []]).length = 4 := rfl
  have hflat : (((usedRecords c).map recordFields).map separated).flatten
      = (usedRecords c).flatMap fun r => separated (recordFields r) := by
    rw [List.map_map, List.flatMap_def]
    rfl
  have hloop (buff : List UInt8) : (List.range c.apnQuantity.toNat).foldl
      (fun buff idx => appendAscii bufLen buff (separated (apnRow c idx))) buff
        = (((usedRecords c).map recordFields).map separated).foldl (appendAscii bufLen) buff := by
    rw [← hrows, List.foldl_map, List.foldl_map]
  unfold protAssembleCfgApnAscii
  simp only
  rw [snprintf_fits (by omega), hloop, foldl_appendAscii hbuf (by rw [hflat]; omega), hflat,
    appendAscii_fits (by rw [List.length_append]; omega) (by omega)]
  simp [apnFields, separated, List.flatMap_assoc]

/-- A password that is ended is printed alone. -/
theorem cstr_scs {c : ConfigScs} (h : c.devPassword.str.length < lenScsPassword) (behind : List UInt8) :
    cstr (Layouts.scs.encode c ++ behind) = c.devPassword.str := by
  have hsize := c.devPassword.size
  have hencode : Layouts.scs.encode c = c.devPassword.bytes ++ Layout.u32.encode c.dataZoneMask := rfl
  rw [hencode]
  rcases cstr_split c.devPassword.bytes with hs | ⟨r, hr⟩
  · unfold CharArray.str at h
    rw [hs] at h
    omega
  · conv => lhs; rw [hr]
    rw [List.append_assoc, List.append_assoc, List.cons_append]
    exact cstr_append_zero (text_cstr _) _

/-! ## The law -/

section Law

variable {τ : Type} {os : OsTimer τ} {t : Device τ}

/-- A frame is taken back: it is accepted, the copy of its text ends inside
`para_string`, and nothing of the device changes. -/
structure TakenBack (os : OsTimer τ) (t : Device τ) (content : List UInt8) (past : Nat → UInt8) : Prop where
  unchanged : checkAndExecProtocol os t content content.length past = (true, t)
  inside : ∀ frame, parseDnlnkFrame t.config (rawDnlnkFrame content content.length past) = some frame →
    frame.paraString.length ≤ lenParameter + 1

theorem length_assignFrame (type : FrameHeader) (password sn : List UInt8) (fs : List (List UInt8)) :
    (assignFrame type password (separated fs) sn).length =
      paraPos + (joined (password :: fs) ++ sn).length + 1 := by
  rw [assignFrame_eq]
  simp only [List.length_append, List.length_singleton, (text_header type).2, show dnlnkHeader.length = 3 from rfl,
    paraPos, headerChklen, lenHeader]
  omega

/-- A frame whose fields are read as arguments that change nothing is taken back
when its text fits. -/
theorem takenBack_assign_iff {type : FrameHeader} {password sn : List UInt8} {fs : List (List UInt8)} {arg : DnlnkArg}
    (past : Nat → UInt8) (hfs : ∀ f ∈ password :: fs, FieldText f)
    (hlang : (frameLang t.config type).Has (password :: fs) (password, arg)) (hlen : sn.length = lenSerialNum)
    (hsn : ∀ c ∈ sn, isDigit c = true) (hexec : cmdExec os t arg = t)
    (hmax : (assignFrame type password (separated fs) sn).length ≤ maxDnlnkFrameSize) :
    TakenBack os t (assignFrame type password (separated fs) sn) past ↔
      (assignFrame type password (separated fs) sn).length ≤ paraPos + (lenParameter + 1) + 1 := by
  have hparse := parseDnlnkFrame_assign past hfs hlang hlen hsn hmax
  have hsize := length_assignFrame type password sn fs
  constructor
  · intro h
    have hin := h.inside _ hparse
    rw [hsize]
    exact Nat.succ_le_succ (Nat.add_le_add_left hin paraPos)
  · intro hfit
    constructor
    · unfold checkAndExecProtocol
      rw [hparse]
      exact Prod.ext rfl hexec
    · intro frame hframe
      obtain rfl := Option.some.inj (hparse.symm.trans hframe)
      rw [hsize] at hfit
      exact Nat.le_of_add_le_add_left (Nat.le_of_succ_le_succ hfit)

theorem cmdExecLss_keep {arg : ArgLss} (hsame : t.config.lss.continueSendInterval = arg.continueSendInterval)
    (h : execLss arg (t.config.lss, false) = (t.config.lss, false)) : cmdExecLss os arg t = t := by
  unfold cmdExecLss
  simp only [h]
  rw [if_neg (not_not.2 hsame)]
  rfl

/-- The fields each printer writes. -/
def printedFields (c : Config) : FrameHeader → List (List UInt8)
  | .ips => ipsFields c.ips
  | .apn => apnFields c.apn
  | .scs => scsFields c.scs
  | .lss => lssFields c.lss
  | .rth => []

/-- The printed fields are read as arguments that change nothing. -/
theorem printedFields_read (h : ConfigWf t.config) {type : FrameHeader} (htype : type ≠ .rth) :
    ∃ arg, (frameLang t.config type).Has (t.config.scs.devPassword.str :: printedFields t.config type)
      (t.config.scs.devPassword.str, arg) ∧ cmdExec os t arg = t := by
  have hpassword := passwordLang_device h.scs
  cases type with
  | ips =>
    obtain ⟨arg, harg, hkeep⟩ := ips_has h.ips
    refine ⟨.ips arg, Lang.one_bind hpassword ⟨_, _, [], (List.append_nil _).symm, harg, Lang.has_pure⟩, ?_⟩
    simp only [cmdExec, cmdExecIps, hkeep false]
    rfl
  | apn =>
    refine ⟨.apn (apnRead t.config.apn), Lang.one_bind hpassword
      ⟨_, _, [], (List.append_nil _).symm, apn_has h.apn, Lang.has_pure⟩, ?_⟩
    simp only [cmdExec, cmdExecApn, execApn_read h.apn false]
    rfl
  | scs =>
    refine ⟨.scs (scsRead t.config.scs), ⟨_, _, [], (List.append_nil _).symm, scs_has h.scs, Lang.has_pure⟩, ?_⟩
    simp only [cmdExec, cmdExecScs, execScs_read h.scs false]
    rfl
  | lss =>
    refine ⟨.lss (lssRead t.config.lss), Lang.one_bind hpassword
      ⟨_, _, [], (List.append_nil _).symm, lss_has h.lss, Lang.has_pure⟩, ?_⟩
    exact cmdExecLss_keep rfl (execLss_read h.lss false)
  | rth => exact absurd rfl htype

theorem length_separated_le {fs : List (List UInt8)} {k : Nat} (h : ∀ f ∈ fs, f.length ≤ k) :
    (separated fs).length ≤ fs.length * (k + 1) := by
  induction fs with
  | nil => exact Nat.zero_le _
  | cons f fs ih =>
    have hf : f.length ≤ k := h f (List.mem_cons_self ..)
    have hfs := ih fun g hg => h g (List.mem_cons_of_mem _ hg)
    have hcons : separated (f :: fs) = chrSeparator :: f ++ separated fs := rfl
    rw [hcons, List.length_append, List.length_cons, List.length_cons, Nat.succ_mul]
    omega

theorem length_fmtD_u16 (x : UInt16) : (fmtD x.toUInt32).length ≤ 5 := by
  have hlt := x.toNat_lt
  have hnat : x.toUInt32.toNat = x.toNat := UInt16.toNat_toUInt32 _
  rw [fmtD_nonneg (by omega), hnat]
  exact length_dec (by decide) (Nat.lt_trans hlt (by decide))

/-- No section is longer than 8 bits can count. -/
theorem length_printed {c : Config} (h : ConfigWf c) (type : FrameHeader) :
    (separated (printedFields c type)).length < 256 := by
  cases type with
  | ips =>
    have hpri := (server_read h.ips.pri).2.1
    have hsec := (server_read h.ips.sec).2.1
    have hpriPort := length_fmtD_u16 c.ips.pri.sock.port
    have hsecPort := length_fmtD_u16 c.ips.sec.sock.port
    have hreport := (octet_fmtD c.ips.reportMode).2
    have hbuffer := (octet_fmtD c.ips.bufferMode).2
    unfold lenIpsHost at hpri hsec
    simp only [printedFields, ipsFields, separated, List.flatMap_cons, List.flatMap_nil, List.length_append,
      List.length_cons, List.length_nil]
    omega
  | apn =>
    have hrows := (apnRow_used h.apn).2
    have hnum := (octet_fmtD c.apn.apnQuantity).2
    simp only [printedFields, apnFields, separated, List.flatMap_cons, List.flatMap_append, List.flatMap_assoc,
      List.flatMap_nil, List.length_append, List.length_cons, List.length_nil] at hrows ⊢
    omega
  | scs =>
    have hpassword : c.scs.devPassword.str.length ≤ 20 := h.scs.max
    simp only [printedFields, scsFields, separated, List.flatMap_cons, List.flatMap_nil, List.length_append,
      List.length_cons, List.length_nil, length_hexDigits]
    omega
  | lss =>
    have hbyte (x : UInt8) : (fmtD x.toUInt32).length ≤ 10 := Nat.le_trans (octet_fmtD x).2 (by decide)
    have hinterval := Nat.le_trans (length_fmtD_u16 c.lss.continueSendInterval) (show 5 ≤ 10 by decide)
    have htime := Nat.le_trans h.lss.specTimeOfDay.length (show lenLssSpecTimeDay ≤ 10 by decide)
    have hpsm : (fmtD c.lss.psmNetHoldTime).length ≤ 10 := by
      have hlt := Nat.lt_of_le_of_lt (UInt32.le_iff_toNat_le.1 h.lss.psmNetHoldTime)
        (show maxLssNetHoldTime.toNat < 2147483648 by decide)
      rw [fmtD_nonneg hlt]
      exact length_dec (by decide) (Nat.lt_trans hlt (by decide))
    have hfields : ∀ f ∈ lssFields c.lss, f.length ≤ 10 := by
      simp only [lssFields, List.forall_mem_cons, hbyte, hinterval, htime, hpsm, List.length_nil, Nat.zero_le,
        List.not_mem_nil, false_imp_iff, implies_true, and_self]
    exact Nat.lt_of_le_of_lt (length_separated_le hfields) (show 21 * 11 < 256 by decide)
  | rth => exact Nat.zero_lt_succ _

/-- The printer of a type writes its fields. -/
theorem assemblePacketFunc_eq {c : Config} (h : ConfigWf c) {type : FrameHeader} (htype : type ≠ .rth)
    (hscs : type = .scs → c.scs.devPassword.str.length < lenScsPassword) {bufLen : Nat} (hbuf : 256 ≤ bufLen) :
    assemblePacketFunc type c bufLen = separated (printedFields c type) := by
  have hfits : snprintf bufLen (separated (printedFields c type)) = separated (printedFields c type) :=
    snprintf_fits (Nat.lt_of_lt_of_le (length_printed h type) hbuf)
  cases type with
  | ips => exact hfits
  | apn => exact protAssembleCfgApnAscii_eq h.apn hbuf
  | scs =>
    refine Eq.trans ?_ hfits
    unfold assemblePacketFunc protAssembleCfgScsAscii
    rw [cstr_scs (hscs rfl)]
    rfl
  | lss => exact hfits
  | rth => exact absurd rfl htype

theorem fieldText_nil : FieldText [] := fun _ hc => absurd hc List.not_mem_nil

theorem fieldText_u8 (x : UInt8) : FieldText (fmtD x.toUInt32) := isDigit_fieldText (octet_fmtD x).1.digits

theorem fieldText_u16 (x : UInt16) : FieldText (fmtD x.toUInt32) := by
  have hlt := x.toNat_lt
  refine fieldText_fmtD ?_
  rw [UInt16.toNat_toUInt32]
  omega

theorem fieldText_hexDigits (k n : Nat) : FieldText (hexDigits k n) := by
  refine isAlnum_fieldText fun c hc => ?_
  have hx := isXDigit_hexDigits k n c hc
  simp only [isXDigit, isAlnum, isDigit, Bool.or_eq_true, Bool.and_eq_true, decide_eq_true_eq, UInt8.le_iff_toNat_le,
    UInt8.reduceToNat] at hx ⊢
  omega

/-- Every printed field can stand in a frame. -/
theorem printedFields_text {c : Config} (h : ConfigWf c) (type : FrameHeader) :
    ∀ f ∈ printedFields c type, FieldText f := by
  cases type with
  | ips =>
    simp only [printedFields, ipsFields, List.forall_mem_cons, fieldText_nil, fieldText_u8, fieldText_u16,
      (server_read h.ips.pri).1, (server_read h.ips.sec).1, List.not_mem_nil, false_imp_iff, implies_true, and_self]
  | apn =>
    simp only [printedFields, apnFields, List.forall_mem_cons, List.forall_mem_append, fieldText_nil, fieldText_u8,
      List.not_mem_nil, false_imp_iff, implies_true, and_true,
      true_and]
    intro f hf
    obtain ⟨r, hr, hf⟩ := List.mem_flatMap.1 hf
    have hwf := usedRecords_wf h.apn r hr
    simp only [recordFields, List.mem_cons, List.not_mem_nil, or_false] at hf
    rcases hf with rfl | rfl | rfl | rfl
    · exact hwf.mccMnc.text
    · exact hwf.apnName.text
    · exact hwf.apnUserName.text
    · exact hwf.apnPassword.text
  | scs =>
    simp only [printedFields, scsFields, List.forall_mem_cons, fieldText_nil, fieldText_hexDigits,
      isAlnum_fieldText h.scs.alnum, List.not_mem_nil, false_imp_iff, implies_true, and_self]
  | lss =>
    have hpsm : FieldText (fmtD c.lss.psmNetHoldTime) :=
      fieldText_fmtD (Nat.lt_of_le_of_lt (UInt32.le_iff_toNat_le.1 h.lss.psmNetHoldTime) (by decide))
    simp only [printedFields, lssFields, List.forall_mem_cons, fieldText_nil, fieldText_u8, fieldText_u16, hpsm,
      h.lss.specTimeOfDay.text, List.not_mem_nil, false_imp_iff, implies_true, and_self]
  | rth => exact List.forall_mem_nil _

/-- **When the tracker takes back what it prints.** In every reachable
configuration the frame made of the device password and a printed section, with
any serial number, is accepted and changes nothing, neither the configuration
nor any other part of the state, exactly when the text between the header and
the `#` fits `para_string`. -/
theorem printed_section_accepted_iff {nv : EnvStore} (hnv : SavedByFirmware os nv)
    (ht : Machine.Reachable (step os) (powerOn os nv) t) {type : FrameHeader} (htype : type ≠ .rth)
    (hscs : type = .scs → t.config.scs.devPassword.str.length < lenScsPassword) {bufLen : Nat} (hbuf : 256 ≤ bufLen)
    {sn : List UInt8} (hlen : sn.length = lenSerialNum) (hsn : ∀ c ∈ sn, isDigit c = true) (past : Nat → UInt8) :
    let frame := assignFrame type t.config.scs.devPassword.str (assemblePacketFunc type t.config bufLen) sn
    frame.length ≤ maxDnlnkFrameSize →
      (TakenBack os t frame past ↔ frame.length ≤ paraPos + (lenParameter + 1) + 1) := by
  intro frame hmax
  have h := (intact_of_reachable hnv.storeWf ht).wf
  obtain ⟨arg, hlang, hexec⟩ : ∃ arg,
      (frameLang t.config type).Has (t.config.scs.devPassword.str :: printedFields t.config type)
        (t.config.scs.devPassword.str, arg) ∧ cmdExec os t arg = t := printedFields_read h htype
  have htext : ∀ f ∈ t.config.scs.devPassword.str :: printedFields t.config type, FieldText f :=
    List.forall_mem_cons.2 ⟨isAlnum_fieldText h.scs.alnum, printedFields_text h type⟩
  have hprint := assemblePacketFunc_eq h htype hscs hbuf
  simp only [frame] at hmax ⊢
  rw [hprint] at hmax ⊢
  exact takenBack_assign_iff past htext hlang hlen hsn hexec hmax

end Law

/-- The servers of a device that was told one. -/
theorem printed_section_accepted_iff_servers :
    let frame := assignFrame .ips serverSet.config.scs.devPassword.str (assemblePacketFunc .ips serverSet.config 470)
      (ascii "0001")
    TakenBack plainTimer serverSet frame (fun _ => 0) ↔ frame.length ≤ paraPos + (lenParameter + 1) + 1 := by
  have hreach : Machine.Reachable (step plainTimer) (powerOn plainTimer fun _ => none) serverSet :=
    ⟨[lineAction "AT@IPS=btl100,1,2,,,10.0.0.1,5000,,,,,,,,,0001#"], rfl⟩
  have hsn : (ascii "0001").all isDigit = true := by decide
  exact printed_section_accepted_iff (.empty fun _ _ => rfl) hreach (by decide) (fun h => absurd h (by decide))
    (by decide) (by decide) (List.all_eq_true.1 hsn) (fun _ => 0) (by decide +kernel)

/-- A line that names an access point, and one that sets a password of 20 characters. -/
def longApnLines : List Action :=
  [lineAction ("AT@APN=btl100,1,46000,nnnnnnnnnnnnnnnnnnnnnnnnnnnnnnnnnnnnnnnn,uuuuuuuuuuuuuuuuuuuuuuuuuuuuuu," ++
      "pppppppppppppppppppppppppppppp,,,,,0001#"),
    lineAction "AT@SCS=btl100,abcdefghij0123456789,,,,,,0001#"]

/-- The access point is printed behind the new password, in a frame of 148
characters, 140 of them for an array of 129. -/
theorem printed_section_overruns :
    ∃ t, Machine.exec (step plainTimer) (powerOn plainTimer fun _ => none) longApnLines = some t ∧
      let frame := assignFrame .apn t.config.scs.devPassword.str (assemblePacketFunc .apn t.config 470) (ascii "0001")
      frame.length ≤ maxDnlnkFrameSize ∧ ¬ TakenBack plainTimer t frame fun _ => 0 := by
  refine ⟨_, rfl, by decide +kernel, fun h => ?_⟩
  have hinside := h.inside
  revert hinside
  decide +kernel

end Petbox.Tracker
