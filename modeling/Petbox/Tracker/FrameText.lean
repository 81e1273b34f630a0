/-
The text of an assign frame: which byte strings `btlink_parse_dnlnk_frame`
accepts.

`btlink_get_frame_field` does not move past the `#` and returns true there, so
behind an early `#` every field reads as empty. The serial number may not be
empty, so no `#` stands in front of it, and what was read up to it are the
fields of the text, each with its comma. Only the test for the `#` itself looks
behind `raw_frame.data`: a frame that fills the 160 bytes has no 0 behind it.
-/
import Petbox.Tracker.Grammar
import Petbox.Tracker.Servers
import Mathlib.Data.List.GetD

namespace Petbox.Tracker

open CStr Mem Reader

/-! ## Fields with their commas -/

/-- Fields, each with its comma. -/
def joined (fs : List (List UInt8)) : List UInt8 := fs.flatMap fun f => f ++ [chrSeparator]

theorem joined_cons (f : List UInt8) (fs : List (List UInt8)) : joined (f :: fs) = f ++ chrSeparator :: joined fs := by
  simp [joined]

theorem fieldsOf_joined {fs : List (List UInt8)} (hfs : ∀ f ∈ fs, FieldText f) (rest : List UInt8) :
    fieldsOf (joined fs ++ rest) = fs ++ fieldsOf rest := by
  induction fs with
  | nil => rfl
  | cons f fs ih =>
    rw [joined_cons, List.append_assoc, List.cons_append, fieldsOf_cons (hfs f (List.mem_cons_self ..)),
      ih fun g hg => hfs g (List.mem_cons_of_mem _ hg), List.cons_append]

theorem not_mem_joined {fs : List (List UInt8)} (hfs : ∀ f ∈ fs, FieldText f) : chrTail ∉ joined fs := by
  intro h
  obtain ⟨f, hf, hc⟩ := List.mem_flatMap.1 h
  rcases List.mem_append.1 hc with hc | hc
  · exact (hfs f hf _ hc).2.1 rfl
  · exact absurd (List.mem_singleton.1 hc) (by decide)

theorem fields_text {raw : RawFrame} {p q : Nat} {fs : List (List UInt8)} (h : Fields raw p fs q) :
    ∀ f ∈ fs, FieldText f := by
  induction h with
  | nil => exact fun f hf => absurd hf List.not_mem_nil
  | cons hf _ ih =>
    intro g hg
    rcases List.mem_cons.1 hg with rfl | hg
    · exact hf.text
    · exact ih g hg

/-- At the tail every field is empty, and the parser stays there. -/
theorem fields_at_tail {raw : RawFrame} {p q : Nat} {fs : List (List UInt8)} (ht : raw.data p = chrTail)
    (h : Fields raw p fs q) : q = p := by
  induction h with
  | nil => rfl
  | @cons p q r f fs hf _ ih =>
    have hnil : f = [] := by
      cases f with
      | nil => rfl
      | cons c f =>
        have hc := hf.cells
        rw [List.length_cons, slice_succ] at hc
        exact absurd ((List.cons.inj hc).1.symm.trans ht) (hf.text c (List.mem_cons_self ..)).2.1
    subst hnil
    have hq : q = p := by
      rcases hf.stop with ⟨-, hsep, -⟩ | ⟨-, hq⟩
      · exact absurd (hsep.symm.trans ht) (by decide)
      · exact hq
    subst hq
    exact ih ht

/-- Fields in front of a nonempty one end at commas. -/
theorem fields_separated {raw : RawFrame} {p q r : Nat} {fs : List (List UInt8)} {g : List UInt8}
    (h : Fields raw p fs q) (hg : FieldAt raw q g r) (hne : g ≠ []) :
    q = p + (joined fs).length ∧ slice raw.data p (joined fs).length = joined fs ∧ (fs ≠ [] → q ≤ raw.length) := by
  induction h with
  | nil => exact ⟨rfl, rfl, fun h => absurd rfl h⟩
  | @cons p u q f fs hf hfs ih =>
    obtain ⟨hq, hcells, hin⟩ := ih hg
    rcases hf.stop with ⟨hlt, hsep, hu⟩ | ⟨htail, hu⟩
    · have hlen : (joined (f :: fs)).length = f.length + (1 + (joined fs).length) := by
        rw [joined_cons, List.length_append, List.length_cons]
        omega
      refine ⟨by omega, ?_, fun _ => ?_⟩
      · rw [hlen, slice_add, hf.cells, slice_add, slice_succ, slice_zero, hsep, ← hu, hcells, joined_cons,
          List.singleton_append]
      · cases hfs with
        | nil => omega
        | cons _ _ => exact hin (by simp)
    · -- at the tail the nonempty field could not be read
      rw [← hu] at htail
      obtain rfl := fields_at_tail htail hfs
      cases g with
      | nil => exact absurd rfl hne
      | cons c g =>
        have hc := hg.cells
        rw [List.length_cons, slice_succ] at hc
        exact absurd ((List.cons.inj hc).1.symm.trans htail) (hg.text c (List.mem_cons_self ..)).2.1

/-- Fields with their commas are read as these fields. -/
theorem fields_of_joined {raw : RawFrame} {p : Nat} {fs : List (List UInt8)} (hfs : ∀ f ∈ fs, FieldText f)
    (hcells : slice raw.data p (joined fs).length = joined fs) (hin : p + (joined fs).length ≤ raw.length) :
    Fields raw p fs (p + (joined fs).length) := by
  induction fs generalizing p with
  | nil => exact .nil p
  | cons f fs ih =>
    have hlen : (joined (f :: fs)).length = f.length + (1 + (joined fs).length) := by
      rw [joined_cons, List.length_append, List.length_cons]
      omega
    rw [hlen, slice_add, slice_add, joined_cons, slice_succ, slice_zero, List.singleton_append] at hcells
    obtain ⟨hf, hrest⟩ := List.append_inj hcells (by simp)
    obtain ⟨hsep, hrest⟩ := List.cons.inj hrest
    have htext := hfs f (List.mem_cons_self ..)
    have hat : FieldAt raw p f (p + f.length + 1) :=
      ⟨hf, htext, by omega, .inl ⟨by omega, hsep, rfl⟩⟩
    have := ih (fun g hg => hfs g (List.mem_cons_of_mem _ hg)) hrest (by omega)
    rw [show p + f.length + 1 + (joined fs).length = p + (joined (f :: fs)).length by omega] at this
    exact .cons hat this

/-! ## The grammar -/

/-- The maximum lengths of the fields in front of the serial number, for a
frame that names `quantity` access points; 0 is a reserved field. -/
def frameBounds (type : FrameHeader) (quantity : Nat) : List Nat :=
  match type with
  | .ips =>
    [lenScsPassword, lenIpsReportMode, lenIpsBufferMode, lenReserved, lenReserved, lenIpsHost, lenIpsPort,
      lenIpsHost, lenIpsPort] ++ List.replicate 6 lenReserved
  | .apn =>
    [lenScsPassword, lenApnNums] ++
      (List.replicate quantity [lenApnMccMnc, lenApnName, lenApnUserName, lenApnPassword]).flatten ++
      List.replicate 4 lenReserved
  | .scs => [lenScsPassword, lenScsPassword, lenScsDataZoneMask] ++ List.replicate 4 lenReserved
  | .lss =>
    [lenScsPassword, lenLssModeSelect, lenLssContSendInterval, lenLssStartMode, lenLssSpecTimeDay,
      lenLssWakeupInterval, lenLssPsmNetHoldTime, lenLssReportFreg, lenLssGnssEnable, lenLssGnssFixDelay,
      lenLssAgpsMode, lenLssBatLowPercent] ++ List.replicate 4 lenReserved ++
      [lenLssSensorEnable, lenLssNonMoveDur] ++ List.replicate 4 lenReserved
  | .rth => [lenScsPassword, lenRthSubCommand] ++ List.replicate 4 lenReserved

/-- The fields in front of the serial number: as many as the type has, none too
long. The number of access points is the one the frame names. -/
def TypeFields (cfg : Config) (type : FrameHeader) (fs : List (List UInt8)) : Prop :=
  ∃ quantity, (type = .apn → NumberNamed (fs.getD 1 []) cfg.apn.apnQuantity.toNat quantity) ∧
    List.Forall₂ FieldFits (frameBounds type quantity) fs

/-- An assign frame: header, type, a character, the fields with their serial
number and at most one empty field more, and the tail. -/
def AssignText (cfg : Config) (s : List UInt8) : Prop :=
  ∃ (header : List UInt8) (type : FrameHeader) (c : UInt8) (text rest sn : List UInt8)
    (fs extra : List (List UInt8)), (header = dnlnkHeader ∨ header = dnlnkHeaderLc) ∧
    s = header ++ (type.str ++ c :: (text ++ chrTail :: rest)) ∧ chrTail ∉ text ∧
    fieldsOf text = fs ++ sn :: extra ∧ (extra = [] ∨ extra = [[]]) ∧ TypeFields cfg type fs ∧
    sn.length = lenSerialNum ∧ ∀ c ∈ sn, isDigit c = true

/-! ## The languages have these fields -/

theorem shape_field {β : Type} (maxLen : Nat) (check : List UInt8 → Option β) :
    Lang.Shape FieldFits [maxLen] (fieldLang maxLen check) := .one fun _ _ h => h.1

theorem shape_number {β γ : Type} (maxLen : Nat) (ofInt : Int → β) (legal : β → Bool) (store : β → γ) (current : γ) :
    Lang.Shape FieldFits [maxLen] (numberLang maxLen ofInt legal store current) := .one fun _ _ h => h.1

theorem shape_reserved (total : Nat) :
    Lang.Shape FieldFits (List.replicate total lenReserved) (Lang.any total) := .any (fun _ => .inl rfl) total

theorem shape_port (cfg : ConfigServer) (arg : ArgServer) : Lang.Shape FieldFits [lenIpsPort] (portLang cfg arg) :=
  (shape_number _ _ _ _ _).bind fun _ => .pure _

theorem shape_ips (cfg : ConfigIps) :
    Lang.Shape FieldFits ((frameBounds .ips 0).tail) (ipsLang cfg) := by
  refine (shape_number _ _ _ _ _).bind fun _ => ?_
  refine (shape_number _ _ _ _ _).bind fun _ => ?_
  refine (shape_reserved 2).bind fun _ => ?_
  refine (shape_field _ _).bind fun _ => ?_
  refine (shape_port _ _).bind fun _ => ?_
  refine (shape_field _ _).bind fun _ => ?_
  refine (shape_port _ _).bind fun _ => ?_
  exact (shape_reserved 6).bind fun _ => .pure _

theorem shape_apnRecords (n : Nat) :
    Lang.Shape FieldFits
      (List.replicate n [lenApnMccMnc, lenApnName, lenApnUserName, lenApnPassword]).flatten (apnRecordsLang n) := by
  induction n with
  | zero => exact .pure _
  | succ n ih =>
    have hrecord : Lang.Shape FieldFits [lenApnMccMnc, lenApnName, lenApnUserName, lenApnPassword]
        apnRecordLang :=
      (shape_field _ _).bind fun _ => (shape_field _ _).bind fun _ => (shape_field _ _).bind fun _ =>
        (shape_field _ _).bind_pure _
    rw [List.replicate_succ, List.flatten_cons]
    exact hrecord.bind fun _ => ih.bind_pure _

theorem shape_scs (cfg : ConfigScs) : Lang.Shape FieldFits (frameBounds .scs 0) (scsLang cfg) := by
  refine (shape_field _ _).bind fun _ => ?_
  refine (shape_field _ _).bind fun _ => ?_
  refine (shape_field _ _).bind fun _ => ?_
  exact (shape_reserved 4).bind fun _ => .pure _

theorem shape_lss (cfg : ConfigLss) : Lang.Shape FieldFits ((frameBounds .lss 0).tail) (lssLang cfg) := by
  refine (shape_number _ _ _ _ _).bind fun _ => ?_
  refine (shape_number _ _ _ _ _).bind fun _ => ?_
  refine (shape_number _ _ _ _ _).bind fun _ => ?_
  refine (shape_field _ _).bind fun _ => ?_
  refine (shape_number _ _ _ _ _).bind fun _ => ?_
  refine (shape_number _ _ _ _ _).bind fun _ => ?_
  refine (shape_number _ _ _ _ _).bind fun _ => ?_
  refine (shape_number _ _ _ _ _).bind fun _ => ?_
  refine (shape_number _ _ _ _ _).bind fun _ => ?_
  refine (shape_number _ _ _ _ _).bind fun _ => ?_
  refine (shape_number _ _ _ _ _).bind fun _ => ?_
  refine (shape_reserved 4).bind fun _ => ?_
  refine (shape_number _ _ _ _ _).bind fun _ => ?_
  refine (shape_number _ _ _ _ _).bind fun _ => ?_
  exact (shape_reserved 4).bind fun _ => .pure _

theorem shape_rth : Lang.Shape FieldFits ((frameBounds .rth 0).tail) rthLang :=
  (shape_field _ _).bind fun _ => (shape_reserved 4).bind fun _ => .pure _

/-- A numeric argument names the number its digits stand for, when that number fits. -/
theorem NumberIs.named {β γ : Type} {ofInt : Int → β} {legal : β → Bool} {store : β → γ} {current v : γ}
    {f : List UInt8} (toNat : γ → Nat)
    (hfits : (∀ c ∈ f, isDigit c = true) → toNat (store (ofInt (decimal f : Nat))) = decimal f)
    (h : NumberIs ofInt legal store current f v) : NumberNamed f (toNat current) (toNat v) := by
  unfold NumberIs at h
  unfold NumberNamed
  split at h
  · next hnil => rw [if_pos hnil, h]
  · next hnil =>
    obtain ⟨hdig, -, rfl⟩ := h
    rw [if_neg hnil, hfits hdig]

/-- At most four digits fit in 16 bits. -/
theorem toNat_ofInt_decimal {f : List UInt8} (hlen : f.length ≤ 4) (hdig : ∀ c ∈ f, isDigit c = true) :
    (UInt16.ofInt (decimal f : Nat)).toNat = decimal f := by
  have hlt := decimal_lt hdig
  have hpow : 10 ^ f.length ≤ 10 ^ 4 := Nat.pow_le_pow_right (by omega) hlen
  simp only [UInt16.ofInt, UInt16.toNat_ofNat']
  omega

/-- The fields of an `AT@APN` frame: how many there are depends on the second. -/
theorem apnLang_fields {cfg : ConfigApn} {fs : List (List UInt8)} {arg : ArgApn} (h : (apnLang cfg).Has fs arg) :
    ∃ quantity, NumberNamed (fs.getD 0 []) cfg.apnQuantity.toNat quantity ∧
      List.Forall₂ FieldFits (frameBounds .apn quantity).tail fs := by
  obtain ⟨quantity, _, rest, rfl, ⟨f, rfl, hfits, hnum⟩, hrest⟩ := h
  refine ⟨quantity.toNat, ?_, .cons hfits ?_⟩
  · rw [List.singleton_append, List.getD_cons_zero]
    refine hnum.named UInt8.toNat fun hdig => ?_
    have hlen : f.length ≤ 2 := hfits.resolve_left (by decide)
    have hlt := decimal_lt hdig
    have hpow : 10 ^ f.length ≤ 10 ^ 2 := Nat.pow_le_pow_right (by omega) hlen
    rw [UInt16.toNat_toUInt8, toNat_ofInt_decimal (by omega) hdig]
    omega
  · exact ((shape_apnRecords quantity.toNat).bind fun _ => (shape_reserved 4).bind_pure _) rest arg hrest

/-- **The fields of each type.** -/
theorem frameLang_fields {cfg : Config} {type : FrameHeader} {fs : List (List UInt8)} {v : List UInt8 × DnlnkArg}
    (h : (frameLang cfg type).Has fs v) : TypeFields cfg type fs := by
  cases type with
  | ips =>
    refine ⟨0, fun h => absurd h (by decide), ?_⟩
    exact ((shape_field _ _).bind fun _ => (shape_ips cfg.ips).bind_pure _) fs v h
  | apn =>
    obtain ⟨_, _, rest, rfl, ⟨f, rfl, hfits, -⟩, arg, fs, _, rfl, hfs, rfl, -⟩ := h
    obtain ⟨quantity, hq, hfields⟩ := apnLang_fields hfs
    rw [List.append_nil]
    exact ⟨quantity, fun _ => hq, .cons hfits hfields⟩
  | scs =>
    refine ⟨0, fun h => absurd h (by decide), ?_⟩
    exact ((shape_scs cfg.scs).bind_pure _) fs v h
  | lss =>
    refine ⟨0, fun h => absurd h (by decide), ?_⟩
    exact ((shape_field _ _).bind fun _ => (shape_lss cfg.lss).bind_pure _) fs v h
  | rth =>
    refine ⟨0, fun h => absurd h (by decide), ?_⟩
    exact ((shape_field _ _).bind fun _ => shape_rth.bind_pure _) fs v h

/-! ## What is accepted -/

section Accepted

variable {s : List UInt8} {past : Nat → UInt8}

theorem rawDnlnkFrame_length (hs : s.length ≤ maxDnlnkFrameSize) (past : Nat → UInt8) :
    (rawDnlnkFrame s s.length past).length = s.length := by
  unfold maxDnlnkFrameSize at hs
  exact Nat.mod_eq_of_lt (by omega)

/-- The buffer holds the text, and zeros behind it. -/
theorem rawDnlnkFrame_cell (ht : Text s) (past : Nat → UInt8) {i : Nat} (hi : i < maxDnlnkFrameSize) :
    (rawDnlnkFrame s s.length past).data i = s.getD i 0 := by
  simp only [rawDnlnkFrame, if_pos hi, List.take_length, cstr_text ht]

theorem rawDnlnkFrame_slice (hs : s.length ≤ maxDnlnkFrameSize) (ht : Text s) (past : Nat → UInt8) {p n : Nat}
    (h : p + n ≤ s.length) : slice (rawDnlnkFrame s s.length past).data p n = (s.drop p).take n := by
  rw [← slice_getD (d := 0) h]
  exact slice_congr fun i _ hi => rawDnlnkFrame_cell ht past (by omega)

/-- The fields up to the serial number are the text in front of the tail. -/
theorem SerialAt.text {raw : RawFrame} {q r : Nat} {sn : List UInt8} {fs : List (List UInt8)}
    (hfs : Fields raw 7 fs q) (hsn : SerialAt raw q sn r) :
    ∃ text extra, (extra = [] ∨ extra = [[]]) ∧ slice raw.data 7 (r - 7) = text ∧ 7 ≤ r ∧ r ≤ max 7 raw.length ∧
      chrTail ∉ text ∧ fieldsOf text = fs ++ sn :: extra := by
  have hne : sn ≠ [] := by
    intro h
    exact absurd hsn.digits (h ▸ by decide)
  obtain ⟨hq, hcells, hin⟩ := fields_separated hfs hsn.field hne
  have hin : q ≤ max 7 raw.length := by
    by_cases hnil : fs = []
    · rw [hnil] at hq
      simp only [joined, List.flatMap_nil, List.length_nil] at hq
      omega
    · have := hin hnil
      omega
  have hftext := fields_text hfs
  have hsntext := hsn.field.text
  have hsnin := hsn.field.inside
  have hclean : chrTail ∉ joined fs ++ sn := by
    intro h
    rcases List.mem_append.1 h with h | h
    · exact not_mem_joined hftext h
    · exact (hsntext _ h).2.1 rfl
  rcases hsn.field.stop with ⟨hlt, hsep, rfl⟩ | ⟨-, rfl⟩
  · refine ⟨joined fs ++ (sn ++ [chrSeparator]), [[]], .inr rfl, ?_, by omega, by omega, ?_, ?_⟩
    · rw [show q + sn.length + 1 - 7 = (joined fs).length + (sn.length + 1) by omega, slice_add, ← hq, hcells,
        slice_snoc, hsn.field.cells, hsep]
    · rw [← List.append_assoc]
      intro h
      rcases List.mem_append.1 h with h | h
      · exact hclean h
      · exact absurd (List.mem_singleton.1 h) (by decide)
    · rw [fieldsOf_joined hftext, fieldsOf_cons hsntext]
      rfl
  · refine ⟨joined fs ++ sn, [], .inl rfl, ?_, by omega, by omega, hclean, ?_⟩
    · rw [show q + sn.length - 7 = (joined fs).length + sn.length by omega, slice_add, ← hq, hcells, hsn.field.cells]
    · rw [fieldsOf_joined hftext, fieldsOf_last hsntext]

theorem serialNumber_digits {sn : List UInt8} (h : verifySerialNumber sn = true) (hlen : sn.length ≤ lenSerialNum) :
    sn.length = lenSerialNum ∧ ∀ c ∈ sn, isDigit c = true := by
  have hcell : ∀ i < lenSerialNum, isDigit (sn.getD i 0) = true := by simpa [verifySerialNumber] using h
  have hfull : sn.length = lenSerialNum := by
    by_contra hlt
    have := hcell sn.length (by omega)
    rw [List.getD_eq_default _ _ (Nat.le_refl _)] at this
    exact absurd this (by decide)
  refine ⟨hfull, fun c hc => ?_⟩
  obtain ⟨i, hi, rfl⟩ := List.mem_iff_getElem.1 hc
  have := hcell i (by omega)
  rwa [List.getD_eq_getElem _ _ hi] at this

/-- A frame that is accepted is an assign frame, when no `#` stands behind the buffer. -/
theorem assignText_of_accepted {cfg : Config} {frame : ParsedFrame} (hs : s.length ≤ maxDnlnkFrameSize) (ht : Text s)
    (hpast : past maxDnlnkFrameSize ≠ chrTail)
    (h : parseDnlnkFrame cfg (rawDnlnkFrame s s.length past) = some frame) : AssignText cfg s := by
  have hraw := rawDnlnkFrame_length hs past
  have hlt : (rawDnlnkFrame s s.length past).length < 256 := by
    unfold maxDnlnkFrameSize at hs
    omega
  obtain ⟨hpos, hheader, type, htype, fs, q, r, hfs, hlang, hsn, -⟩ := (parseDnlnkFrame_iff hlt).1 h
  obtain ⟨text, extra, hextra, hcells, h7, hr, htail, hfields⟩ := SerialAt.text hfs hsn
  obtain ⟨hlen, hdigits⟩ := serialNumber_digits hsn.digits hsn.fits
  -- the tail is inside the text
  have hin : r < s.length := by
    by_contra hge
    have hcell := hsn.tail
    by_cases hr160 : r < maxDnlnkFrameSize
    · rw [rawDnlnkFrame_cell ht past hr160, List.getD_eq_default _ _ (by omega)] at hcell
      exact absurd hcell (by decide)
    · unfold maxDnlnkFrameSize at hs hr160 hpast
      obtain rfl : r = 160 := by omega
      exact hpast hcell
  have htailcell : s.getD r 0 = chrTail := by
    rw [← rawDnlnkFrame_cell ht past (by omega)]
    exact hsn.tail
  have hsplit : s = s.take r ++ chrTail :: s.drop (r + 1) := by
    rw [List.getD_eq_getElem _ _ hin] at htailcell
    conv_lhs => rw [← List.take_append_drop r s, List.drop_eq_getElem_cons hin, htailcell]
  have hfront : s.take r = slice (rawDnlnkFrame s s.length past).data 0 headerChklen ++
      (type.str ++ (rawDnlnkFrame s s.length past).data 6 :: text) := by
    have hall := rawDnlnkFrame_slice hs ht past (p := 0) (n := 3 + (3 + (1 + (r - 7)))) (by omega)
    rw [slice_add, slice_add, slice_add, List.drop_zero, show 3 + (3 + (1 + (r - 7))) = r by omega] at hall
    rw [← hall, ← htype, ← hcells]
    rfl
  refine ⟨_, type, (rawDnlnkFrame s s.length past).data 6, text, s.drop (r + 1), frame.serialNumber, fs, extra,
    hheader, ?_, htail, hfields, hextra, frameLang_fields hlang, hlen, hdigits⟩
  exact hsplit.trans (by rw [hfront, List.append_assoc, List.append_assoc, List.cons_append])

end Accepted

/-! ## A frame that fills the buffer -/

/-- The fields of a frame of 160 bytes in front of its serial number: the
fixed password, the first sub command, and one long reserved field. -/
def fullFields : List (List UInt8) :=
  [ascii "btlink", ascii "1", List.replicate 136 0x78, [], [], []]

/-- A frame of 160 bytes without its tail. -/
def fullText : List UInt8 := ascii "AT@RTH=" ++ (joined fullFields ++ ascii "0001")

theorem fullFields_text : ∀ f ∈ fullFields, FieldText f := by decide +kernel

theorem fullFields_lang (cfg : Config) : (frameLang cfg .rth).Has fullFields (ascii "btlink", .rth 1) := by
  refine Lang.one_bind ⟨.inr (by decide), ?_⟩ ⟨1, _, _, (List.append_nil _).symm, ?_, Lang.has_pure⟩
  · have hmatch : passwordMatch cfg.scs.devPassword (ascii "btlink") = true := by
      rw [passwordMatch, Bool.or_eq_true]
      exact .inr (by decide)
    exact if_pos hmatch
  · exact Lang.one_bind ⟨.inr (by decide), by decide⟩ ⟨(), _, _, (List.append_nil _).symm, rfl, Lang.has_pure⟩

theorem fullText_length : fullText.length = maxDnlnkFrameSize := by decide +kernel

theorem fullText_text : Text fullText := by decide +kernel

/-- It has no `#`, so it is no assign frame. -/
theorem fullText_not_assign (cfg : Config) : ¬ AssignText cfg fullText := by
  intro h
  obtain ⟨header, type, c, text, rest, sn, fs, extra, -, heq, -⟩ := h
  have hmem : chrTail ∈ fullText := by
    rw [heq]
    simp
  exact absurd hmem (by decide +kernel)

/-- The parser takes the byte behind the buffer for its tail. -/
theorem fullText_accepted (cfg : Config) (past : Nat → UInt8) (hpast : past maxDnlnkFrameSize = chrTail) :
    ∃ frame, parseDnlnkFrame cfg (rawDnlnkFrame fullText fullText.length past) = some frame := by
  have hlen := rawDnlnkFrame_length (Nat.le_of_eq fullText_length) past
  rw [fullText_length] at hlen
  have hcells {p n : Nat} (h : p + n ≤ maxDnlnkFrameSize) :
      slice (rawDnlnkFrame fullText maxDnlnkFrameSize past).data p n = (fullText.drop p).take n := by
    rw [← fullText_length] at h ⊢
    exact rawDnlnkFrame_slice (Nat.le_of_eq fullText_length) fullText_text past h
  rw [fullText_length]
  have hjoined : (joined fullFields).length = 149 := by decide +kernel
  have hfields : Fields (rawDnlnkFrame fullText maxDnlnkFrameSize past) 7 fullFields
      (7 + (joined fullFields).length) := by
    refine fields_of_joined fullFields_text ?_ ?_
    · rw [hjoined, hcells (by decide)]
      decide +kernel
    · rw [hjoined, hlen]
      decide
  rw [hjoined] at hfields
  refine ⟨⟨ascii "btlink", .rth 1, ascii "0001", paraText (rawDnlnkFrame fullText maxDnlnkFrameSize past) 160⟩,
    (parseDnlnkFrame_iff (by rw [hlen]; decide)).2 ⟨?_, ?_, .rth, ?_, fullFields, 156, 160, hfields, ?_, ?_, rfl⟩⟩
  · rw [hlen]
    decide
  · rw [hcells (by decide)]
    exact .inl (by decide +kernel)
  · rw [hcells (by decide)]
    decide +kernel
  · exact fullFields_lang cfg
  · show SerialAt _ 156 (ascii "0001") 160
    refine ⟨⟨?_, ?_, ?_, .inr ⟨hpast, rfl⟩⟩, by decide, by decide, hpast⟩
    · rw [hcells (by decide)]
      decide +kernel
    · have hall : (ascii "0001").all (fun c => c != chrSeparator && (c != chrTail && c != 0)) = true := by decide
      intro c hc
      simpa using List.all_eq_true.1 hall c hc
    · rw [hlen]
      decide

/-- **When only assign frames are accepted**: when the byte behind the 160 bytes
of `raw_frame.data`, which the parser takes for the tail of a frame that fills
them, is no `#`. -/
theorem assign_frames_iff (cfg : Config) (past : Nat → UInt8) :
    (∀ s : List UInt8, s.length ≤ maxDnlnkFrameSize → Text s → ∀ frame,
      parseDnlnkFrame cfg (rawDnlnkFrame s s.length past) = some frame → AssignText cfg s) ↔
      past maxDnlnkFrameSize ≠ chrTail := by
  constructor
  · intro h hpast
    obtain ⟨frame, hframe⟩ := fullText_accepted cfg past hpast
    exact fullText_not_assign cfg (h fullText (Nat.le_of_eq fullText_length) fullText_text frame hframe)
  · intro h s hs ht frame hframe
    exact assignText_of_accepted hs ht h hframe

/-- A frame without its tail is accepted where a `#` stands behind the buffer. -/
theorem assign_frames_truncated :
    fullText.length ≤ maxDnlnkFrameSize ∧ Text fullText ∧
    (∃ frame, parseDnlnkFrame zeroConfig (rawDnlnkFrame fullText fullText.length fun _ => chrTail) = some frame) ∧
    ¬ AssignText zeroConfig fullText :=
  ⟨Nat.le_of_eq fullText_length, fullText_text, fullText_accepted zeroConfig (fun _ => chrTail) rfl,
    fullText_not_assign zeroConfig⟩

end Petbox.Tracker
