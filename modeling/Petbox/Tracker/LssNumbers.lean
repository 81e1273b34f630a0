/-
The numeric arguments of `AT@LSS`: which numbers each of them takes.

The digits of a field are converted in 32 bits, and what comes out is assigned
to a variable as wide as the member of the frame before it is tested. The
fields of one, two, four and five digits hold no number that their variable
does not. A field of three digits does: 300 is 44 in 8 bits.
-/
import Petbox.Tracker.Printer

namespace Petbox.Tracker

open CStr Mem Reader

/-! ## The frame -/

/-- How many arguments stand between the password and the serial number. -/
def lssArgs : Nat := 21

/-- An `AT@LSS` frame: the header in either case, the character in the place of
the `=`, the fields, at most one more comma, the `#` and what follows it. -/
structure LssFrame where
  header : List UInt8
  skipped : UInt8
  password : List UInt8
  args : List (List UInt8)
  serialNumber : List UInt8
  extra : List UInt8
  rest : List UInt8
  headerIs : header = dnlnkHeader ∨ header = dnlnkHeaderLc
  skippedIs : skipped ≠ 0
  lengthIs : args.length = lssArgs
  fieldsText : ∀ f ∈ password :: args, FieldText f
  serialText : FieldText serialNumber
  extraIs : extra = [] ∨ extra = [chrSeparator]
  restText : Text rest

namespace LssFrame

/-- The characters of the frame. -/
def text (F : LssFrame) : List UInt8 :=
  F.header ++ (FrameHeader.lss.str ++ ([F.skipped] ++ (joined (F.password :: F.args) ++
    (F.serialNumber ++ (F.extra ++ chrTail :: F.rest)))))

/-- The same frame with another text in one of its fields. -/
def withArg (F : LssFrame) (i : Nat) (f : List UInt8) (hf : FieldText f) : LssFrame :=
  { F with
    args := F.args.set i f
    lengthIs := by rw [List.length_set, F.lengthIs]
    fieldsText := by
      intro g hg
      rcases List.mem_cons.1 hg with rfl | hg
      · exact F.fieldsText _ (List.mem_cons_self ..)
      · rcases List.mem_or_eq_of_mem_set hg with hg | rfl
        · exact F.fieldsText g (List.mem_cons_of_mem _ hg)
        · exact hf }

/-- What the parser makes of the frame. -/
def parsed (F : LssFrame) (cfg : Config) (past : Nat → UInt8) : Option ParsedFrame :=
  parseDnlnkFrame cfg (rawDnlnkFrame F.text F.text.length past)

variable {F : LssFrame} {cfg : Config} {past : Nat → UInt8}

theorem text_text (F : LssFrame) : Text F.text := by
  intro c hc
  simp only [text, List.mem_append, List.mem_cons, List.not_mem_nil, or_false] at hc
  have hheader : Text F.header := by
    rcases F.headerIs with h | h <;>
    · rw [h]
      decide
  rcases hc with hc | hc | rfl | hc | hc | hc | rfl | hc
  · exact hheader c hc
  · exact (text_header .lss).1 c hc
  · exact F.skippedIs
  · exact joined_text F.fieldsText c hc
  · exact (F.serialText c hc).2.2
  · rcases F.extraIs with h | h
    · rw [h] at hc
      exact absurd hc List.not_mem_nil
    · rw [h] at hc
      exact List.mem_singleton.1 hc ▸ by decide
  · decide
  · exact F.restText c hc

/-- A piece of the frame stands in the buffer. -/
theorem piece (hfits : F.text.length ≤ maxDnlnkFrameSize) {a b c : List UInt8} {p : Nat} (h : F.text = a ++ (b ++ c))
    (hp : a.length = p) : slice (rawDnlnkFrame F.text F.text.length past).data p b.length = b :=
  hp ▸ rawDnlnkFrame_piece h hfits F.text_text past

theorem length_header (F : LssFrame) : F.header.length = 3 := by
  rcases F.headerIs with h | h <;>
  · rw [h]
    rfl

theorem header_at (hfits : F.text.length ≤ maxDnlnkFrameSize) :
    slice (rawDnlnkFrame F.text F.text.length past).data 0 headerChklen = F.header := by
  rw [show headerChklen = F.header.length from F.length_header.symm]
  exact piece hfits (a := []) rfl rfl

theorem type_at (hfits : F.text.length ≤ maxDnlnkFrameSize) :
    slice (rawDnlnkFrame F.text F.text.length past).data 3 lenHeader = FrameHeader.lss.str :=
  piece hfits (b := FrameHeader.lss.str) rfl F.length_header

theorem header_length (F : LssFrame) : (F.header ++ (FrameHeader.lss.str ++ [F.skipped])).length = 7 := by
  rw [List.length_append, F.length_header]
  rfl

/-- Where the serial number starts. -/
def serialStart (F : LssFrame) : Nat := 7 + (joined (F.password :: F.args)).length

theorem fields_at (hfits : F.text.length ≤ maxDnlnkFrameSize) :
    Fields (rawDnlnkFrame F.text F.text.length past) 7 (F.password :: F.args) F.serialStart := by
  refine fields_of_joined F.fieldsText ?_ ?_
  · exact piece hfits (a := F.header ++ (FrameHeader.lss.str ++ [F.skipped]))
      (c := F.serialNumber ++ (F.extra ++ chrTail :: F.rest)) (by simp [text]) F.header_length
  · rw [rawDnlnkFrame_length hfits, ← F.header_length]
    simp only [text, List.length_append]
    omega

/-- Where the `#` stands. -/
def tailPosition (F : LssFrame) : Nat := F.serialStart + F.serialNumber.length + F.extra.length

/-- The serial number is read, and the `#` stands behind it. -/
theorem serial_at (hfits : F.text.length ≤ maxDnlnkFrameSize) :
    FieldAt (rawDnlnkFrame F.text F.text.length past) F.serialStart F.serialNumber F.tailPosition ∧
      (rawDnlnkFrame F.text F.text.length past).data F.tailPosition = chrTail := by
  have hlen := F.header_length
  have hraw := rawDnlnkFrame_length hfits past
  have hsize : F.text.length =
      F.serialStart + (F.serialNumber.length + (F.extra.length + (F.rest.length + 1))) := by
    rw [serialStart, ← hlen]
    simp only [text, List.length_append, List.length_cons]
    omega
  have hstart : (F.header ++ (FrameHeader.lss.str ++ [F.skipped]) ++ joined (F.password :: F.args)).length =
      F.serialStart := by
    rw [List.length_append, hlen, serialStart]
  have hcells : slice (rawDnlnkFrame F.text F.text.length past).data F.serialStart F.serialNumber.length =
      F.serialNumber := piece hfits (c := F.extra ++ chrTail :: F.rest) (by simp [text]) hstart
  have hnext : slice (rawDnlnkFrame F.text F.text.length past).data (F.serialStart + F.serialNumber.length)
      (F.extra ++ [chrTail]).length = F.extra ++ [chrTail] :=
    piece hfits (a := F.header ++ (FrameHeader.lss.str ++ [F.skipped]) ++ joined (F.password :: F.args) ++
      F.serialNumber) (c := F.rest) (by simp [text]) (by rw [List.length_append, hstart])
  have hinside : F.serialStart + F.serialNumber.length ≤
      max F.serialStart (rawDnlnkFrame F.text F.text.length past).length := by
    rw [hraw]
    omega
  rcases F.extraIs with h | h
  · rw [h] at hnext
    have htail := (List.cons.inj hnext).1
    rw [tailPosition, h]
    exact ⟨⟨hcells, F.serialText, hinside, .inr ⟨htail, rfl⟩⟩, htail⟩
  · rw [h] at hnext hsize
    obtain ⟨hsep, hnext⟩ := List.cons.inj hnext
    rw [tailPosition, h]
    refine ⟨⟨hcells, F.serialText, hinside, .inl ⟨?_, hsep, rfl⟩⟩, (List.cons.inj hnext).1⟩
    rw [hraw]
    omega

/-- **Which LSS frames are accepted**: those whose fields are in the language of
the type and whose serial number is one. -/
theorem parsed_iff (hfits : F.text.length ≤ maxDnlnkFrameSize) {frame : ParsedFrame} :
    F.parsed cfg past = some frame ↔
      (frameLang cfg .lss).Has (F.password :: F.args) (frame.password, frame.arg) ∧
      (frame.serialNumber = F.serialNumber ∧ F.serialNumber.length ≤ lenSerialNum ∧
        verifySerialNumber F.serialNumber = true) ∧
      frame.paraString = paraText (rawDnlnkFrame F.text F.text.length past) F.tailPosition := by
  have hraw := rawDnlnkFrame_length hfits past
  have hlt : (rawDnlnkFrame F.text F.text.length past).length < 256 := by
    rw [hraw]
    unfold maxDnlnkFrameSize at hfits
    omega
  have hfields := @fields_at _ past hfits
  obtain ⟨hserial, htail⟩ := @serial_at _ past hfits
  rw [parsed, parseDnlnkFrame_iff hlt]
  constructor
  · intro h
    obtain ⟨-, -, type, hstr, fs, q, r, hfs, hlang, hsn, htext⟩ := h
    have hlss : type = .lss := by
      rw [type_at hfits] at hstr
      cases type with
      | lss => rfl
      | ips => exact absurd hstr (by decide)
      | apn => exact absurd hstr (by decide)
      | scs => exact absurd hstr (by decide)
      | rth => exact absurd hstr (by decide)
    subst hlss
    obtain ⟨_, -, hshape⟩ := frameLang_fields hlang
    have hlen : fs.length = (F.password :: F.args).length := by
      rw [← hshape.length_eq, List.length_cons, F.lengthIs]
      rfl
    obtain ⟨rfl, rfl⟩ := hfs.unique hlt hfields hlen
    obtain ⟨hsame, rfl⟩ := hsn.field.unique hlt hserial
    exact ⟨hlang, ⟨hsame, hsame ▸ hsn.fits, hsame ▸ hsn.digits⟩, htext⟩
  · intro h
    obtain ⟨hlang, ⟨hsame, hfit, hdigits⟩, htext⟩ := h
    refine ⟨?_, ?_, .lss, type_at hfits, _, _, _, hfields, hlang,
      ⟨hsame ▸ hserial, hsame ▸ hfit, hsame ▸ hdigits, htail⟩, htext⟩
    · rw [hraw, text, List.length_append, List.length_append]
      exact Nat.lt_of_lt_of_le (by decide : 0 < FrameHeader.lss.str.length)
        (Nat.le_trans (Nat.le_add_right ..) (Nat.le_add_left ..))
    · rw [header_at hfits]
      exact F.headerIs

end LssFrame

/-! ## The numeric arguments -/

/-- The numeric arguments of `AT@LSS`, in the order of the frame. -/
inductive LssNumber
  | modeSelection
  | continueSendInterval
  | startMode
  | wakeupInterval
  | psmNetHoldTime
  | reportFreq
  | gnssEnable
  | gnssFixDelay
  | agpsMode
  | batLowPercent
  | sensorEnable
  | nonMoveDuration
  deriving DecidableEq, Repr

namespace LssNumber

/-- Where the argument stands, behind the password. -/
def index : LssNumber → Nat
  | modeSelection => 0
  | continueSendInterval => 1
  | startMode => 2
  | wakeupInterval => 4
  | psmNetHoldTime => 5
  | reportFreq => 6
  | gnssEnable => 7
  | gnssFixDelay => 8
  | agpsMode => 9
  | batLowPercent => 10
  | sensorEnable => 15
  | nonMoveDuration => 16

/-- How many characters the field may have. -/
def width : LssNumber → Nat
  | modeSelection => lenLssModeSelect
  | continueSendInterval => lenLssContSendInterval
  | startMode => lenLssStartMode
  | wakeupInterval => lenLssWakeupInterval
  | psmNetHoldTime => lenLssPsmNetHoldTime
  | reportFreq => lenLssReportFreg
  | gnssEnable => lenLssGnssEnable
  | gnssFixDelay => lenLssGnssFixDelay
  | agpsMode => lenLssAgpsMode
  | batLowPercent => lenLssBatLowPercent
  | sensorEnable => lenLssSensorEnable
  | nonMoveDuration => lenLssNonMoveDur

/-- The documented range of the argument. -/
def Range : LssNumber → Nat → Prop
  | modeSelection, n => n ≤ maxLssModeSelect.toNat
  | continueSendInterval, n => n ≤ maxLssContSendInterval.toNat
  | startMode, n => n ≤ maxLssStartMode.toNat
  | wakeupInterval, n => (1 ≤ n ∧ n ≤ 4) ∨ n = 6 ∨ n = 8 ∨ n = 12 ∨ n = 24
  | psmNetHoldTime, n => n ≤ maxLssNetHoldTime.toNat
  | reportFreq, n => minLssReportFreq.toNat ≤ n ∧ n ≤ maxLssReportFreq.toNat
  | gnssEnable, n => n ≤ maxLssGnssEnable.toNat
  | gnssFixDelay, n => minLssGnssFixDelay.toNat ≤ n ∧ n ≤ maxLssGnssFixDelay.toNat
  | agpsMode, n => n ≤ maxLssAgpsMode.toNat
  | batLowPercent, n => n ≤ maxLssBatLowPercent.toNat
  | sensorEnable, n => n ≤ maxLssSensorEnable.toNat
  | nonMoveDuration, n => minLssNonMoveDur.toNat ≤ n ∧ n ≤ maxLssNonMoveDur.toNat

/-- The number stored in the parsed argument. -/
def value (arg : ArgLss) : LssNumber → Nat
  | modeSelection => arg.modeSelection.toNat
  | continueSendInterval => arg.continueSendInterval.toNat
  | startMode => arg.startMode.toNat
  | wakeupInterval => arg.wakeupInterval.toNat
  | psmNetHoldTime => arg.psmNetHoldTime.toNat
  | reportFreq => arg.reportFreq.toNat
  | gnssEnable => arg.gnssEnable.toNat
  | gnssFixDelay => arg.gnssFixDelay.toNat
  | agpsMode => arg.agpsMode.toNat
  | batLowPercent => arg.batLowPercent.toNat
  | sensorEnable => arg.sensorEnable.toNat
  | nonMoveDuration => arg.nonMoveDuration.toNat

/-- The width of the variable the number is assigned to. -/
def bits : LssNumber → Nat
  | continueSendInterval => 16
  | psmNetHoldTime => 32
  | _ => 8

/-- What is left of a number in the variable. -/
def narrow (k : LssNumber) (n : Nat) : Nat := n % 2 ^ k.bits

/-- What the language asks of the field of the argument. -/
def Is (cfg : ConfigLss) (f : List UInt8) (arg : ArgLss) : LssNumber → Prop
  | modeSelection => NumberIs UInt8.ofInt (· ≤ maxLssModeSelect) id cfg.modeSelection f arg.modeSelection
  | continueSendInterval =>
    NumberIs UInt16.ofInt (· ≤ maxLssContSendInterval) id cfg.continueSendInterval f arg.continueSendInterval
  | startMode => NumberIs UInt8.ofInt (· ≤ maxLssStartMode) id cfg.startMode f arg.startMode
  | wakeupInterval => NumberIs UInt8.ofInt legalWakeupInterval id cfg.wakeupInterval f arg.wakeupInterval
  | psmNetHoldTime => NumberIs UInt32.ofInt (· ≤ maxLssNetHoldTime) id cfg.psmNetHoldTime f arg.psmNetHoldTime
  | reportFreq =>
    NumberIs UInt8.ofInt (fun n => minLssReportFreq ≤ n && n ≤ maxLssReportFreq) id cfg.reportFreq f arg.reportFreq
  | gnssEnable => NumberIs UInt8.ofInt (· ≤ maxLssGnssEnable) id cfg.gnssEnable f arg.gnssEnable
  | gnssFixDelay =>
    NumberIs UInt8.ofInt (fun n => minLssGnssFixDelay ≤ n && n ≤ maxLssGnssFixDelay) id cfg.gnssFixDelay f
      arg.gnssFixDelay
  | agpsMode => NumberIs UInt8.ofInt (· ≤ maxLssAgpsMode) id cfg.agpsMode f arg.agpsMode
  | batLowPercent => NumberIs UInt8.ofInt (· ≤ maxLssBatLowPercent) id cfg.batLowPercent f arg.batLowPercent
  | sensorEnable => NumberIs UInt8.ofInt (· ≤ maxLssSensorEnable) id cfg.sensorEnable f arg.sensorEnable
  | nonMoveDuration =>
    NumberIs UInt8.ofInt (fun n => minLssNonMoveDur ≤ n && n ≤ maxLssNonMoveDur) id cfg.nonMoveDuration f
      arg.nonMoveDuration

end LssNumber

/-- The fields of the arguments: each number is one of its argument, and the
time of day is the only text. -/
theorem lss_has_iff {cfg : ConfigLss} {fs : List (List UInt8)} {arg : ArgLss} :
    (lssLang cfg).Has fs arg ↔ fs.length = lssArgs ∧
      (∀ k : LssNumber, FieldFits k.width (fs.getD k.index []) ∧ k.Is cfg (fs.getD k.index []) arg) ∧
      FieldFits lenLssSpecTimeDay (fs.getD 3 []) ∧
      arg.specTimeOfDay = (CharArray.zero maxSpecTimeDayLen).strncpy (fs.getD 3 []) lenLssSpecTimeDay := by
  constructor
  · intro h
    obtain ⟨f0, _, _, rfl, h0, h⟩ := Lang.has_one_bind.1 h
    obtain ⟨f1, _, _, rfl, h1, h⟩ := Lang.has_one_bind.1 h
    obtain ⟨f2, _, _, rfl, h2, h⟩ := Lang.has_one_bind.1 h
    obtain ⟨f3, _, _, rfl, h3, h⟩ := Lang.has_one_bind.1 h
    obtain ⟨f4, _, _, rfl, h4, h⟩ := Lang.has_one_bind.1 h
    obtain ⟨f5, _, _, rfl, h5, h⟩ := Lang.has_one_bind.1 h
    obtain ⟨f6, _, _, rfl, h6, h⟩ := Lang.has_one_bind.1 h
    obtain ⟨f7, _, _, rfl, h7, h⟩ := Lang.has_one_bind.1 h
    obtain ⟨f8, _, _, rfl, h8, h⟩ := Lang.has_one_bind.1 h
    obtain ⟨f9, _, _, rfl, h9, h⟩ := Lang.has_one_bind.1 h
    obtain ⟨f10, _, _, rfl, h10, h⟩ := Lang.has_one_bind.1 h
    obtain ⟨_, us, _, rfl, hus, h⟩ := h
    obtain ⟨f15, _, _, rfl, h15, h⟩ := Lang.has_one_bind.1 h
    obtain ⟨f16, _, _, rfl, h16, h⟩ := Lang.has_one_bind.1 h
    obtain ⟨_, vs, _, rfl, hvs, rfl, rfl⟩ := h
    obtain ⟨u1, u2, u3, u4, rfl⟩ := List.length_eq_four.1 hus
    have hvs : vs.length = 4 := hvs
    refine ⟨by simp [hvs, lssArgs], ?_, h3.1, (Option.some.inj h3.2).symm⟩
    intro k
    cases k with
    | modeSelection => exact h0
    | continueSendInterval => exact h1
    | startMode => exact h2
    | wakeupInterval => exact h4
    | psmNetHoldTime => exact h5
    | reportFreq => exact h6
    | gnssEnable => exact h7
    | gnssFixDelay => exact h8
    | agpsMode => exact h9
    | batLowPercent => exact h10
    | sensorEnable => exact h15
    | nonMoveDuration => exact h16
  · intro h
    obtain ⟨hlen, hk, hfits, htime⟩ := h
    match fs, hlen with
    | [f0, f1, f2, f3, f4, f5, f6, f7, f8, f9, f10, u1, u2, u3, u4, f15, f16, v1, v2, v3, v4], _ =>
      refine Lang.one_bind (hk .modeSelection) ?_
      refine Lang.one_bind (hk .continueSendInterval) ?_
      refine Lang.one_bind (hk .startMode) ?_
      refine Lang.one_bind ⟨hfits, congrArg some htime.symm⟩ ?_
      refine Lang.one_bind (hk .wakeupInterval) ?_
      refine Lang.one_bind (hk .psmNetHoldTime) ?_
      refine Lang.one_bind (hk .reportFreq) ?_
      refine Lang.one_bind (hk .gnssEnable) ?_
      refine Lang.one_bind (hk .gnssFixDelay) ?_
      refine Lang.one_bind (hk .agpsMode) ?_
      refine Lang.one_bind (hk .batLowPercent) ?_
      refine ⟨(), [u1, u2, u3, u4], _, rfl, rfl, ?_⟩
      refine Lang.one_bind (hk .sensorEnable) ?_
      refine Lang.one_bind (hk .nonMoveDuration) ?_
      exact ⟨(), [v1, v2, v3, v4], [], rfl, rfl, Lang.has_pure⟩

/-! ## What a variable holds -/

/-- Digits are a number of the argument when what is left of it in the variable
passes the test, and then that is what is stored. -/
theorem numberIs_digits {β : Type} {ofInt : Int → β} {legal : β → Bool} {current v : β} {toNat : β → Nat} {m : Nat}
    {P : Nat → Prop} (hinj : ∀ {x y}, toNat x = toNat y → x = y) (hof : ∀ n : Nat, toNat (ofInt n) = n % m)
    (hlegal : ∀ x, legal x = true ↔ P (toNat x)) {ds : List UInt8} (hne : ds ≠ [])
    (hds : ∀ c ∈ ds, isDigit c = true) :
    NumberIs ofInt legal id current ds v ↔ P (decimal ds % m) ∧ toNat v = decimal ds % m := by
  unfold NumberIs
  rw [if_neg hne, hlegal, hof, id_eq]
  constructor
  · intro h
    obtain ⟨-, hP, rfl⟩ := h
    exact ⟨hP, hof _⟩
  · intro h
    exact ⟨hds, h.1, hinj (h.2.trans (hof _).symm)⟩

theorem toNat_ofInt_u16 (n : Nat) : (UInt16.ofInt (n : Int)).toNat = n % 65536 := by
  simp only [UInt16.ofInt, UInt16.toNat_ofNat']
  omega

theorem legalWakeupInterval_iff (x : UInt8) : legalWakeupInterval x = true ↔
    LssNumber.Range .wakeupInterval x.toNat := by
  simp only [legalWakeupInterval, Bool.or_eq_true, Bool.and_eq_true, decide_eq_true_iff, beq_iff_eq,
    UInt8.le_iff_toNat_le, ← UInt8.toNat_inj, or_assoc]
  rfl

theorem numberIs_upTo {hi current v : UInt8} {ds : List UInt8} (hne : ds ≠ []) (hds : ∀ c ∈ ds, isDigit c = true) :
    NumberIs UInt8.ofInt (· ≤ hi) id current ds v ↔ decimal ds % 256 ≤ hi.toNat ∧ v.toNat = decimal ds % 256 := by
  refine numberIs_digits (P := fun n => n ≤ hi.toNat) UInt8.toNat_inj.1 toNat_ofInt_u8 (fun x => ?_) hne hds
  rw [decide_eq_true_iff, UInt8.le_iff_toNat_le]

theorem numberIs_between {lo hi current v : UInt8} {ds : List UInt8} (hne : ds ≠ [])
    (hds : ∀ c ∈ ds, isDigit c = true) :
    NumberIs UInt8.ofInt (fun n => lo ≤ n && n ≤ hi) id current ds v ↔
      (lo.toNat ≤ decimal ds % 256 ∧ decimal ds % 256 ≤ hi.toNat) ∧ v.toNat = decimal ds % 256 := by
  refine numberIs_digits (P := fun n => lo.toNat ≤ n ∧ n ≤ hi.toNat) UInt8.toNat_inj.1 toNat_ofInt_u8 (fun x => ?_)
    hne hds
  rw [Bool.and_eq_true, decide_eq_true_iff, decide_eq_true_iff, UInt8.le_iff_toNat_le, UInt8.le_iff_toNat_le]

namespace LssNumber

variable {cfg : ConfigLss} {arg : ArgLss} {k : LssNumber} {ds : List UInt8} {n : Nat}

theorem is_digits_iff (hne : ds ≠ []) (hds : ∀ c ∈ ds, isDigit c = true) :
    k.Is cfg ds arg ↔ k.Range (k.narrow (decimal ds)) ∧ k.value arg = k.narrow (decimal ds) := by
  cases k with
  | modeSelection => exact numberIs_upTo hne hds
  | continueSendInterval =>
    have hlegal (x : UInt16) : decide (x ≤ maxLssContSendInterval) = true ↔
        Range .continueSendInterval x.toNat := decide_eq_true_iff.trans UInt16.le_iff_toNat_le
    exact numberIs_digits UInt16.toNat_inj.1 toNat_ofInt_u16 hlegal hne hds
  | startMode => exact numberIs_upTo hne hds
  | wakeupInterval => exact numberIs_digits UInt8.toNat_inj.1 toNat_ofInt_u8 legalWakeupInterval_iff hne hds
  | psmNetHoldTime =>
    have hlegal (x : UInt32) : decide (x ≤ maxLssNetHoldTime) = true ↔
        Range .psmNetHoldTime x.toNat := decide_eq_true_iff.trans UInt32.le_iff_toNat_le
    exact numberIs_digits UInt32.toNat_inj.1 toNat_ofInt_u32 hlegal hne hds
  | reportFreq => exact numberIs_between hne hds
  | gnssEnable => exact numberIs_upTo hne hds
  | gnssFixDelay => exact numberIs_between hne hds
  | agpsMode => exact numberIs_upTo hne hds
  | batLowPercent => exact numberIs_upTo hne hds
  | sensorEnable => exact numberIs_upTo hne hds
  | nonMoveDuration => exact numberIs_between hne hds

/-- A number in the range of the argument is not changed in the variable. -/
theorem narrow_of_range (h : k.Range n) : k.narrow n = n := by
  cases k <;>
  · simp only [Range, maxLssModeSelect, maxLssContSendInterval, maxLssStartMode, maxLssNetHoldTime,
      minLssReportFreq, maxLssReportFreq, maxLssGnssEnable, minLssGnssFixDelay, maxLssGnssFixDelay, maxLssAgpsMode,
      maxLssBatLowPercent, maxLssSensorEnable, minLssNonMoveDur, maxLssNonMoveDur, UInt8.reduceToNat,
      UInt16.reduceToNat, UInt32.reduceToNat] at h
    simp only [narrow, bits]
    omega

/-- The arguments of three digits in 8 bits. -/
def Wide (k : LssNumber) : Prop := k = .reportFreq ∨ k = .nonMoveDuration

/-- A number out of range that 8 bits turn into one in range. -/
def Wraps (n : Nat) : Prop := (257 ≤ n ∧ n ≤ 356) ∨ (513 ≤ n ∧ n ≤ 612) ∨ (769 ≤ n ∧ n ≤ 868)

/-- Which numbers that fit the field come out of the variable as another one in range. -/
theorem wraps_iff (hn : n < 10 ^ k.width) : k.Range (k.narrow n) ∧ k.narrow n ≠ n ↔ k.Wide ∧ Wraps n := by
  have hexact (hlt : 10 ^ k.width ≤ 2 ^ k.bits) (hk : ¬ k.Wide) :
      k.Range (k.narrow n) ∧ k.narrow n ≠ n ↔ k.Wide ∧ Wraps n :=
    ⟨fun h => absurd (Nat.mod_eq_of_lt (Nat.lt_of_lt_of_le hn hlt)) h.2, fun h => absurd h.1 hk⟩
  have hwide (h : k.Wide) : k.Range (k.narrow n) ∧ k.narrow n ≠ n ↔ k.Wide ∧ Wraps n := by
    have hrange : k.Range (k.narrow n) ↔ 1 ≤ n % 256 ∧ n % 256 ≤ 100 := by
      rcases h with rfl | rfl <;> exact Iff.rfl
    have hnarrow : k.narrow n = n % 256 := by
      rcases h with rfl | rfl <;> rfl
    have hlt : n < 1000 := by
      rcases h with rfl | rfl <;> exact hn
    rw [hrange, hnarrow, and_iff_right h]
    unfold Wraps
    omega
  cases k with
  | reportFreq => exact hwide (.inl rfl)
  | nonMoveDuration => exact hwide (.inr rfl)
  | modeSelection => exact hexact (by decide) (by simp [Wide])
  | continueSendInterval => exact hexact (by decide) (by simp [Wide])
  | startMode => exact hexact (by decide) (by simp [Wide])
  | wakeupInterval => exact hexact (by decide) (by simp [Wide])
  | psmNetHoldTime => exact hexact (by decide) (by simp [Wide])
  | gnssEnable => exact hexact (by decide) (by simp [Wide])
  | gnssFixDelay => exact hexact (by decide) (by simp [Wide])
  | agpsMode => exact hexact (by decide) (by simp [Wide])
  | batLowPercent => exact hexact (by decide) (by simp [Wide])
  | sensorEnable => exact hexact (by decide) (by simp [Wide])

/-- The arguments with another number in one of them. -/
def put (m : Nat) (arg : ArgLss) : LssNumber → ArgLss
  | modeSelection => { arg with modeSelection := m.toUInt8 }
  | continueSendInterval => { arg with continueSendInterval := m.toUInt16 }
  | startMode => { arg with startMode := m.toUInt8 }
  | wakeupInterval => { arg with wakeupInterval := m.toUInt8 }
  | psmNetHoldTime => { arg with psmNetHoldTime := m.toUInt32 }
  | reportFreq => { arg with reportFreq := m.toUInt8 }
  | gnssEnable => { arg with gnssEnable := m.toUInt8 }
  | gnssFixDelay => { arg with gnssFixDelay := m.toUInt8 }
  | agpsMode => { arg with agpsMode := m.toUInt8 }
  | batLowPercent => { arg with batLowPercent := m.toUInt8 }
  | sensorEnable => { arg with sensorEnable := m.toUInt8 }
  | nonMoveDuration => { arg with nonMoveDuration := m.toUInt8 }

theorem value_put (m : Nat) (arg : ArgLss) : k.value (k.put m arg) = k.narrow m := by
  cases k <;> rfl

theorem specTimeOfDay_put (m : Nat) (arg : ArgLss) : (k.put m arg).specTimeOfDay = arg.specTimeOfDay := by
  cases k <;> rfl

/-- The other arguments stay. -/
theorem is_put {j : LssNumber} (hne : j ≠ k) {m : Nat} {f : List UInt8} :
    j.Is cfg f (k.put m arg) ↔ j.Is cfg f arg := by
  cases j <;> cases k <;> first
    | exact Iff.rfl
    | exact absurd rfl hne

theorem index_inj {j : LssNumber} (h : j.index = k.index) : j = k := by
  cases j <;> cases k <;> first
    | rfl
    | exact absurd h (by decide)

theorem index_lt (k : LssNumber) : k.index < lssArgs ∧ k.index ≠ 3 := by
  cases k <;> decide

theorem width_pos (k : LssNumber) : 0 < k.width := by
  cases k <;> decide

end LssNumber

/-- Digits in place of an empty field: they are taken when they fit the field
and what is left of them in the variable is in range. -/
theorem lss_has_put {cfg : ConfigLss} {args : List (List UInt8)} {arg : ArgLss} {k : LssNumber} {ds : List UInt8}
    (hrest : (lssLang cfg).Has (args.set k.index []) arg) (hds : args.getD k.index [] = ds ∧ ds.length ≤ k.width)
    (his : k.Is cfg ds (k.put (decimal ds) arg)) : (lssLang cfg).Has args (k.put (decimal ds) arg) := by
  obtain ⟨hlen, hk, hfits, htime⟩ := lss_has_iff.1 hrest
  have hother {i : Nat} (hi : i ≠ k.index) : (args.set k.index []).getD i [] = args.getD i [] := by
    simp [List.getElem?_set_ne hi.symm]
  rw [hother k.index_lt.2.symm] at hfits htime
  refine lss_has_iff.2 ⟨by simpa using hlen, fun j => ?_, hfits, ?_⟩
  · by_cases hj : j = k
    · rw [hj, hds.1]
      exact ⟨.inr hds.2, his⟩
    · have h := hk j
      rw [hother fun hi => hj (LssNumber.index_inj hi)] at h
      exact ⟨h.1, (LssNumber.is_put hj).2 h.2⟩
  · rw [LssNumber.specTimeOfDay_put, htime]

theorem frame_lss_has {cfg : Config} {password : List UInt8} {args : List (List UInt8)} {v : List UInt8 × DnlnkArg} :
    (frameLang cfg .lss).Has (password :: args) v ↔
      (FieldFits lenScsPassword password ∧
        (if passwordMatch cfg.scs.devPassword password then some password else none) = some v.1) ∧
      ∃ arg, (lssLang cfg.lss).Has args arg ∧ v.2 = .lss arg := by
  constructor
  · intro h
    obtain ⟨_, _, _, heq, hp, arg, _, _, rfl, harg, rfl, rfl⟩ := Lang.has_one_bind.1 h
    obtain ⟨rfl, rfl⟩ := List.cons.inj heq
    exact ⟨hp, arg, by rwa [List.append_nil], rfl⟩
  · intro h
    obtain ⟨hp, arg, harg, hv⟩ := h
    exact Lang.one_bind hp ⟨arg, args, [], (List.append_nil _).symm, harg, rfl, Prod.ext rfl hv⟩

theorem length_joined_set (fs : List (List UInt8)) (i : Nat) :
    (joined (fs.set i [])).length ≤ (joined fs).length := by
  induction fs generalizing i with
  | nil => exact Nat.le_refl _
  | cons f fs ih =>
    cases i with
    | zero => simp [joined_cons]
    | succ i =>
      rw [List.set_cons_succ, joined_cons, joined_cons, List.length_append, List.length_append, List.length_cons,
        List.length_cons]
      exact Nat.add_le_add_left (Nat.succ_le_succ (ih i)) _

/-! ## What is taken -/

namespace LssFrame

variable {F : LssFrame} {cfg : Config} {past : Nat → UInt8} {k : LssNumber} {ds : List UInt8}

/-- The frame is valid but for the field of one argument: with nothing in that
field it is accepted. -/
def OtherwiseValid (F : LssFrame) (cfg : Config) (past : Nat → UInt8) (k : LssNumber) : Prop :=
  ((F.withArg k.index [] fun _ hc => absurd hc List.not_mem_nil).parsed cfg past).isSome = true

/-- The frame is accepted exactly when the number is in the range of the
argument, and what is stored is the number. -/
def NumberTaken (F : LssFrame) (cfg : Config) (past : Nat → UInt8) (k : LssNumber) (n : Nat) : Prop :=
  ((F.parsed cfg past).isSome = true ↔ k.Range n) ∧
    ∀ frame, F.parsed cfg past = some frame → ∃ arg, frame.arg = .lss arg ∧ k.value arg = n

theorem withArg_fits (hfits : F.text.length ≤ maxDnlnkFrameSize) (i : Nat) :
    (F.withArg i [] fun _ hc => absurd hc List.not_mem_nil).text.length ≤ maxDnlnkFrameSize := by
  refine Nat.le_trans ?_ hfits
  have := length_joined_set F.args i
  simp only [text, withArg, List.length_append, joined_cons, List.length_cons]
  omega

/-- What the parser stores of digits in the field of an argument. -/
theorem parsed_number (hfits : F.text.length ≤ maxDnlnkFrameSize) (hds : F.args.getD k.index [] = ds) (hne : ds ≠ [])
    (hdig : ∀ c ∈ ds, isDigit c = true) {frame : ParsedFrame} (h : F.parsed cfg past = some frame) :
    (ds.length ≤ k.width ∧ k.Range (k.narrow (decimal ds))) ∧
      ∃ arg, frame.arg = .lss arg ∧ k.value arg = k.narrow (decimal ds) := by
  obtain ⟨hlang, -⟩ := (parsed_iff hfits).1 h
  obtain ⟨-, arg, harg, hframe⟩ := frame_lss_has.1 hlang
  obtain ⟨hwidth, his⟩ := (lss_has_iff.1 harg).2.1 k
  rw [hds] at hwidth his
  obtain ⟨hrange, hvalue⟩ := (LssNumber.is_digits_iff hne hdig).1 his
  have hpos := k.width_pos
  exact ⟨⟨hwidth.resolve_left (by omega), hrange⟩, arg, hframe, hvalue⟩

/-- **When digits are accepted**: when there are not too many of them and what
the variable holds of the number is in range. -/
theorem accepted_iff (hfits : F.text.length ≤ maxDnlnkFrameSize) (hvalid : F.OtherwiseValid cfg past k)
    (hds : F.args.getD k.index [] = ds) (hne : ds ≠ []) (hdig : ∀ c ∈ ds, isDigit c = true) :
    (F.parsed cfg past).isSome = true ↔ ds.length ≤ k.width ∧ k.Range (k.narrow (decimal ds)) := by
  constructor
  · intro h
    obtain ⟨frame, hframe⟩ := Option.isSome_iff_exists.1 h
    exact (parsed_number hfits hds hne hdig hframe).1
  · intro h
    obtain ⟨frame, hframe⟩ := Option.isSome_iff_exists.1 hvalid
    obtain ⟨hlang, hserial, -⟩ := (parsed_iff (withArg_fits hfits _)).1 hframe
    obtain ⟨hp, arg, harg, -⟩ := frame_lss_has.1 hlang
    have his : k.Is cfg.lss ds (k.put (decimal ds) arg) :=
      (LssNumber.is_digits_iff hne hdig).2 ⟨h.2, LssNumber.value_put _ _⟩
    have hput := lss_has_put harg ⟨hds, h.1⟩ his
    exact Option.isSome_iff_exists.2 ⟨⟨frame.password, .lss (k.put (decimal ds) arg), frame.serialNumber, _⟩,
      (parsed_iff hfits).2 ⟨frame_lss_has.2 ⟨hp, _, hput, rfl⟩, hserial, rfl⟩⟩

end LssFrame

/-- **Which numbers are taken as documented**: digits that are not too many for
the field, or denote a number out of range, and that are no three digits of a
report frequency or a non-movement duration which 8 bits turn into a number in
range. -/
theorem number_taken_iff {F : LssFrame} {cfg : Config} {past : Nat → UInt8} {k : LssNumber} {ds : List UInt8}
    (hfits : F.text.length ≤ maxDnlnkFrameSize) (hvalid : F.OtherwiseValid cfg past k)
    (hds : F.args.getD k.index [] = ds) (hne : ds ≠ []) (hdig : ∀ c ∈ ds, isDigit c = true) :
    F.NumberTaken cfg past k (decimal ds) ↔
      (ds.length ≤ k.width ∨ ¬ k.Range (decimal ds)) ∧
      ¬ (k.Wide ∧ ds.length ≤ k.width ∧ LssNumber.Wraps (decimal ds)) := by
  have haccept := LssFrame.accepted_iff hfits hvalid hds hne hdig
  have hlt (h : ds.length ≤ k.width) : decimal ds < 10 ^ k.width :=
    Nat.lt_of_lt_of_le (decimal_lt hdig) (Nat.pow_le_pow_right (by omega) h)
  unfold LssFrame.NumberTaken
  constructor
  · intro h
    obtain ⟨hrange, hstored⟩ := h
    rw [haccept] at hrange
    refine ⟨?_, fun hw => ?_⟩
    · by_cases hr : k.Range (decimal ds)
      · exact .inl (hrange.2 hr).1
      · exact .inr hr
    · -- the frame is accepted, with another number
      obtain ⟨hin, hchanged⟩ := (LssNumber.wraps_iff (hlt hw.2.1)).2 ⟨hw.1, hw.2.2⟩
      obtain ⟨frame, hframe⟩ := Option.isSome_iff_exists.1 (haccept.2 ⟨hw.2.1, hin⟩)
      obtain ⟨arg, harg, hvalue⟩ := hstored frame hframe
      obtain ⟨-, arg', harg', hvalue'⟩ := LssFrame.parsed_number hfits hds hne hdig hframe
      obtain rfl : arg = arg' := by simpa using harg.symm.trans harg'
      exact hchanged (hvalue'.symm.trans hvalue)
  · intro h
    obtain ⟨hfit, hwrap⟩ := h
    have hsame (hlen : ds.length ≤ k.width) (hin : k.Range (k.narrow (decimal ds))) :
        k.narrow (decimal ds) = decimal ds := by
      by_contra hne
      obtain ⟨hwide, hw⟩ := (LssNumber.wraps_iff (hlt hlen)).1 ⟨hin, hne⟩
      exact hwrap ⟨hwide, hlen, hw⟩
    refine ⟨?_, fun frame hframe => ?_⟩
    · rw [haccept]
      constructor
      · intro h
        have hin := h.2
        rwa [hsame h.1 hin] at hin
      · intro hr
        exact ⟨hfit.resolve_right (not_not_intro hr), by rwa [LssNumber.narrow_of_range hr]⟩
    · obtain ⟨⟨hlen, hin⟩, arg, harg, hvalue⟩ := LssFrame.parsed_number hfits hds hne hdig hframe
      exact ⟨arg, harg, hvalue.trans (hsame hlen hin)⟩

/-- `AT@LSS=btlink,,,,,,,300,,,,,,,,,,,,,,,0001#`: a report frequency of 300. -/
def frequencyFrame : LssFrame where
  header := dnlnkHeader
  skipped := equalsChar
  password := superPassword
  args := (List.replicate lssArgs []).set 6 (ascii "300")
  serialNumber := ascii "0001"
  extra := []
  rest := []
  headerIs := .inl rfl
  skippedIs := by decide
  lengthIs := rfl
  fieldsText := by decide +kernel
  serialText := by decide +kernel
  extraIs := .inl rfl
  restText := by decide

/-- A frequency of 300 is accepted and stored as 44. -/
theorem frequency_wraps :
    frequencyFrame.text.length ≤ maxDnlnkFrameSize ∧ frequencyFrame.OtherwiseValid zeroConfig (fun _ => 0) .reportFreq ∧
    frequencyFrame.args.getD LssNumber.reportFreq.index [] = ascii "300" ∧ decimal (ascii "300") = 300 ∧
    ¬ LssNumber.Range .reportFreq 300 ∧
    (∃ frame arg, frequencyFrame.parsed zeroConfig (fun _ => 0) = some frame ∧ frame.arg = .lss arg ∧
      arg.reportFreq = 44) ∧
    ¬ frequencyFrame.NumberTaken zeroConfig (fun _ => 0) .reportFreq 300 := by
  have hfits : frequencyFrame.text.length ≤ maxDnlnkFrameSize := by decide +kernel
  have hvalid : frequencyFrame.OtherwiseValid zeroConfig (fun _ => 0) .reportFreq := by
    unfold LssFrame.OtherwiseValid
    decide +kernel
  have hrange : ¬ LssNumber.Range .reportFreq 300 := fun h => absurd h.2 (by decide)
  have haccept : (frequencyFrame.parsed zeroConfig fun _ => 0).isSome = true := by decide +kernel
  obtain ⟨frame, hframe⟩ := Option.isSome_iff_exists.1 haccept
  obtain ⟨-, arg, harg, hvalue⟩ := @LssFrame.parsed_number _ _ _ .reportFreq (ascii "300") hfits rfl (by decide)
    (by decide +kernel) frame hframe
  exact ⟨hfits, hvalid, rfl, rfl, hrange, ⟨frame, arg, hframe, harg, UInt8.toNat_inj.1 hvalue⟩,
    fun h => hrange (h.1.1 haccept)⟩

theorem number_taken_iff_frequency :
    frequencyFrame.NumberTaken zeroConfig (fun _ => 0) .reportFreq 300 ↔
      (3 ≤ 3 ∨ ¬ LssNumber.Range .reportFreq 300) ∧
      ¬ (LssNumber.Wide .reportFreq ∧ 3 ≤ 3 ∧ LssNumber.Wraps 300) :=
  @number_taken_iff frequencyFrame zeroConfig (fun _ => 0) .reportFreq (ascii "300") (by decide +kernel)
    (by unfold LssFrame.OtherwiseValid; decide +kernel) rfl (by decide) (by decide +kernel)

end Petbox.Tracker
