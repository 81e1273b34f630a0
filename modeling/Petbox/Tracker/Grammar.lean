/-
The language of each frame type: which fields `btlink_parse_dnlnk_frame` takes,
and what it makes of them. A language is written like the parser it is read
by, and the two are shown to agree in both directions, so that what follows is
about lists of fields and no more about positions.
-/
import Petbox.Tracker.Fields
import Petbox.Tracker.Password
import Petbox.Lib.Reader

namespace Petbox.Tracker

open CStr Mem Reader

/-! ## One field -/

/-- A field within its maximum length; 0 stands for a reserved field, which may have any. -/
def FieldFits (maxLen : Nat) (f : List UInt8) : Prop := maxLen = 0 ∨ f.length ≤ maxLen

/-- The loop stops where the field does. -/
theorem fieldLoop_eq {raw : RawFrame} {p n : Nat} {f : List UInt8} (hcells : slice raw.data p f.length = f)
    (htext : FieldText f) (hin : p + f.length ≤ max p raw.length)
    (hstop : raw.length ≤ p + f.length ∨ raw.data (p + f.length) = chrSeparator ∨
      raw.data (p + f.length) = chrTail) (hn : f.length ≤ n) :
    fieldLoop raw chrSeparator chrTail n p = f := by
  induction f generalizing p n with
  | nil =>
    cases n with
    | zero => rfl
    | succ n =>
      unfold fieldLoop
      refine if_neg fun h => ?_
      rcases hstop with hs | hs | hs
      · exact absurd h.1 (Nat.not_lt.2 hs)
      · exact h.2.1 hs
      · exact h.2.2.1 hs
  | cons c f ih =>
    obtain ⟨n, rfl⟩ : ∃ m, n = m + 1 := ⟨n - 1, by simp only [List.length_cons] at hn; omega⟩
    rw [List.length_cons, slice_succ] at hcells
    obtain ⟨hc, hcells⟩ := List.cons.inj hcells
    have hne := htext c (List.mem_cons_self ..)
    simp only [List.length_cons] at hin hstop hn
    unfold fieldLoop
    rw [if_pos ⟨by omega, hc ▸ hne⟩, hc, ih hcells (fun x hx => htext x (List.mem_cons_of_mem _ hx)) (by omega)
      (by rw [show p + 1 + f.length = p + (f.length + 1) by omega]; exact hstop) (by omega)]

/-- There is room for a field that fits. -/
theorem FieldFits.room {raw : RawFrame} (hraw : raw.length < 256) {maxLen p : Nat} {f : List UInt8}
    (hfits : FieldFits maxLen f) (hin : p + f.length ≤ max p raw.length) : f.length ≤ fieldMaxLength raw maxLen p := by
  unfold fieldMaxLength
  split
  · next hz =>
    cases f with
    | nil => exact Nat.zero_le _
    | cons c f =>
      simp only [List.length_cons] at hin ⊢
      rw [show 256 + raw.length - p = 256 + (raw.length - p) by omega, Nat.add_mod_left,
        Nat.mod_eq_of_lt (by omega)]
      omega
  · next hz => exact hfits.resolve_left hz

/-- A field is read exactly when it stands there and is not too long. -/
theorem getFrameField_iff {raw : RawFrame} (hraw : raw.length < 256) {maxLen p q : Nat} {f : List UInt8} :
    getFrameField raw maxLen chrSeparator chrTail p = some (f, q) ↔ FieldAt raw p f q ∧ FieldFits maxLen f := by
  constructor
  · intro h
    obtain ⟨hat, hlen⟩ := getFrameField_some h
    refine ⟨hat, ?_⟩
    rcases Nat.eq_zero_or_pos maxLen with hz | hpos
    · exact .inl hz
    · exact .inr (hlen hpos)
  · intro h
    obtain ⟨hat, hfits⟩ := h
    have hloop : fieldLoop raw chrSeparator chrTail (fieldMaxLength raw maxLen p) p = f :=
      fieldLoop_eq hat.cells hat.text hat.inside (.inr (hat.stop.imp (fun h => h.2.1) fun h => h.1))
        (hfits.room hraw hat.inside)
    simp only [getFrameField, hloop]
    rcases hat.stop with ⟨hlt, hsep, rfl⟩ | ⟨htail, rfl⟩
    · rw [if_pos ⟨hlt, hsep⟩]
    · have hne : ¬ (p + f.length < raw.length ∧ raw.data (p + f.length) = chrSeparator) := by
        intro h
        rw [htail] at h
        exact absurd h.2 (by decide)
      rw [if_neg hne, if_pos htail]

/-- What stands at a place is one field. -/
theorem FieldAt.unique {raw : RawFrame} (hraw : raw.length < 256) {p q q' : Nat} {f f' : List UInt8}
    (h : FieldAt raw p f q) (h' : FieldAt raw p f' q') : f = f' ∧ q = q' := by
  have hread := (getFrameField_iff hraw).2 ⟨h, .inl (rfl : 0 = 0)⟩
  rw [(getFrameField_iff hraw).2 ⟨h', .inl rfl⟩, Option.some.injEq, Prod.mk.injEq] at hread
  exact ⟨hread.1.symm, hread.2.symm⟩

theorem fields_iff_chain {raw : RawFrame} {p q : Nat} {fs : List (List UInt8)} :
    Fields raw p fs q ↔ Chain (FieldAt raw) p fs q := by
  constructor
  · intro h
    induction h with
    | nil p => exact .nil p
    | cons hf _ ih => exact .cons hf ih
  · intro h
    induction h with
    | nil p => exact .nil p
    | cons hf _ ih => exact .cons hf ih

/-- As many fields from one place on are the same. -/
theorem Fields.unique {raw : RawFrame} (hraw : raw.length < 256) {p q q' : Nat} {fs fs' : List (List UInt8)}
    (h : Fields raw p fs q) (h' : Fields raw p fs' q') (hlen : fs.length = fs'.length) : fs = fs' ∧ q = q' :=
  Chain.unique (fun _ _ _ _ _ hf hf' => hf.unique hraw hf') (fields_iff_chain.1 h) (fields_iff_chain.1 h') hlen

/-! ## The languages -/

/-- A language of fields. -/
abbrev FieldLang (β : Type) := Lang (List UInt8) β

/-- A field of at most so many characters that passes its check. -/
def fieldLang {β : Type} (maxLen : Nat) (check : List UInt8 → Option β) : FieldLang β :=
  .one fun f v => FieldFits maxLen f ∧ check f = some v

/-- A string argument. -/
def stringLang (maxLen n : Nat) : FieldLang (CharArray n) :=
  fieldLang maxLen fun field => some ((CharArray.zero n).strncpy field maxLen)

/-- What an empty field, or the digits of another, stand for in a numeric argument. -/
def NumberIs {β γ : Type} (ofInt : Int → β) (legal : β → Bool) (store : β → γ) (current : γ) (f : List UInt8) (v : γ) :
    Prop :=
  if f = [] then v = current
  else (∀ c ∈ f, isDigit c = true) ∧ legal (ofInt (decimal f : Nat)) = true ∧ v = store (ofInt (decimal f : Nat))

/-- A numeric argument. -/
def numberLang {β γ : Type} (maxLen : Nat) (ofInt : Int → β) (legal : β → Bool) (store : β → γ) (current : γ) :
    FieldLang γ :=
  .one fun f v => FieldFits maxLen f ∧ NumberIs ofInt legal store current f v

def hostLang (cfg : ConfigServer) (arg : ArgServer) : FieldLang ArgServer :=
  fieldLang lenIpsHost fun buffer => if buffer = [] then some (hostFromConfig cfg arg) else hostFromField buffer arg

def portLang (cfg : ConfigServer) (arg : ArgServer) : FieldLang ArgServer := do
  let port ← numberLang lenIpsPort UInt32.ofInt (· ≤ maxIpsPort) UInt32.toUInt16 cfg.sock.port
  pure { arg with sock := { arg.sock with port } }

/-- The arguments of `AT@IPS`. -/
def ipsLang (cfg : ConfigIps) : FieldLang ArgIps := do
  let reportMode ← numberLang lenIpsReportMode UInt8.ofInt (· ≤ maxIpsReportMode) id cfg.reportMode
  let bufferMode ← numberLang lenIpsBufferMode UInt8.ofInt (· ≤ maxIpsBufferMode) id cfg.bufferMode
  Lang.any 2
  let pri ← hostLang cfg.pri zeroArgServer
  let pri ← portLang cfg.pri pri
  let sec ← hostLang cfg.sec zeroArgServer
  let sec ← portLang cfg.sec sec
  Lang.any 6
  pure { reportMode, bufferMode, pri, sec }

def apnRecordLang : FieldLang ApnRecord := do
  let mccMnc ← stringLang lenApnMccMnc maxMccMncLen
  let apnName ← stringLang lenApnName maxApnLen
  let apnUserName ← stringLang lenApnUserName maxApnUserNameLen
  let apnPassword ← stringLang lenApnPassword maxApnPasswordLen
  pure { mccMnc, apnName, apnUserName, apnPassword }

def apnRecordsLang : Nat → FieldLang (List ApnRecord)
  | 0 => pure []
  | n + 1 => do
    let record ← apnRecordLang
    let records ← apnRecordsLang n
    pure (record :: records)

/-- The arguments of `AT@APN`. -/
def apnLang (cfg : ConfigApn) : FieldLang ArgApn := do
  let apnQuantity ← numberLang lenApnNums UInt16.ofInt (· ≤ maxApnNums) UInt16.toUInt8 cfg.apnQuantity
  let records ← apnRecordsLang apnQuantity.toNat
  Lang.any 4
  pure { apnQuantity, first := records.getD 0 zeroRecord, second := records.getD 1 zeroRecord }

/-- A password that opens the tracker. -/
def passwordLang (devPassword : CharArray lenScsPassword) : FieldLang (List UInt8) :=
  fieldLang lenScsPassword fun field => if passwordMatch devPassword field then some field else none

/-- The password and the arguments of `AT@SCS`. -/
def scsLang (cfg : ConfigScs) : FieldLang (List UInt8 × ArgScs) := do
  let password ← passwordLang cfg.devPassword
  let devPassword ← fieldLang lenScsPassword checkNewPassword
  let dataZoneMask ← fieldLang lenScsDataZoneMask (checkDataZoneMask cfg.dataZoneMask)
  Lang.any 4
  pure (password, { devPassword, dataZoneMask })

/-- The arguments of `AT@LSS`. -/
def lssLang (cfg : ConfigLss) : FieldLang ArgLss := do
  let modeSelection ← numberLang lenLssModeSelect UInt8.ofInt (· ≤ maxLssModeSelect) id cfg.modeSelection
  let continueSendInterval ← numberLang lenLssContSendInterval UInt16.ofInt
    (· ≤ maxLssContSendInterval) id cfg.continueSendInterval
  let startMode ← numberLang lenLssStartMode UInt8.ofInt (· ≤ maxLssStartMode) id cfg.startMode
  let specTimeOfDay ← stringLang lenLssSpecTimeDay maxSpecTimeDayLen
  let wakeupInterval ← numberLang lenLssWakeupInterval UInt8.ofInt legalWakeupInterval id cfg.wakeupInterval
  let psmNetHoldTime ← numberLang lenLssPsmNetHoldTime UInt32.ofInt (· ≤ maxLssNetHoldTime) id cfg.psmNetHoldTime
  let reportFreq ← numberLang lenLssReportFreg UInt8.ofInt
    (fun n => minLssReportFreq ≤ n && n ≤ maxLssReportFreq) id cfg.reportFreq
  let gnssEnable ← numberLang lenLssGnssEnable UInt8.ofInt (· ≤ maxLssGnssEnable) id cfg.gnssEnable
  let gnssFixDelay ← numberLang lenLssGnssFixDelay UInt8.ofInt
    (fun n => minLssGnssFixDelay ≤ n && n ≤ maxLssGnssFixDelay) id cfg.gnssFixDelay
  let agpsMode ← numberLang lenLssAgpsMode UInt8.ofInt (· ≤ maxLssAgpsMode) id cfg.agpsMode
  let batLowPercent ← numberLang lenLssBatLowPercent UInt8.ofInt (· ≤ maxLssBatLowPercent) id cfg.batLowPercent
  Lang.any 4
  let sensorEnable ← numberLang lenLssSensorEnable UInt8.ofInt (· ≤ maxLssSensorEnable) id cfg.sensorEnable
  let nonMoveDuration ← numberLang lenLssNonMoveDur UInt8.ofInt
    (fun n => minLssNonMoveDur ≤ n && n ≤ maxLssNonMoveDur) id cfg.nonMoveDuration
  Lang.any 4
  pure
    { modeSelection, continueSendInterval, startMode, specTimeOfDay, wakeupInterval, psmNetHoldTime,
      reportFreq, gnssEnable, gnssFixDelay, agpsMode, batLowPercent, sensorEnable, nonMoveDuration }

/-- The arguments of `AT@RTH`. -/
def rthLang : FieldLang UInt8 := do
  let subCommand ← fieldLang lenRthSubCommand (checkNumber lenRthSubCommand UInt8.ofInt (· ≤ maxRthSubCommand) id)
  Lang.any 4
  pure subCommand

/-- The fields between the `=` and the serial number: the password and the arguments. -/
def frameLang (cfg : Config) : FrameHeader → FieldLang (List UInt8 × DnlnkArg)
  | .ips => do
    let password ← passwordLang cfg.scs.devPassword
    let arg ← ipsLang cfg.ips
    pure (password, .ips arg)
  | .apn => do
    let password ← passwordLang cfg.scs.devPassword
    let arg ← apnLang cfg.apn
    pure (password, .apn arg)
  | .scs => do
    let r ← scsLang cfg.scs
    pure (r.1, .scs r.2)
  | .lss => do
    let password ← passwordLang cfg.scs.devPassword
    let arg ← lssLang cfg.lss
    pure (password, .lss arg)
  | .rth => do
    let password ← passwordLang cfg.scs.devPassword
    let subCommand ← rthLang
    pure (password, .rth subCommand)

/-! ## The parsers read their languages -/

section Read

variable {raw : RawFrame} (hraw : raw.length < 256)

include hraw

theorem reads_argField {β : Type} (maxLen : Nat) (check : List UInt8 → Option β) :
    Reads (FieldAt raw) (argField raw maxLen check) (fieldLang maxLen check) := by
  refine Reads.one fun p v q => ?_
  rw [argField_some_iff]
  constructor
  · intro h
    obtain ⟨f, hf, hc⟩ := h
    obtain ⟨hat, hfits⟩ := (getFrameField_iff hraw).1 hf
    exact ⟨f, hat, hfits, hc⟩
  · intro h
    obtain ⟨f, hat, hfits, hc⟩ := h
    exact ⟨f, (getFrameField_iff hraw).2 ⟨hat, hfits⟩, hc⟩

theorem reads_argString (maxLen n : Nat) : Reads (FieldAt raw) (argString raw maxLen n) (stringLang maxLen n) :=
  reads_argField hraw maxLen _

omit hraw in
/-- The check of a numeric argument accepts digits within the limits. -/
theorem numberCheck_iff {β γ : Type} {maxLen : Nat} {ofInt : Int → β} {legal : β → Bool} {store : β → γ}
    {current v : γ} {f : List UInt8} (hpos : 0 < maxLen) (hmax : maxLen ≤ 9) (hf : f.length ≤ maxLen) :
    (if f = [] then some current else checkNumber maxLen ofInt legal store f) = some v ↔
      NumberIs ofInt legal store current f v := by
  unfold NumberIs
  by_cases hnil : f = []
  · rw [if_pos hnil, if_pos hnil, Option.some.injEq]
    exact eq_comm
  · rw [if_neg hnil, if_neg hnil]
    unfold checkNumber
    by_cases hd : isdigitBuffer f maxLen = true
    · have hdig := ((testBuffer_iff hpos hf).1 hd).2
      rw [if_pos hd, atoiBuffer_digits hdig (by omega)]
      by_cases hlegal : legal (ofInt (decimal f : Nat)) = true
      · rw [if_pos hlegal, Option.some.injEq]
        exact ⟨fun h => ⟨hdig, hlegal, h.symm⟩, fun h => h.2.2.symm⟩
      · rw [if_neg hlegal]
        exact ⟨fun h => absurd h (by simp), fun h => absurd h.2.1 hlegal⟩
    · rw [if_neg hd]
      exact ⟨fun h => absurd h (by simp), fun h => absurd ((testBuffer_iff hpos hf).2 ⟨hnil, h.1⟩) hd⟩

theorem reads_argNumber {β γ : Type} {maxLen : Nat} (ofInt : Int → β) (legal : β → Bool) (store : β → γ) (current : γ)
    (hpos : 0 < maxLen) (hmax : maxLen ≤ 9) :
    Reads (FieldAt raw) (argNumber raw maxLen ofInt legal store current)
      (numberLang maxLen ofInt legal store current) := by
  refine Reads.one fun p v q => ?_
  unfold argNumber
  rw [argField_some_iff]
  refine exists_congr fun f => ?_
  rw [getFrameField_iff hraw, and_assoc]
  refine and_congr_right fun _ => and_congr_right fun hfits => ?_
  exact numberCheck_iff hpos hmax (hfits.resolve_left (by omega))

theorem reads_reserved (total : Nat) : Reads (FieldAt raw) (getFrameArgReserved raw total) (Lang.any total) := by
  induction total with
  | zero =>
    intro p v q
    rw [show getFrameArgReserved raw 0 = pure () from rfl, Reads.pure () p v q]
    refine exists_congr fun fs => and_congr_right fun _ => ?_
    exact ⟨fun h => h.1 ▸ rfl, fun h => ⟨List.length_eq_zero_iff.1 h, rfl⟩⟩
  | succ total ih =>
    intro p v q
    have hbind := Reads.bind (reads_argField hraw lenReserved fun _ => some ()) fun _ => ih
    rw [show getFrameArgReserved raw (total + 1) =
      (argField raw lenReserved fun _ => some ()) >>= fun _ => getFrameArgReserved raw total from rfl, hbind p v q]
    refine exists_congr fun fs => and_congr_right fun _ => ?_
    constructor
    · intro h
      obtain ⟨_, fs₁, fs₂, rfl, ⟨f, rfl, -⟩, h₂⟩ := h
      have hlen : fs₂.length = total := h₂
      simp [Lang.any, hlen]
    · intro h
      cases fs with
      | nil => exact absurd (show 0 = total + 1 from h) (by omega)
      | cons f fs =>
        have hlen : fs.length = total := Nat.succ.inj h
        exact ⟨(), [f], fs, rfl, ⟨f, rfl, .inl rfl, rfl⟩, hlen⟩

theorem reads_argPort (cfg : ConfigServer) (arg : ArgServer) :
    Reads (FieldAt raw) (argPort raw cfg arg) (portLang cfg arg) :=
  (reads_argNumber hraw _ _ _ _ (by decide) (by decide)).bind fun _ => .pure _

theorem reads_ips (cfg : ConfigIps) : Reads (FieldAt raw) (getDnlnkFrameArgIps cfg raw) (ipsLang cfg) := by
  refine (reads_argNumber hraw _ _ _ _ (by decide) (by decide)).bind fun _ => ?_
  refine (reads_argNumber hraw _ _ _ _ (by decide) (by decide)).bind fun _ => ?_
  refine (reads_reserved hraw 2).bind fun _ => ?_
  refine (reads_argField hraw _ _).bind fun pri => ?_
  refine (reads_argPort hraw _ pri).bind fun _ => ?_
  refine (reads_argField hraw _ _).bind fun sec => ?_
  refine (reads_argPort hraw _ sec).bind fun _ => ?_
  exact (reads_reserved hraw 6).bind fun _ => .pure _

theorem reads_apnRecord : Reads (FieldAt raw) (argApnRecord raw) apnRecordLang := by
  refine (reads_argString hraw _ _).bind fun _ => ?_
  refine (reads_argString hraw _ _).bind fun _ => ?_
  refine (reads_argString hraw _ _).bind fun _ => ?_
  exact (reads_argString hraw _ _).bind fun _ => .pure _

theorem reads_apnRecords (n : Nat) : Reads (FieldAt raw) (argApnRecords raw n) (apnRecordsLang n) := by
  induction n with
  | zero => exact .pure _
  | succ n ih => exact (reads_apnRecord hraw).bind fun _ => ih.bind fun _ => .pure _

theorem reads_apn (cfg : ConfigApn) : Reads (FieldAt raw) (getDnlnkFrameArgApn cfg raw) (apnLang cfg) := by
  refine (reads_argNumber hraw _ _ _ _ (by decide) (by decide)).bind fun apnQuantity => ?_
  refine (reads_apnRecords hraw apnQuantity.toNat).bind fun _ => ?_
  exact (reads_reserved hraw 4).bind fun _ => .pure _

theorem reads_scs (cfg : ConfigScs) : Reads (FieldAt raw) (getDnlnkFrameArgScs cfg raw) (scsLang cfg) := by
  refine (reads_argField hraw _ _).bind fun _ => ?_
  refine (reads_argField hraw _ _).bind fun _ => ?_
  refine (reads_argField hraw _ _).bind fun _ => ?_
  exact (reads_reserved hraw 4).bind fun _ => .pure _

theorem reads_lss (cfg : ConfigLss) : Reads (FieldAt raw) (getDnlnkFrameArgLss cfg raw) (lssLang cfg) := by
  refine (reads_argNumber hraw _ _ _ _ (by decide) (by decide)).bind fun _ => ?_
  refine (reads_argNumber hraw _ _ _ _ (by decide) (by decide)).bind fun _ => ?_
  refine (reads_argNumber hraw _ _ _ _ (by decide) (by decide)).bind fun _ => ?_
  refine (reads_argString hraw _ _).bind fun _ => ?_
  refine (reads_argNumber hraw _ _ _ _ (by decide) (by decide)).bind fun _ => ?_
  refine (reads_argNumber hraw _ _ _ _ (by decide) (by decide)).bind fun _ => ?_
  refine (reads_argNumber hraw _ _ _ _ (by decide) (by decide)).bind fun _ => ?_
  refine (reads_argNumber hraw _ _ _ _ (by decide) (by decide)).bind fun _ => ?_
  refine (reads_argNumber hraw _ _ _ _ (by decide) (by decide)).bind fun _ => ?_
  refine (reads_argNumber hraw _ _ _ _ (by decide) (by decide)).bind fun _ => ?_
  refine (reads_argNumber hraw _ _ _ _ (by decide) (by decide)).bind fun _ => ?_
  refine (reads_reserved hraw 4).bind fun _ => ?_
  refine (reads_argNumber hraw _ _ _ _ (by decide) (by decide)).bind fun _ => ?_
  refine (reads_argNumber hraw _ _ _ _ (by decide) (by decide)).bind fun _ => ?_
  exact (reads_reserved hraw 4).bind fun _ => .pure _

theorem reads_rth : Reads (FieldAt raw) (getDnlnkFrameArgRth raw) rthLang :=
  (reads_argField hraw _ _).bind fun _ => (reads_reserved hraw 4).bind fun _ => .pure _

theorem reads_frame (cfg : Config) (type : FrameHeader) :
    Reads (FieldAt raw) (getDnlnkFrameArg cfg raw type) (frameLang cfg type) := by
  cases type with
  | ips => exact (reads_argField hraw _ _).bind fun _ => (reads_ips hraw cfg.ips).bind fun _ => .pure _
  | apn => exact (reads_argField hraw _ _).bind fun _ => (reads_apn hraw cfg.apn).bind fun _ => .pure _
  | scs => exact (reads_scs hraw cfg.scs).bind fun _ => .pure _
  | lss => exact (reads_argField hraw _ _).bind fun _ => (reads_lss hraw cfg.lss).bind fun _ => .pure _
  | rth => exact (reads_argField hraw _ _).bind fun _ => (reads_rth hraw).bind fun _ => .pure _

/-! ## The frame -/

omit hraw in
theorem getDnlnkFrameType_iff {p q : Nat} {type : FrameHeader} :
    getDnlnkFrameType raw p = some (type, q) ↔ slice raw.data p lenHeader = type.str ∧ q = p + lenHeader := by
  refine ⟨getDnlnkFrameType_some, fun h => ?_⟩
  obtain ⟨hstr, rfl⟩ := h
  have hfind : frameHeaders.find? (fun t => strncmpEq t.str type.str lenHeader) = some type := by
    cases type <;> decide
  unfold getDnlnkFrameType
  rw [hstr, hfind, Option.map_some]

/-- A serial number of four digits, with at most one more comma behind it, and the tail. -/
structure SerialAt (raw : RawFrame) (q : Nat) (sn : List UInt8) (r : Nat) : Prop where
  field : FieldAt raw q sn r
  fits : sn.length ≤ lenSerialNum
  digits : verifySerialNumber sn = true
  tail : raw.data r = chrTail

omit hraw in
theorem header_match_iff {h : List UInt8} (hh : Text h ∧ h.length = headerChklen) :
    strncmpEq (slice raw.data 0 headerChklen) h headerChklen = true ↔ slice raw.data 0 headerChklen = h :=
  ⟨fun he => eq_of_strncmpEq he (length_slice ..) hh.1 hh.2, fun he => by rw [he, strncmpEq_iff]⟩

theorem getDnlnkFrameSn_iff {q r : Nat} {sn : List UInt8} :
    getDnlnkFrameSn raw q = some (sn, r) ↔
      FieldAt raw q sn r ∧ sn.length ≤ lenSerialNum ∧ verifySerialNumber sn = true := by
  unfold getDnlnkFrameSn
  rw [argField_some_iff]
  constructor
  · intro h
    obtain ⟨f, hf, hc⟩ := h
    obtain ⟨hat, hfits⟩ := (getFrameField_iff hraw).1 hf
    split at hc
    · next hv => exact Option.some.inj hc ▸ ⟨hat, hfits.resolve_left (by decide), hv⟩
    · exact absurd hc (by simp)
  · intro h
    exact ⟨sn, (getFrameField_iff hraw).2 ⟨h.1, .inr h.2.1⟩, if_pos h.2.2⟩

omit hraw in
theorem verifyDnlnkFrameTail_iff {r r' : Nat} {u : Unit} :
    verifyDnlnkFrameTail raw r = some (u, r') ↔ raw.data r = chrTail ∧ r = r' := by
  unfold verifyDnlnkFrameTail
  by_cases ht : raw.data r = chrTail
  · simp [ht]
  · simp [ht]

/-- What is read behind the header. -/
theorem parseBody_iff {cfg : Config} {frame : ParsedFrame} {r : Nat} :
    parseBody cfg raw headerChklen = some (frame, r) ↔
      ∃ type : FrameHeader, slice raw.data 3 lenHeader = type.str ∧
        ∃ fs q, Fields raw 7 fs q ∧ (frameLang cfg type).Has fs (frame.password, frame.arg) ∧
          SerialAt raw q frame.serialNumber r ∧ frame.paraString = paraText raw r := by
  constructor
  · intro h
    obtain ⟨type, p1, htype, h⟩ := bind_some_iff.1 h
    obtain ⟨hstr, rfl⟩ := getDnlnkFrameType_iff.1 htype
    obtain ⟨u, p2, hskip, h⟩ := bind_some_iff.1 h
    obtain ⟨-, rfl⟩ := Prod.mk.inj (Option.some.inj hskip)
    obtain ⟨arg, q, harg, h⟩ := bind_some_iff.1 h
    obtain ⟨sn, p3, hsn, h⟩ := bind_some_iff.1 h
    obtain ⟨v, p4, htail, h⟩ := bind_some_iff.1 h
    obtain ⟨para, p5, hpara, h⟩ := bind_some_iff.1 h
    obtain ⟨rfl, rfl⟩ := Prod.mk.inj (Option.some.inj hpara)
    obtain ⟨rfl, rfl⟩ := Prod.mk.inj (pure_some_iff.1 h)
    obtain ⟨fs, hfs, hlang⟩ := (reads_frame hraw cfg type _ _ _).1 harg
    obtain ⟨hat, hfits, hdigits⟩ := (getDnlnkFrameSn_iff hraw).1 hsn
    obtain ⟨hchr, rfl⟩ := verifyDnlnkFrameTail_iff.1 htail
    exact ⟨type, hstr, fs, q, fields_iff_chain.2 hfs, hlang, ⟨hat, hfits, hdigits, hchr⟩, rfl⟩
  · intro h
    obtain ⟨type, hstr, fs, q, hfs, hlang, ⟨hat, hfits, hdigits, htail⟩, hpara⟩ := h
    refine bind_some_iff.2 ⟨type, 6, getDnlnkFrameType_iff.2 ⟨hstr, rfl⟩, ?_⟩
    refine bind_some_iff.2 ⟨(), 7, rfl, ?_⟩
    refine bind_some_iff.2 ⟨(frame.password, frame.arg), q, (reads_frame hraw cfg type _ _ _).2
      ⟨fs, fields_iff_chain.1 hfs, hlang⟩, ?_⟩
    refine bind_some_iff.2 ⟨frame.serialNumber, r, (getDnlnkFrameSn_iff hraw).2 ⟨hat, hfits, hdigits⟩, ?_⟩
    refine bind_some_iff.2 ⟨(), r, verifyDnlnkFrameTail_iff.2 ⟨htail, rfl⟩, ?_⟩
    exact bind_some_iff.2 ⟨frame.paraString, r, by rw [hpara]; rfl, rfl⟩

/-- **What a frame is.** The parser accepts a frame exactly when it starts with
a header and a type, its fields are in the language of the type, and a serial
number and the tail follow. -/
theorem parseDnlnkFrame_iff {cfg : Config} {frame : ParsedFrame} :
    parseDnlnkFrame cfg raw = some frame ↔
      0 < raw.length ∧ (slice raw.data 0 headerChklen = dnlnkHeader ∨ slice raw.data 0 headerChklen = dnlnkHeaderLc) ∧
      ∃ type : FrameHeader, slice raw.data 3 lenHeader = type.str ∧
        ∃ fs q r, Fields raw 7 fs q ∧ (frameLang cfg type).Has fs (frame.password, frame.arg) ∧
          SerialAt raw q frame.serialNumber r ∧ frame.paraString = paraText raw r := by
  rw [← header_match_iff (h := dnlnkHeader) (by decide), ← header_match_iff (h := dnlnkHeaderLc) (by decide)]
  unfold parseDnlnkFrame
  constructor
  · intro h
    split at h
    · next hpre =>
      obtain ⟨⟨frame', r⟩, hbody, rfl⟩ := Option.map_eq_some_iff.1 h
      obtain ⟨type, hstr, fs, q, hfs, hlang, hserial⟩ := (parseBody_iff hraw).1 hbody
      exact ⟨hpre.1, hpre.2, type, hstr, fs, q, r, hfs, hlang, hserial⟩
    · exact absurd h (by simp)
  · intro h
    obtain ⟨hpos, hheader, type, hstr, fs, q, r, hfs, hlang, hserial⟩ := h
    have hbody : parseBody cfg raw headerChklen = some (frame, r) :=
      (parseBody_iff hraw).2 ⟨type, hstr, fs, q, hfs, hlang, hserial⟩
    rw [if_pos ⟨hpos, hheader⟩, hbody, Option.map_some]

end Read

end Petbox.Tracker
