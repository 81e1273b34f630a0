/-
The configuration is well formed in every state the tracker can reach: each
member is within its limits, each string is ended inside its array and is one
that can stand in a field, and a server that is set by its name has one that
the parser takes for a name.

The limits are those of the parser; what an empty field brings back from the
configuration was within them before.
-/
import Petbox.Tracker.FrameText

namespace Petbox.Tracker

open CStr Mem Update Reader

/-! ## Strings -/

/-- A string that a field of at most so many characters can bring, and its end. -/
structure StringWf {n : Nat} (limit : Nat) (a : CharArray n) : Prop where
  text : FieldText a.str
  length : a.str.length ≤ limit

section Strings

variable {n : Nat}

/-- A string that is shorter than its array is ended by a 0. -/
theorem zero_mem_bytes {a : CharArray n} (h : a.str.length < n) : 0 ∈ a.bytes := by
  rcases cstr_split a.bytes with hs | ⟨r, hr⟩
  · have hsize := a.size
    unfold CharArray.str at h
    rw [hs] at h
    omega
  · rw [hr]
    simp

theorem StringWf.zero (limit : Nat) : StringWf limit (CharArray.zero n) := by
  have hnil : (CharArray.zero n).str = [] := by
    rw [CharArray.str, CharArray.bytes_zero, cstr_replicate]
  exact ⟨hnil ▸ fun c hc => absurd hc List.not_mem_nil, hnil ▸ Nat.zero_le _⟩

/-- The string a field leaves in an array that was cleared. -/
theorem str_strncpy_zero {f : List UInt8} {maxLen : Nat} (hf : Text f) (hlen : f.length ≤ maxLen) (hn : maxLen ≤ n) :
    ((CharArray.zero n).strncpy f maxLen).str = f := by
  rw [CharArray.str, CharArray.bytes_strncpy hn, strncpyBytes, List.take_of_length_le hlen, cstr_text hf,
    CharArray.bytes_zero, List.drop_replicate, List.append_assoc, cstr_append hf, ← List.replicate_add,
    cstr_replicate, List.append_nil]

/-- `memset` and `strncpy`, when the string is not empty and another one. -/
theorem str_assignString (arg : List UInt8) (s : CharArray n × Bool) :
    (assignString arg n s).1.str = if cstr arg = [] then s.1.str else cstr (arg.take n) := by
  have hsize := s.1.size
  unfold assignString
  by_cases hnil : cstr arg = []
  · rw [if_neg (fun h => h.1 hnil), if_pos hnil]
  · rw [if_neg hnil]
    cases hcmp : strncmpEq s.1.bytes arg n with
    | false =>
      rw [if_pos ⟨hnil, rfl⟩, CharArray.str, CharArray.bytes_strncpy (Nat.le_refl _),
        List.drop_of_length_le (Nat.le_of_eq (CharArray.size _)), List.append_nil, cstr_strncpyBytes]
    | true =>
      rw [if_neg (fun h => absurd h.2 (by simp)), CharArray.str]
      rw [strncmpEq_iff, List.take_of_length_le (Nat.le_of_eq hsize)] at hcmp
      exact hcmp

/-- The string keeps a property that a new one would have. -/
theorem keeps_assignString {P : CharArray n → Prop} {Q : List UInt8 → Prop} (hP : ∀ a, P a ↔ Q a.str)
    {arg : List UInt8} (harg : cstr arg ≠ [] → Q (cstr (arg.take n))) : Keeps P (assignString arg n) := by
  intro s hs
  rw [hP] at hs ⊢
  rw [str_assignString]
  split
  · exact hs
  · next hne => exact harg hne

theorem stringWf_iff {limit : Nat} (a : CharArray n) : StringWf limit a ↔ FieldText a.str ∧ a.str.length ≤ limit :=
  ⟨fun h => ⟨h.text, h.length⟩, fun h => ⟨h.1, h.2⟩⟩

/-- A well-formed string replaces a well-formed one. -/
theorem StringWf.keeps {limit : Nat} {arg : CharArray n} (harg : StringWf limit arg) :
    Keeps (StringWf limit) (assignString arg.bytes n : Update (CharArray n)) := by
  refine keeps_assignString (Q := fun s => FieldText s ∧ s.length ≤ limit) stringWf_iff fun _ => ?_
  rw [List.take_of_length_le (Nat.le_of_eq arg.size)]
  exact ⟨harg.text, harg.length⟩

end Strings

/-! ## The sections -/

/-- A text the parser takes for a domain name. -/
def DomainName (host : List UInt8) : Prop :=
  FieldText host ∧ ∃ arg, hostFromField host zeroArgServer = some arg ∧ arg.mode = ipsPriDn

/-- A server is well formed: `ServerOk`, and in mode DN the host is a domain name. -/
structure ServerWf (c : ConfigServer) : Prop where
  ok : ServerOk c
  name : c.mode = ipsPriDn → DomainName c.host.str

structure IpsWf (c : ConfigIps) : Prop where
  reportMode : c.reportMode ≤ maxIpsReportMode
  bufferMode : c.bufferMode ≤ maxIpsBufferMode
  pri : ServerWf c.pri
  sec : ServerWf c.sec

structure ApnRecordWf (r : ApnRecord) : Prop where
  mccMnc : StringWf lenApnMccMnc r.mccMnc
  apnName : StringWf lenApnName r.apnName
  apnUserName : StringWf lenApnUserName r.apnUserName
  apnPassword : StringWf lenApnPassword r.apnPassword

structure ApnWf (c : ConfigApn) : Prop where
  apnQuantity : c.apnQuantity ≤ 2
  first : ApnRecordWf c.first
  second : ApnRecordWf c.second

/-- A password: 4 to 20 letters and digits. -/
structure PasswordText (password : List UInt8) : Prop where
  alnum : ∀ c ∈ password, isAlnum c = true
  min : minPasswordLen ≤ password.length
  max : password.length ≤ maxPasswordLen

def ScsWf (c : ConfigScs) : Prop := PasswordText c.devPassword.str

structure LssWf (c : ConfigLss) : Prop where
  modeSelection : c.modeSelection ≤ maxLssModeSelect
  continueSendInterval : c.continueSendInterval ≤ maxLssContSendInterval
  startMode : c.startMode ≤ maxLssStartMode
  specTimeOfDay : StringWf lenLssSpecTimeDay c.specTimeOfDay
  wakeupInterval : legalWakeupInterval c.wakeupInterval = true
  psmNetHoldTime : c.psmNetHoldTime ≤ maxLssNetHoldTime
  reportFreq : minLssReportFreq ≤ c.reportFreq ∧ c.reportFreq ≤ maxLssReportFreq
  gnssEnable : c.gnssEnable ≤ maxLssGnssEnable
  gnssFixDelay : minLssGnssFixDelay ≤ c.gnssFixDelay ∧ c.gnssFixDelay ≤ maxLssGnssFixDelay
  agpsMode : c.agpsMode ≤ maxLssAgpsMode
  batLowPercent : c.batLowPercent ≤ maxLssBatLowPercent
  sensorEnable : c.sensorEnable ≤ maxLssSensorEnable
  nonMoveDuration : minLssNonMoveDur ≤ c.nonMoveDuration ∧ c.nonMoveDuration ≤ maxLssNonMoveDur

structure ConfigWf (c : Config) : Prop where
  ips : IpsWf c.ips
  apn : ApnWf c.apn
  scs : ScsWf c.scs
  lss : LssWf c.lss

/-! ### Factory values -/

theorem zeroServer_wf : ServerWf zeroServer := ⟨zeroServer_ok, fun h => absurd h (by decide)⟩

theorem nvDefaultIps_wf : IpsWf nvDefaultIps := ⟨by decide, by decide, zeroServer_wf, zeroServer_wf⟩

theorem zeroRecord_wf : ApnRecordWf zeroRecord := ⟨.zero _, .zero _, .zero _, .zero _⟩

theorem nvDefaultApn_wf : ApnWf nvDefaultApn := ⟨by decide, zeroRecord_wf, zeroRecord_wf⟩

theorem nvDefaultScs_wf : ScsWf nvDefaultScs := by
  have hstr : nvDefaultScs.devPassword.str = ascii "btl100" := by decide
  have halnum : (ascii "btl100").all isAlnum = true := by decide
  unfold ScsWf
  rw [hstr]
  exact ⟨List.all_eq_true.1 halnum, by decide, by decide⟩

theorem nvDefaultLss_wf : LssWf nvDefaultLss := by
  have hstr : nvDefaultLss.specTimeOfDay.str = ascii "1200" := by decide
  have htext : FieldText (ascii "1200") := by decide +kernel
  exact
    { modeSelection := by decide
      continueSendInterval := by decide
      startMode := by decide
      specTimeOfDay := ⟨hstr ▸ htext, by rw [hstr]; decide⟩
      wakeupInterval := by decide
      psmNetHoldTime := by decide
      reportFreq := by decide
      gnssEnable := by decide
      gnssFixDelay := by decide
      agpsMode := by decide
      batLowPercent := by decide
      sensorEnable := by decide
      nonMoveDuration := by decide }

/-! ## What the languages ensure -/

/-- A number that the language of its field accepts has every property that the
current one and all legal ones have. -/
theorem ensures_number {β γ : Type} {maxLen : Nat} {ofInt : Int → β} {legal : β → Bool} {store : β → γ} {current : γ}
    (P : γ → Prop) (hcurrent : P current) (hlegal : ∀ n, legal n = true → P (store n)) :
    Lang.Ensures FieldText (numberLang maxLen ofInt legal store current) P := by
  refine .one fun f v _ h => ?_
  have hnum := h.2
  unfold NumberIs at hnum
  split at hnum
  · exact hnum ▸ hcurrent
  · exact hnum.2.2 ▸ hlegal _ hnum.2.1

section Limits

variable {β : Type} [LE β] [DecidableLE β] {maxLen : Nat} {ofInt : Int → β} {lo hi current : β}

theorem ensures_upTo (h : current ≤ hi) :
    Lang.Ensures FieldText (numberLang maxLen ofInt (· ≤ hi) id current) (· ≤ hi) :=
  ensures_number (· ≤ hi) h fun _ hn => of_decide_eq_true hn

theorem ensures_between (h : lo ≤ current ∧ current ≤ hi) :
    Lang.Ensures FieldText (numberLang maxLen ofInt (fun n => lo ≤ n && n ≤ hi) id current)
      fun n => lo ≤ n ∧ n ≤ hi :=
  ensures_number (fun n => lo ≤ n ∧ n ≤ hi) h fun _ hn => by simpa using hn

end Limits

theorem ensures_string {maxLen n : Nat} (hpos : 0 < maxLen) (hn : maxLen ≤ n) :
    Lang.Ensures FieldText (stringLang maxLen n) (StringWf maxLen) := by
  refine .one fun f v hf h => ?_
  obtain ⟨hfits, hv⟩ := h
  have hlen : f.length ≤ maxLen := hfits.resolve_left (by omega)
  have hstr := str_strncpy_zero hf.text hlen hn
  rw [Option.some.inj hv] at hstr
  exact ⟨hstr ▸ hf, hstr ▸ hlen⟩

/-- The argument of a host field. -/
def HostRead (cfg : ConfigServer) (arg : ArgServer) : Prop :=
  ∃ f, FieldText f ∧ f.length ≤ lenIpsHost ∧
    if f = [] then arg = hostFromConfig cfg zeroArgServer else hostFromField f zeroArgServer = some arg

theorem ensures_host (cfg : ConfigServer) :
    Lang.Ensures FieldText (hostLang cfg zeroArgServer) (HostRead cfg) := by
  refine .one fun f v hf h => ⟨f, hf, h.1.resolve_left (by decide), ?_⟩
  have hv : (if f = [] then some (hostFromConfig cfg zeroArgServer) else hostFromField f zeroArgServer) = some v := h.2
  split at hv
  · next hnil => rw [if_pos hnil, Option.some.inj hv]
  · next hnil => rw [if_neg hnil, hv]

/-- The argument of a host field and a port field. -/
def ServerRead (cfg : ConfigServer) (arg : ArgServer) : Prop := ∃ f, FieldText f ∧ HostArg f cfg arg

theorem ensures_port {cfg : ConfigServer} {arg : ArgServer} (h : HostRead cfg arg) :
    Lang.Ensures FieldText (portLang cfg arg) (ServerRead cfg) := by
  obtain ⟨f, hf, hlen, harg⟩ := h
  refine Lang.Ensures.of_bind fun port => ?_
  exact .pure ⟨f, hf, arg, port, rfl, hf.text, hlen, harg⟩

/-- The arguments of `AT@IPS`. -/
structure IpsRead (cfg : ConfigIps) (arg : ArgIps) : Prop where
  reportMode : arg.reportMode ≤ maxIpsReportMode
  bufferMode : arg.bufferMode ≤ maxIpsBufferMode
  pri : ServerRead cfg.pri arg.pri
  sec : ServerRead cfg.sec arg.sec

theorem ensures_ips {cfg : ConfigIps} (h : IpsWf cfg) : Lang.Ensures FieldText (ipsLang cfg) (IpsRead cfg) := by
  have hmax (n : UInt8) (hn : decide (n ≤ maxIpsReportMode) = true) : n ≤ maxIpsReportMode := of_decide_eq_true hn
  refine (ensures_number (· ≤ maxIpsReportMode) h.reportMode hmax).bind fun reportMode hreport => ?_
  refine (ensures_number (· ≤ maxIpsBufferMode) h.bufferMode hmax).bind fun bufferMode hbuffer => ?_
  refine Lang.Ensures.of_bind fun _ => ?_
  refine (ensures_host cfg.pri).bind fun _ hpri => ?_
  refine (ensures_port hpri).bind fun pri hpri => ?_
  refine (ensures_host cfg.sec).bind fun _ hsec => ?_
  refine (ensures_port hsec).bind fun sec hsec => ?_
  exact Lang.Ensures.of_bind fun _ => .pure ⟨hreport, hbuffer, hpri, hsec⟩

theorem ensures_apnRecord : Lang.Ensures FieldText apnRecordLang ApnRecordWf := by
  refine (ensures_string (by decide) (by decide)).bind fun _ hmccMnc => ?_
  refine (ensures_string (by decide) (by decide)).bind fun _ hname => ?_
  refine (ensures_string (by decide) (by decide)).bind fun _ huser => ?_
  refine (ensures_string (by decide) (by decide)).bind fun _ hpassword => ?_
  exact .pure ⟨hmccMnc, hname, huser, hpassword⟩

theorem ensures_apnRecords (n : Nat) :
    Lang.Ensures FieldText (apnRecordsLang n) fun records => ∀ r ∈ records, ApnRecordWf r := by
  induction n with
  | zero => exact .pure fun r hr => absurd hr List.not_mem_nil
  | succ n ih =>
    refine ensures_apnRecord.bind fun record hrecord => ?_
    exact ih.bind fun records hrecords => .pure (List.forall_mem_cons.2 ⟨hrecord, hrecords⟩)

theorem ensures_apn {cfg : ConfigApn} (h : ApnWf cfg) : Lang.Ensures FieldText (apnLang cfg) ApnWf := by
  have hmax (n : UInt16) (hn : decide (n ≤ maxApnNums) = true) : n.toUInt8 ≤ 2 := by
    have hn := of_decide_eq_true hn
    rw [UInt16.le_iff_toNat_le] at hn
    rw [UInt8.le_iff_toNat_le, UInt16.toNat_toUInt8]
    exact Nat.le_trans (Nat.mod_le ..) hn
  refine (ensures_number (· ≤ 2) h.apnQuantity hmax).bind fun apnQuantity hquantity => ?_
  refine (ensures_apnRecords apnQuantity.toNat).bind fun records hrecords => ?_
  have hrecord (i : Nat) : ApnRecordWf (records.getD i zeroRecord) := by
    rw [List.getD_eq_getElem?_getD]
    cases hi : records[i]? with
    | none => exact zeroRecord_wf
    | some r => exact hrecords r (List.mem_of_getElem? hi)
  exact Lang.Ensures.of_bind fun _ => .pure ⟨hquantity, hrecord 0, hrecord 1⟩

/-- A new password of `AT@SCS`, if there is one. -/
def PasswordRead (a : CharArray maxApnPasswordLen) : Prop :=
  cstr a.bytes ≠ [] → PasswordText (cstr (a.bytes.take lenScsPassword))

theorem ensures_newPassword :
    Lang.Ensures FieldText (fieldLang lenScsPassword checkNewPassword) PasswordRead := by
  refine .one fun f v hf h => ?_
  have hlen : f.length ≤ lenScsPassword := h.1.resolve_left (by decide)
  have hv := h.2
  have hstr := str_strncpy_zero (n := maxApnPasswordLen) hf.text hlen (by decide)
  have htake : cstr (((CharArray.zero maxApnPasswordLen).strncpy f lenScsPassword).bytes.take lenScsPassword) = f := by
    rw [CharArray.bytes_strncpy (by decide), List.take_left' (length_strncpyBytes ..), cstr_strncpyBytes,
      List.take_of_length_le hlen, cstr_text hf.text]
  simp only [checkNewPassword] at hv
  split at hv
  · next hlens =>
    split at hv
    · next halnum =>
      rw [← Option.some.inj hv]
      intro _
      rw [htake]
      exact ⟨((testBuffer_iff (by decide) hlen).1 halnum).2, hlens.1, hlens.2⟩
    · exact absurd hv (by simp)
  · split at hv
    · exact absurd hv (by simp)
    · next hz =>
      rw [← Option.some.inj hv]
      intro hne
      rw [CharArray.str] at hstr
      exact absurd (hstr.trans (List.length_eq_zero_iff.1 (not_not.1 hz))) hne

theorem ensures_scs (cfg : ConfigScs) :
    Lang.Ensures FieldText (scsLang cfg) fun r => PasswordRead r.2.devPassword := by
  refine Lang.Ensures.of_bind fun _ => ?_
  refine ensures_newPassword.bind fun _ hpassword => ?_
  refine Lang.Ensures.of_bind fun _ => ?_
  exact Lang.Ensures.of_bind fun _ => .pure hpassword

theorem ensures_lss {cfg : ConfigLss} (h : LssWf cfg) : Lang.Ensures FieldText (lssLang cfg) LssWf := by
  refine (ensures_upTo h.modeSelection).bind fun _ hmode => ?_
  refine (ensures_upTo h.continueSendInterval).bind fun _ hinterval => ?_
  refine (ensures_upTo h.startMode).bind fun _ hstart => ?_
  refine (ensures_string (by decide) (by decide)).bind fun _ hspec => ?_
  refine (ensures_number (legalWakeupInterval · = true) h.wakeupInterval fun _ hn => hn).bind fun _ hwakeup => ?_
  refine (ensures_upTo h.psmNetHoldTime).bind fun _ hpsm => ?_
  refine (ensures_between h.reportFreq).bind fun _ hfreq => ?_
  refine (ensures_upTo h.gnssEnable).bind fun _ hgnss => ?_
  refine (ensures_between h.gnssFixDelay).bind fun _ hfix => ?_
  refine (ensures_upTo h.agpsMode).bind fun _ hagps => ?_
  refine (ensures_upTo h.batLowPercent).bind fun _ hbat => ?_
  refine Lang.Ensures.of_bind fun _ => ?_
  refine (ensures_upTo h.sensorEnable).bind fun _ hsensor => ?_
  refine (ensures_between h.nonMoveDuration).bind fun _ hmove => ?_
  exact Lang.Ensures.of_bind fun _ =>
    .pure ⟨hmode, hinterval, hstart, hspec, hwakeup, hpsm, hfreq, hgnss, hfix, hagps, hbat, hsensor, hmove⟩

/-! ## Execution keeps the sections well formed -/

theorem execHost_wf {c : ConfigServer} {arg : ArgServer} (harg : ServerRead c arg) (hc : ServerWf c) (b : Bool) :
    ServerWf (execHost arg (c, b)).1 := by
  obtain ⟨f, hf, harg⟩ := harg
  refine ⟨execHost_ok harg hc.ok b, ?_⟩
  obtain ⟨arg', port, rfl, htext, hlen, harg⟩ := harg
  rw [execHost_port]
  split at harg
  · rw [harg, execHost_keep hc.ok]
    exact hc.name
  · intro hmode
    rcases hostFromField_some htext hlen harg with ⟨octets, -, ha⟩ | ⟨-, ha⟩
    · have := (execHost_addr ha hc.ok b).2.1
      exact absurd (this.symm.trans hmode) (by decide)
    · rw [(execHost_name ha htext hc.ok b).2.2]
      exact ⟨hf, arg', harg, ha.mode⟩

theorem ServerWf.port {c : ConfigServer} (h : ServerWf c) (port : UInt16) :
    ServerWf { c with sock := { c.sock with port } } := ⟨h.ok.port port, h.name⟩

theorem execIps_wf {c : ConfigIps} {arg : ArgIps} (harg : IpsRead c arg) (hc : IpsWf c) :
    IpsWf (execIps arg (c, false)).1 := by
  obtain ⟨pri, sec, hpri, hsec, hfst⟩ := execIps_fst arg c
  rw [hfst]
  exact
    { reportMode := harg.reportMode
      bufferMode := harg.bufferMode
      pri := (hpri ▸ execHost_wf harg.pri hc.pri _).port _
      sec := (hsec ▸ execHost_wf harg.sec hc.sec _).port _ }

theorem keeps_execApnRecord {arg : ApnRecord} (h : ApnRecordWf arg) : Keeps ApnRecordWf (execApnRecord arg) := by
  apply keeps_chain
  simp only [List.forall_mem_cons]
  refine ⟨?_, ?_, ?_, ?_, List.forall_mem_nil _⟩
  · exact keeps_focus h.mccMnc.keeps (fun _ hr => hr.mccMnc) fun _ _ hr hb => { hr with mccMnc := hb }
  · exact keeps_focus h.apnName.keeps (fun _ hr => hr.apnName)
      fun _ _ hr hb => { hr with apnName := hb }
  · exact keeps_focus h.apnUserName.keeps (fun _ hr => hr.apnUserName)
      fun _ _ hr hb => { hr with apnUserName := hb }
  · exact keeps_focus h.apnPassword.keeps (fun _ hr => hr.apnPassword)
      fun _ _ hr hb => { hr with apnPassword := hb }

theorem execApn_wf {c : ConfigApn} {arg : ArgApn} (harg : ApnWf arg) (hc : ApnWf c) :
    ApnWf (execApn arg (c, false)).1 := by
  have hidx (idx : Nat) : Keeps ApnWf (execApnIdx arg idx) := by
    match idx with
    | 0 =>
      exact keeps_focus (keeps_execApnRecord harg.first) (fun _ h => h.first) fun _ _ h hb => { h with first := hb }
    | 1 =>
      exact keeps_focus (keeps_execApnRecord harg.second) (fun _ h => h.second) fun _ _ h hb => { h with second := hb }
    | _ + 2 => exact fun _ h => h
  have hquantity : Keeps ApnWf
      (assign (·.apnQuantity) (fun c apnQuantity => { c with apnQuantity }) arg.apnQuantity) :=
    keeps_assign fun _ h => { h with apnQuantity := harg.apnQuantity }
  refine keeps_chain (fun u hu => ?_) _ (hquantity (c, false) hc)
  obtain ⟨idx, -, rfl⟩ := List.mem_map.1 hu
  exact hidx idx

theorem execScs_wf {c : ConfigScs} {arg : ArgScs} (harg : PasswordRead arg.devPassword) (hc : ScsWf c) :
    ScsWf (execScs arg (c, false)).1 := by
  have hpassword : Keeps (fun a : CharArray lenScsPassword => PasswordText a.str)
      (assignString arg.devPassword.bytes lenScsPassword) := keeps_assignString (fun _ => Iff.rfl) harg
  rw [execScs_fst]
  exact hpassword (c.devPassword, false) hc

theorem execLss_wf {c : ConfigLss} {arg : ArgLss} (harg : LssWf arg) (hc : LssWf c) :
    LssWf (execLss arg (c, false)).1 := by
  rw [execLss_fst]
  exact { harg with specTimeOfDay := harg.specTimeOfDay.keeps (c.specTimeOfDay, false) hc.specTimeOfDay }

/-! ## Every step keeps the configuration well formed -/

section Step

variable {τ : Type} {os : OsTimer τ} {t : Device τ}

theorem ConfigWf.lss_set {c : Config} (h : ConfigWf c) {lss : ConfigLss} (hlss : LssWf lss) :
    ConfigWf { c with lss } := { h with lss := hlss }

theorem ConfigWf.cmdExec (h : ConfigWf t.config) {type : FrameHeader} {fs : List (List UInt8)} {password : List UInt8}
    {arg : DnlnkArg} (hfs : ∀ f ∈ fs, FieldText f) (hlang : (frameLang t.config type).Has fs (password, arg)) :
    ConfigWf (cmdExec os t arg).config := by
  cases type with
  | ips =>
    obtain ⟨_, _, _, rfl, -, arg, gs, _, rfl, hgs, rfl, hv⟩ := hlang
    rw [List.append_nil, List.forall_mem_append] at hfs
    obtain ⟨-, rfl⟩ := Prod.mk.inj hv
    exact { h with ips := execIps_wf (ensures_ips h.ips gs arg hfs.2 hgs) h.ips }
  | apn =>
    obtain ⟨_, _, _, rfl, -, arg, gs, _, rfl, hgs, rfl, hv⟩ := hlang
    rw [List.append_nil, List.forall_mem_append] at hfs
    obtain ⟨-, rfl⟩ := Prod.mk.inj hv
    exact { h with apn := execApn_wf (ensures_apn h.apn gs arg hfs.2 hgs) h.apn }
  | scs =>
    obtain ⟨r, gs, _, rfl, hgs, rfl, hv⟩ := hlang
    rw [List.append_nil] at hfs
    obtain ⟨-, rfl⟩ := Prod.mk.inj hv
    exact { h with scs := execScs_wf (ensures_scs t.config.scs gs r hfs hgs) h.scs }
  | lss =>
    obtain ⟨_, _, _, rfl, -, arg, gs, _, rfl, hgs, rfl, hv⟩ := hlang
    rw [List.append_nil, List.forall_mem_append] at hfs
    obtain ⟨-, rfl⟩ := Prod.mk.inj hv
    exact h.lss_set (execLss_wf (ensures_lss h.lss gs arg hfs.2 hgs) h.lss)
  | rth =>
    obtain ⟨_, _, _, rfl, -, arg, gs, _, rfl, hgs, rfl, hv⟩ := hlang
    obtain ⟨-, rfl⟩ := Prod.mk.inj hv
    exact h

/-- The items of the store are the sections, and these are well formed. -/
structure Intact (t : Device τ) : Prop where
  persistent : Persistent t
  wf : ConfigWf t.config

theorem Intact.step (h : Intact t) {a : Action} {t' : Device τ} (hs : step os t a = some t') : Intact t' := by
  refine ⟨h.persistent.step hs, ?_⟩
  cases happens_of_step os hs with
  | mode => exact h.wf
  | @frame _ _ past content len frame hparse =>
    have hraw : (rawDnlnkFrame content len past).length < 256 := Nat.mod_lt _ (by decide)
    obtain ⟨-, -, type, -, fs, q, r, hfs, hlang, -⟩ := (parseDnlnkFrame_iff hraw).1 hparse
    exact h.wf.cmdExec (fields_text hfs) hlang
  | expiration => exact h.wf
  | reset => exact @Persistent.powerOn_config _ os t h.persistent ▸ h.wf

end Step

/-! ## What may be in the store -/

section Store

variable {α : Type}

/-- An item that is missing, or the image of a well-formed section. -/
def SavedWf (P : α → Prop) (L : Layout α) (key : String) (nv : EnvStore) : Prop :=
  nv key = none ∨ ∃ a, P a ∧ nv key = some (L.encode a)

theorem SavedWf.saved {P : α → Prop} {L : Layout α} {key : String} {nv : EnvStore} (h : SavedWf P L key nv) :
    Saved L key nv := h.imp id fun h => h.imp fun _ ha => ha.2

theorem SavedWf.of_eq {P : α → Prop} {L : Layout α} {key : String} {nv nv' : EnvStore} (h : SavedWf P L key nv)
    (heq : nv' key = nv key) : SavedWf P L key nv' := by
  unfold SavedWf
  rw [heq]
  exact h

/-- What is read from such an item, or put in its place, is well formed. -/
theorem SavedWf.nvInitItem {P : α → Prop} {L : Layout α} {key : String} {nv : EnvStore} {dflt cur : α}
    (h : SavedWf P L key nv) (hpos : 0 < L.size) (hsize : L.size ≤ efStrEnvValueMaxSize) (hdflt : P dflt) :
    P (nvInitItem L key dflt cur nv).1 := by
  rcases h with h | ⟨a, ha, h⟩
  · have hnil : nvItemRead nv key L.size = [] := by simp [nvItemRead, efGetEnvBlob, h]
    have hread := nvItemRead_image (nvItemWrite_self nv key (L.encode dflt)) hsize
    unfold Tracker.nvInitItem
    rw [if_neg (by simp [hnil]), hread, L.overlay_encode]
    exact hdflt
  · rw [nvInitItem_image h hpos hsize]
    exact ha

structure StoreWf (nv : EnvStore) : Prop where
  ips : SavedWf IpsWf Layouts.ips nvBtIps nv
  apn : SavedWf ApnWf Layouts.apn nvBtApn nv
  scs : SavedWf ScsWf Layouts.scs nvBtScs nv
  lss : SavedWf LssWf Layouts.lss nvBtLss nv

theorem StoreWf.savedItems {nv : EnvStore} (h : StoreWf nv) : SavedItems nv :=
  ⟨h.ips.saved, h.apn.saved, h.scs.saved, h.lss.saved⟩

/-- `btlink_pro_nv_init` leaves a well-formed configuration. -/
theorem StoreWf.powerOn {τ : Type} {os : OsTimer τ} {nv : EnvStore} (h : StoreWf nv) : Intact (powerOn os nv) := by
  refine ⟨btlinkProNvInit_holds h.savedItems zeroConfig, ?_⟩
  simp only [Tracker.powerOn, btlinkProNvInit]
  refine ⟨?_, ?_, ?_, ?_⟩
  · exact h.ips.nvInitItem (by decide) (by decide) nvDefaultIps_wf
  · exact (h.apn.of_eq (nvInitItem_ne (by decide))).nvInitItem (by decide) (by decide) nvDefaultApn_wf
  · refine SavedWf.nvInitItem (h.scs.of_eq ?_) (by decide) (by decide) nvDefaultScs_wf
    rw [nvInitItem_ne (by decide), nvInitItem_ne (by decide)]
  · refine SavedWf.nvInitItem (h.lss.of_eq ?_) (by decide) (by decide) nvDefaultLss_wf
    rw [nvInitItem_ne (by decide), nvInitItem_ne (by decide), nvInitItem_ne (by decide)]

theorem Intact.storeWf {τ : Type} {t : Device τ} (h : Intact t) : StoreWf t.nv :=
  ⟨.inr ⟨_, h.wf.ips, h.persistent.ips⟩, .inr ⟨_, h.wf.apn, h.persistent.apn⟩,
    .inr ⟨_, h.wf.scs, h.persistent.scs⟩, .inr ⟨_, h.wf.lss, h.persistent.lss⟩⟩

theorem SavedWf.mixed {P : α → Prop} {L : Layout α} {key : String} {nv nv' m : EnvStore} (h : SavedWf P L key nv)
    (h' : SavedWf P L key nv') (hm : m key = nv key ∨ m key = nv' key) : SavedWf P L key m := by
  rcases hm with hm | hm
  · exact h.of_eq hm
  · exact h'.of_eq hm

end Store

section Reach

variable {τ : Type}

/-- What a device may find in the store when it is switched on: none of the four
items, what a device with this firmware left, or items of two such stores. -/
inductive SavedByFirmware (os : OsTimer τ) : EnvStore → Prop
  | empty {nv : EnvStore} : (∀ key ∈ [nvBtIps, nvBtApn, nvBtScs, nvBtLss], nv key = none) → SavedByFirmware os nv
  | left {nv : EnvStore} {t : Device τ} : SavedByFirmware os nv →
      Machine.Reachable (step os) (powerOn os nv) t → SavedByFirmware os t.nv
  | mixed {nv nv' m : EnvStore} : SavedByFirmware os nv → SavedByFirmware os nv' →
      (∀ key, m key = nv key ∨ m key = nv' key) → SavedByFirmware os m

variable {os : OsTimer τ} {nv : EnvStore} {t : Device τ}

theorem intact_of_reachable (h : StoreWf nv) (ht : Machine.Reachable (step os) (powerOn os nv) t) : Intact t :=
  ht.inv h.powerOn fun _ _ _ hs h => hs.step h

theorem SavedByFirmware.storeWf (h : SavedByFirmware os nv) : StoreWf nv := by
  induction h with
  | empty h =>
    exact ⟨.inl (h _ (by simp)), .inl (h _ (by simp)), .inl (h _ (by simp)), .inl (h _ (by simp))⟩
  | left _ ht ih => exact (intact_of_reachable ih ht).storeWf
  | mixed _ _ hm ih ih' =>
    exact ⟨ih.ips.mixed ih'.ips (hm _), ih.apn.mixed ih'.apn (hm _), ih.scs.mixed ih'.scs (hm _),
      ih.lss.mixed ih'.lss (hm _)⟩

end Reach

/-! ## The law -/

/-- A string that is ended by a 0 behind at most so many characters. -/
def EndedWithin {n : Nat} (limit : Nat) (a : CharArray n) : Prop := a.str.length ≤ limit ∧ 0 ∈ a.bytes

structure ServerWellFormed (c : ConfigServer) : Prop where
  mode : c.mode = ipsPriIp ∨ c.mode = ipsPriDn
  host : EndedWithin lenIpsHost c.host
  name : c.mode = ipsPriDn → c.host.str ≠ []

structure RecordWellFormed (r : ApnRecord) : Prop where
  mccMnc : EndedWithin 5 r.mccMnc
  apnName : EndedWithin 40 r.apnName
  apnUserName : EndedWithin 30 r.apnUserName
  apnPassword : EndedWithin 30 r.apnPassword

/-- A configuration whose members are within their limits. -/
structure WellFormed (c : Config) : Prop where
  reportMode : c.ips.reportMode ≤ 2
  bufferMode : c.ips.bufferMode ≤ 2
  pri : ServerWellFormed c.ips.pri
  sec : ServerWellFormed c.ips.sec
  apnQuantity : c.apn.apnQuantity ≤ 2
  first : RecordWellFormed c.apn.first
  second : RecordWellFormed c.apn.second
  password : 4 ≤ c.scs.devPassword.str.length ∧ c.scs.devPassword.str.length ≤ 20
  modeSelection : c.lss.modeSelection ≤ 2
  continueSendInterval : c.lss.continueSendInterval ≤ 1440
  startMode : c.lss.startMode ≤ 2
  specTimeOfDay : 0 ∈ c.lss.specTimeOfDay.bytes
  wakeupInterval : c.lss.wakeupInterval ∈ [1, 2, 3, 4, 6, 8, 12, 24]
  psmNetHoldTime : c.lss.psmNetHoldTime ≤ 86400
  reportFreq : 1 ≤ c.lss.reportFreq ∧ c.lss.reportFreq ≤ 100
  gnssEnable : c.lss.gnssEnable ≤ 1
  gnssFixDelay : 5 ≤ c.lss.gnssFixDelay ∧ c.lss.gnssFixDelay ≤ 60
  agpsMode : c.lss.agpsMode ≤ 1
  batLowPercent : c.lss.batLowPercent ≤ 30
  sensorEnable : c.lss.sensorEnable ≤ 1
  nonMoveDuration : 1 ≤ c.lss.nonMoveDuration ∧ c.lss.nonMoveDuration ≤ 100

theorem StringWf.ended {n limit : Nat} {a : CharArray n} (h : StringWf limit a) (hn : limit < n) :
    EndedWithin limit a := ⟨h.length, zero_mem_bytes (Nat.lt_of_le_of_lt h.length hn)⟩

theorem DomainName.ne_nil {host : List UInt8} (h : DomainName host) : host ≠ [] := by
  obtain ⟨-, arg, harg, -⟩ := h
  intro hnil
  subst hnil
  exact absurd harg (by simp [hostFromField, socIpCheck_nil, show ipAllZero [] = false by decide])

/-- The host is what its first 60 bytes hold. -/
theorem ServerOk.host_str {c : ConfigServer} (h : ServerOk c) : c.host.str = cstr (c.host.bytes.take lenIpsHost) := by
  have hsplit : c.host.bytes = c.host.bytes.take lenIpsHost ++ [0] := by
    conv => lhs; rw [← List.take_append_drop lenIpsHost c.host.bytes, h.ended]
  unfold CharArray.str
  conv => lhs; rw [hsplit]
  exact cstr_append_nul _

theorem ServerWf.wellFormed {c : ConfigServer} (h : ServerWf c) : ServerWellFormed c := by
  have hzero : 0 ∈ c.host.bytes := by
    have hdrop : 0 ∈ c.host.bytes.drop lenIpsHost := h.ok.ended ▸ List.mem_singleton_self 0
    exact List.mem_of_mem_drop hdrop
  have hlen : c.host.str.length ≤ lenIpsHost := by
    rw [h.ok.host_str]
    exact Nat.le_trans (length_cstr_le _) (List.length_take_le ..)
  exact ⟨h.ok.mode, ⟨hlen, hzero⟩, fun hmode => (h.name hmode).ne_nil⟩

theorem ApnRecordWf.wellFormed {r : ApnRecord} (h : ApnRecordWf r) : RecordWellFormed r :=
  ⟨h.mccMnc.ended (by decide), h.apnName.ended (by decide), h.apnUserName.ended (by decide),
    h.apnPassword.ended (by decide)⟩

theorem legalWakeupInterval_mem {n : UInt8} (h : legalWakeupInterval n = true) :
    n ∈ [1, 2, 3, 4, 6, 8, 12, 24] := by
  simp only [legalWakeupInterval, Bool.or_eq_true, Bool.and_eq_true, decide_eq_true_eq, beq_iff_eq,
    UInt8.le_iff_toNat_le, ← UInt8.toNat_inj, UInt8.reduceToNat] at h
  simp only [List.mem_cons, List.not_mem_nil, ← UInt8.toNat_inj, UInt8.reduceToNat]
  omega

theorem ConfigWf.wellFormed {c : Config} (h : ConfigWf c) : WellFormed c where
  reportMode := h.ips.reportMode
  bufferMode := h.ips.bufferMode
  pri := h.ips.pri.wellFormed
  sec := h.ips.sec.wellFormed
  apnQuantity := h.apn.apnQuantity
  first := h.apn.first.wellFormed
  second := h.apn.second.wellFormed
  password := ⟨h.scs.min, h.scs.max⟩
  modeSelection := h.lss.modeSelection
  continueSendInterval := h.lss.continueSendInterval
  startMode := h.lss.startMode
  specTimeOfDay := (h.lss.specTimeOfDay.ended (by decide)).2
  wakeupInterval := legalWakeupInterval_mem h.lss.wakeupInterval
  psmNetHoldTime := h.lss.psmNetHoldTime
  reportFreq := h.lss.reportFreq
  gnssEnable := h.lss.gnssEnable
  gnssFixDelay := h.lss.gnssFixDelay
  agpsMode := h.lss.agpsMode
  batLowPercent := h.lss.batLowPercent
  sensorEnable := h.lss.sensorEnable
  nonMoveDuration := h.lss.nonMoveDuration

/-- **Every reachable configuration is well formed.** Whatever this firmware left
in the store before the device was switched on, and after any lines, timer
expirations and resets. -/
theorem configuration_wellFormed {τ : Type} {os : OsTimer τ} {nv : EnvStore} {t : Device τ}
    (hnv : SavedByFirmware os nv) (ht : Machine.Reachable (step os) (powerOn os nv) t) : WellFormed t.config :=
  (intact_of_reachable hnv.storeWf ht).wf.wellFormed

/-- A device that was told its servers, and is switched on again. -/
theorem configuration_wellFormed_server : WellFormed (powerOn plainTimer serverSet.nv).config := by
  have hreach : Machine.Reachable (step plainTimer) (powerOn plainTimer fun _ => none) serverSet :=
    ⟨[lineAction "AT@IPS=btl100,1,2,,,10.0.0.1,5000,,,,,,,,,0001#"], rfl⟩
  have hstore : SavedByFirmware plainTimer serverSet.nv := .left (.empty fun _ _ => rfl) hreach
  exact configuration_wellFormed hstore .refl

end Petbox.Tracker
