/-
The servers of the tracker: what an accepted `AT@IPS` frame names, and when
the configuration then holds just that. It does so in all but three cases:
`IP_ALL_MATCH` overlooks the last octet, an address of zeros is only known as
a text that begins with `0.0.0.0`, and so is every name that begins like that.
-/
import Petbox.Tracker.Host
import Petbox.Tracker.Persist
import Petbox.Tracker.Password

namespace Petbox.Tracker

open CStr Mem Update

/-! ## What a frame names -/

/-- A number field: its decimal value, or the old value when it is empty. -/
def NumberNamed (f : List UInt8) (old new : Nat) : Prop := if f = [] then new = old else new = decimal f

/-- A host field: an empty one keeps the server, a dotted quad names its four
octets, and a text with any other character names itself. A text of digits and
dots that is no dotted quad counts as what `btlink_soc_ip_check` takes it for. -/
structure HostNamed (f : List UInt8) (old new : ConfigServer) : Prop where
  empty : f = [] → new.mode = old.mode ∧ new.host = old.host ∧ new.sock.addr = old.sock.addr
  quad : ∀ octets, DottedQuad f octets → new.mode = ipsPriIp ∧ new.sock.addr.bytes.take 4 = octets
  name : (∃ c ∈ f, isDigit c = false ∧ c ≠ chrDot) → new.mode = ipsPriDn ∧ new.host.str = f
  numeric : f ≠ [] → (∀ c ∈ f, isDigit c = true ∨ c = chrDot) → (¬ ∃ octets, DottedQuad f octets) →
    if (socIpCheck f).ret then
      new.mode = ipsPriIp ∧ new.sock.addr.bytes.take 4 = (socIpCheck f).octets
    else new.mode = ipsPriDn ∧ new.host.str = f

/-- The fields of an `AT@IPS` frame, the password first. -/
structure IpsNamed (fields : List (List UInt8)) (old new : ConfigIps) : Prop where
  reportMode : NumberNamed (fields.getD 1 []) old.reportMode.toNat new.reportMode.toNat
  bufferMode : NumberNamed (fields.getD 2 []) old.bufferMode.toNat new.bufferMode.toNat
  priHost : HostNamed (fields.getD 5 []) old.pri new.pri
  priPort : NumberNamed (fields.getD 6 []) old.pri.sock.port.toNat new.pri.sock.port.toNat
  secHost : HostNamed (fields.getD 7 []) old.sec new.sec
  secPort : NumberNamed (fields.getD 8 []) old.sec.sock.port.toNat new.sec.sock.port.toNat

/-- When the code stores the server that a host field names. -/
structure HostStored (f : List UInt8) (old : ConfigServer) : Prop where
  /-- the address 0.0.0.0 is written at the start of the field -/
  zeros : (socIpCheck f).ret = true → (socIpCheck f).octets = [0, 0, 0, 0] → ipAllZero f = true
  /-- a domain name does not begin with `0.0.0.0` -/
  name : f ≠ [] → (socIpCheck f).ret = false → ipAllZero f = false
  /-- the address does not differ from the old one in its last octet only -/
  last : (socIpCheck f).ret = true → old.mode = ipsPriIp →
    old.sock.addr.bytes.take 3 = (socIpCheck f).octets.take 3 →
    old.sock.addr.bytes.take 4 = (socIpCheck f).octets

/-! ## One server -/

section Server

variable {f : List UInt8} {old new : ConfigServer}

theorem socIpCheck_nil : (socIpCheck []).ret = false := by decide

/-- The kinds of host field. -/
theorem host_kinds (f : List UInt8) : f = [] ∨ (∃ octets, DottedQuad f octets) ∨
    (∃ c ∈ f, isDigit c = false ∧ c ≠ chrDot) ∨
    (f ≠ [] ∧ (∀ c ∈ f, isDigit c = true ∨ c = chrDot) ∧ ¬ ∃ octets, DottedQuad f octets) := by
  by_cases hf : f = []
  · exact .inl hf
  · by_cases hq : ∃ octets, DottedQuad f octets
    · exact .inr (.inl hq)
    · by_cases hc : ∃ c ∈ f, isDigit c = false ∧ c ≠ chrDot
      · exact .inr (.inr (.inl hc))
      · refine .inr (.inr (.inr ⟨hf, fun c hm => ?_, hq⟩))
        by_cases hd : isDigit c = true
        · exact .inl hd
        · exact .inr (not_not.1 fun hdot => hc ⟨c, hm, by simpa using hd, hdot⟩)

/-- The field in the words of `btlink_soc_ip_check`. -/
theorem hostNamed_iff : HostNamed f old new ↔
    (f = [] → new.mode = old.mode ∧ new.host = old.host ∧ new.sock.addr = old.sock.addr) ∧
    ((socIpCheck f).ret = true →
      new.mode = ipsPriIp ∧ new.sock.addr.bytes.take 4 = (socIpCheck f).octets) ∧
    (f ≠ [] → (socIpCheck f).ret = false → new.mode = ipsPriDn ∧ new.host.str = f) := by
  constructor
  · intro h
    refine ⟨h.empty, fun hret => ?_, fun hne hret => ?_⟩
    · obtain hf | ⟨octets, hq⟩ | ⟨c, hm, hd, hdot⟩ | ⟨hf, hall, hq⟩ := host_kinds f
      · rw [hf, socIpCheck_nil] at hret
        exact absurd hret (by simp)
      · rw [(socIpCheck_quad hq).2]
        exact h.quad octets hq
      · rw [socIpCheck_other hm hd hdot] at hret
        exact absurd hret (by simp)
      · have := h.numeric hf hall hq
        rwa [if_pos hret] at this
    · obtain hf | ⟨octets, hq⟩ | hc | ⟨hf, hall, hq⟩ := host_kinds f
      · exact absurd hf hne
      · rw [(socIpCheck_quad hq).1] at hret
        exact absurd hret (by simp)
      · exact h.name hc
      · have := h.numeric hf hall hq
        rwa [if_neg (by simp [hret])] at this
  · intro h
    obtain ⟨hempty, haddr, hname⟩ := h
    refine ⟨hempty, fun octets hq => ?_, fun hc => ?_, fun hne _ _ => ?_⟩
    · have := haddr (socIpCheck_quad hq).1
      rwa [(socIpCheck_quad hq).2] at this
    · obtain ⟨c, hm, hd, hdot⟩ := hc
      exact hname (List.ne_nil_of_mem hm) (socIpCheck_other hm hd hdot)
    · split
      · next hret => exact haddr hret
      · next hret => exact hname hne (by simpa using hret)

/-- The argument the parser makes of the field, whatever its port. -/
def HostArg (f : List UInt8) (cfg : ConfigServer) (arg : ArgServer) : Prop :=
  ∃ arg' port, arg = { arg' with sock := { arg'.sock with port } } ∧ Text f ∧ f.length ≤ lenIpsHost ∧
    if f = [] then arg' = hostFromConfig cfg zeroArgServer else hostFromField f zeroArgServer = some arg'

theorem execHost_port (arg : ArgServer) (port : UInt16) :
    execHost { arg with sock := { arg.sock with port } } = execHost arg := rfl

theorem execHost_ok {arg : ArgServer} (harg : HostArg f old arg) (hold : ServerOk old) (b : Bool) :
    ServerOk (execHost arg (old, b)).1 := by
  obtain ⟨arg', port, rfl, htext, hlen, harg⟩ := harg
  rw [execHost_port]
  split at harg
  · rw [harg, execHost_keep hold]
    exact hold
  · rcases hostFromField_some htext hlen harg with ⟨octets, -, ha⟩ | ⟨-, ha⟩
    · exact (execHost_addr ha hold b).1
    · exact (execHost_name ha htext hold b).1

/-- An empty field keeps the server, and the condition says nothing. -/
theorem hostNamed_keep (c : ConfigServer) : HostNamed [] c c ∧ HostStored [] c := by
  have hnone : ¬ (socIpCheck []).ret = true := by decide
  refine ⟨hostNamed_iff.2 ⟨fun _ => ⟨rfl, rfl, rfl⟩, fun h => ?_, fun h => absurd rfl h⟩,
    fun h => ?_, fun h => absurd rfl h, fun h => ?_⟩ <;>
  exact absurd h hnone

/-- A field that is taken for an address. -/
theorem hostNamed_addr_iff {octets : List UInt8} (hf : f ≠ []) (hread : AddrRead f octets)
    (hmode : new.mode = ipsPriIp)
    (haddr : new.sock.addr.bytes.take 4 =
      if old.mode = ipsPriIp ∧ old.sock.addr.bytes.take 3 = octets.take 3 then old.sock.addr.bytes.take 4
      else octets) : HostNamed f old new ↔ HostStored f old := by
  rw [hostNamed_iff]
  cases hret : (socIpCheck f).ret with
  | true =>
    have hoct : (socIpCheck f).octets = octets ∧ (octets = [0, 0, 0, 0] → ipAllZero f = true) := by
      rcases hread with ⟨-, ho, hne⟩ | ⟨hz, ho, hread⟩
      · exact ⟨ho, fun hzero => absurd hzero hne⟩
      · exact ⟨(hread hret).trans ho.symm, fun _ => hz⟩
    -- the octets arrive unless the old address is taken for the same
    have key : new.sock.addr.bytes.take 4 = octets ↔
        (old.mode = ipsPriIp → old.sock.addr.bytes.take 3 = octets.take 3 →
          old.sock.addr.bytes.take 4 = octets) := by
      rw [haddr]
      by_cases hc : old.mode = ipsPriIp ∧ old.sock.addr.bytes.take 3 = octets.take 3
      · rw [if_pos hc]
        exact ⟨fun h _ _ => h, fun h => h hc.1 hc.2⟩
      · rw [if_neg hc]
        exact ⟨fun _ h1 h2 => absurd ⟨h1, h2⟩ hc, fun _ => rfl⟩
    constructor
    · intro h
      refine ⟨fun _ hz => hoct.2 (hoct.1 ▸ hz), fun _ hr => ?_, fun _ => ?_⟩
      · exact absurd (hret.symm.trans hr) (by simp)
      · rw [hoct.1]
        exact key.1 (hoct.1 ▸ (h.2.1 rfl).2)
    · intro h
      refine ⟨fun hnil => absurd hnil hf, fun _ => ⟨hmode, ?_⟩, fun _ hr => absurd hr (by simp)⟩
      rw [hoct.1]
      exact key.2 (hoct.1 ▸ h.last hret)
  | false =>
    -- taken for zeros by its first seven characters
    have hzero : ipAllZero f = true := by
      rcases hread with ⟨hr, -⟩ | ⟨hz, -⟩
      · exact absurd (hret.symm.trans hr) (by simp)
      · exact hz
    have hmodes : ipsPriIp ≠ ipsPriDn := by decide
    constructor
    · intro h
      exact absurd (hmode.symm.trans (h.2.2 hf rfl).1) hmodes
    · intro h
      exact absurd (hzero.symm.trans (h.name hf hret)) (by simp)

/-- A field that is taken for a domain name. -/
theorem hostNamed_name_iff (hf : f ≠ []) (hread : NameRead f) (hmode : new.mode = ipsPriDn)
    (hstr : new.host.str = f) : HostNamed f old new ↔ HostStored f old := by
  obtain ⟨hnz, hread⟩ := hread
  rw [hostNamed_iff]
  cases hret : (socIpCheck f).ret with
  | true =>
    -- zeros, but spelled in another way
    have hmodes : ipsPriIp ≠ ipsPriDn := by decide
    constructor
    · intro h
      exact absurd ((h.2.1 rfl).1.symm.trans hmode) hmodes
    · intro h
      exact absurd (hnz.symm.trans (h.zeros hret (hread hret))) (by simp)
  | false =>
    have hno : ¬ (socIpCheck f).ret = true := by simp [hret]
    constructor
    · intro _
      exact ⟨fun hr => absurd hr hno, fun _ _ => hnz, fun hr => absurd hr hno⟩
    · intro _
      exact ⟨fun hnil => absurd hnil hf, fun hr => absurd hr (by simp), fun _ _ => ⟨hmode, hstr⟩⟩

/-- The code stores the server a field names just when the condition holds. -/
theorem hostNamed_execHost_iff {arg : ArgServer} (harg : HostArg f old arg) (hold : ServerOk old) (b : Bool) :
    HostNamed f old (execHost arg (old, b)).1 ↔ HostStored f old := by
  obtain ⟨arg', port, rfl, htext, hlen, harg⟩ := harg
  rw [execHost_port]
  split at harg
  · next hf =>
    subst hf
    rw [harg, execHost_keep hold]
    exact iff_of_true (hostNamed_keep old).1 (hostNamed_keep old).2
  · next hf =>
    rcases hostFromField_some htext hlen harg with ⟨octets, hread, ha⟩ | ⟨hread, ha⟩
    · obtain ⟨-, hmode, haddr⟩ := execHost_addr ha hold b
      exact hostNamed_addr_iff hf hread hmode haddr
    · obtain ⟨-, hmode, hstr⟩ := execHost_name ha htext hold b
      exact hostNamed_name_iff hf hread hmode hstr

end Server

/-! ## The fields of an accepted frame -/

/-- What the parser leaves of the fields of an `AT@IPS` frame. -/
structure IpsArg (fields : List (List UInt8)) (cfg : ConfigIps) (arg : ArgIps) : Prop where
  reportMode : NumberNamed (fields.getD 1 []) cfg.reportMode.toNat arg.reportMode.toNat
  bufferMode : NumberNamed (fields.getD 2 []) cfg.bufferMode.toNat arg.bufferMode.toNat
  priHost : HostArg (fields.getD 5 []) cfg.pri arg.pri
  priPort : NumberNamed (fields.getD 6 []) cfg.pri.sock.port.toNat arg.pri.sock.port.toNat
  secHost : HostArg (fields.getD 7 []) cfg.sec arg.sec
  secPort : NumberNamed (fields.getD 8 []) cfg.sec.sock.port.toNat arg.sec.sock.port.toNat

section Parse

variable {cfg : Config} {raw : RawFrame} {p q : Nat}

theorem argMode_named {legal : UInt8 → Bool} {current v : UInt8}
    (h : argNumber raw 1 UInt8.ofInt legal id current p = some (v, q)) :
    ∃ f, FieldAt raw p f q ∧ NumberNamed f current.toNat v.toNat := by
  obtain ⟨f, hf, hv⟩ := argNumber_read (by decide) (by decide) h
  refine ⟨f, hf, ?_⟩
  unfold NumberNamed
  split at hv
  · next hnil => rw [if_pos hnil, hv]
  · next hnil => rw [if_neg hnil, hv.2.2, id, toNat_ofInt_u8, Nat.mod_eq_of_lt (by omega)]

/-- A server: its host field and its port field. -/
theorem argServer_read {c : ConfigServer} {arg arg' : ArgServer} {r : Nat}
    (hhost : argHost raw c zeroArgServer p = some (arg, q)) (hport : argPort raw c arg q = some (arg', r)) :
    ∃ f g, FieldAt raw p f q ∧ FieldAt raw q g r ∧ HostArg f c arg' ∧
      NumberNamed g c.sock.port.toNat arg'.sock.port.toNat := by
  obtain ⟨f, hf, hlen, hc⟩ := argField_read hhost
  obtain ⟨port, q', hn, hp⟩ := bind_some_iff.1 hport
  obtain ⟨rfl, rfl⟩ := Prod.mk.inj (pure_some_iff.1 hp)
  obtain ⟨g, hg, hv⟩ := argNumber_read (by decide) (by decide) hn
  refine ⟨f, g, hf, hg, ⟨arg, port, rfl, hf.text.text, hlen (by decide), ?_⟩, ?_⟩
  · split at hc
    · next hnil =>
      rw [if_pos hnil]
      exact (Option.some.inj hc).symm
    · next hnil =>
      rw [if_neg hnil]
      exact hc
  · unfold NumberNamed
    split at hv
    · next hnil => rw [if_pos hnil, hv]
    · next hnil =>
      have hlt : decimal g < 100000 := hv.1
      have hmax : maxIpsPort.toNat = 65535 := rfl
      have hle : (UInt32.ofInt (decimal g : Nat)).toNat ≤ maxIpsPort.toNat := by
        simpa [UInt32.le_iff_toNat_le] using hv.2.1
      rw [toNat_ofInt_u32, Nat.mod_eq_of_lt (by omega), hmax] at hle
      rw [if_neg hnil, hv.2.2, UInt32.toNat_toUInt16, toNat_ofInt_u32]
      omega

theorem getDnlnkFrameArgIps_read {c : ConfigIps} {arg : ArgIps} {password : List UInt8} {p' : Nat}
    (hpw : FieldAt raw p' password p) (h : getDnlnkFrameArgIps c raw p = some (arg, q)) :
    ∃ fs, Fields raw p' fs q ∧ 8 < fs.length ∧ IpsArg fs c arg := by
  obtain ⟨report, q1, h1, h⟩ := bind_some_iff.1 h
  obtain ⟨buffer, q2, h2, h⟩ := bind_some_iff.1 h
  obtain ⟨_, q3, h3, h⟩ := bind_some_iff.1 h
  obtain ⟨pri, q4, h4, h⟩ := bind_some_iff.1 h
  obtain ⟨pri', q5, h5, h⟩ := bind_some_iff.1 h
  obtain ⟨sec, q6, h6, h⟩ := bind_some_iff.1 h
  obtain ⟨sec', q7, h7, h⟩ := bind_some_iff.1 h
  obtain ⟨_, q8, h8, h⟩ := bind_some_iff.1 h
  obtain ⟨rfl, rfl⟩ := Prod.mk.inj (pure_some_iff.1 h)
  obtain ⟨f1, hf1, hreport⟩ := argMode_named h1
  obtain ⟨f2, hf2, hbuffer⟩ := argMode_named h2
  obtain ⟨rs, hrs, hrslen⟩ := getFrameArgReserved_read h3
  obtain ⟨f5, f6, hf5, hf6, hpri, hpriPort⟩ := argServer_read h4 h5
  obtain ⟨f7, f8, hf7, hf8, hsec, hsecPort⟩ := argServer_read h6 h7
  obtain ⟨rs', hrs', -⟩ := getFrameArgReserved_read h8
  obtain ⟨r1, r2, rfl⟩ : ∃ r1 r2, rs = [r1, r2] := by
    match rs, hrslen with
    | [r1, r2], _ => exact ⟨r1, r2, rfl⟩
  have hall : Fields raw p' ([password, f1, f2] ++ [r1, r2] ++ [f5, f6, f7, f8] ++ rs') q8 :=
    (((Fields.cons hpw (.cons hf1 (.one hf2))).append hrs).append
      (.cons hf5 (.cons hf6 (.cons hf7 (.one hf8))))).append hrs'
  exact ⟨_, hall, by simp, ⟨hreport, hbuffer, hpri, hpriPort, hsec, hsecPort⟩⟩

/-- The fields of an accepted frame that sets the servers are those of its text. -/
theorem parse_ips {frame : ParsedFrame} {arg : ArgIps} (h : parseDnlnkFrame cfg raw = some frame)
    (harg : frame.arg = .ips arg) : IpsArg (fieldsOf (textAt raw 7)) cfg.ips arg := by
  obtain ⟨-, type, -, q, r, hframe, -, -⟩ := parseDnlnkFrame_some h
  rw [harg] at hframe
  cases type with
  | ips =>
    obtain ⟨password, q1, hp, hr⟩ := bind_some_iff.1 hframe
    obtain ⟨arg', q2, ha, hr⟩ := bind_some_iff.1 hr
    obtain ⟨heq, rfl⟩ := Prod.mk.inj (pure_some_iff.1 hr)
    obtain rfl := DnlnkArg.ips.inj (Prod.mk.inj heq).2
    obtain ⟨fs, hfs, hlen, hargs⟩ := getDnlnkFrameArgIps_read (password_field hp).1 ha
    have key (k : Nat) (hk : k < 9) : fs.getD k [] = (fieldsOf (textAt raw 7)).getD k [] :=
      hfs.eq_fieldsOf (by omega)
    exact
      { reportMode := key 1 (by omega) ▸ hargs.reportMode
        bufferMode := key 2 (by omega) ▸ hargs.bufferMode
        priHost := key 5 (by omega) ▸ hargs.priHost
        priPort := key 6 (by omega) ▸ hargs.priPort
        secHost := key 7 (by omega) ▸ hargs.secHost
        secPort := key 8 (by omega) ▸ hargs.secPort }
  | scs =>
    obtain ⟨a, q1, -, hr⟩ := bind_some_iff.1 hframe
    exact absurd (Prod.mk.inj (Prod.mk.inj (pure_some_iff.1 hr)).1).2 (by simp)
  | apn | lss | rth =>
    obtain ⟨password, q1, -, hr⟩ := bind_some_iff.1 hframe
    obtain ⟨a, q2, -, hr⟩ := bind_some_iff.1 hr
    exact absurd (Prod.mk.inj (Prod.mk.inj (pure_some_iff.1 hr)).1).2 (by simp)

end Parse

/-! ## Execution -/

theorem execHost_flag (arg : ArgServer) (c : ConfigServer) (b : Bool) :
    (execHost arg (c, b)).1 = (execHost arg (c, false)).1 := by
  unfold execHost
  simp only
  split
  · split
    · rfl
    · split <;> rfl
  · split
    · split <;> rfl
    · split
      · split <;> rfl
      · rfl

/-- What `btlink_cmd_exec_ips` leaves of the section. -/
theorem execIps_fst (arg : ArgIps) (c : ConfigIps) : ∃ pri sec,
    pri = (execHost arg.pri (c.pri, false)).1 ∧ sec = (execHost arg.sec (c.sec, false)).1 ∧
    (execIps arg (c, false)).1 =
      { reportMode := arg.reportMode
        bufferMode := arg.bufferMode
        pri := { pri with sock := { pri.sock with port := arg.pri.sock.port } }
        sec := { sec with sock := { sec.sock with port := arg.sec.sock.port } } } := by
  have hport (a : ArgServer) (s : ConfigServer × Bool) :
      (execPort a s).1 = { s.1 with sock := { s.1.sock with port := a.sock.port } } :=
    assign_fst (fun _ => rfl) _ _
  have hreport (v : UInt8) (s : ConfigIps × Bool) :
      (assign (·.reportMode) (fun c reportMode => { c with reportMode }) v s).1 = { s.1 with reportMode := v } :=
    assign_fst (fun _ => rfl) _ _
  have hbuffer (v : UInt8) (s : ConfigIps × Bool) :
      (assign (·.bufferMode) (fun c bufferMode => { c with bufferMode }) v s).1 = { s.1 with bufferMode := v } :=
    assign_fst (fun _ => rfl) _ _
  refine ⟨_, _, rfl, rfl, ?_⟩
  simp only [execIps, chain_cons, chain_nil, onPri, onSec, focus_fst, hport, hreport, hbuffer]
  rw [execHost_flag arg.pri, execHost_flag arg.sec]

/-! ## Every reachable configuration -/

section Run

variable {τ : Type} {os : OsTimer τ} {t : Device τ}

/-- Another port does not matter to the host. -/
theorem HostNamed.port_iff {f : List UInt8} {old new : ConfigServer} {port : UInt16} :
    HostNamed f old { new with sock := { new.sock with port } } ↔ HostNamed f old new :=
  ⟨fun h => ⟨h.empty, h.quad, h.name, h.numeric⟩, fun h => ⟨h.empty, h.quad, h.name, h.numeric⟩⟩

theorem ServerOk.port {c : ConfigServer} (h : ServerOk c) (port : UInt16) :
    ServerOk { c with sock := { c.sock with port } } := ⟨h.mode, h.ended, h.addr⟩

/-- The NV items hold the configuration, and its servers are well formed. -/
structure Sound (t : Device τ) : Prop where
  persistent : Persistent t
  pri : ServerOk t.config.ips.pri
  sec : ServerOk t.config.ips.sec

theorem Sound.cmdExecIps (h : Sound t) {fields : List (List UInt8)} {arg : ArgIps}
    (harg : IpsArg fields t.config.ips arg) : Sound (cmdExecIps arg t) := by
  obtain ⟨pri, sec, hpri, hsec, hfst⟩ := execIps_fst arg t.config.ips
  have hips : (Tracker.cmdExecIps arg t).config.ips = (execIps arg (t.config.ips, false)).1 := rfl
  refine ⟨h.persistent.cmdExecIps arg, ?_, ?_⟩
  · rw [hips, hfst, hpri]
    exact (execHost_ok harg.priHost h.pri _).port _
  · rw [hips, hfst, hsec]
    exact (execHost_ok harg.secHost h.sec _).port _

theorem Sound.cmdExec (h : Sound t) {content : List UInt8} {len : Nat} {past : Nat → UInt8} {frame : ParsedFrame}
    (hparse : parseDnlnkFrame t.config (rawDnlnkFrame content len past) = some frame) :
    Sound (cmdExec os t frame.arg) := by
  cases harg : frame.arg with
  | ips arg => exact h.cmdExecIps (parse_ips hparse harg)
  | apn arg => exact ⟨h.persistent.cmdExecApn arg, h.pri, h.sec⟩
  | scs arg => exact ⟨h.persistent.cmdExecScs arg, h.pri, h.sec⟩
  | lss arg => exact ⟨h.persistent.cmdExecLss arg, h.pri, h.sec⟩
  | rth subCommand => exact h

theorem Sound.step (h : Sound t) {a : Action} {t' : Device τ} (hs : step os t a = some t') : Sound t' := by
  have hp := h.persistent.step hs
  cases happens_of_step os hs with
  | mode => exact ⟨hp, h.pri, h.sec⟩
  | frame hparse => exact h.cmdExec hparse
  | expiration => exact ⟨hp, h.pri, h.sec⟩
  | reset =>
    have hcfg : (powerOn os t.nv).config = t.config := h.persistent.powerOn_config
    exact ⟨hp, hcfg ▸ h.pri, hcfg ▸ h.sec⟩

theorem zeroServer_ok : ServerOk zeroServer := ⟨.inl rfl, zero_host_ended, .inr ⟨rfl, by decide⟩⟩

/-- A new device. -/
theorem powerOn_sound : Sound (powerOn os fun _ => none) := by
  have hitem {α : Type} (L : Layout α) (key : String) : Saved L key fun _ => none := .inl rfl
  have hp : Persistent (powerOn os fun _ => none) :=
    btlinkProNvInit_holds ⟨hitem _ _, hitem _ _, hitem _ _, hitem _ _⟩ zeroConfig
  have hips : (powerOn os fun _ => none).config.ips = nvDefaultIps := by
    have himage := nvItemRead_image (nvItemWrite_self (fun _ => none) nvBtIps (Layouts.ips.encode nvDefaultIps))
      (by decide)
    simp only [powerOn, btlinkProNvInit]
    unfold nvInitItem
    rw [if_neg (by simp [nvItemRead, efGetEnvBlob]), himage, Layout.overlay_encode]
  exact ⟨hp, hips ▸ zeroServer_ok, hips ▸ zeroServer_ok⟩

theorem reachable_sound (h : Machine.Reachable (step os) (powerOn os fun _ => none) t) : Sound t :=
  h.inv powerOn_sound fun _ _ _ hs h => hs.step h

/-! ## The law -/

theorem header_injective {type : FrameHeader} (h : type.str = FrameHeader.ips.str) : type = .ips := by
  cases type with
  | ips => rfl
  | apn | scs | lss | rth => exact absurd h (by decide)

/-- An accepted frame with the header of `AT@IPS` sets the servers. -/
theorem parse_ips_type {cfg : Config} {raw : RawFrame} {frame : ParsedFrame}
    (h : parseDnlnkFrame cfg raw = some frame) (htype : slice raw.data 3 lenHeader = FrameHeader.ips.str) :
    ∃ arg, frame.arg = .ips arg := by
  obtain ⟨-, type, htype', q, r, hframe, -, -⟩ := parseDnlnkFrame_some h
  obtain rfl := header_injective (htype'.symm.trans htype)
  obtain ⟨password, q1, -, hr⟩ := bind_some_iff.1 hframe
  obtain ⟨arg, q2, -, hr⟩ := bind_some_iff.1 hr
  exact ⟨arg, ((Prod.mk.inj (Prod.mk.inj (pure_some_iff.1 hr)).1).2).symm⟩

end Run

section Law

variable {τ : Type} {os : OsTimer τ} {t : Device τ}

/-- **When an accepted `AT@IPS` frame sets the servers it names.** In every
reachable state, after a frame that `btlink_check_and_exec_protocol` accepts
the configuration is the one the frame names, modes and ports included, if and
only if the code stores the server of each of the two host fields. -/
theorem servers_named_iff (ht : Machine.Reachable (step os) (powerOn os fun _ => none) t)
    {content : List UInt8} {len : Nat} {past : Nat → UInt8}
    (htype : slice (rawDnlnkFrame content len past).data 3 lenHeader = FrameHeader.ips.str)
    (haccept : (checkAndExecProtocol os t content len past).1 = true) :
    let fields := fieldsOf (textAt (rawDnlnkFrame content len past) 7)
    IpsNamed fields t.config.ips (checkAndExecProtocol os t content len past).2.config.ips ↔
      HostStored (fields.getD 5 []) t.config.ips.pri ∧ HostStored (fields.getD 7 []) t.config.ips.sec := by
  have hsound := reachable_sound ht
  obtain ⟨frame, hparse, hstate⟩ := checkAndExecProtocol_true os haccept
  obtain ⟨arg, harg⟩ := parse_ips_type hparse htype
  have hargs := parse_ips hparse harg
  obtain ⟨pri, sec, hpri, hsec, hfst⟩ := execIps_fst arg t.config.ips
  have hnew : (checkAndExecProtocol os t content len past).2.config.ips
      = (execIps arg (t.config.ips, false)).1 := by
    rw [hstate, harg]
    rfl
  have hpriIff := hostNamed_execHost_iff hargs.priHost hsound.pri false
  have hsecIff := hostNamed_execHost_iff hargs.secHost hsound.sec false
  rw [← hpri] at hpriIff
  rw [← hsec] at hsecIff
  intro fields
  rw [hnew, hfst, ← hpriIff, ← hsecIff]
  constructor
  · intro h
    exact ⟨HostNamed.port_iff.1 h.priHost, HostNamed.port_iff.1 h.secHost⟩
  · intro h
    exact
      { reportMode := hargs.reportMode
        bufferMode := hargs.bufferMode
        priHost := HostNamed.port_iff.2 h.1
        priPort := hargs.priPort
        secHost := HostNamed.port_iff.2 h.2
        secPort := hargs.secPort }

end Law

/-- A new device that is told its servers. -/
theorem servers_named_iff_first :
    IpsNamed (fieldsOf (textAt (rawDnlnkFrame (ascii "AT@IPS=btl100,1,2,,,10.0.0.1,5000,a.example,80,,,,,,,0001#")
        58 fun _ => 0) 7))
      (powerOn plainTimer fun _ => none).config.ips
      (checkAndExecProtocol plainTimer (powerOn plainTimer fun _ => none)
        (ascii "AT@IPS=btl100,1,2,,,10.0.0.1,5000,a.example,80,,,,,,,0001#") 58 fun _ => 0).2.config.ips := by
  refine (servers_named_iff Machine.Reachable.refl (by decide +kernel) (by decide +kernel)).2 ⟨?_, ?_⟩
  · exact ⟨by decide +kernel, by decide +kernel, by decide +kernel⟩
  · exact ⟨by decide +kernel, by decide +kernel, by decide +kernel⟩

/-- The new device after its main server was set to 10.0.0.1. -/
def serverSet : Device Bool :=
  (btlinkCmdParse plainTimer (powerOn plainTimer fun _ => none)
    (fun i => (ascii "AT@IPS=btl100,1,2,,,10.0.0.1,5000,,,,,,,,,0001#").getD i 0) 47 fun _ => 0).2.1

/-- An accepted frame names 10.0.0.2, and the main server stays 10.0.0.1. -/
theorem server_not_stored :
    Machine.Reachable (step plainTimer) (powerOn plainTimer fun _ => none) serverSet ∧
    slice (rawDnlnkFrame (ascii "AT@IPS=btl100,,,,,10.0.0.2,,,,,,,,,,0002#") 42 fun _ => 0).data 3 lenHeader
      = FrameHeader.ips.str ∧
    (checkAndExecProtocol plainTimer serverSet (ascii "AT@IPS=btl100,,,,,10.0.0.2,,,,,,,,,,0002#") 42
      fun _ => 0).1 = true ∧
    ¬ IpsNamed (fieldsOf (textAt (rawDnlnkFrame (ascii "AT@IPS=btl100,,,,,10.0.0.2,,,,,,,,,,0002#")
        42 fun _ => 0) 7)) serverSet.config.ips
      (checkAndExecProtocol plainTimer serverSet (ascii "AT@IPS=btl100,,,,,10.0.0.2,,,,,,,,,,0002#") 42
        fun _ => 0).2.config.ips := by
  refine ⟨⟨[lineAction "AT@IPS=btl100,1,2,,,10.0.0.1,5000,,,,,,,,,0001#"], rfl⟩, by decide +kernel,
    by decide +kernel, ?_⟩
  intro h
  have hfield : (fieldsOf (textAt (rawDnlnkFrame (ascii "AT@IPS=btl100,,,,,10.0.0.2,,,,,,,,,,0002#")
      42 fun _ => 0) 7)).getD 5 [] = ascii "10.0.0.2" := by decide +kernel
  have octet (ds : List UInt8) (o : UInt8) (h1 : ds ≠ []) (h2 : ds.all isDigit = true)
      (h3 : o.toNat = decimal ds) : Octet ds o := ⟨h1, List.all_eq_true.1 h2, h3⟩
  have hquad : DottedQuad (ascii "10.0.0.2") [10, 0, 0, 2] :=
    ⟨ascii "10", ascii "0", ascii "0", ascii "2", 10, 0, 0, 2, octet _ _ (by decide) (by decide) (by decide),
      octet _ _ (by decide) (by decide) (by decide), octet _ _ (by decide) (by decide) (by decide),
      octet _ _ (by decide) (by decide) (by decide), by decide, rfl⟩
  have hnew := (h.priHost.quad [10, 0, 0, 2] (hfield ▸ hquad)).2
  exact absurd hnew (by decide +kernel)

end Petbox.Tracker
