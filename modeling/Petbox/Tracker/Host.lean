/-
A host field, from its text to the server it sets: what
`btlink_soc_ip_check` reads in it, what the argument parser makes of it, and
what `btlink_cmd_exec_ips` then stores.
-/
import Petbox.Tracker.Fields
import Petbox.Tracker.Exec

namespace Petbox.Tracker

open CStr Update

/-! ## Addresses -/

/-- A decimal number of an address and the octet it stands for. -/
structure Octet (ds : List UInt8) (o : UInt8) : Prop where
  nonempty : ds ≠ []
  digits : ∀ c ∈ ds, isDigit c = true
  value : o.toNat = decimal ds

/-- Four decimal numbers up to 255 between dots, and their octets. -/
def DottedQuad (f octets : List UInt8) : Prop :=
  ∃ a b c d w x y z, Octet a w ∧ Octet b x ∧ Octet c y ∧ Octet d z ∧
    f = a ++ chrDot :: (b ++ chrDot :: (c ++ chrDot :: d)) ∧ octets = [w, x, y, z]

/-- `atoi` reads the number in front of a dot, or of the end. -/
theorem Octet.atoi {ds : List UInt8} {o : UInt8} (h : Octet ds o) {r : List UInt8}
    (hr : r = [] ∨ ∃ r', r = chrDot :: r') : Tracker.atoi (ds ++ r) = o.toNat := by
  have hlt := o.toNat_lt
  unfold Tracker.atoi
  rw [takeWhile_number h.digits hr, ← h.value]
  unfold intMax
  omega

/-- One octet in front of a dot. -/
theorem ipOctets_dot {ds r : List UInt8} {o : UInt8} (h : Octet ds o) (n : Nat) :
    ipOctets (n + 2) (ds ++ chrDot :: r) = ((ipOctets (n + 1) r).1, o :: (ipOctets (n + 1) r).2) := by
  have hlt := o.toNat_lt
  have hat := h.atoi (r := chrDot :: r) (.inr ⟨r, rfl⟩)
  have ho : o.toNat.toUInt8 = o := UInt8.ofNat_toNat
  rw [ipOctets, if_neg (by simp), hat, if_neg (by omega), if_neg (by omega),
    afterDot_append (digits_no_dot h.digits), ho]

/-- The last octet. -/
theorem ipOctets_last {ds : List UInt8} {o : UInt8} (h : Octet ds o) : ipOctets 1 ds = (true, [o]) := by
  have hlt := o.toNat_lt
  have hat := h.atoi (r := []) (.inl rfl)
  have ho : o.toNat.toUInt8 = o := UInt8.ofNat_toNat
  rw [List.append_nil] at hat
  rw [ipOctets, if_neg h.nonempty, hat, if_neg (by omega), if_pos rfl, ho]

/-- `btlink_soc_ip_check` reads a dotted quad as its octets. -/
theorem socIpCheck_quad {f o : List UInt8} (h : DottedQuad f o) :
    (socIpCheck f).ret = true ∧ (socIpCheck f).octets = o := by
  obtain ⟨a, b, c, d, w, x, y, z, ha, hb, hc, hd, rfl, rfl⟩ := h
  have hloop : ipOctets 4 (a ++ chrDot :: (b ++ chrDot :: (c ++ chrDot :: d))) = (true, [w, x, y, z]) := by
    rw [ipOctets_dot ha, ipOctets_dot hb, ipOctets_dot hc, ipOctets_last hd]
  have hall : (a ++ chrDot :: (b ++ chrDot :: (c ++ chrDot :: d))).all
      (fun c => isDigit c || c == chrDot) = true := by
    simp only [List.all_append, List.all_cons, Bool.and_eq_true, List.all_eq_true, Bool.or_eq_true]
    exact ⟨fun e he => .inl (ha.digits e he), .inr (by decide), fun e he => .inl (hb.digits e he),
      .inr (by decide), fun e he => .inl (hc.digits e he), .inr (by decide), fun e he => .inl (hd.digits e he)⟩
  unfold socIpCheck
  rw [if_pos hall, hloop]
  exact ⟨rfl, rfl⟩

/-- A text with any other character is no address. -/
theorem socIpCheck_other {f : List UInt8} {c : UInt8} (hc : c ∈ f) (hd : isDigit c = false) (hdot : c ≠ chrDot) :
    (socIpCheck f).ret = false := by
  have hall : ¬ (f.all (fun c => isDigit c || c == chrDot) = true) := by
    rw [List.all_eq_true]
    intro h
    have := h c hc
    rw [hd, Bool.false_or, beq_iff_eq] at this
    exact hdot this
  unfold socIpCheck
  rw [if_neg hall]

theorem length_ipOctets (n : Nat) (s : List UInt8) :
    (ipOctets n s).2.length ≤ n ∧ ((ipOctets n s).1 = true → (ipOctets n s).2.length = n) := by
  induction n generalizing s with
  | zero => exact ⟨Nat.le_refl _, fun _ => rfl⟩
  | succ n ih =>
    unfold ipOctets
    split
    · exact ⟨Nat.zero_le _, fun h => absurd h (by simp)⟩
    · split
      · exact ⟨Nat.zero_le _, fun h => absurd h (by simp)⟩
      · split
        · next hn => exact ⟨by simp, fun _ => by simp [hn]⟩
        · split
          · exact ⟨by simp, fun h => absurd h (by simp)⟩
          · next r hr =>
            obtain ⟨h1, h2⟩ := ih r
            exact ⟨by simpa using h1, fun h => by simpa using h2 h⟩

theorem socIpCheck_length {f : List UInt8} :
    (socIpCheck f).octets.length ≤ 4 ∧ ((socIpCheck f).ret = true → (socIpCheck f).octets.length = 4) := by
  unfold socIpCheck
  split
  · exact length_ipOctets 4 f
  · exact ⟨Nat.zero_le _, fun h => absurd h (by simp)⟩

theorem socIpCheck_validity {f : List UInt8} (h : (socIpCheck f).ret = true) :
    (socIpCheck f).validity = ((socIpCheck f).octets != [0, 0, 0, 0]) := by
  unfold socIpCheck at h ⊢
  split at h
  · next hall => rw [if_pos hall]
  · exact absurd h (by simp)

/-! ## From the field to the argument -/

/-- The parser takes the field as the address with these octets. -/
def AddrRead (f octets : List UInt8) : Prop :=
  ((socIpCheck f).ret = true ∧ (socIpCheck f).octets = octets ∧ octets ≠ [0, 0, 0, 0]) ∨
  (ipAllZero f = true ∧ octets = [0, 0, 0, 0] ∧
    ((socIpCheck f).ret = true → (socIpCheck f).octets = [0, 0, 0, 0]))

/-- The parser takes the field, if at all, as a domain name. -/
def NameRead (f : List UInt8) : Prop :=
  ipAllZero f = false ∧ ((socIpCheck f).ret = true → (socIpCheck f).octets = [0, 0, 0, 0])

/-- An argument that is an address. -/
structure AddrArg (arg : ArgServer) (octets : List UInt8) : Prop where
  mode : arg.mode = ipsPriIp
  addr : arg.sock.addr.bytes.take 4 = octets
  addrLen : arg.sock.addrLen = ipAddrLen

/-- An argument that is a domain name. -/
structure NameArg (arg : ArgServer) (name : List UInt8) : Prop where
  mode : arg.mode = ipsPriDn
  host : arg.host.bytes = name ++ List.replicate (lenIpsHost - name.length) 0

theorem addrArg_hostAddr (arg : ArgServer) {octets : List UInt8} (h : octets.length = 4) :
    AddrArg (hostAddr arg octets) octets where
  mode := rfl
  addr := by
    simp only [hostAddr]
    rw [CharArray.bytes_overwrite (by unfold maxSockAddrLen; omega), List.take_left' h]
  addrLen := rfl

/-- What the parser makes of a nonempty host field. -/
theorem hostFromField_some {f : List UInt8} {arg : ArgServer} (hf : Text f) (hlen : f.length ≤ lenIpsHost)
    (h : hostFromField f zeroArgServer = some arg) :
    (∃ octets, AddrRead f octets ∧ AddrArg arg octets) ∨ (NameRead f ∧ NameArg arg f) := by
  have hvalid : (socIpCheck f).ret = true →
      ((socIpCheck f).validity = false ↔ (socIpCheck f).octets = [0, 0, 0, 0]) := by
    intro hr
    rw [socIpCheck_validity hr]
    simp
  simp only [hostFromField] at h
  split at h
  · next hc =>
    rw [Bool.and_eq_true] at hc
    refine .inl ⟨(socIpCheck f).octets, .inl ⟨hc.1, rfl, ?_⟩, ?_⟩
    · intro hz
      rw [(hvalid hc.1).2 hz] at hc
      exact absurd hc.2 (by simp)
    · exact Option.some.inj h ▸ addrArg_hostAddr _ (socIpCheck_length.2 hc.1)
  · next hc =>
    -- the check failed, or it read zeros
    have hzero : (socIpCheck f).ret = true → (socIpCheck f).octets = [0, 0, 0, 0] := by
      intro hr
      rw [hr, Bool.true_and, Bool.not_eq_true] at hc
      exact (hvalid hr).1 hc
    split at h
    · next hz => exact .inl ⟨[0, 0, 0, 0], .inr ⟨hz, rfl, hzero⟩, Option.some.inj h ▸ addrArg_hostAddr _ rfl⟩
    · next hz =>
      split at h
      · exact absurd h (by simp)
      · refine .inr ⟨⟨by simpa using hz, hzero⟩, Option.some.inj h ▸ ⟨rfl, ?_⟩⟩
        simp only [zeroArgServer]
        rw [CharArray.bytes_strncpy hlen, CharArray.bytes_zero, strncpyBytes, List.take_length, cstr_text hf,
          Nat.sub_self, List.drop_replicate]
        simp

/-! ## From the argument to the configuration -/

/-- What holds of a server in every configuration: its mode is one of the two,
the byte behind the host is 0, and an address that was never set is zeros. -/
structure ServerOk (c : ConfigServer) : Prop where
  mode : c.mode = ipsPriIp ∨ c.mode = ipsPriDn
  ended : c.host.bytes.drop lenIpsHost = [0]
  addr : c.sock.addrLen = ipAddrLen ∨ (c.sock.addrLen = 0 ∧ c.sock.addr.bytes.take 4 = [0, 0, 0, 0])

theorem zero_host_ended : (CharArray.zero (1 + lenIpsHost)).bytes.drop lenIpsHost = [0] := by decide

theorem take_three {a b : List UInt8} (h : a.take 4 = b.take 4) : a.take 3 = b.take 3 := by
  have := congrArg (List.take 3) h
  simpa [List.take_take] using this

/-- `IP_ALL_MATCH` compares three of the four octets. -/
theorem ipAllMatch_iff {a b : List UInt8} (ha : 3 ≤ a.length) (hb : 3 ≤ b.length) :
    ipAllMatch a b = true ↔ a.take 3 = b.take 3 := by
  match a, b, ha, hb with
  | a0 :: a1 :: a2 :: a, b0 :: b1 :: b2 :: b, _, _ =>
    simp [ipAllMatch, UInt8.or_eq_zero_iff, and_assoc]

theorem overwrite_full {n : Nat} (a b : CharArray n) : a.overwrite b.bytes = b := by
  apply CharArray.ext
  have ha := a.size
  have hb := b.size
  rw [CharArray.bytes_overwrite (by omega), List.drop_of_length_le (by omega), List.append_nil]

/-- An empty host field changes nothing. -/
theorem execHost_keep {c : ConfigServer} (hc : ServerOk c) (b : Bool) :
    execHost (hostFromConfig c zeroArgServer) (c, b) = (c, b) := by
  have haddr := c.sock.addr.size
  have hhost := c.host.size
  rcases hc.mode with hm | hm
  · have harg : hostFromConfig c zeroArgServer =
        { zeroArgServer with
          mode := c.mode
          sock := { zeroSockAddr with
            addr := (CharArray.zero maxSockAddrLen).overwrite (c.sock.addr.bytes.take c.sock.addrLen.toNat)
            addrLen := c.sock.addrLen } } := if_pos hm
    have hmatch : ipAllMatch ((CharArray.zero maxSockAddrLen).overwrite
        (c.sock.addr.bytes.take c.sock.addrLen.toNat)).bytes c.sock.addr.bytes = true := by
      rw [ipAllMatch_iff (by rw [CharArray.size]; decide) (by rw [haddr]; decide)]
      apply take_three
      rcases hc.addr with hl | hl
      · have h4 : c.sock.addrLen.toNat = 4 := by rw [hl]; rfl
        have hlen : (c.sock.addr.bytes.take 4).length = 4 := by
          rw [List.length_take, haddr]
          rfl
        rw [h4, CharArray.bytes_overwrite (by rw [hlen]; decide), List.take_left' hlen]
      · have h0 : c.sock.addrLen.toNat = 0 := by rw [hl.1]; rfl
        rw [h0, hl.2]
        rfl
    rw [harg]
    unfold execHost
    rw [if_neg (by simp), if_pos hm, if_pos hmatch]
  · have hne : ¬ c.mode = ipsPriIp := by rw [hm]; decide
    have harg : hostFromConfig c zeroArgServer =
        { zeroArgServer with
          mode := c.mode
          host := (CharArray.zero lenIpsHost).strncpy c.host.bytes lenIpsHost } := by
      simp only [hostFromConfig]
      rw [if_neg hne, if_pos hm]
      rfl
    have hsame : strncmpEq c.host.bytes ((CharArray.zero lenIpsHost).strncpy c.host.bytes lenIpsHost).bytes
        lenIpsHost = true := by
      rw [strncmpEq_iff, CharArray.bytes_strncpy (Nat.le_refl _), List.take_left' (length_strncpyBytes ..),
        cstr_strncpyBytes]
    rw [harg]
    unfold execHost
    rw [if_neg (by simp), if_neg hne, if_pos hm, if_pos hsame]

/-- An address is stored, unless the server is set by an address that has the
same first three octets: then nothing changes. -/
theorem execHost_addr {arg : ArgServer} {octets : List UInt8} (harg : AddrArg arg octets) {c : ConfigServer}
    (hc : ServerOk c) (b : Bool) :
    ServerOk (execHost arg (c, b)).1 ∧ (execHost arg (c, b)).1.mode = ipsPriIp ∧
    (execHost arg (c, b)).1.sock.addr.bytes.take 4 =
      if c.mode = ipsPriIp ∧ c.sock.addr.bytes.take 3 = octets.take 3 then c.sock.addr.bytes.take 4
      else octets := by
  have hcopy : (copyAddr arg c).sock.addr.bytes.take 4 = octets := by
    simp only [copyAddr]
    rw [overwrite_full, harg.addr]
  have htake : octets.take 3 = arg.sock.addr.bytes.take 3 := by
    rw [← harg.addr, List.take_take]
    rfl
  unfold execHost
  by_cases hm : arg.mode ≠ c.mode
  · have hne : ¬ (c.mode = ipsPriIp ∧ c.sock.addr.bytes.take 3 = octets.take 3) :=
      fun h => hm (harg.mode.trans h.1.symm)
    simp only [if_pos hm, if_pos harg.mode, if_neg hne]
    exact ⟨⟨.inl harg.mode, zero_host_ended, .inl harg.addrLen⟩, harg.mode, hcopy⟩
  · have hcm : c.mode = ipsPriIp := (not_not.1 hm).symm.trans harg.mode
    simp only [if_neg hm, if_pos harg.mode]
    by_cases hmatch : ipAllMatch arg.sock.addr.bytes c.sock.addr.bytes = true
    · have heq := (ipAllMatch_iff (by rw [CharArray.size]; decide) (by rw [CharArray.size]; decide)).1 hmatch
      rw [if_pos hmatch, if_pos ⟨hcm, by rw [htake, heq]⟩]
      exact ⟨hc, hcm, rfl⟩
    · have hne : ¬ (c.mode = ipsPriIp ∧ c.sock.addr.bytes.take 3 = octets.take 3) := by
        intro h
        rw [htake] at h
        exact hmatch ((ipAllMatch_iff (by rw [CharArray.size]; decide) (by rw [CharArray.size]; decide)).2
          h.2.symm)
      rw [if_neg hmatch, if_neg hne]
      exact ⟨⟨.inl hcm, hc.ended, .inl harg.addrLen⟩, hcm, hcopy⟩

/-- A domain name is stored. -/
theorem execHost_name {arg : ArgServer} {name : List UInt8} (harg : NameArg arg name) (hname : Text name)
    {c : ConfigServer} (hc : ServerOk c) (b : Bool) :
    ServerOk (execHost arg (c, b)).1 ∧ (execHost arg (c, b)).1.mode = ipsPriDn ∧
    (execHost arg (c, b)).1.host.str = name := by
  have hsize := arg.host.size
  have hnip : ¬ arg.mode = ipsPriIp := by rw [harg.mode]; decide
  have hstr : cstr arg.host.bytes = name := by
    rw [harg.host, cstr_append hname, cstr_replicate, List.append_nil]
  have hbytes : (c.host.overwrite arg.host.bytes).bytes = arg.host.bytes ++ [0] := by
    rw [CharArray.bytes_overwrite (by rw [hsize]; decide), hsize, hc.ended]
  have hcopy : (copyHost arg c).host.str = name ∧ (copyHost arg c).host.bytes.drop lenIpsHost = [0] := by
    simp only [copyHost, CharArray.str]
    rw [hbytes, cstr_append_nul, hstr, List.drop_left' hsize]
    exact ⟨rfl, rfl⟩
  unfold execHost
  by_cases hm : arg.mode ≠ c.mode
  · simp only [if_pos hm, if_neg hnip, if_pos harg.mode]
    exact ⟨⟨.inr harg.mode, hcopy.2, hc.addr⟩, harg.mode, hcopy.1⟩
  · have hcm : c.mode = ipsPriDn := (not_not.1 hm).symm.trans harg.mode
    simp only [if_neg hm, if_neg hnip, if_pos harg.mode]
    split
    · next hsame =>
      refine ⟨hc, hcm, ?_⟩
      rw [strncmpEq_iff, List.take_of_length_le (Nat.le_of_eq hsize), hstr] at hsame
      have hsplit : c.host.bytes = c.host.bytes.take lenIpsHost ++ [0] := by
        conv => lhs; rw [← List.take_append_drop lenIpsHost c.host.bytes, hc.ended]
      unfold CharArray.str
      rw [hsplit, cstr_append_nul, hsame]
    · exact ⟨⟨.inr hcm, hcopy.2, hc.addr⟩, hcm, hcopy.1⟩

end Petbox.Tracker
