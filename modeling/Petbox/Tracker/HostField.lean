/-
The host fields of `AT@IPS`: which texts are an address, which a domain name.

Three tests are tried one after the other. `btlink_soc_ip_check` reads the
number in front of each of the first three dots, and the one that the rest
starts with; a number may be missing there, and anything of digits and dots may
follow the last. Zeros are known by the seven characters `0.0.0.0`, whatever
follows them. What is left is a domain name if only its first dot stands
somewhere in the middle.
-/
import Petbox.Tracker.Grammar
import Petbox.Tracker.Servers

namespace Petbox.Tracker

open CStr Mem

/-! ## What the address test reads -/

/-- Three numbers that may be empty, each with its dot, and a rest of digits
and dots that starts with the fourth; none is more than 255. -/
def LooseQuad (f octets : List UInt8) : Prop :=
  ∃ a b c d w x y z, (∀ e ∈ a, isDigit e = true) ∧ (∀ e ∈ b, isDigit e = true) ∧ (∀ e ∈ c, isDigit e = true) ∧
    (d ≠ [] ∧ ∀ e ∈ d, isDigit e = true ∨ e = chrDot) ∧
    (w.toNat = decimal a ∧ x.toNat = decimal b ∧ y.toNat = decimal c ∧ z.toNat = decimal (d.takeWhile isDigit)) ∧
    f = a ++ chrDot :: (b ++ chrDot :: (c ++ chrDot :: d)) ∧ octets = [w, x, y, z]

section Octets

variable {s os : List UInt8}

/-- The octet that is stored for a number that is not too large. -/
theorem atoi_octet_iff {w : UInt8} :
    w.toNat = decimal (s.takeWhile isDigit) ↔ atoi s ≤ 255 ∧ (atoi s).toUInt8 = w := by
  have hatoi : atoi s = min (decimal (s.takeWhile isDigit)) intMax := rfl
  have hlt := w.toNat_lt
  unfold intMax at hatoi
  constructor
  · intro h
    rw [← h] at hatoi
    have heq : atoi s = w.toNat := by omega
    rw [heq]
    exact ⟨by omega, UInt8.ofNat_toNat⟩
  · intro h
    obtain ⟨hle, rfl⟩ := h
    have hmod : (atoi s).toUInt8.toNat = atoi s := Nat.mod_eq_of_lt (Nat.lt_succ_of_le hle)
    rw [hmod]
    omega

/-- In a text of digits and dots the digits go up to the first dot. -/
theorem digits_before_dot (hs : ∀ e ∈ s, isDigit e = true ∨ e = chrDot) :
    (chrDot ∉ s ∧ afterDot s = none) ∨
    ∃ a r, (∀ e ∈ a, isDigit e = true) ∧ s = a ++ chrDot :: r ∧ afterDot s = some r ∧ s.takeWhile isDigit = a := by
  induction s with
  | nil => exact .inl ⟨List.not_mem_nil, rfl⟩
  | cons e s ih =>
    rcases hs e (List.mem_cons_self ..) with he | rfl
    · have hne : e ≠ chrDot := by
        rintro rfl
        exact absurd he (by decide)
      have hafter : afterDot (e :: s) = afterDot s := by
        unfold afterDot
        rw [List.dropWhile_cons_of_pos (by simpa using hne)]
      rcases ih fun x hx => hs x (List.mem_cons_of_mem _ hx) with ⟨hmem, hnone⟩ | ⟨a, r, ha, rfl, hsome, htake⟩
      · exact .inl ⟨by simp [hmem, hne.symm], by rw [hafter, hnone]⟩
      · refine .inr ⟨e :: a, r, List.forall_mem_cons.2 ⟨he, ha⟩, rfl, by rw [hafter, hsome], ?_⟩
        rw [List.takeWhile_cons_of_pos he, htake]
    · exact .inr ⟨[], s, fun _ h => absurd h List.not_mem_nil, rfl, rfl, rfl⟩

/-- The last pass of the loop. -/
theorem ipOctets_last_iff :
    ipOctets 1 s = (true, os) ↔ s ≠ [] ∧ ∃ z : UInt8, z.toNat = decimal (s.takeWhile isDigit) ∧ os = [z] := by
  unfold ipOctets
  by_cases hnil : s = []
  · simp [hnil]
  · rw [if_neg hnil]
    by_cases hle : atoi s ≤ 255
    · rw [if_neg (by omega), if_pos rfl]
      constructor
      · intro h
        exact ⟨hnil, _, atoi_octet_iff.2 ⟨hle, rfl⟩, (Prod.mk.inj h).2.symm⟩
      · intro h
        obtain ⟨-, z, hz, rfl⟩ := h
        rw [(atoi_octet_iff.1 hz).2]
    · rw [if_pos (by omega)]
      constructor
      · intro h
        exact absurd (Prod.mk.inj h).1 (by simp)
      · intro h
        obtain ⟨-, z, hz, -⟩ := h
        exact absurd (atoi_octet_iff.1 hz).1 hle

/-- The passes before: a number, its dot, and the rest. -/
theorem ipOctets_dot_iff (hs : ∀ e ∈ s, isDigit e = true ∨ e = chrDot) (n : Nat) :
    ipOctets (n + 2) s = (true, os) ↔ ∃ a r w os', (∀ e ∈ a, isDigit e = true) ∧ s = a ++ chrDot :: r ∧
      w.toNat = decimal a ∧ os = w :: os' ∧ ipOctets (n + 1) r = (true, os') := by
  rcases digits_before_dot hs with ⟨hmem, hnone⟩ | ⟨a, r, ha, rfl, hsome, htake⟩
  · -- without a dot the loop breaks off
    have hfalse : (ipOctets (n + 2) s).1 = false := by
      rw [ipOctets, hnone]
      split
      · rfl
      · split
        · rfl
        · rw [if_neg (by omega)]
    constructor
    · intro h
      rw [h] at hfalse
      exact absurd hfalse (by simp)
    · intro h
      obtain ⟨a, r, _, _, -, rfl, -⟩ := h
      exact absurd (List.mem_append_right _ (List.mem_cons_self ..)) hmem
  · have hunique {a' r' : List UInt8} (ha' : ∀ e ∈ a', isDigit e = true) (h : a ++ chrDot :: r = a' ++ chrDot :: r') :
        a = a' ∧ r = r' := by
      have htake' : (a' ++ chrDot :: r').takeWhile isDigit = a' := by
        rw [List.takeWhile_append_of_pos ha', List.takeWhile_cons_of_neg (by decide), List.append_nil]
      obtain rfl : a = a' := by rw [← htake, h, htake']
      exact ⟨rfl, (List.cons.inj (List.append_cancel_left h)).2⟩
    have hdec : decimal ((a ++ chrDot :: r).takeWhile isDigit) = decimal a := by rw [htake]
    rw [ipOctets, if_neg (by simp), hsome]
    by_cases hle : atoi (a ++ chrDot :: r) ≤ 255
    · rw [if_neg (by omega), if_neg (by omega)]
      constructor
      · intro h
        obtain ⟨hret, rfl⟩ := Prod.mk.inj h
        exact ⟨a, r, _, _, ha, rfl, (atoi_octet_iff.2 ⟨hle, rfl⟩).trans hdec, rfl, Prod.ext hret rfl⟩
      · intro h
        obtain ⟨a', r', w, os', ha', heq, hw, rfl, hrest⟩ := h
        obtain ⟨rfl, rfl⟩ := hunique ha' heq
        simp only [hrest, (atoi_octet_iff.1 (hw.trans hdec.symm)).2]
    · rw [if_pos (by omega)]
      constructor
      · intro h
        exact absurd (Prod.mk.inj h).1 (by simp)
      · intro h
        obtain ⟨a', r', w, os', ha', heq, hw, -⟩ := h
        obtain ⟨rfl, rfl⟩ := hunique ha' heq
        exact absurd (atoi_octet_iff.1 (hw.trans hdec.symm)).1 hle

end Octets

/-- **What `btlink_soc_ip_check` takes for an address.** -/
theorem socIpCheck_iff {f octets : List UInt8} :
    (socIpCheck f).ret = true ∧ (socIpCheck f).octets = octets ↔ LooseQuad f octets := by
  have hcheck (hs : ∀ e ∈ f, isDigit e = true ∨ e = chrDot) :
      (socIpCheck f).ret = true ∧ (socIpCheck f).octets = octets ↔ ipOctets 4 f = (true, octets) := by
    unfold socIpCheck
    rw [if_pos (by simpa [List.all_eq_true] using hs), Prod.ext_iff]
  have htail {a r : List UInt8} (h : ∀ e ∈ a ++ chrDot :: r, isDigit e = true ∨ e = chrDot) :
      ∀ e ∈ r, isDigit e = true ∨ e = chrDot :=
    fun e he => h e (List.mem_append_right _ (List.mem_cons_of_mem _ he))
  constructor
  · intro h
    have hs : ∀ e ∈ f, isDigit e = true ∨ e = chrDot := by
      intro e he
      by_contra hne
      rw [not_or, Bool.not_eq_true] at hne
      rw [socIpCheck_other he hne.1 hne.2] at h
      exact absurd h.1 (by simp)
    obtain ⟨a, r, w, _, ha, rfl, hw, rfl, h1⟩ := (ipOctets_dot_iff hs 2).1 ((hcheck hs).1 h)
    obtain ⟨b, r, x, _, hb, rfl, hx, rfl, h2⟩ := (ipOctets_dot_iff (htail hs) 1).1 h1
    obtain ⟨c, d, y, _, hc, rfl, hy, rfl, h3⟩ := (ipOctets_dot_iff (htail (htail hs)) 0).1 h2
    obtain ⟨hd, z, hz, rfl⟩ := ipOctets_last_iff.1 h3
    exact ⟨a, b, c, d, w, x, y, z, ha, hb, hc, ⟨hd, htail (htail (htail hs))⟩, ⟨hw, hx, hy, hz⟩, rfl, rfl⟩
  · intro h
    obtain ⟨a, b, c, d, w, x, y, z, ha, hb, hc, ⟨hd, hrest⟩, ⟨hw, hx, hy, hz⟩, rfl, rfl⟩ := h
    have hadd {a r : List UInt8} (ha : ∀ e ∈ a, isDigit e = true) (hr : ∀ e ∈ r, isDigit e = true ∨ e = chrDot) :
        ∀ e ∈ a ++ chrDot :: r, isDigit e = true ∨ e = chrDot := by
      intro e he
      rcases List.mem_append.1 he with he | he
      · exact .inl (ha e he)
      · rcases List.mem_cons.1 he with rfl | he
        · exact .inr rfl
        · exact hr e he
    refine (hcheck (hadd ha (hadd hb (hadd hc hrest)))).2 ?_
    refine (ipOctets_dot_iff (hadd ha (hadd hb (hadd hc hrest))) 2).2 ⟨a, _, w, _, ha, rfl, hw, rfl, ?_⟩
    refine (ipOctets_dot_iff (hadd hb (hadd hc hrest)) 1).2 ⟨b, _, x, _, hb, rfl, hx, rfl, ?_⟩
    refine (ipOctets_dot_iff (hadd hc hrest) 0).2 ⟨c, d, y, _, hc, rfl, hy, rfl, ?_⟩
    exact ipOctets_last_iff.2 ⟨hd, z, hz, rfl⟩

/-! ## What the parser makes of a field -/

/-- The first dot has something in front of it, and something behind it. -/
def MiddleDot (f : List UInt8) : Prop := ∃ a r, f = a ++ chrDot :: r ∧ chrDot ∉ a ∧ a ≠ [] ∧ r ≠ []

/-- An address other than zeros. -/
def LooseAddr (f octets : List UInt8) : Prop := LooseQuad f octets ∧ octets ≠ [0, 0, 0, 0]

def zerosText : List UInt8 := ascii "0.0.0.0"

section Field

variable {f octets : List UInt8}

theorem ipAllZero_iff : ipAllZero f = true ↔ zerosText <+: f := by
  unfold ipAllZero
  constructor
  · intro h
    have htake := (strncmpEq_iff.1 h).symm
    have hlen : (f.take 7).length = 7 := by
      have hle := length_cstr_le (f.take 7)
      rw [htake] at hle
      have hge : 7 ≤ (f.take 7).length := hle
      rw [List.length_take] at hge ⊢
      omega
    have hcstr : cstr (f.take 7) = f.take 7 := by
      rcases cstr_split (f.take 7) with h | ⟨r, hr⟩
      · exact h
      · have hlen' := congrArg List.length hr
        rw [htake, List.length_append, hlen] at hlen'
        exact absurd hlen' (by simp [show (cstr ((ascii "0.0.0.0").take 7)).length = 7 from rfl])
    rw [hcstr] at htake
    rw [show zerosText = f.take 7 from htake.symm]
    exact List.take_prefix 7 f
  · intro h
    obtain ⟨r, rfl⟩ := h
    exact strncmpEq_iff.2 rfl

/-- Where the first dot stands. -/
theorem idxOf_dot {a r : List UInt8} (ha : chrDot ∉ a) : (a ++ chrDot :: r).idxOf chrDot = a.length := by
  rw [List.idxOf_append_of_notMem ha, List.idxOf_cons_self, Nat.add_zero]

theorem middleDot_iff :
    MiddleDot f ↔ ¬ (chrDot ∉ f ∨ f.idxOf chrDot = 0 ∨ f.length = f.idxOf chrDot + 1) := by
  constructor
  · intro h
    obtain ⟨a, r, rfl, hdot, ha, hr⟩ := h
    have hapos := List.length_pos_iff.2 ha
    have hrpos := List.length_pos_iff.2 hr
    rw [idxOf_dot hdot, List.length_append, List.length_cons]
    simp only [List.mem_append, List.mem_cons, true_or, or_true, not_true_eq_false, false_or]
    omega
  · intro h
    rw [not_or, not_or, not_not] at h
    obtain ⟨hmem, hfirst, hlast⟩ := h
    obtain ⟨a, r, rfl, hdot⟩ := List.eq_append_cons_of_mem hmem
    rw [idxOf_dot hdot] at hfirst hlast
    rw [List.length_append, List.length_cons] at hlast
    refine ⟨a, r, rfl, hdot, fun h => hfirst (by rw [h]; rfl), fun h => hlast ?_⟩
    rw [h]
    rfl

/-- What the parser makes of a nonempty field: an address other than zeros, or
else zeros, or else a domain name, or nothing. -/
theorem hostFromField_cases (hf : Text f) (hlen : f.length ≤ lenIpsHost) :
    (∃ octets arg, LooseAddr f octets ∧ hostFromField f zeroArgServer = some arg ∧ AddrArg arg octets) ∨
    ((¬ ∃ octets, LooseAddr f octets) ∧
      ((zerosText <+: f ∧ ∃ arg, hostFromField f zeroArgServer = some arg ∧ AddrArg arg [0, 0, 0, 0]) ∨
      (¬ zerosText <+: f ∧ MiddleDot f ∧ ∃ arg, hostFromField f zeroArgServer = some arg ∧ NameArg arg f) ∨
      (¬ zerosText <+: f ∧ ¬ MiddleDot f ∧ hostFromField f zeroArgServer = none))) := by
  by_cases hloose : ∃ octets, LooseAddr f octets
  · obtain ⟨octets, hquad, hne⟩ := hloose
    obtain ⟨hret, rfl⟩ := socIpCheck_iff.2 hquad
    have hvalid : (socIpCheck f).validity = true := by
      rw [socIpCheck_validity hret]
      simpa using hne
    refine .inl ⟨_, _, ⟨hquad, hne⟩, ?_, addrArg_hostAddr zeroArgServer (socIpCheck_length.2 hret)⟩
    unfold hostFromField
    simp only [hret, hvalid, Bool.and_self, if_true]
  · have hcheck : ¬ ((socIpCheck f).ret && (socIpCheck f).validity) = true := by
      intro h
      rw [Bool.and_eq_true] at h
      have hvalid := socIpCheck_validity h.1
      rw [h.2] at hvalid
      exact hloose ⟨_, socIpCheck_iff.1 ⟨h.1, rfl⟩, by simpa using hvalid.symm⟩
    refine .inr ⟨hloose, ?_⟩
    unfold hostFromField
    simp only [if_neg hcheck]
    by_cases hzero : zerosText <+: f
    · rw [if_pos (ipAllZero_iff.2 hzero)]
      exact .inl ⟨hzero, _, rfl, addrArg_hostAddr _ rfl⟩
    · rw [if_neg (fun h => hzero (ipAllZero_iff.1 h))]
      by_cases hdot : MiddleDot f
      · rw [if_neg (middleDot_iff.1 hdot)]
        refine .inr (.inl ⟨hzero, hdot, _, rfl, rfl, ?_⟩)
        simp only [zeroArgServer]
        rw [CharArray.bytes_strncpy hlen, CharArray.bytes_zero, strncpyBytes, List.take_length, cstr_text hf,
          Nat.sub_self, List.drop_replicate]
        simp
      · rw [if_pos (not_not.1 fun h => hdot (middleDot_iff.2 h))]
        exact .inr (.inr ⟨hzero, hdot, rfl⟩)

/-! ## When the three tests agree -/

/-- Digits and dots. -/
def Numeric (f : List UInt8) : Prop := ∀ e ∈ f, isDigit e = true ∨ e = chrDot

/-- A field taken for what it is: four octets as the address of these octets,
other digits and dots as nothing, and any other text as a domain name when its
first dot stands in the middle. -/
structure HostTaken (f : List UInt8) (r : Option ArgServer) : Prop where
  addr : (∃ arg, r = some arg ∧ arg.mode = ipsPriIp) ↔ ∃ octets, DottedQuad f octets
  octets : ∀ arg octets, r = some arg → DottedQuad f octets → arg.sock.addr.bytes.take 4 = octets
  numeric : Numeric f → (¬ ∃ octets, DottedQuad f octets) → r = none
  name : ¬ Numeric f → ((∃ arg, r = some arg ∧ NameArg arg f) ↔ MiddleDot f)

/-- The tests agree on a field: zeros are written `0.0.0.0`, digits and dots that
are no address are neither a name nor read as another address than zeros, and no
other text starts like zeros. -/
structure TestsAgree (f : List UInt8) : Prop where
  zeros : DottedQuad f [0, 0, 0, 0] → zerosText <+: f
  numeric : Numeric f → (¬ ∃ octets, DottedQuad f octets) → ¬ MiddleDot f ∧ ¬ ∃ octets, LooseAddr f octets
  other : ¬ Numeric f → ¬ zerosText <+: f

theorem DottedQuad.loose (h : DottedQuad f octets) : LooseQuad f octets := socIpCheck_iff.1 (socIpCheck_quad h)

theorem LooseQuad.unique {octets' : List UInt8} (h : LooseQuad f octets) (h' : LooseQuad f octets') :
    octets = octets' := (socIpCheck_iff.2 h).2.symm.trans (socIpCheck_iff.2 h').2

theorem LooseQuad.numeric (h : LooseQuad f octets) : Numeric f := by
  obtain ⟨a, b, c, d, -, -, -, -, ha, hb, hc, ⟨-, hd⟩, -, rfl, -⟩ := h
  intro e he
  simp only [List.mem_append, List.mem_cons] at he
  rcases he with he | he | he | he | he | he | he
  · exact .inl (ha e he)
  · exact .inr he
  · exact .inl (hb e he)
  · exact .inr he
  · exact .inl (hc e he)
  · exact .inr he
  · exact hd e he

/-- A text that starts like zeros has its first dot in the middle. -/
theorem middleDot_of_zeros (h : zerosText <+: f) : MiddleDot f := by
  obtain ⟨r, rfl⟩ := h
  exact ⟨[0x30], ascii "0.0.0" ++ r, rfl, by decide, by decide, by simp [ascii]⟩

section Taken

variable {arg : ArgServer}

theorem hostTaken_addr_iff (harg : AddrArg arg octets) : HostTaken f (some arg) ↔ DottedQuad f octets := by
  constructor
  · intro h
    obtain ⟨octets', hquad⟩ := h.addr.1 ⟨arg, rfl, harg.mode⟩
    rwa [← harg.addr, h.octets arg octets' rfl hquad]
  · intro h
    refine ⟨⟨fun _ => ⟨octets, h⟩, fun _ => ⟨arg, rfl, harg.mode⟩⟩, ?_, fun _ hno => absurd ⟨octets, h⟩ hno,
      fun hother => absurd h.loose.numeric hother⟩
    intro arg' octets' hsome hquad
    rw [← Option.some.inj hsome, harg.addr, h.loose.unique hquad.loose]

theorem hostTaken_name_iff (harg : NameArg arg f) : HostTaken f (some arg) ↔ ¬ Numeric f ∧ MiddleDot f := by
  have hmode : ¬ ∃ arg', some arg = some arg' ∧ arg'.mode = ipsPriIp := by
    intro h
    obtain ⟨arg', hsome, haddr⟩ := h
    rw [← Option.some.inj hsome, harg.mode] at haddr
    exact absurd haddr (by decide)
  constructor
  · intro h
    have hother : ¬ Numeric f := by
      intro hnum
      exact absurd (h.numeric hnum fun hquad => hmode (h.addr.2 hquad)) (by simp)
    exact ⟨hother, (h.name hother).1 ⟨arg, rfl, harg⟩⟩
  · intro h
    obtain ⟨hother, hdot⟩ := h
    have hquad {octets : List UInt8} : ¬ DottedQuad f octets := fun hq => hother hq.loose.numeric
    exact ⟨⟨fun haddr => absurd haddr hmode, fun ⟨_, hq⟩ => absurd hq hquad⟩, fun _ _ _ hq => absurd hq hquad,
      fun hnum => absurd hnum hother, fun _ => ⟨fun _ => hdot, fun _ => ⟨arg, rfl, harg⟩⟩⟩

theorem hostTaken_none_iff : HostTaken f none ↔ (∀ octets, ¬ DottedQuad f octets) ∧ (¬ Numeric f → ¬ MiddleDot f) := by
  have hnone {P : ArgServer → Prop} : ¬ ∃ arg, none = some arg ∧ P arg := fun h => by simp at h
  constructor
  · intro h
    exact ⟨fun octets hq => hnone (h.addr.2 ⟨octets, hq⟩), fun hother hdot => hnone ((h.name hother).2 hdot)⟩
  · intro h
    obtain ⟨hquad, hdot⟩ := h
    exact ⟨⟨fun ha => absurd ha hnone, fun ⟨_, hq⟩ => absurd hq (hquad _)⟩, fun _ _ _ hq => absurd hq (hquad _),
      fun _ _ => rfl, fun hother => ⟨fun ha => absurd ha hnone, fun hd => absurd hd (hdot hother)⟩⟩

end Taken

theorem hostFromField_taken_iff (hf : Text f) (hlen : f.length ≤ lenIpsHost) :
    HostTaken f (hostFromField f zeroArgServer) ↔ TestsAgree f := by
  rcases hostFromField_cases hf hlen with ⟨octets, arg, hloose, hsome, harg⟩ | ⟨hnone, hrest⟩
  · -- read as an address
    rw [hsome, hostTaken_addr_iff harg]
    constructor
    · intro h
      exact ⟨fun hz => absurd (h.loose.unique hz.loose) hloose.2, fun _ hno => absurd ⟨octets, h⟩ hno,
        fun hother => absurd h.loose.numeric hother⟩
    · intro h
      by_contra hquad
      refine (h.numeric hloose.1.numeric fun hq => hquad ?_).2 ⟨octets, hloose⟩
      obtain ⟨octets', hq⟩ := hq
      exact hloose.1.unique hq.loose ▸ hq
  · have hzeros {octets : List UInt8} (h : DottedQuad f octets) : octets = [0, 0, 0, 0] := by
      by_contra hne
      exact hnone ⟨octets, h.loose, hne⟩
    rcases hrest with ⟨hzero, arg, hsome, harg⟩ | ⟨hzero, hdot, arg, hsome, harg⟩ | ⟨hzero, hdot, hsome⟩
    · -- read as zeros
      rw [hsome, hostTaken_addr_iff harg]
      constructor
      · intro h
        exact ⟨fun _ => hzero, fun _ hno => absurd ⟨_, h⟩ hno, fun hother => absurd h.loose.numeric hother⟩
      · intro h
        by_contra hquad
        have hno : ¬ ∃ octets, DottedQuad f octets := by
          intro hq
          obtain ⟨octets, hq⟩ := hq
          exact hquad (hzeros hq ▸ hq)
        by_cases hnum : Numeric f
        · exact (h.numeric hnum hno).1 (middleDot_of_zeros hzero)
        · exact h.other hnum hzero
    · -- stored as a domain name
      rw [hsome, hostTaken_name_iff harg]
      constructor
      · intro h
        exact ⟨fun hz => absurd hz.loose.numeric h.1, fun hnum => absurd hnum h.1, fun _ => hzero⟩
      · intro h
        refine ⟨fun hnum => (h.numeric hnum fun hq => ?_).1 hdot, hdot⟩
        obtain ⟨octets, hq⟩ := hq
        exact hzero (h.zeros (hzeros hq ▸ hq))
    · -- rejected
      rw [hsome, hostTaken_none_iff]
      constructor
      · intro h
        exact ⟨fun hz => absurd hz (h.1 _), fun _ _ => ⟨hdot, hnone⟩, fun _ => hzero⟩
      · intro h
        exact ⟨fun octets hq => hzero (h.zeros (hzeros hq ▸ hq)), fun _ => hdot⟩

end Field

/-- The parser of either host field is the test of its text. -/
theorem argHost_eq {raw : RawFrame} (hraw : raw.length < 256) {p q : Nat} {f : List UInt8} (hat : FieldAt raw p f q)
    (hne : f ≠ []) (hlen : f.length ≤ lenIpsHost) (cfg : ConfigServer) :
    (argHost raw cfg zeroArgServer p).map Prod.fst = hostFromField f zeroArgServer := by
  have hfield := (getFrameField_iff hraw).2 ⟨hat, .inr hlen⟩
  unfold argHost argField
  simp only [hfield, Option.bind_some, if_neg hne]
  cases hostFromField f zeroArgServer <;> rfl

/-- **When a host field is taken for what it is**: when the three tests agree on it. -/
theorem host_taken_iff {raw : RawFrame} (hraw : raw.length < 256) {p q : Nat} {f : List UInt8}
    (hat : FieldAt raw p f q) (hne : f ≠ []) (hlen : f.length ≤ lenIpsHost) (cfg : ConfigServer) :
    HostTaken f ((argHost raw cfg zeroArgServer p).map Prod.fst) ↔ TestsAgree f := by
  rw [argHost_eq hraw hat hne hlen cfg]
  exact hostFromField_taken_iff hat.text.text hlen

/-- An `AT@IPS` frame with this text in the field of the main host, which starts at 18. -/
def hostFrame (host : List UInt8) : RawFrame :=
  let content := ascii "AT@IPS=btlink,,,,," ++ (host ++ ascii ",,,,,,,,,,0001#")
  rawDnlnkFrame content content.length fun _ => 0

theorem hostFrame_field : FieldAt (hostFrame (ascii "1.2.3")) 18 (ascii "1.2.3") 24 where
  cells := by decide +kernel
  text := by decide +kernel
  inside := by decide +kernel
  stop := by decide +kernel

/-- Three numbers are stored as a domain name. -/
theorem three_numbers_stored :
    (parseDnlnkFrame zeroConfig (hostFrame (ascii "1.2.3"))).isSome = true ∧
    Numeric (ascii "1.2.3") ∧ (¬ ∃ octets, DottedQuad (ascii "1.2.3") octets) ∧
    (∃ arg, (argHost (hostFrame (ascii "1.2.3")) zeroServer zeroArgServer 18).map Prod.fst = some arg ∧
      arg.mode = ipsPriDn ∧ arg.host.str = ascii "1.2.3") ∧
    ¬ HostTaken (ascii "1.2.3") ((argHost (hostFrame (ascii "1.2.3")) zeroServer zeroArgServer 18).map Prod.fst) := by
  have hnum : Numeric (ascii "1.2.3") := by
    unfold Numeric
    decide +kernel
  have hno : ¬ ∃ octets, DottedQuad (ascii "1.2.3") octets := by
    intro h
    obtain ⟨octets, hq⟩ := h
    exact absurd (socIpCheck_quad hq).1 (by decide +kernel)
  have hsome : ((argHost (hostFrame (ascii "1.2.3")) zeroServer zeroArgServer 18).map Prod.fst).isSome = true := by
    decide +kernel
  obtain ⟨arg, harg⟩ := Option.isSome_iff_exists.1 hsome
  have hmode : ((argHost (hostFrame (ascii "1.2.3")) zeroServer zeroArgServer 18).map Prod.fst).map
      (fun a => (a.mode, a.host.str)) = some (ipsPriDn, ascii "1.2.3") := by decide +kernel
  rw [harg, Option.map_some, Option.some.injEq, Prod.mk.injEq] at hmode
  refine ⟨by decide +kernel, hnum, hno, ⟨arg, harg, hmode⟩, fun h => ?_⟩
  rw [h.numeric hnum hno] at hsome
  exact absurd hsome (by simp)

theorem host_taken_iff_three_numbers :
    HostTaken (ascii "1.2.3") ((argHost (hostFrame (ascii "1.2.3")) zeroServer zeroArgServer 18).map Prod.fst) ↔
      TestsAgree (ascii "1.2.3") :=
  host_taken_iff (by decide +kernel) hostFrame_field (by decide) (by decide) zeroServer

end Petbox.Tracker
