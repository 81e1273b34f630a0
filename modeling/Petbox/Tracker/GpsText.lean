/-
The numbers of a position (`btlink_assem_hex_msg.c`): what
`btlink_hex_pack_altitude` and `btlink_hex_pack_speed` read in the text of a
decimal number.

Both take the digits behind the dot for a number of their own, in 8 bits.
-/
import Mathlib.Tactic.IntervalCases
import Petbox.Lib.Decimal
import Petbox.Tracker.HexReport

namespace Petbox.Tracker

open CStr Mem Pack

/-! ## `atoi` and `strchr` on a numeral -/

/-- A digit is neither white space nor a sign. -/
theorem atoiSigned_digits {ds r : List UInt8} (hne : ds ≠ []) (hds : ∀ c ∈ ds, isDigit c = true)
    (hlen : ds.length ≤ 9) (hr : r = [] ∨ ∃ r', r = chrDot :: r') : atoiSigned (ds ++ r) = (decimal ds : Nat) := by
  have hmin := Nat.min_eq_left (decimal_le_intMax hds hlen)
  have htake := takeWhile_number hds hr
  cases ds with
  | nil => exact absurd rfl hne
  | cons c ds =>
    have hdigit : isDigit c = true := hds c (List.mem_cons_self ..)
    have hspace : (c == 0x20 || (0x09 ≤ c && c ≤ 0x0d)) = false := by
      have hc := isDigit_iff.1 hdigit
      simp only [Bool.or_eq_false_iff, beq_eq_false_iff_ne, ne_eq, Bool.and_eq_false_iff, decide_eq_false_iff_not,
        ← UInt8.toNat_inj, UInt8.le_iff_toNat_le, UInt8.toNat_ofNat]
      omega
    unfold atoiSigned
    rw [List.cons_append, List.dropWhile_cons_of_neg (by simp only [hspace, Bool.false_eq_true, not_false_eq_true])]
    split
    · next heq => exact absurd (List.cons.inj heq).1 (ne_of_isDigit hdigit (by decide))
    · next heq => exact absurd (List.cons.inj heq).1 (ne_of_isDigit hdigit (by decide))
    · rw [← List.cons_append, htake, hmin]

theorem atoiSigned_negative {ds r : List UInt8} (hds : ∀ c ∈ ds, isDigit c = true)
    (hlen : ds.length ≤ 9) (hr : r = [] ∨ ∃ r', r = chrDot :: r') :
    atoiSigned (0x2d :: (ds ++ r)) = -(decimal ds : Nat) := by
  have hle := decimal_le_intMax hds hlen
  have hmin : min (decimal ds) (intMax + 1) = decimal ds := Nat.min_eq_left (by omega)
  unfold atoiSigned
  rw [List.dropWhile_cons_of_neg (by decide)]
  simp only
  rw [takeWhile_number hds hr, hmin]

section Text

variable {d : Numeral} (hlen : d.text.length ≤ 9)

include hlen

theorem atoiSigned_text : atoiSigned d.text = if d.negative then -(decimal d.whole : Int) else decimal d.whole := by
  have hw := Nat.le_trans d.length_whole_le hlen
  have hr : (if d.fraction = [] then [] else 0x2e :: d.fraction) = [] ∨
      ∃ r', (if d.fraction = [] then [] else 0x2e :: d.fraction) = chrDot :: r' := by
    split
    · exact .inl rfl
    · exact .inr ⟨_, rfl⟩
  unfold Numeral.text
  cases d.negative with
  | true => simpa using atoiSigned_negative d.whole_digits hw hr
  | false => simpa using atoiSigned_digits d.whole_ne d.whole_digits hw hr

/-- The number behind the dot. -/
theorem fractionOf_text (behind : List UInt8) :
    (fractionOf (d.text ++ 0 :: behind)).toNat = decimal d.fraction % 256 := by
  have hdot : ∀ c ∈ (if d.negative then [0x2d] else []) ++ d.whole, c ≠ chrDot := by
    intro c hc
    rcases List.mem_append.1 hc with hc | hc
    · split at hc <;> simp at hc
      rw [hc]
      decide
    · exact digits_no_dot d.whole_digits c hc
  unfold fractionOf
  rw [cstr_append_zero d.text_text, Numeral.text, ← List.append_assoc]
  by_cases hf : d.fraction = []
  · rw [if_pos hf, List.append_nil, afterDot_none hdot, hf]
    rfl
  · have hat := atoiSigned_digits hf d.fraction_digits (Nat.le_trans d.length_fraction_le hlen) (.inl rfl)
    rw [List.append_nil] at hat
    rw [if_neg hf]
    have hafter := afterDot_append hdot d.fraction
    unfold chrDot at hafter
    simp only [hafter, hat]
    rw [UInt8.ofInt, UInt8.toNat_ofNat']
    omega

end Text

/-! ## Altitude -/

theorem uint16_ofInt_inj {a b : Int} : UInt16.ofInt a = UInt16.ofInt b ↔ a % 65536 = b % 65536 := by
  rw [← UInt16.toNat_inj, UInt16.ofInt, UInt16.ofInt, UInt16.toNat_ofNat', UInt16.toNat_ofNat']
  omega

theorem be16_inj {u v : UInt16} : be16 u = be16 v ↔ u = v := by
  refine ⟨fun h => ?_, congrArg be16⟩
  have hval := congrArg Layout.leVal (List.reverse_injective h)
  have hu := u.toNat_lt
  have hv := v.toNat_lt
  rw [Layout.leVal_leBytes, Layout.leVal_leBytes] at hval
  rw [← UInt16.toNat_inj]
  omega

/-- Whether the code rounds the magnitude up: the number behind the dot has one
digit, in 8 bits. -/
def CodeRoundsUp (d : Numeral) : Prop := 5 ≤ decimal d.fraction % 256 ∧ decimal d.fraction % 256 ≤ 9

instance (d : Numeral) : Decidable (CodeRoundsUp d) := inferInstanceAs (Decidable (_ ∧ _))

/-- The number the code makes of an altitude, minus zero among them. -/
theorem altitudeInteger_text {d : Numeral} (hlen : d.text.length ≤ 9) (behind : List UInt8) :
    altitudeInteger (d.text ++ 0 :: behind) = UInt16.ofInt
      (if d.negative then -(decimal d.whole + if CodeRoundsUp d then 1 else 0)
      else decimal d.whole + if CodeRoundsUp d then 1 else 0) := by
  have hminus : ((d.text ++ 0 :: behind).headD 0 == 0x2d) = d.negative := by
    have hw := d.whole_ne
    have hd := d.whole_digits
    unfold Numeral.text
    cases d.negative with
    | true => rfl
    | false =>
      cases hc : d.whole with
      | nil => exact absurd hc hw
      | cons c w =>
        have hdigit : isDigit c = true := hd c (hc ▸ List.mem_cons_self ..)
        simpa using ne_of_isDigit hdigit (x := 0x2d) (by decide)
  have hup : (5 ≤ fractionOf (d.text ++ 0 :: behind) ∧ fractionOf (d.text ++ 0 :: behind) ≤ 9) ↔ CodeRoundsUp d := by
    rw [UInt8.le_iff_toNat_le, UInt8.le_iff_toNat_le, fractionOf_text hlen]
    rfl
  unfold altitudeInteger
  simp only [hminus, hup, cstr_append_zero d.text_text, atoiSigned_text hlen]
  cases d.negative with
  | true =>
    by_cases hc : CodeRoundsUp d
    · -- the special case of zero is what the subtraction gives
      have hdec (u : UInt16) : (if u ≠ 0 then u - 1 else 0xffff) = u - 1 := by
        by_cases hu : u = 0
        · rw [hu]; rfl
        · rw [if_pos hu]
      simp only [if_pos hc, if_true, hdec]
      rw [Int.neg_add, UInt16.ofInt_add, UInt16.ofInt_neg 1, UInt16.ofInt_one, UInt16.sub_eq_add_neg]
    · simp only [if_neg hc, if_true, Int.add_zero]
  | false =>
    by_cases hc : CodeRoundsUp d
    · simp only [if_pos hc, Bool.false_eq_true, if_false, UInt16.ofInt_add, UInt16.ofInt_one]
    · simp only [if_neg hc, Bool.false_eq_true, if_false, Int.add_zero]

/-- The altitude is packed rounded, halves away from zero, exactly if the number
behind the dot is 5 to 9 in 8 bits where its first digit is 5 to 9. -/
theorem altitude_rounded_iff (buff : Nat) (d : Numeral) (behind : List UInt8) (hlen : d.text.length ≤ 8) :
    (∃ n : Int, NearestAway d.value n ∧
      (hexPackAltitude buff (d.text ++ 0 :: behind)).stores = cells buff (be16 (UInt16.ofInt n))) ↔
    (5 ≤ digitVal (d.fraction.headD 0x30) ↔ 5 ≤ decimal d.fraction % 256 ∧ decimal d.fraction % 256 ≤ 9) := by
  have hstores : (hexPackAltitude buff (d.text ++ 0 :: behind)).stores =
      cells buff (be16 (altitudeInteger (d.text ++ 0 :: behind))) := (hexPackU16_packs _).stores buff
  simp only [Numeral.nearestAway_iff, exists_eq_left]
  rw [hstores, cells_inj, be16_inj, altitudeInteger_text (by omega), uint16_ofInt_inj]
  change _ ↔ (d.RoundsUp ↔ CodeRoundsUp d)
  unfold Numeral.rounded
  by_cases hup : d.RoundsUp <;> by_cases hcode : CodeRoundsUp d <;>
    simp only [hup, hcode, if_true, if_false, iff_true, iff_false, not_true] <;>
    split <;> omega

/-- 12.5 -/
def twelveHalf : Numeral := ⟨false, ascii "12", ascii "5", by simp [ascii], by decide +kernel, by decide +kernel⟩

/-- 12.75 -/
def twelveThreeQuarters : Numeral :=
  ⟨false, ascii "12", ascii "75", by simp [ascii], by decide +kernel, by decide +kernel⟩

theorem altitude_rounded_iff_half : twelveHalf.text = ascii "12.5" ∧
    ∃ n : Int, NearestAway twelveHalf.value n ∧
      (hexPackAltitude 0 (twelveHalf.text ++ [0])).stores = cells 0 (be16 (UInt16.ofInt n)) :=
  ⟨rfl, (altitude_rounded_iff 0 twelveHalf [] (by decide)).2 (by decide)⟩

/-- 12.75 is packed as 12. -/
theorem altitude_cut : ∃ d : Numeral, d.text = ascii "12.75" ∧ d.text.length ≤ 8 ∧ decimal d.whole ≤ 32766 ∧
    (hexPackAltitude 0 (d.text ++ [0])).stores = [(0, 0), (1, 12)] ∧
    ¬ ∃ n : Int, NearestAway d.value n ∧
      (hexPackAltitude 0 (d.text ++ [0])).stores = cells 0 (be16 (UInt16.ofInt n)) := by
  have hstores : (hexPackAltitude 0 (twelveThreeQuarters.text ++ [0])).stores = [(0, 0), (1, 12)] := by
    decide +kernel
  refine ⟨twelveThreeQuarters, rfl, by decide, by decide, hstores, ?_⟩
  simp only [Numeral.nearestAway_iff, exists_eq_left]
  rw [hstores]
  decide +kernel

/-! ## Speed -/

/-- When the bytes of two speeds say whether they are the same number. -/
structure SpeedsTold (a b : Numeral) : Prop where
  -- the numbers in front of the dots and behind them do not differ by what 16 and 8 bits lose
  fits : decimal a.whole % 65536 = decimal b.whole % 65536 → decimal a.fraction % 256 = decimal b.fraction % 256 →
    decimal a.whole = decimal b.whole ∧ decimal a.fraction = decimal b.fraction
  -- no digits behind a dot are the other ones with zeros in front of them or behind them, but for zeros alone
  zeros : decimal a.whole = decimal b.whole → decimal a.fraction = decimal b.fraction ∨
      decimal a.fraction * 10 ^ b.fraction.length = decimal b.fraction * 10 ^ a.fraction.length →
    a.fraction.length = b.fraction.length ∨ decimal a.fraction = 0

/-- Zeros behind at most three digits change the last 8 bits of their number. -/
theorem fraction_eq_of_scaled {f g j k : Nat} (hj : j ≤ 3) (hk : k ≤ 3) (hf : f < 10 ^ j) (hg : g < 10 ^ k)
    (h : f * 10 ^ k = g * 10 ^ j) (hmod : f % 256 = g % 256) : f = g := by
  interval_cases j <;> interval_cases k <;> omega

theorem length_fraction_speed {d : Numeral} (hlen : d.text.length ≤ 5) : d.fraction.length ≤ 3 := by
  by_cases hf : d.fraction = []
  · simp [hf]
  · have := d.length_text_ge hf
    have := List.length_pos_iff.2 d.whole_ne
    omega

theorem speed_stores_iff (buff : Nat) {a b : Numeral} (ha : a.negative = false) (hb : b.negative = false)
    (hla : a.text.length ≤ 9) (hlb : b.text.length ≤ 9) (behindA behindB : List UInt8) :
    (hexPackSpeed buff (a.text ++ 0 :: behindA)).stores = (hexPackSpeed buff (b.text ++ 0 :: behindB)).stores ↔
    decimal a.whole % 65536 = decimal b.whole % 65536 ∧ decimal a.fraction % 256 = decimal b.fraction % 256 := by
  have hwhole (d : Numeral) (hd : d.negative = false) (hl : d.text.length ≤ 9) (behind : List UInt8) :
      atoiSigned (cstr (d.text ++ 0 :: behind)) = decimal d.whole := by
    rw [cstr_append_zero d.text_text, atoiSigned_text hl, hd]
    simp
  have hintegers : UInt16.ofInt (decimal a.whole) = UInt16.ofInt (decimal b.whole) ↔
      decimal a.whole % 65536 = decimal b.whole % 65536 := by
    rw [uint16_ofInt_inj]
    omega
  have hfractions : fractionOf (a.text ++ 0 :: behindA) = fractionOf (b.text ++ 0 :: behindB) ↔
      decimal a.fraction % 256 = decimal b.fraction % 256 := by
    rw [← UInt8.toNat_inj, fractionOf_text hla, fractionOf_text hlb]
  rw [(hexPackSpeed_packs _).stores, (hexPackSpeed_packs _).stores, cells_inj, speedBytes, speedBytes,
    hwhole a ha hla, hwhole b hb hlb, ← hintegers, ← hfractions, ← be16_inj]
  constructor
  · intro h
    obtain ⟨hw, hf⟩ := List.append_inj h rfl
    exact ⟨hw, List.head_eq_of_cons_eq hf⟩
  · rintro ⟨hw, hf⟩
    rw [hw, hf]

/-- The three bytes say whether two speeds are the same number exactly if their
parts fit the bytes and their fractions do not differ by zeros in front or behind. -/
theorem speed_faithful_iff (buff : Nat) (a b : Numeral) (behindA behindB : List UInt8)
    (ha : a.negative = false) (hb : b.negative = false) (hla : a.text.length ≤ 5) (hlb : b.text.length ≤ 5) :
    ((hexPackSpeed buff (a.text ++ 0 :: behindA)).stores = (hexPackSpeed buff (b.text ++ 0 :: behindB)).stores ↔
      a.value = b.value) ↔ SpeedsTold a b := by
  have hvalue : a.value = b.value ↔ a.magnitude = b.magnitude := by simp [Numeral.value, ha, hb]
  rw [speed_stores_iff buff ha hb (by omega) (by omega), hvalue, Numeral.magnitude_eq_iff]
  constructor
  · intro h
    have hscaled := fraction_eq_of_scaled (length_fraction_speed hla) (length_fraction_speed hlb)
      (decimal_lt a.fraction_digits) (decimal_lt b.fraction_digits)
    refine ⟨fun hw hf => ?_, fun hw hf => ?_⟩
    · obtain ⟨hwhole, hcross⟩ := h.1 ⟨hw, hf⟩
      exact ⟨hwhole, hscaled hcross hf⟩
    · -- either way the two are stored alike, and are the same number
      have hcross : decimal a.fraction * 10 ^ b.fraction.length = decimal b.fraction * 10 ^ a.fraction.length := by
        rcases hf with hf | hf
        · exact (h.1 ⟨by rw [hw], by rw [hf]⟩).2
        · exact hf
      have heq := hscaled hcross (h.2 ⟨hw, hcross⟩).2
      rw [heq] at hcross ⊢
      exact scaled_self_iff.1 hcross
  · intro h
    constructor
    · rintro ⟨hw, hf⟩
      obtain ⟨hwhole, hfrac⟩ := h.fits hw hf
      exact ⟨hwhole, (scaled_eq_iff (h.zeros hwhole (.inl hfrac))).2 hfrac⟩
    · rintro ⟨hw, hcross⟩
      have hfrac := (scaled_eq_iff (h.zeros hw (.inr hcross))).1 hcross
      exact ⟨by rw [hw], by rw [hfrac]⟩

/-- 1.5 -/
def oneHalf : Numeral := ⟨false, ascii "1", ascii "5", by simp [ascii], by decide +kernel, by decide +kernel⟩

/-- 1.05 -/
def oneTwentieth : Numeral := ⟨false, ascii "1", ascii "05", by simp [ascii], by decide +kernel, by decide +kernel⟩

/-- 1.50 -/
def oneHalfPadded : Numeral := ⟨false, ascii "1", ascii "50", by simp [ascii], by decide +kernel, by decide +kernel⟩

theorem speed_faithful_iff_halves : twelveHalf.text = ascii "12.5" ∧ oneHalf.text = ascii "1.5" ∧
    ((hexPackSpeed 0 (twelveHalf.text ++ [0])).stores = (hexPackSpeed 0 (oneHalf.text ++ [0])).stores ↔
      twelveHalf.value = oneHalf.value) :=
  ⟨rfl, rfl, (speed_faithful_iff 0 twelveHalf oneHalf [] [] rfl rfl (by decide) (by decide)).2
    ⟨by decide, by decide⟩⟩

/-- 1.5 and 1.05 are packed alike, and 1.5 and 1.50 are not. -/
theorem speed_confused : oneHalf.text = ascii "1.5" ∧ oneTwentieth.text = ascii "1.05" ∧
    oneHalfPadded.text = ascii "1.50" ∧
    (hexPackSpeed 0 (oneHalf.text ++ [0])).stores = (hexPackSpeed 0 (oneTwentieth.text ++ [0])).stores ∧
    oneHalf.value ≠ oneTwentieth.value ∧
    (hexPackSpeed 0 (oneHalf.text ++ [0])).stores ≠ (hexPackSpeed 0 (oneHalfPadded.text ++ [0])).stores ∧
    oneHalf.value = oneHalfPadded.value :=
  ⟨rfl, rfl, rfl, by decide +kernel, by decide +kernel, by decide +kernel, by decide +kernel⟩

end Petbox.Tracker
