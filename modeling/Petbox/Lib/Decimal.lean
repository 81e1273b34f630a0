/-
Decimal numbers: the text a number is written as, the rational it denotes, and
the integer that is nearest to it.
-/
import Mathlib.Algebra.Order.Field.Rat
import Mathlib.Tactic.Linarith
import Mathlib.Tactic.Positivity
import Mathlib.Tactic.Ring
import Petbox.Lib.CString

namespace CStr

/-! ## Digits -/

theorem decimal_cons (c : UInt8) (cs : List UInt8) :
    decimal (c :: cs) = digitVal c * 10 ^ cs.length + decimal cs := by
  have key (l : List UInt8) (n : Nat) :
      l.foldl (fun n c => n * 10 + digitVal c) n = n * 10 ^ l.length + decimal l := by
    induction l generalizing n with
    | nil => simp [decimal]
    | cons d l ih =>
      unfold decimal
      rw [List.foldl_cons, ih, List.foldl_cons, ih, List.length_cons, Nat.pow_succ']
      ring
  rw [decimal, List.foldl_cons, key]
  simp

/-- The first of the digits behind the dot says whether they are a half or more. -/
theorem half_le_iff {ds : List UInt8} (hds : ∀ c ∈ ds, isDigit c = true) :
    10 ^ ds.length ≤ 2 * decimal ds ↔ 5 ≤ digitVal (ds.headD 0x30) := by
  cases ds with
  | nil => simp [decimal, digitVal]
  | cons c cs =>
    have hlt := decimal_lt fun x hx => hds x (List.mem_cons_of_mem _ hx)
    rw [decimal_cons, List.length_cons, Nat.pow_succ', List.headD_cons]
    constructor
    · intro h
      by_contra hc
      have : digitVal c * 10 ^ cs.length ≤ 4 * 10 ^ cs.length := Nat.mul_le_mul_right _ (by omega)
      omega
    · intro h
      have : 5 * 10 ^ cs.length ≤ digitVal c * 10 ^ cs.length := Nat.mul_le_mul_right _ h
      omega

/-- The digits of one number, brought to two lengths by zeros. -/
theorem scaled_self_iff {f j k : Nat} : f * 10 ^ k = f * 10 ^ j ↔ j = k ∨ f = 0 := by
  rw [mul_eq_mul_left_iff, Nat.pow_right_inj (by decide), eq_comm]

theorem scaled_eq_iff {f g j k : Nat} (h : j = k ∨ f = 0) : f * 10 ^ k = g * 10 ^ j ↔ f = g := by
  have hpos (n : Nat) : 10 ^ n ≠ 0 := (Nat.pow_pos (by decide)).ne'
  rcases h with rfl | rfl
  · exact Nat.mul_left_inj (hpos j)
  · rw [Nat.zero_mul, eq_comm, Nat.mul_eq_zero, or_iff_left (hpos j), eq_comm]

/-! ## The nearest integer -/

section Nearest

variable {α : Type} [Field α] [LinearOrder α] {x : α} {n m : ℤ}

/-- `n` is the integer nearest to `x`; of two that are as near, the one away from zero. -/
structure NearestAway (x : α) (n : ℤ) : Prop where
  near : |x - n| ≤ 1 / 2
  away : |x - n| = 1 / 2 → |x| < |(n : α)|

theorem NearestAway.neg (h : NearestAway x n) : NearestAway (-x) (-n) := by
  have hdist : |-x - ((-n : ℤ) : α)| = |x - n| := by
    rw [← abs_neg, Int.cast_neg]
    congr 1
    ring
  constructor
  · rw [hdist]
    exact h.near
  · rw [hdist, abs_neg, Int.cast_neg, abs_neg]
    exact h.away

variable [IsStrictOrderedRing α]

theorem nearestAway_of_nonneg (hx : 0 ≤ x) (hlo : (n : α) - 1 / 2 ≤ x) (hhi : x < n + 1 / 2) : NearestAway x n where
  near := abs_le.2 ⟨by linarith, by linarith⟩
  away := by
    intro h
    rcases eq_or_eq_neg_of_abs_eq h with h | h
    · linarith
    · rw [abs_of_nonneg hx]
      exact lt_of_lt_of_le (by linarith) (le_abs_self _)

theorem NearestAway.not_lt (hn : NearestAway x n) (hm : NearestAway x m) : ¬ n < m := by
  intro hlt
  have hle : (n : α) + 1 ≤ m := by exact_mod_cast hlt
  have hxn := (abs_le.1 hn.near).2
  have hxm := (abs_le.1 hm.near).1
  -- `x` is in the middle of two neighbours, so it is a half off both
  have hn' : x - n = 1 / 2 := by linarith
  have hm' : x - m = -(1 / 2) := by linarith
  have han := hn.away (by rw [hn', abs_of_pos (by norm_num)])
  have ham := hm.away (by rw [hm', abs_neg, abs_of_pos (by norm_num)])
  rcases Int.lt_or_le n 0 with h | h
  · have hm0 : (m : α) ≤ 0 := by
      have : (n : α) + 1 ≤ 0 := by exact_mod_cast h
      linarith
    rw [abs_of_nonpos hm0] at ham
    have := neg_abs_le x
    linarith
  · have hn0 : (0 : α) ≤ n := by exact_mod_cast h
    rw [abs_of_nonneg hn0] at han
    have := le_abs_self x
    linarith

theorem NearestAway.unique (hn : NearestAway x n) (hm : NearestAway x m) : n = m := by
  have := hn.not_lt hm
  have := hm.not_lt hn
  omega

end Nearest

/-! ## Numerals -/

/-- A number as it is written: a sign, digits, and the digits behind the dot,
of which there are none without a dot. -/
structure Numeral where
  negative : Bool
  whole : List UInt8
  fraction : List UInt8
  whole_ne : whole ≠ []
  whole_digits : ∀ c ∈ whole, isDigit c = true
  fraction_digits : ∀ c ∈ fraction, isDigit c = true

namespace Numeral

/-- The numeral as a text. -/
def text (d : Numeral) : List UInt8 :=
  (if d.negative then [0x2d] else []) ++ (d.whole ++ if d.fraction = [] then [] else 0x2e :: d.fraction)

/-- The number without its sign. -/
def magnitude (d : Numeral) : ℚ := decimal d.whole + decimal d.fraction / 10 ^ d.fraction.length

/-- The number the numeral denotes. -/
def value (d : Numeral) : ℚ := if d.negative then -d.magnitude else d.magnitude

/-- Whether the magnitude is rounded up. -/
def RoundsUp (d : Numeral) : Prop := 5 ≤ digitVal (d.fraction.headD 0x30)

instance (d : Numeral) : Decidable d.RoundsUp := Nat.decLe ..

/-- The number, rounded. -/
def rounded (d : Numeral) : ℤ :=
  if d.negative then -(decimal d.whole + if d.RoundsUp then 1 else 0)
  else decimal d.whole + if d.RoundsUp then 1 else 0

theorem text_text (d : Numeral) : Text d.text := by
  have digit {c : UInt8} (h : isDigit c = true) : c ≠ 0 := ne_of_isDigit h (by decide)
  intro c hc
  rcases List.mem_append.1 hc with hc | hc
  · split at hc <;> simp at hc
    rw [hc]
    decide
  · rcases List.mem_append.1 hc with hc | hc
    · exact digit (d.whole_digits c hc)
    · split at hc <;> simp at hc
      rcases hc with rfl | hc
      · decide
      · exact digit (d.fraction_digits c hc)

theorem length_text_ge (d : Numeral) (h : d.fraction ≠ []) :
    d.whole.length + 1 + d.fraction.length ≤ d.text.length := by
  simp only [text, if_neg h, List.length_append, List.length_cons]
  omega

theorem length_whole_le (d : Numeral) : d.whole.length ≤ d.text.length := by
  simp only [text, List.length_append]
  omega

theorem length_fraction_le (d : Numeral) : d.fraction.length ≤ d.text.length := by
  by_cases hf : d.fraction = []
  · simp [hf]
  · have := d.length_text_ge hf
    omega

theorem fraction_nonneg (d : Numeral) : (0 : ℚ) ≤ decimal d.fraction / 10 ^ d.fraction.length := by positivity

theorem fraction_lt_one (d : Numeral) : (decimal d.fraction : ℚ) / 10 ^ d.fraction.length < 1 := by
  rw [div_lt_one (by positivity)]
  exact_mod_cast decimal_lt d.fraction_digits

theorem half_le_fraction_iff (d : Numeral) :
    (1 / 2 : ℚ) ≤ decimal d.fraction / 10 ^ d.fraction.length ↔ d.RoundsUp := by
  rw [RoundsUp, ← half_le_iff d.fraction_digits, div_le_div_iff₀ (by norm_num) (by positivity), one_mul, mul_comm]
  exact_mod_cast Iff.rfl

theorem nearestAway_magnitude (d : Numeral) :
    NearestAway d.magnitude (decimal d.whole + if d.RoundsUp then 1 else 0) := by
  have h0 := d.fraction_nonneg
  have h1 := d.fraction_lt_one
  have hw : (0 : ℚ) ≤ decimal d.whole := Nat.cast_nonneg _
  refine nearestAway_of_nonneg ?_ ?_ ?_ <;> unfold magnitude
  · linarith
  · split
    next hup =>
      have := d.half_le_fraction_iff.2 hup
      push_cast
      linarith
    next => push_cast; linarith
  · split
    next => push_cast; linarith
    next hup =>
      have := mt d.half_le_fraction_iff.1 hup
      push_cast
      linarith

theorem nearestAway_rounded (d : Numeral) : NearestAway d.value d.rounded := by
  unfold value rounded
  split
  · exact d.nearestAway_magnitude.neg
  · exact d.nearestAway_magnitude

theorem nearestAway_iff {d : Numeral} {n : ℤ} : NearestAway d.value n ↔ n = d.rounded :=
  ⟨fun h => h.unique d.nearestAway_rounded, fun h => h ▸ d.nearestAway_rounded⟩

/-- Two numbers are the same if their whole parts are, and the digits behind the
dots are after zeros have brought them to one length. -/
theorem magnitude_eq_iff {a b : Numeral} :
    a.magnitude = b.magnitude ↔ decimal a.whole = decimal b.whole ∧
      decimal a.fraction * 10 ^ b.fraction.length = decimal b.fraction * 10 ^ a.fraction.length := by
  have hfrac : decimal a.fraction * 10 ^ b.fraction.length = decimal b.fraction * 10 ^ a.fraction.length ↔
      (decimal a.fraction : ℚ) / 10 ^ a.fraction.length = decimal b.fraction / 10 ^ b.fraction.length := by
    rw [div_eq_div_iff (by positivity) (by positivity)]
    exact_mod_cast Iff.rfl
  rw [hfrac]
  unfold magnitude
  constructor
  · intro h
    have hwhole : decimal a.whole = decimal b.whole := by
      have ha := a.fraction_nonneg
      have hb := b.fraction_nonneg
      have ha' := a.fraction_lt_one
      have hb' := b.fraction_lt_one
      have hab : (decimal a.whole : ℚ) < decimal b.whole + 1 := by linarith
      have hba : (decimal b.whole : ℚ) < decimal a.whole + 1 := by linarith
      norm_cast at hab hba
      omega
    refine ⟨hwhole, ?_⟩
    rw [hwhole] at h
    exact add_left_cancel h
  · rintro ⟨hw, hf⟩
    rw [hw, hf]

end Numeral

end CStr
