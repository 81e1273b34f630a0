/-
`btlink_utils_atoi_buffer` in the arithmetic of the machine: its `long long` does
not overflow, it reads no byte behind the 0 of the text, and it returns the
number the text denotes, or 0 if that is not an `int`.
-/
import Petbox.Lib.Decimal
import Petbox.Tracker.Util

namespace Petbox.Tracker

open CStr

/-! ## The code -/

/-- A `long long`; `none` is an overflow. -/
def longLong (n : Int) : Option Int := if -2 ^ 63 ≤ n ∧ n < 2 ^ 63 then some n else none

/-- `while(*str == ' ') str++`; `none` is a read behind the buffer. -/
def skipSpaces : List UInt8 → Option (List UInt8)
  | [] => none
  | c :: str => if c = 0x20 then skipSpaces str else some (c :: str)

/-- The sign in front of a number: whether it is a minus, and what follows. -/
def signOf : List UInt8 → Bool × List UInt8
  | 0x2d :: str => (true, str)
  | 0x2b :: str => (false, str)
  | str => (false, str)

/-- The loop over the digits, and the return behind it. -/
def digitLoop (minus : Bool) : Int → List UInt8 → Option Int32
  | _, [] => none
  | result, c :: str =>
    if isDigit c then do
      let result ← longLong (result * 10)
      let result ← longLong (result + c.toNat)
      let result ← longLong (result - 0x30)
      if minus && result > intMax + 1 || !minus && result > intMax then some 0 else digitLoop minus result str
    else do
      let result ← if minus then longLong (result * -1) else some result
      some (Int32.ofInt result)

/-- `btlink_utils_atoi_buffer`, on the bytes from `str` on; the outer `none` is `NULL`. -/
def utilsAtoiBuffer : Option (List UInt8) → Option Int32
  | none => some 0
  | some str => do
    let str ← skipSpaces str
    let (minus, str) := signOf str
    let c ← str.head?
    if !isDigit c then some 0 else digitLoop minus 0 str

/-! ## The reference -/

/-- The number a text starts with: spaces, a sign, and the longest run of digits behind it. -/
def numberOf (text : List UInt8) : Option Int :=
  let (minus, str) := signOf (text.dropWhile (· == 0x20))
  let digits := str.takeWhile isDigit
  if digits = [] then none else some (if minus then -decimal digits else decimal digits)

/-- The number as an `int`; 0 if there is none, or it does not fit. -/
def intOf (text : List UInt8) : Int :=
  match numberOf text with
  | some n => if -2 ^ 31 ≤ n ∧ n < 2 ^ 31 then n else 0
  | none => 0

/-! ## The digits -/

/-- The greatest magnitude of a number with this sign. -/
def atoiLimit (minus : Bool) : Nat := if minus then intMax + 1 else intMax

def withSign (minus : Bool) (n : Nat) : Int := if minus then -n else n

@[simp] theorem withSign_zero (minus : Bool) : withSign minus 0 = 0 := by
  cases minus with
  | true => rfl
  | false => rfl

theorem longLong_natCast {i : Int} {n : Nat} (heq : i = n) (h : n < 2 ^ 63) : longLong i = some (n : Int) := by
  subst heq
  exact if_pos ⟨by omega, by omega⟩

theorem atoiLimit_le (minus : Bool) : atoiLimit minus ≤ 2147483648 := by cases minus <;> decide

/-- One digit, with a number in front of it that is in the limit. -/
theorem digitLoop_digit {minus : Bool} {n : Nat} (hn : n ≤ atoiLimit minus) {c : UInt8} (hc : isDigit c = true)
    (str : List UInt8) :
    digitLoop minus n (c :: str) =
      if n * 10 + digitVal c > atoiLimit minus then some 0 else digitLoop minus (n * 10 + digitVal c : Nat) str := by
  have hdigit := isDigit_iff.1 hc
  have hval : digitVal c = c.toNat - 0x30 := rfl
  have hle := atoiLimit_le minus
  have hmul : longLong ((n : Int) * 10) = some ((n * 10 : Nat) : Int) := longLong_natCast rfl (by omega)
  have hadd : longLong (((n * 10 : Nat) : Int) + c.toNat) = some ((n * 10 + c.toNat : Nat) : Int) :=
    longLong_natCast rfl (by omega)
  have hsub : longLong (((n * 10 + c.toNat : Nat) : Int) - 0x30) = some ((n * 10 + digitVal c : Nat) : Int) :=
    longLong_natCast (by omega) (by omega)
  rw [digitLoop, if_pos hc, hmul, Option.bind_eq_bind, Option.bind_some, hadd, Option.bind_some, hsub, Option.bind_some]
  have hover : (minus && (n * 10 + digitVal c : Nat) > (intMax : Int) + 1 ||
      !minus && (n * 10 + digitVal c : Nat) > (intMax : Int)) = true ↔ n * 10 + digitVal c > atoiLimit minus := by
    cases minus with
    | true =>
      simp only [Bool.true_and, Bool.not_true, Bool.false_and, Bool.or_false, decide_eq_true_eq, atoiLimit, if_true]
      omega
    | false =>
      simp only [Bool.false_and, Bool.not_false, Bool.true_and, Bool.false_or, decide_eq_true_eq, atoiLimit,
        Bool.false_eq_true, if_false]
      omega
  simp only [hover]

/-- The end of the digits: the negation is in range. -/
theorem digitLoop_stop {minus : Bool} {n : Nat} (hn : n ≤ atoiLimit minus) {c : UInt8} (hc : isDigit c = false)
    (str : List UInt8) : digitLoop minus n (c :: str) = some (Int32.ofInt (withSign minus n)) := by
  have hneg : longLong ((n : Int) * -1) = some (-n : Int) := by
    have hle := atoiLimit_le minus
    rw [Int.mul_neg_one]
    exact if_pos ⟨by omega, by omega⟩
  rw [digitLoop, hc, if_neg Bool.false_ne_true, hneg]
  cases minus with
  | true => rfl
  | false => rfl

/-- The loop goes as it does on numbers without a bound. -/
theorem digitLoop_text {minus : Bool} {n : Nat} (hn : n ≤ atoiLimit minus) (text behind : List UInt8) :
    digitLoop minus n (text ++ 0 :: behind) =
      some (Int32.ofInt (withSign minus ((atoiLoop (atoiLimit minus) n text).getD 0))) := by
  induction text generalizing n with
  | nil => exact digitLoop_stop hn rfl behind
  | cons c text ih =>
    rw [List.cons_append, atoiLoop]
    by_cases hc : isDigit c = true
    · rw [digitLoop_digit hn hc, if_pos hc]
      by_cases hover : n * 10 + digitVal c > atoiLimit minus
      · rw [if_pos hover, if_pos hover, Option.getD_none, withSign_zero]
        rfl
      · rw [if_neg hover, if_neg hover]
        exact ih (Nat.le_of_not_lt hover)
    · rw [digitLoop_stop hn (by simpa using hc), if_neg hc]
      rfl

/-! ## The text -/

theorem skipSpaces_text (text behind : List UInt8) :
    skipSpaces (text ++ 0 :: behind) = some (text.dropWhile (· == 0x20) ++ 0 :: behind) := by
  induction text with
  | nil => rfl
  | cons c text ih =>
    rw [List.cons_append, skipSpaces]
    by_cases hc : c = 0x20
    · rw [if_pos hc, ih, List.dropWhile_cons_of_pos (by simpa using hc)]
    · rw [if_neg hc, List.dropWhile_cons_of_neg (by simpa using hc), List.cons_append]

/-- A text without a sign. -/
theorem signOf_cons {c : UInt8} (hminus : c ≠ 0x2d) (hplus : c ≠ 0x2b) (str : List UInt8) :
    signOf (c :: str) = (false, c :: str) := by
  simp [signOf, hminus, hplus]

theorem signOf_text (text behind : List UInt8) :
    signOf (text ++ 0 :: behind) = ((signOf text).1, (signOf text).2 ++ 0 :: behind) := by
  cases text with
  | nil => rfl
  | cons c text =>
    rw [List.cons_append]
    by_cases hminus : c = 0x2d
    · rw [hminus]
      rfl
    · by_cases hplus : c = 0x2b
      · rw [hplus]
        rfl
      · rw [signOf_cons hminus hplus, signOf_cons hminus hplus]
        rfl

/-- The conversion of a field, by what stands behind its spaces and its sign. -/
theorem atoiBuffer_signOf {text str : List UInt8} {minus : Bool}
    (h : signOf (text.dropWhile (· == 0x20)) = (minus, str)) :
    atoiBuffer text = withSign minus ((atoiLoop (atoiLimit minus) 0 str).getD 0) := by
  unfold atoiBuffer
  cases hrest : text.dropWhile (· == 0x20) with
  | nil =>
    rw [hrest] at h
    cases h
    rfl
  | cons c rest =>
    rw [hrest] at h
    by_cases hminus : c = 0x2d
    · rw [hminus] at h ⊢
      cases h
      rfl
    · by_cases hplus : c = 0x2b
      · rw [hplus] at h ⊢
        cases h
        rfl
      · rw [signOf_cons hminus hplus] at h
        cases h
        simp [hminus, hplus, withSign, atoiLimit]

/-- The test of the first digit only skips the loop. -/
theorem digitLoop_first {minus : Bool} {c : UInt8} (str : List UInt8) :
    (if !isDigit c then some 0 else digitLoop minus 0 (c :: str)) = digitLoop minus 0 (c :: str) := by
  by_cases hc : isDigit c = true
  · rw [if_neg (by simp [hc])]
  · have hstop := digitLoop_stop (Nat.zero_le (atoiLimit minus)) (by simpa using hc) str
    rw [withSign_zero] at hstop
    rw [if_pos (by simpa using hc)]
    exact hstop.symm

/-- The conversion of a field is that of the code, on the memory the field stands in. -/
theorem utilsAtoiBuffer_field (text behind : List UInt8) :
    utilsAtoiBuffer (some (text ++ 0 :: behind)) = some (Int32.ofInt (atoiBuffer text)) := by
  rw [utilsAtoiBuffer, skipSpaces_text, Option.bind_eq_bind, Option.bind_some, signOf_text]
  cases hsign : signOf (text.dropWhile (· == 0x20)) with
  | mk minus str =>
    rw [atoiBuffer_signOf hsign, ← digitLoop_text (Nat.zero_le (atoiLimit minus)) str behind]
    simp only
    cases hbytes : str ++ 0 :: behind with
    | nil => simp at hbytes
    | cons c bytes => exact digitLoop_first bytes

/-! ## The number -/

/-- A number is an `int` if and only if its magnitude is in the limit. -/
theorem withSign_range {minus : Bool} {n : Nat} :
    -2 ^ 31 ≤ withSign minus n ∧ withSign minus n < 2 ^ 31 ↔ n ≤ atoiLimit minus := by
  cases minus with
  | true =>
    simp only [withSign, atoiLimit, intMax, if_true]
    omega
  | false =>
    simp only [withSign, atoiLimit, intMax, Bool.false_eq_true, if_false]
    omega

/-- A field is converted to the number it starts with. -/
theorem atoiBuffer_eq (text : List UInt8) : atoiBuffer text = intOf text := by
  cases hsign : signOf (text.dropWhile (· == 0x20)) with
  | mk minus str =>
    have hnumber : numberOf text =
        if str.takeWhile isDigit = [] then none else some (withSign minus (decimal (str.takeWhile isDigit))) := by
      unfold numberOf
      rw [hsign]
      rfl
    have hloop : atoiLoop (atoiLimit minus) 0 str =
        if decimal (str.takeWhile isDigit) ≤ atoiLimit minus then some (decimal (str.takeWhile isDigit)) else none :=
      atoiLoop_eq (Nat.zero_le _) str
    rw [atoiBuffer_signOf hsign, hloop, intOf, hnumber]
    by_cases hnone : str.takeWhile isDigit = []
    · have hzero : decimal [] = 0 := rfl
      simp [hnone, hzero]
    · rw [if_neg hnone]
      simp only [withSign_range]
      split
      · rfl
      · exact withSign_zero minus

theorem intOf_range (text : List UInt8) : -2 ^ 31 ≤ intOf text ∧ intOf text < 2 ^ 31 := by
  unfold intOf
  split
  · split
    · next h => exact h
    · decide
  · decide

/-- **The code returns the number of the text**: whatever stands behind its 0, the
`long long` does not overflow and no byte behind the text is read. -/
theorem utilsAtoiBuffer_eq (text behind : List UInt8) :
    ∃ n : Int32, utilsAtoiBuffer (some (text ++ 0 :: behind)) = some n ∧ n.toInt = intOf text := by
  obtain ⟨hlow, hhigh⟩ := intOf_range text
  refine ⟨Int32.ofInt (intOf text), ?_, Int32.toInt_ofInt_of_le hlow hhigh⟩
  rw [utilsAtoiBuffer_field, atoiBuffer_eq]

end Petbox.Tracker
