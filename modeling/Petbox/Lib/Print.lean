/-
What `snprintf` writes for the conversions `%d` and `%0kX`, as lists of
characters, and what reading the digits gives back.
-/
import Petbox.Lib.CString
import Mathlib.Algebra.Group.Nat.Defs

namespace Print

open CStr

/-- The digit of a number below 16. -/
def digitChar (d : Nat) : UInt8 := (if d < 10 then 0x30 + d else 0x37 + d).toUInt8

/-- Decimal digits, at most `fuel` of them. -/
def decDigits : Nat → Nat → List UInt8
  | 0, _ => []
  | fuel + 1, n => if n < 10 then [digitChar n] else decDigits fuel (n / 10) ++ [digitChar (n % 10)]

/-- The decimal digits of a number. -/
def dec (n : Nat) : List UInt8 := decDigits (n + 1) n

/-- `%d`, of the 32 bits that are read as an `int`. -/
def fmtD (v : UInt32) : List UInt8 :=
  if v.toNat < 2147483648 then dec v.toNat else 0x2d :: dec (4294967296 - v.toNat)

/-- The last `k` hexadecimal digits: `%0kX` of a number that has no more. -/
def hexDigits : Nat → Nat → List UInt8
  | 0, _ => []
  | k + 1, n => hexDigits k (n / 16) ++ [digitChar (n % 16)]

/-- `snprintf` cuts the text to its buffer. -/
def snprintf (bufLen : Nat) (text : List UInt8) : List UInt8 := text.take (bufLen - 1)

theorem snprintf_fits {bufLen : Nat} {text : List UInt8} (h : text.length < bufLen) : snprintf bufLen text = text :=
  List.take_of_length_le (by omega)

/-! ## Decimal digits -/

theorem isDigit_digitChar {d : Nat} (h : d < 10) : isDigit (digitChar d) = true := by
  have key : ∀ d < 10, isDigit (digitChar d) = true := by decide
  exact key d h

theorem digitVal_digitChar {d : Nat} (h : d < 10) : digitVal (digitChar d) = d := by
  have key : ∀ d < 10, digitVal (digitChar d) = d := by decide
  exact key d h

theorem decimal_snoc (ds : List UInt8) (c : UInt8) : decimal (ds ++ [c]) = decimal ds * 10 + digitVal c := by
  simp [decimal]

theorem isDigit_decDigits (fuel n : Nat) : ∀ c ∈ decDigits fuel n, isDigit c = true := by
  induction fuel generalizing n with
  | zero => exact fun c hc => absurd hc List.not_mem_nil
  | succ fuel ih =>
    intro c hc
    unfold decDigits at hc
    split at hc
    · next hlt => exact List.mem_singleton.1 hc ▸ isDigit_digitChar hlt
    · rcases List.mem_append.1 hc with hc | hc
      · exact ih _ c hc
      · exact List.mem_singleton.1 hc ▸ isDigit_digitChar (Nat.mod_lt _ (by decide))

theorem decimal_decDigits {fuel n : Nat} (h : n < fuel) : decimal (decDigits fuel n) = n := by
  induction fuel generalizing n with
  | zero => exact absurd h (Nat.not_lt_zero n)
  | succ fuel ih =>
    unfold decDigits
    split
    · next hlt => simp [decimal, digitVal_digitChar hlt]
    · rw [decimal_snoc, ih (by omega), digitVal_digitChar (Nat.mod_lt _ (by decide))]
      omega

theorem length_decDigits {fuel n k : Nat} (hk : 0 < k) (h : n < 10 ^ k) : (decDigits fuel n).length ≤ k := by
  induction fuel generalizing n k with
  | zero => exact Nat.zero_le k
  | succ fuel ih =>
    unfold decDigits
    split
    · exact hk
    · obtain ⟨k, rfl⟩ : ∃ j, k = j + 1 := ⟨k - 1, by omega⟩
      rw [Nat.pow_succ] at h
      have hk' : 0 < k := by
        rcases Nat.eq_zero_or_pos k with rfl | hpos
        · rw [Nat.pow_zero] at h
          omega
        · exact hpos
      have := ih hk' (show n / 10 < 10 ^ k by omega)
      simp only [List.length_append, List.length_singleton]
      omega

theorem isDigit_dec (n : Nat) : ∀ c ∈ dec n, isDigit c = true := isDigit_decDigits _ n

theorem decimal_dec (n : Nat) : decimal (dec n) = n := decimal_decDigits (Nat.lt_succ_self n)

theorem dec_ne_nil (n : Nat) : dec n ≠ [] := by
  unfold dec decDigits
  split
  · exact List.cons_ne_nil _ _
  · exact List.append_ne_nil_of_right_ne_nil _ (List.cons_ne_nil _ _)

theorem length_dec {n k : Nat} (hk : 0 < k) (h : n < 10 ^ k) : (dec n).length ≤ k := length_decDigits hk h

/-- Nothing but the digits is written for a number that is not negative. -/
theorem fmtD_nonneg {v : UInt32} (h : v.toNat < 2147483648) : fmtD v = dec v.toNat := if_pos h

/-! ## Hexadecimal digits -/

@[simp] theorem length_hexDigits (k n : Nat) : (hexDigits k n).length = k := by
  induction k generalizing n with
  | zero => rfl
  | succ k ih => simp [hexDigits, ih]

theorem isXDigit_digitChar {d : Nat} (h : d < 16) : isXDigit (digitChar d) = true := by
  have key : ∀ d < 16, isXDigit (digitChar d) = true := by decide
  exact key d h

theorem isXDigit_hexDigits (k n : Nat) : ∀ c ∈ hexDigits k n, isXDigit c = true := by
  induction k generalizing n with
  | zero => exact fun c hc => absurd hc List.not_mem_nil
  | succ k ih =>
    intro c hc
    rcases List.mem_append.1 hc with hc | hc
    · exact ih _ c hc
    · exact List.mem_singleton.1 hc ▸ isXDigit_digitChar (Nat.mod_lt _ (by decide))

end Print
