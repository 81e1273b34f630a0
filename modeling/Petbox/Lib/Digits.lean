/-
Texts of digits of one length, cut into numbers of given widths, and put together
again from them.
-/
import Mathlib.Algebra.GroupWithZero.Nat
import Mathlib.Data.List.Induction
import Petbox.Lib.Print

namespace Print

open CStr

/-- The last `k` decimal digits: `%0kd` of a number that has no more. -/
def digits : Nat → Nat → List UInt8
  | 0, _ => []
  | k + 1, n => digits k (n / 10) ++ [digitChar (n % 10)]

/-- The numbers of a text that is cut at these widths. -/
def groups : List Nat → List UInt8 → List Nat
  | [], _ => []
  | width :: widths, text => decimal (text.take width) :: groups widths (text.drop width)

/-- The text that is cut into these numbers. -/
def ungroup : List Nat → List Nat → List UInt8
  | width :: widths, n :: ns => digits width n ++ ungroup widths ns
  | _, _ => []

/-- A text of `n` decimal digits. -/
structure DigitText (n : Nat) where
  text : List UInt8
  digits : ∀ c ∈ text, isDigit c = true
  length : text.length = n

theorem digitChar_digitVal {c : UInt8} (h : isDigit c = true) : digitChar (digitVal c) = c := by
  have hc := isDigit_iff.1 h
  have hlt := digitVal_lt h
  have hval : digitVal c = c.toNat - 0x30 := rfl
  apply UInt8.toNat_inj.1
  rw [digitChar, if_pos hlt, Nat.toUInt8, UInt8.toNat_ofNat']
  omega

/-- The number of a text of digits has all its digits. -/
theorem digits_decimal {ds : List UInt8} (hds : ∀ c ∈ ds, isDigit c = true) : digits ds.length (decimal ds) = ds := by
  induction ds using List.reverseRecOn with
  | nil => rfl
  | append_singleton ds c ih =>
    have hc : isDigit c = true := hds c (by simp)
    have hlt := digitVal_lt hc
    have hfront : (decimal ds * 10 + digitVal c) / 10 = decimal ds := by omega
    have hlast : (decimal ds * 10 + digitVal c) % 10 = digitVal c := by omega
    rw [List.length_append, List.length_singleton, digits, decimal_snoc, hfront, hlast, digitChar_digitVal hc,
      ih fun x hx => hds x (List.mem_append_left _ hx)]

/-- The numbers of the pieces tell the text. -/
theorem ungroup_groups {widths : List Nat} {text : List UInt8} (hds : ∀ c ∈ text, isDigit c = true)
    (hlen : text.length = widths.sum) : ungroup widths (groups widths text) = text := by
  induction widths generalizing text with
  | nil => exact (List.eq_nil_of_length_eq_zero hlen).symm
  | cons width widths ih =>
    rw [List.sum_cons] at hlen
    have hfront := digits_decimal fun c (hc : c ∈ text.take width) => hds c (List.mem_of_mem_take hc)
    rw [List.length_take_of_le (show width ≤ text.length by omega)] at hfront
    have hrest : (text.drop width).length = widths.sum := by
      rw [List.length_drop]
      omega
    rw [groups, ungroup, hfront, ih (fun c hc => hds c (List.mem_of_mem_drop hc)) hrest, List.take_append_drop]

/-- Each of the numbers is below the power of its width. -/
theorem groups_lt {widths : List Nat} {text : List UInt8} {k : Nat} (hds : ∀ c ∈ text, isDigit c = true)
    (hk : ∀ width ∈ widths, width ≤ k) : ∀ n ∈ groups widths text, n < 10 ^ k := by
  induction widths generalizing text with
  | nil => exact fun n hn => absurd hn List.not_mem_nil
  | cons width widths ih =>
    intro n hn
    rcases List.mem_cons.1 hn with rfl | hn
    · have hle := Nat.le_trans (List.length_take_le width text) (hk width (List.mem_cons_self ..))
      exact Nat.lt_of_lt_of_le (decimal_lt fun c hc => hds c (List.mem_of_mem_take hc))
        (Nat.pow_le_pow_right (by decide) hle)
    · exact ih (fun c hc => hds c (List.mem_of_mem_drop hc)) (fun w hw => hk w (List.mem_cons_of_mem _ hw)) n hn

/-- Numbers of one byte each, in their bytes. -/
theorem map_toNat_toUInt8 {ns : List Nat} (h : ∀ n ∈ ns, n < 256) : (ns.map Nat.toUInt8).map UInt8.toNat = ns := by
  rw [List.map_map]
  refine (List.map_congr_left fun n hn => ?_).trans (List.map_id ns)
  have hlt := h n hn
  rw [Function.comp_apply, Nat.toUInt8, UInt8.toNat_ofNat', id_eq]
  omega

end Print
