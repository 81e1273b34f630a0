/-
A byte as the set of the numbers of its bits, and the C expressions that test,
set and clear one of them.
-/
import Mathlib.Algebra.Group.Nat.Defs
import Mathlib.Tactic.Common

namespace Bitmap

/-- `(1 << i) & 0xff`. -/
def mask (i : Nat) : UInt8 := ((1 <<< i) &&& 0xff).toUInt8

/-- The number is in the set. -/
def Has (bits : UInt8) (i : Nat) : Prop := bits.toNat.testBit i = true

theorem mask_toNat {i : Nat} (hi : i < 8) : (mask i).toNat = 2 ^ i := by
  have key : ∀ i < 8, (mask i).toNat = 2 ^ i := by decide
  exact key i hi

/-- `((bits >> i) & 0x01) == 0`. -/
theorem shift_and_one {bits : UInt8} {i : Nat} (hi : i < 8) :
    ((bits >>> i.toUInt8) &&& 1 == 0) = true ↔ ¬ Has bits i := by
  have hshift : i.toUInt8.toNat % 8 = i := by
    simp
    omega
  rw [Has, Nat.testBit, Nat.and_comm, beq_iff_eq, ← UInt8.toNat_inj, UInt8.toNat_and, UInt8.toNat_shiftRight, hshift]
  simp

/-- `bits |= (1 << i) & 0xff`. -/
theorem has_or_mask {bits : UInt8} {i j : Nat} (hi : i < 8) : Has (bits ||| mask i) j ↔ Has bits j ∨ i = j := by
  rw [Has, UInt8.toNat_or, Nat.testBit_or, mask_toNat hi, Nat.testBit_two_pow]
  simp [Has]

/-- `bits &= ~((1 << i) & 0xff)`. -/
theorem has_and_not_mask {bits : UInt8} {i j : Nat} (hi : i < 8) (hj : j < 8) :
    Has (bits &&& ~~~(mask i)) j ↔ Has bits j ∧ i ≠ j := by
  have hpow : 2 ^ i < 2 ^ 8 := Nat.pow_lt_pow_right (by decide) hi
  have hnot : (~~~(mask i)).toNat = 2 ^ 8 - (2 ^ i + 1) := by
    rw [UInt8.toNat_not, mask_toNat hi, UInt8.size]
    omega
  rw [Has, UInt8.toNat_and, Nat.testBit_and, hnot, Nat.testBit_two_pow_sub_succ hpow, Nat.testBit_two_pow,
    decide_eq_true hj]
  simp [Has]

end Bitmap
