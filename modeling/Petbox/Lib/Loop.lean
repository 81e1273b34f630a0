/-
Loops that may not end, and accesses that may be out of range. A loop runs on
fuel, so that it does not end when no fuel is enough; the counter of the loop
has 8 bits, whatever it is compared with.
-/
import Mathlib.Tactic.Common

namespace Loop

/-- Why code stops before its end. -/
inductive Stop
  | fuel
  | fault
  deriving DecidableEq, Repr

variable {σ : Type}

/-- The access is allowed, or the code faults. -/
def check (allowed : Bool) : Except Stop Unit := if allowed then .ok () else .error .fault

@[simp] theorem check_true : check true = .ok () := rfl

/-- `for (uint8_t loop = i; loop < n; loop++) body`. -/
def forU8 (n : Int) (body : UInt8 → σ → Except Stop σ) : Nat → UInt8 → σ → Except Stop σ
  | 0, _, _ => .error .fuel
  | fuel + 1, loop, s =>
    if (loop.toNat : Int) < n then do
      let s ← body loop s
      forU8 n body fuel (loop + 1) s
    else .ok s

/-- No round. -/
theorem forU8_none {n : Int} (h : n ≤ 0) (body : UInt8 → σ → Except Stop σ) (fuel : Nat) (s : σ) :
    forU8 n body (fuel + 1) 0 s = .ok s := by
  have hn : ¬ ((0 : UInt8).toNat : Int) < n := by
    rw [UInt8.toNat_zero]
    omega
  rw [forU8, if_neg hn]

/-- The counter never gets to a bound of 256: the loop does not end. -/
theorem forU8_spins {n : Int} (h : 256 ≤ n) {body : UInt8 → σ → Except Stop σ}
    (hbody : ∀ i s, ∃ s', body i s = .ok s') (fuel : Nat) (loop : UInt8) (s : σ) :
    forU8 n body fuel loop s = .error .fuel := by
  induction fuel generalizing loop s with
  | zero => rfl
  | succ fuel ih =>
    have hlt := loop.toNat_lt
    obtain ⟨s', hs'⟩ := hbody loop s
    rw [forU8, if_pos (by omega), hs']
    exact ih (loop + 1) s'

end Loop
