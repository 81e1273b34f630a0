/-
A circular buffer of `N` cells with a read and a write index: the cells behind
the read index, up to the write index, are stored. Equal indices mean that it
is empty, so one cell always stays free.
-/
import Mathlib.Algebra.Group.Fin.Basic
import Mathlib.Algebra.GroupWithZero.Nat
import Mathlib.Logic.Function.Basic
import Mathlib.Tactic.Common

namespace Circular

variable {β : Type*} {N : Nat} [NeZero N]

/-- The `n` cells behind index `r`, around the end. -/
def window (m : Fin N → β) : Fin N → Nat → List β
  | _, 0 => []
  | r, n + 1 => m (r + 1) :: window m (r + 1) n

/-- How many cells are stored. -/
def stored (r w : Fin N) : Nat := (w - r).val

/-- The stored cells, the oldest first. -/
def contents (m : Fin N → β) (r w : Fin N) : List β := window m r (stored r w)

@[simp] theorem length_window (m : Fin N → β) (r : Fin N) (n : Nat) : (window m r n).length = n := by
  induction n generalizing r with
  | zero => rfl
  | succ n ih => simp [window, ih]

@[simp] theorem length_contents (m : Fin N → β) (r w : Fin N) : (contents m r w).length = stored r w := by
  simp [contents]

omit [NeZero N] in
theorem stored_lt (r w : Fin N) : stored r w < N := (w - r).isLt

@[simp] theorem stored_self (r : Fin N) : stored r r = 0 := by simp [stored]

@[simp] theorem contents_self (m : Fin N → β) (r : Fin N) : contents m r r = [] := by simp [contents, window]

/-- The write index is as many cells behind the read index as are stored. -/
theorem add_stored (r w : Fin N) : r + Fin.ofNat N (stored r w) = w := by
  have hcast : Fin.ofNat N (stored r w) = w - r := Fin.ext (by simp [stored])
  rw [hcast, add_sub_cancel]

theorem add_ofNat_zero (r : Fin N) : r + Fin.ofNat N 0 = r := by
  have hzero : Fin.ofNat N 0 = 0 := Fin.ext (by simp)
  rw [hzero, add_zero]

theorem add_ofNat_succ (r : Fin N) (n : Nat) : r + 1 + Fin.ofNat N n = r + Fin.ofNat N (n + 1) := by
  apply Fin.ext
  simp only [Fin.val_add, Fin.val_ofNat, Fin.val_one', Nat.add_mod_mod, Nat.mod_add_mod]
  rw [Nat.add_assoc, Nat.add_comm 1 n]

theorem add_ofNat_one (r : Fin N) : r + Fin.ofNat N 1 = r + 1 := by
  rw [← add_ofNat_succ, add_ofNat_zero]

theorem add_ofNat_inj {r : Fin N} {i j : Nat} (hi : i < N) (hj : j < N)
    (h : r + Fin.ofNat N i = r + Fin.ofNat N j) : i = j := by
  have heq := congrArg Fin.val (add_left_cancel h)
  rwa [Fin.val_ofNat, Fin.val_ofNat, Nat.mod_eq_of_lt hi, Nat.mod_eq_of_lt hj] at heq

theorem window_snoc (m : Fin N → β) (r : Fin N) (n : Nat) :
    window m r (n + 1) = window m r n ++ [m (r + Fin.ofNat N (n + 1))] := by
  induction n generalizing r with
  | zero => rw [add_ofNat_one]; rfl
  | succ n ih => rw [window, ih, window, List.cons_append, add_ofNat_succ]

/-- A cell that is overwritten outside the window is not seen. -/
theorem window_update {m : Fin N → β} {r i : Fin N} {n : Nat} {v : β}
    (h : ∀ k < n, r + Fin.ofNat N (k + 1) ≠ i) : window (Function.update m i v) r n = window m r n := by
  induction n generalizing r with
  | zero => rfl
  | succ n ih =>
    have h0 : r + 1 ≠ i := add_ofNat_one r ▸ h 0 (by omega)
    have hrest : ∀ k < n, r + 1 + Fin.ofNat N (k + 1) ≠ i := by
      intro k hk
      rw [add_ofNat_succ]
      exact h (k + 1) (by omega)
    rw [window, window, Function.update_of_ne h0, ih hrest]

theorem stored_push {r w : Fin N} (h : w + 1 ≠ r) : stored r (w + 1) = stored r w + 1 := by
  have hlt := stored_lt r w
  have hw : w + 1 = r + Fin.ofNat N (stored r w + 1) := by
    rw [← add_ofNat_succ, add_right_comm, add_stored]
  have hN : stored r w + 1 < N := by
    by_contra hge
    have hmod : Fin.ofNat N (stored r w + 1) = 0 := Fin.ext (by simp [show stored r w + 1 = N by omega])
    rw [hmod, add_zero] at hw
    exact h hw
  rw [stored, hw, add_sub_cancel_left, Fin.val_ofNat, Nat.mod_eq_of_lt hN]

/-- A cell written behind the write index is stored last. -/
theorem contents_push {m : Fin N → β} {r w : Fin N} (h : w + 1 ≠ r) (v : β) :
    contents (Function.update m (w + 1) v) r (w + 1) = contents m r w ++ [v] := by
  have hs := stored_push h
  have hlt := stored_lt r (w + 1)
  have hw := add_stored r (w + 1)
  rw [hs] at hlt hw
  have hold : ∀ k < stored r w, r + Fin.ofNat N (k + 1) ≠ w + 1 := by
    intro k hk heq
    rw [← hw] at heq
    have := add_ofNat_inj (by omega) hlt heq
    omega
  rw [contents, hs, window_snoc, window_update hold, hw, Function.update_self, contents]

theorem stored_pop {r w : Fin N} (h : w ≠ r) : stored r w = stored (r + 1) w + 1 := by
  have hw : w + 1 ≠ r + 1 := fun heq => h (add_right_cancel heq)
  have hs := stored_push hw
  rw [← hs]
  exact congrArg Fin.val (add_sub_add_right_eq_sub w r 1).symm

/-- The oldest stored cell is the one behind the read index. -/
theorem contents_pop {m : Fin N → β} {r w : Fin N} (h : w ≠ r) :
    contents m r w = m (r + 1) :: contents m (r + 1) w := by
  rw [contents, stored_pop h, window, contents]

/-- The buffer is full when the write index would land on the read index. -/
theorem stored_full {r w : Fin N} : w + 1 = r ↔ stored r w + 1 = N := by
  constructor
  · intro h
    by_contra hne
    have hlt := stored_lt r w
    have hw := congrArg (· + 1) (add_stored r w)
    simp only [add_right_comm _ _ (1 : Fin N), add_ofNat_succ, h] at hw
    have heq := hw.trans (add_ofNat_zero r).symm
    have := add_ofNat_inj (by omega) (Nat.pos_of_neZero N) heq
    omega
  · intro h
    by_contra hne
    have := stored_lt r (w + 1)
    rw [stored_push hne] at this
    omega

end Circular
