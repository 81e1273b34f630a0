/-
Memory as a function from offsets to cells, and the cells of a range of
offsets as a list. A C array and what lies behind it is one such function;
a loop over an array is a statement about `slice`.
-/
import Mathlib.Tactic.Common

namespace Mem

variable {β : Type*}

/-- The `n` cells from offset `a` on. -/
def slice (m : Nat → β) : Nat → Nat → List β
  | _, 0 => []
  | a, n + 1 => m a :: slice m (a + 1) n

/-- One cell overwritten. -/
def store (m : Nat → β) (i : Nat) (v : β) : Nat → β := fun j => if j = i then v else m j

@[simp] theorem store_self (m : Nat → β) (i : Nat) (v : β) : store m i v i = v := by simp [store]

theorem store_ne {m : Nat → β} {i j : Nat} {v : β} (h : j ≠ i) : store m i v j = m j := by
  simp [store, h]

@[simp] theorem slice_zero (m : Nat → β) (a : Nat) : slice m a 0 = [] := rfl

theorem slice_succ (m : Nat → β) (a n : Nat) : slice m a (n + 1) = m a :: slice m (a + 1) n := rfl

@[simp] theorem length_slice (m : Nat → β) (a n : Nat) : (slice m a n).length = n := by
  induction n generalizing a with
  | zero => rfl
  | succ n ih => simp [slice, ih]

theorem slice_add (m : Nat → β) (a n k : Nat) : slice m a (n + k) = slice m a n ++ slice m (a + n) k := by
  induction n generalizing a with
  | zero => simp
  | succ n ih =>
    rw [show n + 1 + k = n + k + 1 by omega, slice_succ, slice_succ, ih, List.cons_append,
      show a + 1 + n = a + (n + 1) by omega]

theorem slice_snoc (m : Nat → β) (a n : Nat) : slice m a (n + 1) = slice m a n ++ [m (a + n)] :=
  slice_add m a n 1

/-- Two ranges with the same cells, at different offsets. -/
theorem slice_eq_slice {m m' : Nat → β} {a b n : Nat} (h : ∀ i < n, m (a + i) = m' (b + i)) :
    slice m a n = slice m' b n := by
  induction n with
  | zero => rfl
  | succ n ih => rw [slice_snoc, slice_snoc, ih fun i hi => h i (by omega), h n (by omega)]

theorem slice_congr {m m' : Nat → β} {a n : Nat} (h : ∀ i, a ≤ i → i < a + n → m i = m' i) :
    slice m a n = slice m' a n :=
  slice_eq_slice fun i hi => h (a + i) (by omega) (by omega)

/-- A store outside the range is not seen. -/
theorem slice_store {m : Nat → β} {a n i : Nat} {v : β} (h : i < a ∨ a + n ≤ i) :
    slice (store m i v) a n = slice m a n :=
  slice_congr fun _ _ _ => store_ne (by omega)

/-- A store just behind the range extends it. -/
theorem slice_store_end (m : Nat → β) (a n : Nat) (v : β) :
    slice (store m (a + n) v) a (n + 1) = slice m a n ++ [v] := by
  rw [slice_snoc, slice_store (.inr (by omega)), store_self]

theorem drop_slice (m : Nat → β) (a n k : Nat) : (slice m a n).drop k = slice m (a + k) (n - k) := by
  induction k generalizing a n with
  | zero => simp
  | succ k ih =>
    cases n with
    | zero => simp
    | succ n => rw [slice_succ, List.drop_succ_cons, ih, show a + 1 + k = a + (k + 1) by omega,
        show n - k = n + 1 - (k + 1) by omega]

theorem take_slice (m : Nat → β) (a n k : Nat) : (slice m a n).take k = slice m a (min k n) := by
  induction k generalizing a n with
  | zero => simp
  | succ k ih =>
    cases n with
    | zero => simp
    | succ n => rw [slice_succ, List.take_succ_cons, ih, show min (k + 1) (n + 1) = min k n + 1 by omega,
        slice_succ]

theorem getElem?_slice {m : Nat → β} {a n k : Nat} (h : k < n) : (slice m a n)[k]? = some (m (a + k)) := by
  induction k generalizing a n with
  | zero =>
    obtain ⟨n, rfl⟩ : ∃ n', n = n' + 1 := ⟨n - 1, by omega⟩
    simp [slice_succ]
  | succ k ih =>
    obtain ⟨n, rfl⟩ : ∃ n', n = n' + 1 := ⟨n - 1, by omega⟩
    rw [slice_succ, List.getElem?_cons_succ, ih (by omega), show a + 1 + k = a + (k + 1) by omega]

/-- The cells of a list, read with a default behind its end. -/
theorem slice_getD {l : List β} {d : β} {a n : Nat} (h : a + n ≤ l.length) :
    slice (fun i => l.getD i d) a n = (l.drop a).take n := by
  induction n generalizing a with
  | zero => simp
  | succ n ih =>
    have ha : a < l.length := by omega
    have hget : l.getD a d = l[a] := by simp [ha]
    rw [slice_succ, ih (by omega), List.drop_eq_getElem_cons ha, List.take_succ_cons, hget]

end Mem
