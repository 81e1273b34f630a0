/-
Finding the entry of a table that agrees with a text, when the index of the
comparison is carried from one entry to the next: an entry is then compared
from where the one before it failed.

Such a search finds what is pieced together from several entries (`Pieced`). It
is right for an entry that agrees as a whole when all entries in front of it
disagree at one and the same place (`carry_whole`).
-/
import Mathlib.Tactic.Common

namespace Lookup

variable {ν : Type*} (size : ν → Nat) (agree : ν → Nat → Bool)

/-- Comparison of `n` places from `i` on: whether they agree, and the place where
it stops. -/
def scan (agree : Nat → Bool) : Nat → Nat → Bool × Nat
  | 0, i => (true, i)
  | n + 1, i => if agree i then scan agree n (i + 1) else (false, i)

/-- The search that goes on at the place where the last entry failed. -/
def carry : Nat → List ν → Option ν
  | _, [] => none
  | i, e :: es =>
    if (scan (agree e) (size e - i) i).1 then some e else carry (scan (agree e) (size e - i) i).2 es

/-- The entry agrees from `i` up to `j`. -/
def Stretch (e : ν) (i j : Nat) : Prop := ∀ k, i ≤ k → k < j → agree e k = true

/-- The entry agrees as a whole. -/
def Whole (e : ν) : Prop := ∀ k < size e, agree e k = true

instance decidableWhole (e : ν) : Decidable (Whole size agree e) := Nat.decidableBallLT _ fun _ _ => _

/-- From place `i` on, an entry agrees to its end, when the entries in front of it
may agree up to some place each, one after the other. -/
inductive Pieced : Nat → List ν → Prop
  | last {i : Nat} {e : ν} {es : List ν} : Stretch agree e i (size e) → Pieced i (e :: es)
  | part {i j : Nat} {e : ν} {es : List ν} : i ≤ j → j ≤ size e → Stretch agree e i j → Pieced j es →
      Pieced i (e :: es)
  | beyond {i : Nat} {e : ν} {es : List ν} : Pieced i es → Pieced i (e :: es)

variable {size agree}

/-- The comparison succeeds when all places agree. -/
theorem scan_iff {f : Nat → Bool} {n i : Nat} :
    (scan f n i).1 = true ↔ ∀ k, i ≤ k → k < i + n → f k = true := by
  induction n generalizing i with
  | zero => exact iff_of_true rfl fun k hk hlt => absurd hk (by omega)
  | succ n ih =>
    cases hi : f i with
    | false =>
      rw [scan, if_neg (by rw [hi]; exact Bool.false_ne_true)]
      refine iff_of_false Bool.false_ne_true fun h => ?_
      rw [h i (Nat.le_refl i) (by omega)] at hi
      exact nomatch hi
    | true =>
      rw [scan, if_pos hi, ih]
      constructor
      · intro h k hk hlt
        by_cases hki : k = i
        · rw [hki, hi]
        · exact h k (by omega) (by omega)
      · exact fun h k hk hlt => h k (by omega) (by omega)

/-- Otherwise it stops at the first place that does not. -/
theorem scan_false {f : Nat → Bool} {n i : Nat} (h : (scan f n i).1 = false) :
    i ≤ (scan f n i).2 ∧ (scan f n i).2 < i + n ∧ f (scan f n i).2 = false ∧
      ∀ k, i ≤ k → k < (scan f n i).2 → f k = true := by
  induction n generalizing i with
  | zero => exact nomatch h
  | succ n ih =>
    cases hi : f i with
    | false =>
      rw [scan, if_neg (by rw [hi]; exact Bool.false_ne_true)]
      exact ⟨Nat.le_refl i, by omega, hi, fun k hk hlt => absurd hk (by omega)⟩
    | true =>
      rw [scan, if_pos hi] at h ⊢
      obtain ⟨hle, hlt, hfail, hall⟩ := ih h
      refine ⟨by omega, by omega, hfail, fun k hk hlt' => ?_⟩
      by_cases hki : k = i
      · rw [hki, hi]
      · exact hall k (by omega) hlt'

/-- An entry is compared to its end. -/
theorem scan_stretch {e : ν} {i : Nat} :
    (scan (agree e) (size e - i) i).1 = true ↔ Stretch agree e i (size e) := by
  rw [scan_iff]
  constructor
  · exact fun h k hk hlt => h k hk (by omega)
  · exact fun h k hk hlt => h k hk (by omega)

/-- To carry on further is no loss. -/
theorem Pieced.mono {es : List ν} {i j : Nat} (h : Pieced size agree i es) (hij : i ≤ j) : Pieced size agree j es := by
  induction h generalizing j with
  | last hs => exact .last fun k hk hlt => hs k (by omega) hlt
  | @part i m e es him hm hs h ih =>
    by_cases hjm : j ≤ m
    · exact .part hjm hm (fun k hk hlt => hs k (by omega) hlt) h
    · exact .beyond (ih (by omega))
  | beyond h ih => exact .beyond (ih hij)

/-- **The search finds an entry exactly when one is pieced together.** -/
theorem carry_isSome_iff {i : Nat} {es : List ν} : (carry size agree i es).isSome ↔ Pieced size agree i es := by
  induction es generalizing i with
  | nil => exact iff_of_false Bool.false_ne_true fun h => nomatch h
  | cons e es ih =>
    cases hscan : (scan (agree e) (size e - i) i).1 with
    | true =>
      rw [carry, if_pos hscan]
      exact iff_of_true rfl (.last (scan_stretch.1 hscan))
    | false =>
      obtain ⟨hle, hlt, hfail, hall⟩ := scan_false hscan
      rw [carry, if_neg (by rw [hscan]; exact Bool.false_ne_true), ih]
      refine ⟨fun h => .part hle (by omega) hall h, fun h => ?_⟩
      cases h with
      | last hs =>
        rw [scan_stretch.2 hs] at hscan
        exact nomatch hscan
      | @part j _ _ _ hij hj hs h =>
        refine h.mono (Nat.le_of_not_lt fun hlt' => ?_)
        rw [hs _ hle hlt'] at hfail
        exact nomatch hfail
      | beyond h => exact h.mono hle

/-- **An entry that agrees as a whole is found**, if every entry in front of it
disagrees at place `k`. -/
theorem carry_whole {pre post : List ν} {e : ν} {i k : Nat} (h : Whole size agree e)
    (hpre : ∀ d ∈ pre, k < size d ∧ agree d k = false) (hik : i ≤ k) :
    carry size agree i (pre ++ e :: post) = some e := by
  induction pre generalizing i with
  | nil => rw [List.nil_append, carry, if_pos (scan_stretch.2 fun k _ hlt => h k hlt)]
  | cons d pre ih =>
    obtain ⟨hsize, hd⟩ := hpre d (List.mem_cons_self ..)
    have hscan : (scan (agree d) (size d - i) i).1 = false := by
      rw [Bool.eq_false_iff]
      intro htrue
      rw [scan_stretch.1 htrue k hik hsize] at hd
      exact nomatch hd
    obtain ⟨-, -, -, hall⟩ := scan_false hscan
    rw [List.cons_append, carry, if_neg (by rw [hscan]; exact Bool.false_ne_true)]
    refine ih (fun d' hd' => hpre d' (List.mem_cons_of_mem d hd')) (Nat.le_of_not_lt fun hlt => ?_)
    rw [hall k hik hlt] at hd
    exact nomatch hd

end Lookup
