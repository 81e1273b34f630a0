/-
Cutting a byte stream into frames, for a parser that looks at the unread
bytes and answers one of: wait for more, drop some, take a frame.

Everything about chunking rests on one property of the verdict, that more
bytes never change an answer other than "wait" (`Stable.append`): parsing
what has arrived and then the rest is parsing the whole (`Parses.append`,
`Parses.trans`), and the frames of a stream are determined by the stream
(`Parses.unique`).
-/
import Mathlib.Tactic.Common

namespace Framing

/-- What a parser does at the front of the unread bytes. -/
inductive Verdict
  | wait
  | skip (n : Nat)
  | frame (n : Nat)
  | stuck
  deriving DecidableEq, Repr

variable {β : Type*} {verdict : List β → Verdict}

/-- A verdict that looks no further than it consumes. -/
structure Stable (verdict : List β → Verdict) : Prop where
  append : ∀ {p : List β} (q : List β), verdict p ≠ .wait → verdict (p ++ q) = verdict p
  skip : ∀ {p : List β} {n : Nat}, verdict p = .skip n → 0 < n ∧ n ≤ p.length
  frame : ∀ {p : List β} {n : Nat}, verdict p = .frame n → 0 < n ∧ n ≤ p.length

/-- Parsing the bytes `p` gives the frames `F` and leaves `r` unread. -/
inductive Parses (verdict : List β → Verdict) : List β → List (List β) → List β → Prop
  | refl (p) : Parses verdict p [] p
  | skip {p n F r} : verdict p = .skip n → Parses verdict (p.drop n) F r → Parses verdict p F r
  | frame {p n F r} : verdict p = .frame n → Parses verdict (p.drop n) F r →
      Parses verdict p (p.take n :: F) r

/-- Parsing `p` as far as it goes gives `F` and ends waiting, with `r` unread. -/
def Settles (verdict : List β → Verdict) (p : List β) (F : List (List β)) (r : List β) : Prop :=
  Parses verdict p F r ∧ verdict r = .wait

theorem Parses.trans {p q r : List β} {F G : List (List β)} (h : Parses verdict p F q)
    (h' : Parses verdict q G r) : Parses verdict p (F ++ G) r := by
  induction h with
  | refl p => exact h'
  | skip hv _ ih => exact .skip hv (ih h')
  | frame hv _ ih => exact .frame hv (ih h')

/-- Bytes that arrive later do not change what was parsed. -/
theorem Parses.append (hV : Stable verdict) {p r : List β} {F : List (List β)} (h : Parses verdict p F r)
    (q : List β) : Parses verdict (p ++ q) F (r ++ q) := by
  induction h with
  | refl p => exact .refl _
  | @skip p n F r hv _ ih =>
    refine .skip (by rw [hV.append q (by simp [hv]), hv]) ?_
    rwa [List.drop_append_of_le_length (hV.skip hv).2]
  | @frame p n F r hv _ ih =>
    have htake : (p ++ q).take n = p.take n := List.take_append_of_le_length (hV.frame hv).2
    rw [← htake]
    refine .frame (by rw [hV.append q (by simp [hv]), hv]) ?_
    rwa [List.drop_append_of_le_length (hV.frame hv).2]

/-- Of two parses of the same bytes, one that has settled contains the other. -/
theorem Parses.rest {p q r : List β} {F G : List (List β)} (h : Parses verdict p F q)
    (h' : Settles verdict p G r) : ∃ G', G = F ++ G' ∧ Settles verdict q G' r := by
  induction h generalizing G with
  | refl p => exact ⟨G, rfl, h'⟩
  | @skip p n F q hv _ ih =>
    obtain ⟨h', hr⟩ := h'
    cases h' with
    | refl => rw [hv] at hr; cases hr
    | skip hw h' =>
      rw [hv, Verdict.skip.injEq] at hw
      exact ih ⟨hw ▸ h', hr⟩
    | frame hw => rw [hv] at hw; cases hw
  | @frame p n F q hv _ ih =>
    obtain ⟨h', hr⟩ := h'
    cases h' with
    | refl => rw [hv] at hr; cases hr
    | skip hw => rw [hv] at hw; cases hw
    | frame hw h' =>
      rw [hv, Verdict.frame.injEq] at hw
      subst hw
      obtain ⟨G', rfl, hG⟩ := ih ⟨h', hr⟩
      exact ⟨G', rfl, hG⟩

theorem Settles.eq_of_wait {p r : List β} {F : List (List β)} (h : Settles verdict p F r)
    (hp : verdict p = .wait) : F = [] ∧ r = p := by
  obtain ⟨h, -⟩ := h
  cases h with
  | refl => exact ⟨rfl, rfl⟩
  | skip hv => rw [hp] at hv; cases hv
  | frame hv => rw [hp] at hv; cases hv

/-- The frames of a stream, and what is left of it, are determined. -/
theorem Parses.unique {p q r : List β} {F G : List (List β)} (h : Settles verdict p F q)
    (h' : Settles verdict p G r) : F = G ∧ q = r := by
  obtain ⟨G', hG, h'⟩ := h.1.rest h'
  obtain ⟨rfl, rfl⟩ := h'.eq_of_wait h.2
  exact ⟨by simp [hG], rfl⟩

theorem Settles.not_stuck {p r : List β} {F : List (List β)} (h : Settles verdict p F r) :
    verdict p ≠ .stuck := by
  intro hp
  obtain ⟨h, hr⟩ := h
  cases h with
  | refl => rw [hp] at hr; cases hr
  | skip hv => rw [hp] at hv; cases hv
  | frame hv => rw [hp] at hv; cases hv

/-- Where no suffix of the stream is stuck, parsing settles. -/
theorem exists_settles (hV : Stable verdict) (p : List β)
    (h : ∀ q, q <:+ p → verdict q ≠ .stuck) : ∃ F r, Settles verdict p F r := by
  obtain ⟨n, hn⟩ : ∃ n, p.length ≤ n := ⟨_, Nat.le_refl _⟩
  induction n generalizing p with
  | zero =>
    cases hv : verdict p with
    | wait => exact ⟨[], p, .refl p, hv⟩
    | skip n => have := hV.skip hv; omega
    | frame n => have := hV.frame hv; omega
    | stuck => exact absurd hv (h p (List.suffix_refl p))
  | succ n ih =>
    have rest : ∀ k, 0 < k ∧ k ≤ p.length → ∃ F r, Settles verdict (p.drop k) F r := fun k hk =>
      ih (p.drop k) (fun q hq => h q (hq.trans (List.drop_suffix k p))) (by simp; omega)
    cases hv : verdict p with
    | wait => exact ⟨[], p, .refl p, hv⟩
    | skip k =>
      obtain ⟨F, r, hp, hr⟩ := rest k (hV.skip hv)
      exact ⟨F, r, .skip hv hp, hr⟩
    | frame k =>
      obtain ⟨F, r, hp, hr⟩ := rest k (hV.frame hv)
      exact ⟨_, r, .frame hv hp, hr⟩
    | stuck => exact absurd hv (h p (List.suffix_refl p))

end Framing
