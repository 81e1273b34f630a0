/-
Infinite runs of a state machine, and the rule for what must happen on them:
if something helpful keeps happening, and each time it does a measure falls
while nothing else raises it, the goal is reached.
-/
import Petbox.Lib.Run

namespace Machine

variable {σ α : Type*} {step : σ → α → Option σ}

/-- An infinite run from `s₀`. -/
structure InfRun (step : σ → α → Option σ) (s₀ : σ) where
  state : Nat → σ
  act : Nat → α
  start : state 0 = s₀
  next : ∀ t, step (state t) (act t) = some (state (t + 1))

namespace InfRun

variable {s₀ : σ}

/-- What every step keeps holds from the time it first holds. -/
theorem inv_from (ρ : InfRun step s₀) {I : σ → Prop} (keep : ∀ s a s', I s → step s a = some s' → I s') {t : Nat}
    (h : I (ρ.state t)) {u : Nat} (hu : t ≤ u) : I (ρ.state u) := by
  induction hu with
  | refl => exact h
  | @step u _ ih => exact keep _ _ _ ih (ρ.next u)

theorem inv (ρ : InfRun step s₀) {I : σ → Prop} (h₀ : I s₀) (keep : ∀ s a s', I s → step s a = some s' → I s')
    (t : Nat) : I (ρ.state t) :=
  ρ.inv_from keep (by rw [ρ.start]; exact h₀) (Nat.zero_le t)

/-- A finite run followed by an action that changes nothing, for ever. -/
def stutter {as : List α} {s : σ} {a : α} (h : exec step s₀ as = some s) (hs : step s a = some s) : InfRun step s₀ where
  state t := (exec step s₀ (as.take t)).getD s
  act t := (as[t]?).getD a
  start := by simp
  next t := by
    by_cases ht : t < as.length
    · have hsplit := h
      rw [← List.take_append_drop t as, exec_append] at hsplit
      obtain ⟨u, hu, hrest⟩ := hsplit
      rw [List.drop_eq_getElem_cons ht, exec_cons] at hrest
      obtain ⟨v, hv, -⟩ := hrest
      have hnext : exec step s₀ (as.take (t + 1)) = some v := by
        rw [List.take_add_one, List.getElem?_eq_getElem ht, Option.toList_some, exec_snoc]
        exact ⟨u, hu, hv⟩
      rw [hu, hnext, List.getElem?_eq_getElem ht]
      exact hv
    · have hle : as.length ≤ t := Nat.not_lt.1 ht
      rw [List.take_of_length_le hle, List.take_of_length_le (Nat.le_succ_of_le hle), h, List.getElem?_eq_none hle]
      exact hs

theorem stutter_state {as : List α} {s : σ} {a : α} (h : exec step s₀ as = some s) (hs : step s a = some s) {t : Nat}
    (ht : as.length ≤ t) : (stutter h hs).state t = s := by
  simp only [stutter, List.take_of_length_le ht, h, Option.getD_some]

theorem stutter_act {as : List α} {s : σ} {a : α} (h : exec step s₀ as = some s) (hs : step s a = some s) {t : Nat}
    (ht : as.length ≤ t) : (stutter h hs).act t = a := by
  simp only [stutter, List.getElem?_eq_none ht, Option.getD_none]

end InfRun

/-- The measure rule, over times: `P t k` is the state of affairs at time `t` with
measure `k`, `H` happens again and again while it lasts, and when it does the
measure falls unless the goal `R` is reached. -/
theorem eventually {P : Nat → Nat → Prop} {R H : Nat → Prop} (fair : ∀ t k, P t k → ∃ u, t ≤ u ∧ H u)
    (keep : ∀ t k, P t k → R t ∨ (¬ H t ∧ P (t + 1) k) ∨ ∃ k', k' < k ∧ P (t + 1) k') :
    ∀ k t, P t k → ∃ u, t ≤ u ∧ R u := by
  intro k
  induction k using Nat.strongRecOn with
  | ind k ih =>
    intro t h
    obtain ⟨u, hu, hH⟩ := fair t k h
    -- Up to the next helpful time the measure stays, unless something better happens.
    obtain ⟨n, hn⟩ : ∃ n, u = t + n := ⟨u - t, by omega⟩
    induction n generalizing t with
    | zero =>
      rcases keep t k h with hR | ⟨hnot, -⟩ | ⟨k', hk, h'⟩
      · exact ⟨t, Nat.le_refl t, hR⟩
      · rw [hn, Nat.add_zero] at hH
        exact absurd hH hnot
      · obtain ⟨v, hv, hR⟩ := ih k' hk (t + 1) h'
        exact ⟨v, by omega, hR⟩
    | succ n ihn =>
      rcases keep t k h with hR | ⟨-, h'⟩ | ⟨k', hk, h'⟩
      · exact ⟨t, Nat.le_refl t, hR⟩
      · obtain ⟨v, hv, hR⟩ := ihn (t + 1) h' (by omega) (by omega)
        exact ⟨v, by omega, hR⟩
      · obtain ⟨v, hv, hR⟩ := ih k' hk (t + 1) h'
        exact ⟨v, by omega, hR⟩

end Machine
