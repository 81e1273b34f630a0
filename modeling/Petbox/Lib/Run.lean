/-
Runs of a state machine given by a partial step function: what every step keeps,
runs whose steps meet a condition (`Along`), what a run emits, the parts of a
machine, and simulations of one machine by another.

Infinite runs and their fairness are in `Petbox.Lib.Fair`.
-/
import Mathlib.Tactic.Common

namespace Machine

variable {σ α β : Type*} {step : σ → α → Option σ}

/-- The state after a list of actions, when every one of them is enabled. -/
def exec (step : σ → α → Option σ) : σ → List α → Option σ
  | s, [] => some s
  | s, a :: as => (step s a).bind fun s' => exec step s' as

@[simp] theorem exec_nil (s : σ) : exec step s [] = some s := rfl

theorem exec_cons {s t : σ} {a : α} {as : List α} :
    exec step s (a :: as) = some t ↔ ∃ s', step s a = some s' ∧ exec step s' as = some t := by
  simp only [exec, Option.bind_eq_some_iff]

theorem exec_append_bind (s : σ) (as bs : List α) :
    exec step s (as ++ bs) = (exec step s as).bind fun t => exec step t bs := by
  induction as generalizing s with
  | nil => rfl
  | cons a as ih => cases hs : step s a <;> simp [exec, hs, ih]

theorem exec_append {s t : σ} {as bs : List α} :
    exec step s (as ++ bs) = some t ↔ ∃ u, exec step s as = some u ∧ exec step u bs = some t := by
  rw [exec_append_bind, Option.bind_eq_some_iff]

theorem exec_snoc {s t : σ} {as : List α} {a : α} :
    exec step s (as ++ [a]) = some t ↔ ∃ u, exec step s as = some u ∧ step u a = some t := by
  simp [exec_append, exec_cons]

/-- Reachable from an initial state by enabled actions. -/
def Reachable (step : σ → α → Option σ) (s₀ s : σ) : Prop := ∃ as, exec step s₀ as = some s

theorem Reachable.refl {s : σ} : Reachable step s s := ⟨[], rfl⟩

/-- The invariant rule: what every step keeps, every run keeps. -/
theorem exec_inv {I : σ → Prop} (keep : ∀ s a s', I s → step s a = some s' → I s') :
    ∀ {as : List α} {s t : σ}, I s → exec step s as = some t → I t
  | [], s, t, h, hx => by
    simp only [exec_nil, Option.some.injEq] at hx
    exact hx ▸ h
  | a :: as, s, t, h, hx => by
    obtain ⟨s', hs, hx⟩ := exec_cons.1 hx
    exact exec_inv keep (keep s a s' h hs) hx

theorem Reachable.inv {I : σ → Prop} {s₀ s : σ} (h : Reachable step s₀ s) (h₀ : I s₀)
    (keep : ∀ s a s', I s → step s a = some s' → I s') : I s := by
  obtain ⟨as, has⟩ := h
  exact exec_inv keep h₀ has

/-! ## Runs whose steps meet a condition -/

/-- Every step of the run meets `C`: the condition is read in the state the
step starts from. -/
def Along (step : σ → α → Option σ) (C : σ → α → Prop) : σ → List α → Prop
  | _, [] => True
  | s, a :: as => C s a ∧ ∀ s', step s a = some s' → Along step C s' as

theorem Along.cons {C : σ → α → Prop} {s s' : σ} {a : α} {as : List α} (hs : step s a = some s') (hc : C s a)
    (h : Along step C s' as) : Along step C s (a :: as) :=
  ⟨hc, fun _ hu => Option.some.inj (hs.symm.trans hu) ▸ h⟩

theorem Along.then {C : σ → α → Prop} {s : σ} {as bs : List α} (h : Along step C s as)
    (h' : ∀ u, exec step s as = some u → Along step C u bs) : Along step C s (as ++ bs) := by
  induction as generalizing s with
  | nil => exact h' s rfl
  | cons a as ih => exact ⟨h.1, fun u hu => ih (h.2 u hu) fun v hv => h' v (exec_cons.2 ⟨u, hu, hv⟩)⟩

theorem Along.append {C : σ → α → Prop} {s : σ} {as bs : List α} (h : Along step C s (as ++ bs)) :
    Along step C s as ∧ ∀ u, exec step s as = some u → Along step C u bs := by
  induction as generalizing s with
  | nil => exact ⟨trivial, fun u hu => by simp only [exec_nil, Option.some.injEq] at hu; exact hu ▸ h⟩
  | cons a as ih =>
    refine ⟨⟨h.1, fun s' hs => (ih (h.2 s' hs)).1⟩, fun u hu => ?_⟩
    obtain ⟨s', hs, hx⟩ := exec_cons.1 hu
    exact (ih (h.2 s' hs)).2 u hx

/-- A condition that says, wherever an invariant holds, when a step does what it
should, says so of every run. -/
theorem along_iff {C D : σ → α → Prop} {J : σ → Prop} {s : σ} (h : J s) (as : List α)
    (keep : ∀ s a s', J s → C s a → step s a = some s' → J s') (iff : ∀ s a, J s → (D s a ↔ C s a)) :
    Along step D s as ↔ Along step C s as := by
  induction as generalizing s with
  | nil => exact Iff.rfl
  | cons a as ih =>
    simp only [Along, iff s a h]
    exact and_congr_right fun hc => forall₂_congr fun s' hs => ih (keep s a s' h hc hs)

/-- The same for a run all of whose actions are enabled. -/
theorem exec_along_iff {C D : σ → α → Prop} {J : σ → Prop} {s t : σ} (h : J s) {as : List α}
    (hx : exec step s as = some t) (keep : ∀ s a s', J s → C s a → step s a = some s' → J s')
    (iff : ∀ s a s', J s → step s a = some s' → (D s a ↔ C s a)) : Along step D s as ↔ Along step C s as := by
  induction as generalizing s with
  | nil => exact Iff.rfl
  | cons a as ih =>
    obtain ⟨u, hu, hx⟩ := exec_cons.1 hx
    simp only [Along, iff s a u h hu]
    refine and_congr_right fun hc => forall₂_congr fun s' hs => ?_
    obtain rfl := Option.some.inj (hu.symm.trans hs)
    exact ih (keep s a u h hc hs) hx

/-- The rule for a property of what was done so far and of the state it led to. -/
theorem exec_history {C : σ → α → Prop} {H : List α → σ → Prop} {s₀ : σ} (h₀ : H [] s₀)
    (keep : ∀ as s a s', exec step s₀ as = some s → H as s → C s a → step s a = some s' → H (as ++ [a]) s')
    {as : List α} {t : σ} (hc : Along step C s₀ as) (hx : exec step s₀ as = some t) : H as t := by
  have key : ∀ (bs pre : List α) (s : σ), exec step s₀ pre = some s → H pre s → Along step C s bs →
      exec step s bs = some t → H (pre ++ bs) t := by
    intro bs
    induction bs with
    | nil =>
      intro pre s hpre h _ hx
      rw [exec_nil, Option.some.injEq] at hx
      rwa [List.append_nil, ← hx]
    | cons a bs ih =>
      intro pre s hpre h hc hx
      obtain ⟨s', hs, hx⟩ := exec_cons.1 hx
      rw [List.append_cons]
      exact ih (pre ++ [a]) s' (exec_snoc.2 ⟨s, hpre, hs⟩) (keep pre s a s' hpre h hc.1 hs) (hc.2 s' hs) hx
  exact key as [] s₀ rfl h₀ hc hx

/-- A run meets the condition when every step of it does in the state the steps
before it lead to. -/
theorem along_of_forall {C : σ → α → Prop} {s : σ} {as : List α}
    (h : ∀ pre a post u, as = pre ++ a :: post → exec step s pre = some u → C u a) : Along step C s as := by
  induction as generalizing s with
  | nil => trivial
  | cons a as ih =>
    refine ⟨h [] a as s rfl rfl, fun s' hs => ih fun pre b post u heq hx => ?_⟩
    exact h (a :: pre) b post u (by rw [heq]; rfl) (exec_cons.2 ⟨s', hs, hx⟩)

/-! ## What a run emits -/

/-- What the steps of a run emit, in order; `out s a` is what action `a` emits
when taken in state `s`. -/
def trace (step : σ → α → Option σ) (out : σ → α → List β) : σ → List α → List β
  | _, [] => []
  | s, a :: as => out s a ++ ((step s a).elim [] fun s' => trace step out s' as)

/-- What is emitted up to a point, and, where the run gets there, what is emitted behind it. -/
theorem trace_append_elim (out : σ → α → List β) (s : σ) (as bs : List α) :
    trace step out s (as ++ bs) = trace step out s as ++ (exec step s as).elim [] fun t => trace step out t bs := by
  induction as generalizing s with
  | nil => rfl
  | cons a as ih => cases hs : step s a <;> simp [trace, exec, hs, ih]

theorem trace_append {out : σ → α → List β} {s t : σ} {as : List α} (hx : exec step s as = some t) (bs : List α) :
    trace step out s (as ++ bs) = trace step out s as ++ trace step out t bs := by
  rw [trace_append_elim, hx, Option.elim_some]

theorem trace_flatMap {γ : Type*} (out : σ → α → List β) (f : β → List γ) (s : σ) (as : List α) :
    trace step (fun s a => (out s a).flatMap f) s as = (trace step out s as).flatMap f := by
  induction as generalizing s with
  | nil => rfl
  | cons a as ih => cases hs : step s a <;> simp [trace, hs, ih]

/-- The balance of a run: where every step turns what is held and what comes in
into what goes out and what is held, in order, the run does. -/
theorem trace_balance {held : σ → List β} {inp out : σ → α → List β}
    (bal : ∀ s a s', step s a = some s' → held s ++ inp s a = out s a ++ held s') :
    ∀ {as : List α} {s t : σ}, exec step s as = some t →
      held s ++ trace step inp s as = trace step out s as ++ held t
  | [], s, t, hx => by
    simp only [exec_nil, Option.some.injEq] at hx
    simp [trace, hx]
  | a :: as, s, t, hx => by
    obtain ⟨s', hs, hx⟩ := exec_cons.1 hx
    simp only [trace, hs, Option.elim_some]
    rw [← List.append_assoc, bal s a s' hs, List.append_assoc, trace_balance bal hx, List.append_assoc]

/-- A run takes a relation through the fold of what it emits. -/
theorem exec_fold {τ : Type*} {C : σ → α → Prop} {R : σ → τ → Prop} {out : σ → α → List β} {f : τ → β → τ}
    (keep : ∀ s a s' t, R s t → C s a → step s a = some s' → R s' ((out s a).foldl f t)) :
    ∀ {as : List α} {s s' : σ} {t : τ}, R s t → Along step C s as → exec step s as = some s' →
      R s' ((trace step out s as).foldl f t)
  | [], s, s', t, h, _, hx => by
    simp only [exec_nil, Option.some.injEq] at hx
    exact hx ▸ h
  | a :: as, s, s', t, h, hc, hx => by
    obtain ⟨u, hs, hx⟩ := exec_cons.1 hx
    simp only [trace, hs, Option.elim_some, List.foldl_append]
    exact exec_fold keep (keep s a u t h hc.1 hs) (hc.2 u hs) hx

/-- A register that some events set holds what the last of them set. -/
theorem foldl_register {τ ν : Type*} {f : τ → β → τ} {g : τ → ν} {set : β → Option ν}
    (h : ∀ t b, g (f t b) = (set b).getD (g t)) (bs : List β) (t : τ) :
    g (bs.foldl f t) = ((bs.filterMap set).getLast?).getD (g t) := by
  induction bs generalizing t with
  | nil => rfl
  | cons b bs ih =>
    rw [List.foldl_cons, ih, h]
    cases hb : set b with
    | none => rw [List.filterMap_cons_none hb, Option.getD_none]
    | some v => cases hl : bs.filterMap set <;> simp [List.filterMap_cons_some hb, hl, List.getLast?_cons]

/-- A run, and what it emits. -/
def Emits (step : σ → α → Option σ) (out : σ → α → List β) (s : σ) (as : List α) (bs : List β) (t : σ) : Prop :=
  exec step s as = some t ∧ trace step out s as = bs

theorem Emits.nil {out : σ → α → List β} (s : σ) : Emits step out s [] [] s := ⟨rfl, rfl⟩

theorem Emits.cons {out : σ → α → List β} {s s' t : σ} {a : α} {as : List α} {bs : List β} (hs : step s a = some s')
    (h : Emits step out s' as bs t) : Emits step out s (a :: as) (out s a ++ bs) t := by
  refine ⟨exec_cons.2 ⟨s', hs, h.1⟩, ?_⟩
  simp only [trace, hs, Option.elim_some, h.2]

theorem Emits.one (out : σ → α → List β) {s s' : σ} {a : α} (hs : step s a = some s') :
    Emits step out s [a] (out s a) s' := by
  simpa using Emits.cons hs (.nil s')

theorem Emits.append {out : σ → α → List β} {s t u : σ} {as as' : List α} {bs bs' : List β}
    (h : Emits step out s as bs t) (h' : Emits step out t as' bs' u) :
    Emits step out s (as ++ as') (bs ++ bs') u := by
  refine ⟨exec_append.2 ⟨t, h.1, h'.1⟩, ?_⟩
  rw [trace_append h.1, h.2, h'.2]

/-! ## Parts -/

section Parts

variable {ρ γ : Type*} {pstep : ρ → γ → Option ρ} {C : σ → α → Prop} {proj : σ → ρ} {acts : σ → α → List γ}

/-- A part of a machine runs through what the steps of the machine do to it. -/
theorem emits_project {out : σ → α → List β} {pout : ρ → γ → List β}
    (part : ∀ s a s', C s a → step s a = some s' → Emits pstep pout (proj s) (acts s a) (out s a) (proj s'))
    {as : List α} {s t : σ} (hc : Along step C s as) (hx : exec step s as = some t) :
    Emits pstep pout (proj s) (trace step acts s as) (trace step out s as) (proj t) := by
  induction as generalizing s with
  | nil =>
    rw [exec_nil, Option.some.injEq] at hx
    exact hx ▸ .nil _
  | cons a as ih =>
    obtain ⟨u, hu, hx⟩ := exec_cons.1 hx
    simp only [trace, hu, Option.elim_some]
    exact (part s a u hc.1 hu).append (ih (hc.2 u hu) hx)

theorem along_project {D : ρ → γ → Prop}
    (part : ∀ s a s', C s a → step s a = some s' → exec pstep (proj s) (acts s a) = some (proj s'))
    (along : ∀ s a, C s a → Along pstep D (proj s) (acts s a)) {as : List α} {s t : σ} (hc : Along step C s as)
    (hx : exec step s as = some t) : Along pstep D (proj s) (trace step acts s as) := by
  induction as generalizing s with
  | nil => trivial
  | cons a as ih =>
    obtain ⟨u, hu, hx⟩ := exec_cons.1 hx
    simp only [trace, hu, Option.elim_some]
    refine (along s a hc.1).then fun v hv => ?_
    obtain rfl := Option.some.inj ((part s a u hc.1 hu).symm.trans hv)
    exact ih (hc.2 u hu) hx

end Parts

/-! ## Simulation -/

variable {τ : Type*} {astep : τ → α → Option τ}

/-- A simulation whose steps show the same is one of runs that show the same. -/
theorem exec_sim_trace_along {C : σ → α → Prop} {R : σ → τ → Prop} {out : σ → α → List β} {aout : τ → α → List β}
    (sim : ∀ s a s' t, R s t → C s a → step s a = some s' →
      ∃ t', astep t a = some t' ∧ R s' t' ∧ out s a = aout t a) :
    ∀ {as : List α} {s s' : σ} {t : τ}, R s t → Along step C s as → exec step s as = some s' →
      ∃ t', exec astep t as = some t' ∧ R s' t' ∧ trace step out s as = trace astep aout t as
  | [], s, s', t, h, _, hx => by
    simp only [exec_nil, Option.some.injEq] at hx
    exact ⟨t, rfl, hx ▸ h, rfl⟩
  | a :: as, s, s', t, h, hc, hx => by
    obtain ⟨u, hs, hx⟩ := exec_cons.1 hx
    obtain ⟨w, hw, hR, hout⟩ := sim s a u t h hc.1 hs
    obtain ⟨t', ht, hR', htrace⟩ := exec_sim_trace_along sim hR (hc.2 u hs) hx
    refine ⟨t', exec_cons.2 ⟨w, hw, ht⟩, hR', ?_⟩
    simp only [trace, hs, hw, Option.elim_some, hout, htrace]

theorem along_true (s : σ) (as : List α) : Along step (fun _ _ => True) s as := by
  induction as generalizing s with
  | nil => trivial
  | cons a as ih => exact ⟨trivial, fun s' _ => ih s'⟩

/-- A view of the state under which every step is a step of the other machine
and shows the same: the runs are the same. -/
theorem exec_view {C : σ → α → Prop} {J : σ → Prop} {view : σ → τ} {out : σ → α → List β} {aout : τ → α → List β}
    (keep : ∀ s a s', J s → C s a → step s a = some s' → J s')
    (same : ∀ s a, J s → C s a → astep (view s) a = (step s a).map view ∧ aout (view s) a = out s a)
    {as : List α} {s : σ} (h : J s) (hc : Along step C s as) :
    exec astep (view s) as = (exec step s as).map view ∧ trace astep aout (view s) as = trace step out s as := by
  induction as generalizing s with
  | nil => exact ⟨rfl, rfl⟩
  | cons a as ih =>
    obtain ⟨hstep, hout⟩ := same s a h hc.1
    cases hs : step s a with
    | none => simp [exec, trace, hstep, hs, hout]
    | some s' =>
      obtain ⟨hx, ht⟩ := ih (keep s a s' h hc.1 hs) (hc.2 s' hs)
      simp [exec, trace, hstep, hs, hout, hx, ht]

theorem exec_sim_trace {R : σ → τ → Prop} {out : σ → α → List β} {aout : τ → α → List β}
    (sim : ∀ s a s' t, R s t → step s a = some s' → ∃ t', astep t a = some t' ∧ R s' t' ∧ out s a = aout t a)
    {as : List α} {s s' : σ} {t : τ} (h : R s t) (hx : exec step s as = some s') :
    ∃ t', exec astep t as = some t' ∧ R s' t' ∧ trace step out s as = trace astep aout t as :=
  exec_sim_trace_along (fun s a s' t h _ => sim s a s' t h) h (along_true s as) hx

/-! ## Machines that answer -/

section Answers

variable {γ ω : Type*} {ask : σ → α → Option (σ × ω)} {ask' : τ → γ → Option (τ × ω)}

theorem rel_map {σ' τ' : Type*} {R : σ → τ → Prop} {S : σ' → τ' → Prop} {f : σ → σ'} {g : τ → τ'} {x : Option σ}
    {y : Option τ} (h : Option.Rel R x y) (hfg : ∀ s t, R s t → S (f s) (g t)) : Option.Rel S (x.map f) (y.map g) := by
  cases h with
  | some h => exact .some (hfg _ _ h)
  | none => exact .none

theorem rel_bind {σ' τ' : Type*} {R : σ → τ → Prop} {S : σ' → τ' → Prop} {f : σ → Option σ'} {g : τ → Option τ'}
    {x : Option σ} {y : Option τ} (h : Option.Rel R x y)
    (hfg : ∀ s t, y = some t → R s t → Option.Rel S (f s) (g t)) : Option.Rel S (x.bind f) (y.bind g) := by
  cases h with
  | some h => exact hfg _ _ rfl h
  | none => exact .none

theorem rel_some_right {R : σ → τ → Prop} {x : Option σ} {t : τ} (h : Option.Rel R x (some t)) :
    ∃ s, x = some s ∧ R s t := by
  cases h with
  | some h => exact ⟨_, rfl, h⟩

/-- A run of a machine that answers every action: the state it ends in and the
answers, where every action has one. -/
def execAnswers (ask : σ → α → Option (σ × ω)) : σ → List α → Option (σ × List ω)
  | s, [] => some (s, [])
  | s, a :: as => (ask s a).bind fun r => (execAnswers ask r.1 as).map fun r' => (r'.1, r.2 :: r'.2)

theorem execAnswers_cons {s : σ} {a : α} {as : List α} {r : σ × ω} (h : ask s a = some r) :
    execAnswers ask s (a :: as) = (execAnswers ask r.1 as).map fun r' => (r'.1, r.2 :: r'.2) := by
  rw [execAnswers, h, Option.bind_some]

/-- Two machines whose actions are answered alike, or not at all, answer whole runs alike. -/
theorem execAnswers_rel {R : σ → τ → Prop} {C : τ → γ → Prop} (f : α → γ)
    (sim : ∀ s t a, R s t → C t (f a) →
      Option.Rel (fun r r' => R r.1 r'.1 ∧ r.2 = r'.2) (ask s a) (ask' t (f a)))
    (as : List α) {s : σ} {t : τ} (h : R s t)
    (hc : Along (fun t a => (ask' t a).map Prod.fst) C t (as.map f)) :
    Option.Rel (fun r r' => R r.1 r'.1 ∧ r.2 = r'.2) (execAnswers ask s as) (execAnswers ask' t (as.map f)) := by
  induction as generalizing s t with
  | nil => exact .some ⟨h, rfl⟩
  | cons a as ih =>
    refine rel_bind (sim s t a h hc.1) fun r r' hr' hR => ?_
    have hrest := ih hR.1 (hc.2 r'.1 (congrArg (Option.map Prod.fst) hr'))
    exact rel_map hrest fun _ _ hR' => ⟨hR'.1, congrArg₂ List.cons hR.2 hR'.2⟩

end Answers

end Machine
