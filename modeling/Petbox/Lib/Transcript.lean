/-
Code of `Petbox.Lib.Dialogue` at work: an environment answers every question, and
may change the state while it does; the run records what was asked.

`Ends` is what a run makes of an observer of the questions, with a rule for each
way the code here is put together. `Talk.hide` answers some of the questions of
the code itself and shows the rest as code over a part of the state.
-/
import Petbox.Lib.Dialogue
import Petbox.Lib.Run

namespace Dialogue

open Machine

variable {σ Q A α β τ : Type}

/-! ## Runs -/

/-- An environment: the answer to the `n`th question in a state, and the state the
code goes on in. -/
abbrev Env (σ A : Type) : Type := Nat → σ → A × σ

/-- A question, the state it was asked in, and its answer. -/
structure Asked (σ Q A : Type) where
  state : σ
  question : Q
  answer : A

/-- A run: what was asked, and the state and the value at its end. -/
structure Outcome (σ Q A α : Type) where
  asked : List (Asked σ Q A)
  state : σ
  value : α

/-- The run behind other questions. -/
def Outcome.behind (es : List (Asked σ Q A)) (r : Outcome σ Q A α) : Outcome σ Q A α :=
  { r with asked := es ++ r.asked }

@[simp] theorem Outcome.behind_behind (es fs : List (Asked σ Q A)) (r : Outcome σ Q A α) :
    (r.behind fs).behind es = r.behind (es ++ fs) := by
  simp only [Outcome.behind, List.append_assoc]
@[simp] theorem Outcome.behind_nil (r : Outcome σ Q A α) : r.behind [] = r := rfl
@[simp] theorem Outcome.behind_asked (es : List (Asked σ Q A)) (r : Outcome σ Q A α) :
    (r.behind es).asked = es ++ r.asked := rfl
@[simp] theorem Outcome.behind_state (es : List (Asked σ Q A)) (r : Outcome σ Q A α) :
    (r.behind es).state = r.state := rfl
@[simp] theorem Outcome.behind_value (es : List (Asked σ Q A)) (r : Outcome σ Q A α) :
    (r.behind es).value = r.value := rfl

/-- The run whose first question is the `n`th of the environment. -/
def Talk.run (env : Env σ A) : Talk σ Q A α → Nat → Outcome σ Q A α
  | .done s a, _ => ⟨[], s, a⟩
  | .ask s q next, n => ((next (env n s).1 (env n s).2).run env (n + 1)).behind [⟨s, q, (env n s).1⟩]

theorem Talk.run_bind (env : Env σ A) (f : α → σ → Talk σ Q A β) (t : Talk σ Q A α) (n : Nat) :
    (t.bind f).run env n =
      ((f (t.run env n).value (t.run env n).state).run env (n + (t.run env n).asked.length)).behind
        (t.run env n).asked := by
  induction t generalizing n with
  | done s a => rfl
  | ask s q next ih =>
    have hplace (k : Nat) : n + 1 + k = n + (k + 1) := by omega
    simp only [Talk.bind, Talk.run, ih, hplace]
    rfl

/-- The run of code in a state. -/
def Code.run (env : Env σ A) (x : Code σ Q A α) (n : Nat) (s : σ) : Outcome σ Q A α := (x s).run env n

section Run

variable (env : Env σ A) (n : Nat) (s : σ)

@[simp] theorem run_pure (a : α) : Code.run (Q := Q) env (pure a) n s = ⟨[], s, a⟩ := rfl

theorem run_bind (x : Code σ Q A α) (f : α → Code σ Q A β) :
    Code.run env (x >>= f) n s =
      (Code.run env (f (Code.run env x n s).value) (n + (Code.run env x n s).asked.length)
        (Code.run env x n s).state).behind (Code.run env x n s).asked :=
  Talk.run_bind env _ (x s) n

@[simp] theorem run_ite (p : Prop) [Decidable p] (x y : Code σ Q A α) :
    Code.run env (if p then x else y) n s = if p then Code.run env x n s else Code.run env y n s := by
  split <;> rfl

end Run

/-! ## Observers of a run -/

/-- Whatever the environment, the observer in the state `t` sees nothing wrong, and
`post` holds of the value and of the state of the observer at the end. -/
def Ends (watch : τ → Asked σ Q A → Option τ) (t : τ) (x : Code σ Q A α) (post : α → τ → Prop) : Prop :=
  ∀ (env : Env σ A) (n : Nat) (s : σ),
    ∃ t', exec watch t (x.run env n s).asked = some t' ∧ post (x.run env n s).value t'

section Ends

variable {watch : τ → Asked σ Q A → Option τ} {t : τ} {x : Code σ Q A α} {post : α → τ → Prop}

theorem Ends.pure {a : α} (h : post a t) : Ends watch t (Pure.pure a) post := fun _ _ _ => ⟨t, rfl, h⟩

theorem Ends.bind {mid : α → τ → Prop} {f : α → Code σ Q A β} {post : β → τ → Prop} (hx : Ends watch t x mid)
    (hf : ∀ a u, mid a u → Ends watch u (f a) post) : Ends watch t (x >>= f) post := by
  intro env n s
  obtain ⟨u, hu, hmid⟩ := hx env n s
  obtain ⟨v, hv, hpost⟩ := hf _ u hmid env (n + (x.run env n s).asked.length) (x.run env n s).state
  rw [run_bind]
  exact ⟨v, exec_append.2 ⟨u, hu, hv⟩, hpost⟩

theorem Ends.ask {q : Q} {post : A → τ → Prop} (h : ∀ s a, ∃ t', watch t ⟨s, q, a⟩ = some t' ∧ post a t') :
    Ends watch t (ask q) post := by
  intro env n s
  obtain ⟨t', ht, hpost⟩ := h s (env n s).1
  exact ⟨t', exec_cons.2 ⟨t', ht, rfl⟩, hpost⟩

theorem Ends.modify {f : σ → σ} {post : Unit → τ → Prop} (h : post () t) : Ends watch t (modify f) post :=
  fun _ _ _ => ⟨t, rfl, h⟩

end Ends

/-! ## Code seen from another one -/

/-- Which questions of the code are shown, and how its state and its answers read
there. A question that is not shown gets the answer `own` and changes nothing. -/
structure Hiding (σ Q A σ' Q' A' : Type) where
  show? : Q → Option Q'
  answer : A' → A
  own : A
  view : σ → σ'
  put : σ' → σ → σ
  view_put : ∀ v s, view (put v s) = v

variable {σ' Q' A' : Type}

def Talk.hide (h : Hiding σ Q A σ' Q' A') : Talk σ Q A α → Talk σ' Q' A' α
  | .done s a => .done (h.view s) a
  | .ask s q next =>
    match h.show? q with
    | some q' => .ask (h.view s) q' fun x v => (next (h.answer x) (h.put v s)).hide h
    | none => (next h.own s).hide h

/-- Hiding goes through a sequence: what follows may be replaced by what it is seen as. -/
theorem Talk.hide_bind (h : Hiding σ Q A σ' Q' A') {f : α → σ → Talk σ Q A β} {g : α → σ' → Talk σ' Q' A' β}
    (hfg : ∀ a s, (f a s).hide h = g a (h.view s)) (t : Talk σ Q A α) :
    (t.bind f).hide h = (t.hide h).bind g := by
  induction t with
  | done s a => exact hfg a s
  | ask s q next ih =>
    cases hq : h.show? q with
    | none => simp only [Talk.bind, Talk.hide, hq, ih]
    | some q' => simp only [Talk.bind, Talk.hide, hq, ih]

/-- The code is seen as that code. -/
def Hides (h : Hiding σ Q A σ' Q' A') (x : Code σ Q A α) (y : Code σ' Q' A' α) : Prop :=
  ∀ s, (x s).hide h = y (h.view s)

section Hides

variable {h : Hiding σ Q A σ' Q' A'}

theorem Hides.pure (a : α) : Hides h (Pure.pure a) (Pure.pure a) := fun _ => rfl

theorem Hides.bind {x : Code σ Q A α} {y : Code σ' Q' A' α} {f : α → Code σ Q A β} {g : α → Code σ' Q' A' β}
    (hx : Hides h x y) (hf : ∀ a, Hides h (f a) (g a)) : Hides h (x >>= f) (y >>= g) := by
  intro s
  rw [bind_apply, bind_apply, ← hx s]
  exact Talk.hide_bind h (fun a s' => hf a s') (x s)

/-- A question that is not shown. -/
theorem Hides.hidden {q : Q} {f : A → Code σ Q A α} {y : Code σ' Q' A' α} (hq : h.show? q = none)
    (hf : Hides h (f h.own) y) : Hides h (Dialogue.ask q >>= f) y := by
  intro s
  rw [bind_apply, Dialogue.ask, Talk.bind, Talk.hide, hq]
  exact hf s

/-- A question that is. -/
theorem Hides.shown {q : Q} {q' : Q'} {f : A → Code σ Q A α} {g : A' → Code σ' Q' A' α} (hq : h.show? q = some q')
    (hf : ∀ x, Hides h (f (h.answer x)) (g x)) : Hides h (Dialogue.ask q >>= f) (Dialogue.ask q' >>= g) := by
  intro s
  rw [bind_apply, bind_apply, Dialogue.ask, Dialogue.ask, Talk.bind, Talk.bind, Talk.hide, hq]
  refine congrArg (Talk.ask _ q') (funext fun x => funext fun v => ?_)
  exact (hf x (h.put v s)).trans (by rw [h.view_put]; rfl)

theorem Hides.ite {p : Prop} [Decidable p] {x x' : Code σ Q A α} {y y' : Code σ' Q' A' α} (hx : Hides h x y)
    (hx' : Hides h x' y') : Hides h (if p then x else x') (if p then y else y') := by
  split
  · exact hx
  · exact hx'

theorem Hides.get {f : σ → Code σ Q A α} {g : σ' → Code σ' Q' A' α} (hf : ∀ s, Hides h (f s) (g (h.view s))) :
    Hides h (Dialogue.get >>= f) (Dialogue.get >>= g) := fun s => hf s s

theorem Hides.modify {f : σ → σ} {g : σ' → σ'} (hfg : ∀ s, h.view (f s) = g (h.view s)) :
    Hides h (Dialogue.modify f) (Dialogue.modify g) := fun s => by
  rw [Dialogue.modify, Dialogue.modify, Talk.hide, hfg]

end Hides

end Dialogue
