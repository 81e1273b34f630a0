/-
Code that talks to its environment: it works on a shared state, stops at a
question, and goes on with the answer in whatever state it finds then. Between
the question and the answer the environment may change the state.
-/
import Mathlib.Tactic.Common

namespace Dialogue

/-- Where code gets to: its value, or its next question and what it does with
the answer; both with the state it leaves. -/
inductive Talk (σ Q A α : Type) : Type
  | done (s : σ) (a : α)
  | ask (s : σ) (q : Q) (next : A → σ → Talk σ Q A α)

variable {σ Q A α β : Type}

/-- What is done with the value. -/
def Talk.bind (f : α → σ → Talk σ Q A β) : Talk σ Q A α → Talk σ Q A β
  | .done s a => f a s
  | .ask s q next => .ask s q fun x s' => (next x s').bind f

/-- Code on a state. -/
def Code (σ Q A α : Type) : Type := σ → Talk σ Q A α

instance : Monad (Code σ Q A) where
  pure a := fun s => .done s a
  bind x f := fun s => (x s).bind fun a s' => f a s'

/-- The question, and its answer as the value. -/
def ask (q : Q) : Code σ Q A A := fun s => .ask s q fun x s' => .done s' x

def get : Code σ Q A σ := fun s => .done s s

def modify (f : σ → σ) : Code σ Q A Unit := fun s => .done (f s) ()

theorem bind_apply (x : Code σ Q A α) (f : α → Code σ Q A β) (s : σ) :
    (x >>= f) s = (x s).bind fun a s' => f a s' := rfl

theorem Talk.bind_assoc {γ : Type} (t : Talk σ Q A α) (f : α → σ → Talk σ Q A β) (g : β → σ → Talk σ Q A γ) :
    (t.bind f).bind g = t.bind fun a s => (f a s).bind g := by
  induction t with
  | done s a => rfl
  | ask s q next ih => simp only [Talk.bind, ih]

theorem Talk.bind_done (t : Talk σ Q A α) : (t.bind fun a s => .done s a) = t := by
  induction t with
  | done s a => rfl
  | ask s q next ih => simp only [Talk.bind, ih]

instance : LawfulMonad (Code σ Q A) :=
  LawfulMonad.mk' _ (fun x => funext fun s => Talk.bind_done (x s)) (fun _ _ => rfl)
    (fun x _ _ => funext fun s => Talk.bind_assoc (x s) _ _)

theorem get_bind (f : σ → Code σ Q A α) (s : σ) : (get >>= f) s = f s s := rfl

end Dialogue
