/-
Code and the places it accesses: the accesses it makes, in order, beside its
value. That all of them are allowed is a property of the log, and it holds of
a piece of code when it holds of the parts it is put together from.
-/
import Mathlib.Tactic.Common

namespace Access

/-- A value, and the accesses made on the way to it. -/
structure Logged (ι α : Type) where
  log : List ι
  val : α

variable {ι κ α β : Type}

instance : Monad (Logged ι) where
  pure a := ⟨[], a⟩
  bind x f := ⟨x.log ++ (f x.val).log, (f x.val).val⟩

@[simp] theorem log_pure (a : α) : (pure a : Logged ι α).log = [] := rfl
@[simp] theorem val_pure (a : α) : (pure a : Logged ι α).val = a := rfl
@[simp] theorem log_bind (x : Logged ι α) (f : α → Logged ι β) : (x >>= f).log = x.log ++ (f x.val).log := rfl
@[simp] theorem val_bind (x : Logged ι α) (f : α → Logged ι β) : (x >>= f).val = (f x.val).val := rfl

@[simp] theorem val_ite (c : Prop) [Decidable c] (x y : Logged ι α) :
    (if c then x else y).val = if c then x.val else y.val := apply_ite ..

/-- The read of one place. -/
def read (m : ι → β) (i : ι) : Logged ι β := ⟨[i], m i⟩

@[simp] theorem log_read (m : ι → β) (i : ι) : (read m i).log = [i] := rfl
@[simp] theorem val_read (m : ι → β) (i : ι) : (read m i).val = m i := rfl

/-- Several accesses, for no value. -/
def touch (l : List ι) : Logged ι Unit := ⟨l, ()⟩

@[simp] theorem log_touch (l : List ι) : (touch l).log = l := rfl

/-- The accesses under another name. -/
def Logged.rename (f : ι → κ) (x : Logged ι α) : Logged κ α := ⟨x.log.map f, x.val⟩

@[simp] theorem log_rename (f : ι → κ) (x : Logged ι α) : (x.rename f).log = x.log.map f := rfl
@[simp] theorem val_rename (f : ι → κ) (x : Logged ι α) : (x.rename f).val = x.val := rfl

/-! ## Allowed accesses -/

/-- Every access is allowed. -/
def Within (P : ι → Prop) (x : Logged ι α) : Prop := ∀ i ∈ x.log, P i

variable {P : ι → Prop}

@[simp] theorem within_pure (a : α) : Within P (pure a : Logged ι α) := fun _ h => absurd h List.not_mem_nil

@[simp] theorem within_bind {x : Logged ι α} {f : α → Logged ι β} :
    Within P (x >>= f) ↔ Within P x ∧ Within P (f x.val) := List.forall_mem_append

@[simp] theorem within_ite {c : Prop} [Decidable c] {x y : Logged ι α} :
    Within P (if c then x else y) ↔ (c → Within P x) ∧ (¬ c → Within P y) := by
  by_cases h : c <;> simp [h]

@[simp] theorem within_read {m : ι → β} {i : ι} : Within P (read m i) ↔ P i := List.forall_mem_singleton

@[simp] theorem within_touch {l : List ι} : Within P (touch l) ↔ ∀ i ∈ l, P i := Iff.rfl

@[simp] theorem within_rename {Q : κ → Prop} {f : ι → κ} {x : Logged ι α} :
    Within Q (x.rename f) ↔ Within (fun i => Q (f i)) x := List.forall_mem_map

/-! ## Parsers -/

/-- A parser with its accesses, from a state to a result and the next state: they
are made also when it fails. -/
def Scan (ι σ β : Type) := σ → Logged ι (Option (β × σ))

section Scan

variable {σ γ : Type}

instance : Monad (Scan ι σ) where
  pure a := fun s => pure (some (a, s))
  bind x f := fun s => x s >>= fun r => r.elim (pure none) fun r => f r.1 r.2

theorem Scan.val_bind (x : Scan ι σ β) (f : β → Scan ι σ γ) (s : σ) :
    ((x >>= f) s).val = (x s).val.bind fun r => (f r.1 r.2).val := by
  change ((x s).val.elim (pure none) fun r => f r.1 r.2).val = _
  cases (x s).val <;> rfl

theorem Scan.within_bind {x : Scan ι σ β} {f : β → Scan ι σ γ} {s : σ} :
    Within P ((x >>= f) s) ↔ Within P (x s) ∧ ∀ a s', (x s).val = some (a, s') → Within P (f a s') := by
  change Within P (x s >>= fun r => r.elim (pure none) fun r => f r.1 r.2) ↔ _
  rw [Access.within_bind]
  refine and_congr_right fun _ => ?_
  cases (x s).val with
  | none => simp
  | some r =>
    simp only [Option.elim_some, Option.some.injEq]
    constructor
    · intro h a s' hr
      subst hr
      exact h
    · intro h
      exact h _ _ rfl

/-- The parser is this one, once its accesses are forgotten. -/
def Follows (x : Scan ι σ β) (y : StateT σ Option β) : Prop := ∀ s, (x s).val = y s

theorem Follows.pure (a : β) : Follows (Pure.pure a : Scan ι σ β) (Pure.pure a) := fun _ => rfl

theorem Follows.bind {x : Scan ι σ β} {y : StateT σ Option β} {f : β → Scan ι σ γ} {g : β → StateT σ Option γ}
    (hx : Follows x y) (hf : ∀ a, Follows (f a) (g a)) : Follows (x >>= f) (y >>= g) := by
  intro s
  rw [Scan.val_bind, hx s]
  exact congrArg _ (funext fun r => hf r.1 r.2)

/-- From a state of the invariant, the accesses are all of one kind when they are
all of the other; the next state is in the invariant, and the result has `A`. -/
def Agrees (I : σ → Prop) (P Q : ι → Prop) (A : β → Prop) (x : Scan ι σ β) : Prop :=
  ∀ s, I s → (Within P (x s) ↔ Within Q (x s)) ∧ ∀ a s', (x s).val = some (a, s') → I s' ∧ A a

variable {I : σ → Prop} {Q : ι → Prop}

theorem Agrees.pure {A : β → Prop} {a : β} (h : A a) : Agrees I P Q A (Pure.pure a : Scan ι σ β) := by
  intro s hs
  refine ⟨iff_of_true (within_pure _) (within_pure _), fun a' s' h' => ?_⟩
  obtain ⟨rfl, rfl⟩ := Prod.mk.inj (Option.some.inj h')
  exact ⟨hs, h⟩

theorem Agrees.bind {A : β → Prop} {B : γ → Prop} {x : Scan ι σ β} {f : β → Scan ι σ γ} (hx : Agrees I P Q A x)
    (hf : ∀ a, A a → Agrees I P Q B (f a)) : Agrees I P Q B (x >>= f) := by
  intro s hs
  obtain ⟨hlog, hval⟩ := hx s hs
  constructor
  · rw [Scan.within_bind, Scan.within_bind, hlog]
    refine and_congr_right fun _ => forall_congr' fun a => forall_congr' fun s' => ?_
    refine imp_congr_right fun h => ?_
    exact (hf a (hval a s' h).2 s' (hval a s' h).1).1
  · intro c s' h
    rw [Scan.val_bind] at h
    obtain ⟨⟨a, u⟩, ha, hc⟩ := Option.bind_eq_some_iff.1 h
    exact (hf a (hval a u ha).2 u (hval a u ha).1).2 c s' hc

end Scan

end Access
