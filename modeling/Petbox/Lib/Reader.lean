/-
Parsers that read tokens, and the languages they read.

A token stands between two places of the input. A language with values relates
a list of tokens to what it stands for; languages are put together with the
same `pure` and `bind` as the parsers, and a parser reads a language when it
succeeds exactly on the token lists of the language, with their values. What
is shown of a language then holds of the parser in both directions: what it
accepts, and what it has to accept.
-/
import Mathlib.Data.List.Forall2
import Mathlib.Tactic.Common

namespace Reader

variable {σ τ β γ : Type}

/-! ## Tokens one after the other -/

/-- The tokens `ts` stand one after the other, from `s` to `s'`. -/
inductive Chain (Tok : σ → τ → σ → Prop) : σ → List τ → σ → Prop
  | nil (s : σ) : Chain Tok s [] s
  | cons {s u s' : σ} {t : τ} {ts : List τ} : Tok s t u → Chain Tok u ts s' → Chain Tok s (t :: ts) s'

section Chain

variable {Tok : σ → τ → σ → Prop} {s s' : σ}

theorem chain_nil : Chain Tok s [] s' ↔ s = s' := by
  constructor
  · intro h
    cases h with
    | nil => rfl
  · intro h
    exact h ▸ .nil s

theorem chain_cons {t : τ} {ts : List τ} : Chain Tok s (t :: ts) s' ↔ ∃ u, Tok s t u ∧ Chain Tok u ts s' := by
  constructor
  · intro h
    cases h with
    | cons ht hts => exact ⟨_, ht, hts⟩
  · intro h
    obtain ⟨u, ht, hts⟩ := h
    exact .cons ht hts

theorem chain_one {t : τ} : Chain Tok s [t] s' ↔ Tok s t s' := by
  simp [chain_cons, chain_nil]

theorem chain_append {ts us : List τ} : Chain Tok s (ts ++ us) s' ↔ ∃ u, Chain Tok s ts u ∧ Chain Tok u us s' := by
  induction ts generalizing s with
  | nil => simp [chain_nil]
  | cons t ts ih =>
    simp only [List.cons_append, chain_cons, ih]
    constructor
    · intro h
      obtain ⟨v, ht, u, hts, hus⟩ := h
      exact ⟨u, ⟨v, ht, hts⟩, hus⟩
    · intro h
      obtain ⟨u, ⟨v, ht, hts⟩, hus⟩ := h
      exact ⟨v, ht, u, hts, hus⟩

/-- Where a place holds at most one token, as many tokens are the same ones. -/
theorem Chain.unique (hTok : ∀ s t t' u u', Tok s t u → Tok s t' u' → t = t' ∧ u = u') {u : σ} {ts us : List τ}
    (h : Chain Tok s ts s') (h' : Chain Tok s us u) (hlen : ts.length = us.length) : ts = us ∧ s' = u := by
  induction h generalizing us with
  | nil s =>
    obtain rfl := List.length_eq_zero_iff.1 hlen.symm
    exact ⟨rfl, chain_nil.1 h'⟩
  | cons ht _ ih =>
    cases h' with
    | nil => exact absurd hlen (by simp)
    | cons ht' hts' =>
      obtain ⟨rfl, rfl⟩ := hTok _ _ _ _ _ ht ht'
      obtain ⟨rfl, hs⟩ := ih hts' (by simpa using hlen)
      exact ⟨rfl, hs⟩

end Chain

/-! ## Languages -/

/-- The token lists of a language and the values they stand for. -/
structure Lang (τ β : Type) where
  Has : List τ → β → Prop

namespace Lang

instance : Monad (Lang τ) where
  pure v := ⟨fun ts w => ts = [] ∧ w = v⟩
  bind R S := ⟨fun ts v => ∃ a ts₁ ts₂, ts = ts₁ ++ ts₂ ∧ R.Has ts₁ a ∧ (S a).Has ts₂ v⟩

/-- One token that stands for a value. -/
def one (P : τ → β → Prop) : Lang τ β := ⟨fun ts v => ∃ t, ts = [t] ∧ P t v⟩

/-- Any `n` tokens. -/
def any (n : Nat) : Lang τ Unit := ⟨fun ts _ => ts.length = n⟩

theorem one_bind {P : τ → β → Prop} {S : β → Lang τ γ} {t : τ} {ts : List τ} {a : β} {v : γ} (h : P t a)
    (hS : (S a).Has ts v) : (one P >>= S).Has (t :: ts) v := ⟨a, [t], ts, rfl, ⟨t, rfl, h⟩, hS⟩

theorem has_pure {v : β} : (pure v : Lang τ β).Has [] v := ⟨rfl, rfl⟩

theorem has_one_bind {P : τ → β → Prop} {S : β → Lang τ γ} {ts : List τ} {v : γ} :
    (one P >>= S).Has ts v ↔ ∃ t us a, ts = t :: us ∧ P t a ∧ (S a).Has us v := by
  constructor
  · intro h
    obtain ⟨a, _, us, rfl, ⟨t, rfl, ht⟩, hus⟩ := h
    exact ⟨t, us, a, rfl, ht, hus⟩
  · intro h
    obtain ⟨t, us, a, rfl, ht, hus⟩ := h
    exact one_bind ht hus

section Ensures

variable {T : τ → Prop}

/-- Every value that tokens with the property `T` stand for has the property `P`. -/
def Ensures (T : τ → Prop) (R : Lang τ β) (P : β → Prop) : Prop := ∀ ts v, (∀ t ∈ ts, T t) → R.Has ts v → P v

theorem Ensures.pure {v : β} {P : β → Prop} (h : P v) : Ensures T (pure v : Lang τ β) P :=
  fun _ _ _ hv => hv.2 ▸ h

theorem Ensures.bind {R : Lang τ β} {S : β → Lang τ γ} {A : β → Prop} {P : γ → Prop} (hR : Ensures T R A)
    (hS : ∀ a, A a → Ensures T (S a) P) : Ensures T (R >>= S) P := by
  intro ts v hts h
  obtain ⟨a, ts₁, ts₂, rfl, h₁, h₂⟩ := h
  rw [List.forall_mem_append] at hts
  exact hS a (hR ts₁ a hts.1 h₁) ts₂ v hts.2 h₂

/-- The first value does not matter. -/
theorem Ensures.of_bind {R : Lang τ β} {S : β → Lang τ γ} {P : γ → Prop} (hS : ∀ a, Ensures T (S a) P) :
    Ensures T (R >>= S) P := Ensures.bind (A := fun _ => True) (fun _ _ _ _ => trivial) fun a _ => hS a

theorem Ensures.one {P : τ → β → Prop} {A : β → Prop} (h : ∀ t v, T t → P t v → A v) : Ensures T (one P) A := by
  intro ts v hts hv
  obtain ⟨t, rfl, hP⟩ := hv
  exact h t v (hts t (List.mem_singleton_self t)) hP

end Ensures

/-- The token lists of the language have as many tokens as there are bounds,
each within its own; `Fits` says what a bound allows. -/
def Shape (Fits : Nat → τ → Prop) (bounds : List Nat) (R : Lang τ β) : Prop :=
  ∀ ts v, R.Has ts v → List.Forall₂ Fits bounds ts

section Shape

variable {Fits : Nat → τ → Prop}

theorem Shape.pure (v : β) : Shape Fits [] (pure v : Lang τ β) := fun _ _ h => h.1 ▸ .nil

theorem Shape.bind {l l' : List Nat} {R : Lang τ β} {S : β → Lang τ γ} (hR : Shape Fits l R)
    (hS : ∀ a, Shape Fits l' (S a)) : Shape Fits (l ++ l') (R >>= S) := by
  intro ts v h
  obtain ⟨a, ts₁, ts₂, rfl, h₁, h₂⟩ := h
  exact List.rel_append (hR ts₁ a h₁) (hS a ts₂ v h₂)

/-- What the values are turned into does not matter. -/
theorem Shape.bind_pure {l : List Nat} {R : Lang τ β} (hR : Shape Fits l R) (f : β → γ) :
    Shape Fits l (R >>= fun a => Pure.pure (f a)) := by
  intro ts v h
  obtain ⟨a, ts₁, _, rfl, h₁, rfl, -⟩ := h
  rw [List.append_nil]
  exact hR ts₁ a h₁

theorem Shape.one {P : τ → β → Prop} {n : Nat} (h : ∀ t v, P t v → Fits n t) : Shape Fits [n] (one P) := by
  intro ts v hv
  obtain ⟨t, rfl, hP⟩ := hv
  exact .cons (h t v hP) .nil

theorem Shape.any {b : Nat} (h : ∀ t, Fits b t) (n : Nat) : Shape Fits (List.replicate n b) (any n) := by
  intro ts v hv
  induction ts generalizing n with
  | nil => exact (show n = 0 from hv.symm) ▸ .nil
  | cons t ts ih =>
    obtain rfl : n = ts.length + 1 := hv.symm
    exact .cons (h t) (ih ts.length rfl)

end Shape

end Lang

/-! ## Parsers that read a language -/

/-- The parser succeeds from `s` to `s'` with a value exactly when the tokens
between the two are in the language and stand for it. -/
def Reads (Tok : σ → τ → σ → Prop) (x : StateT σ Option β) (R : Lang τ β) : Prop :=
  ∀ s v s', x s = some (v, s') ↔ ∃ ts, Chain Tok s ts s' ∧ R.Has ts v

section Reads

variable {Tok : σ → τ → σ → Prop}

theorem Reads.pure (v : β) : Reads Tok (pure v) (Pure.pure v) := by
  intro s w s'
  change some (v, s) = some (w, s') ↔ ∃ ts, Chain Tok s ts s' ∧ ts = [] ∧ w = v
  rw [Option.some.injEq, Prod.mk.injEq]
  constructor
  · intro h
    obtain ⟨rfl, rfl⟩ := h
    exact ⟨[], .nil s, rfl, rfl⟩
  · intro h
    obtain ⟨ts, hts, rfl, rfl⟩ := h
    exact ⟨rfl, chain_nil.1 hts⟩

theorem Reads.bind {x : StateT σ Option β} {f : β → StateT σ Option γ} {R : Lang τ β} {S : β → Lang τ γ}
    (hx : Reads Tok x R) (hf : ∀ a, Reads Tok (f a) (S a)) : Reads Tok (x >>= f) (R >>= S) := by
  intro s v s'
  change (x s).bind (fun r => f r.1 r.2) = some (v, s') ↔ _
  rw [Option.bind_eq_some_iff]
  constructor
  · intro h
    obtain ⟨⟨a, u⟩, ha, hv⟩ := h
    obtain ⟨ts₁, hc₁, h₁⟩ := (hx s a u).1 ha
    obtain ⟨ts₂, hc₂, h₂⟩ := (hf a u v s').1 hv
    exact ⟨ts₁ ++ ts₂, chain_append.2 ⟨u, hc₁, hc₂⟩, a, ts₁, ts₂, rfl, h₁, h₂⟩
  · intro h
    obtain ⟨ts, hc, a, ts₁, ts₂, rfl, h₁, h₂⟩ := h
    obtain ⟨u, hc₁, hc₂⟩ := chain_append.1 hc
    exact ⟨(a, u), (hx s a u).2 ⟨ts₁, hc₁, h₁⟩, (hf a u v s').2 ⟨ts₂, hc₂, h₂⟩⟩

/-- A parser of one token. -/
theorem Reads.one {x : StateT σ Option β} {P : τ → β → Prop}
    (h : ∀ s v s', x s = some (v, s') ↔ ∃ t, Tok s t s' ∧ P t v) : Reads Tok x (Lang.one P) := by
  intro s v s'
  rw [h]
  constructor
  · intro h
    obtain ⟨t, ht, hP⟩ := h
    exact ⟨[t], chain_one.2 ht, t, rfl, hP⟩
  · intro h
    obtain ⟨ts, hc, t, rfl, hP⟩ := h
    exact ⟨t, chain_one.1 hc, hP⟩

end Reads

end Reader
