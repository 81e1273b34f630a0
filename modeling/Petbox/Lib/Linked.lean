/-
Doubly linked lists in a heap of nodes: a chain of nodes between two pointers
(null at the ends of a whole list), how a write through a pointer changes it,
and what a write elsewhere leaves alone.
-/
import Mathlib.Data.List.Nodup
import Mathlib.Logic.Function.Basic
import Mathlib.Tactic.Common

namespace Linked

/-- A node; no pointer is the null pointer. -/
structure Node (α : Type) where
  prev : Option Nat
  next : Option Nat
  val : α
  deriving DecidableEq, Repr

/-- The allocated nodes. -/
abbrev Heap (α : Type) := Nat → Option (Node α)

variable {α : Type}

/-- A write through a pointer, undefined for null and for a node that is not allocated. -/
def setNext (h : Heap α) (node next : Option Nat) : Option (Heap α) := do
  let i ← node
  let n ← h i
  return Function.update h i (some { n with next })

def setPrev (h : Heap α) (node prev : Option Nat) : Option (Heap α) := do
  let i ← node
  let n ← h i
  return Function.update h i (some { n with prev })

/-- A node given back, undefined for one that is not allocated. -/
def release (h : Heap α) (i : Nat) : Option (Heap α) := do
  let _ ← h i
  return Function.update h i none

/-! ## Chains -/

/-- The nodes of a list in order, each with its value. -/
abbrev Nodes (α : Type) := List (Nat × α)

def ids (l : Nodes α) : List Nat := l.map Prod.fst

/-- The pointer to the first node, or the one behind the list. -/
def first (q : Option Nat) : Nodes α → Option Nat
  | [] => q
  | c :: _ => some c.1

/-- The pointer to the last node, or the one before the list. -/
def last (p : Option Nat) : Nodes α → Option Nat
  | [] => p
  | c :: l => last (some c.1) l

/-- The nodes lie in the heap one behind the other, between `p` and `q`. -/
def Chain (h : Heap α) : Option Nat → Nodes α → Option Nat → Prop
  | _, [], _ => True
  | p, c :: l, q => h c.1 = some ⟨p, first q l, c.2⟩ ∧ Chain h (some c.1) l q

section Basic

@[simp] theorem ids_nil : ids ([] : Nodes α) = [] := rfl
@[simp] theorem ids_cons (c : Nat × α) (l : Nodes α) : ids (c :: l) = c.1 :: ids l := rfl
@[simp] theorem ids_append (l m : Nodes α) : ids (l ++ m) = ids l ++ ids m := List.map_append

@[simp] theorem first_nil (q : Option Nat) : first q ([] : Nodes α) = q := rfl
@[simp] theorem first_cons (q : Option Nat) (c : Nat × α) (l : Nodes α) : first q (c :: l) = some c.1 := rfl
@[simp] theorem last_nil (p : Option Nat) : last p ([] : Nodes α) = p := rfl
@[simp] theorem last_cons (p : Option Nat) (c : Nat × α) (l : Nodes α) : last p (c :: l) = last (some c.1) l := rfl

@[simp] theorem first_append (q : Option Nat) (l m : Nodes α) : first q (l ++ m) = first (first q m) l := by
  cases l <;> rfl

@[simp] theorem last_append (p : Option Nat) (l m : Nodes α) : last p (l ++ m) = last (last p l) m := by
  induction l generalizing p with
  | nil => rfl
  | cons c l ih => exact ih _

variable {h h' : Heap α} {p q : Option Nat} {l m : Nodes α}

theorem chain_append : Chain h p (l ++ m) q ↔ Chain h p l (first q m) ∧ Chain h (last p l) m q := by
  induction l generalizing p with
  | nil => simp [Chain]
  | cons c l ih => simp [Chain, ih, and_assoc]

/-- Only the nodes of a chain matter to it. -/
theorem Chain.frame (hc : Chain h p l q) (hsame : ∀ i ∈ ids l, h' i = h i) : Chain h' p l q := by
  induction l generalizing p with
  | nil => trivial
  | cons c l ih =>
    refine ⟨(hsame c.1 (by simp)).trans hc.1, ih hc.2 fun i hi => hsame i ?_⟩
    simp [hi]

theorem Chain.update (hc : Chain h p l q) {i : Nat} (hi : i ∉ ids l) (n : Option (Node α)) :
    Chain (Function.update h i n) p l q :=
  hc.frame fun _ hj => Function.update_of_ne (ne_of_mem_of_not_mem hj hi) _ _

theorem Chain.alloc (hc : Chain h p l q) {i : Nat} (hi : i ∈ ids l) : h i ≠ none := by
  induction l generalizing p with
  | nil => cases hi
  | cons c l ih =>
    rcases List.mem_cons.1 hi with rfl | hi
    · simp [hc.1]
    · exact ih hc.2 hi

end Basic

/-! ## Writes -/

section Writes

variable {h : Heap α} {p q : Option Nat} {a b : Nodes α} {c : Nat × α}

theorem setNext_some {i : Nat} {n : Node α} (hi : h i = some n) (next : Option Nat) :
    setNext h (some i) next = some (Function.update h i (some { n with next })) := by
  simp [setNext, hi]

theorem setPrev_some {i : Nat} {n : Node α} (hi : h i = some n) (prev : Option Nat) :
    setPrev h (some i) prev = some (Function.update h i (some { n with prev })) := by
  simp [setPrev, hi]

/-- Both pointers of a node, one after the other. -/
theorem setPrev_setNext {i : Nat} {n : Node α} (hi : h i = some n) (prev next : Option Nat) :
    ∃ h', ((setPrev h (some i) prev).bind fun h₁ => setNext h₁ (some i) next) = some h' ∧
      h' i = some ⟨prev, next, n.val⟩ ∧ ∀ j ≠ i, h' j = h j := by
  rw [setPrev_some hi, Option.bind_some, setNext_some (Function.update_self _ _ _)]
  refine ⟨_, rfl, Function.update_self _ _ _, fun j hj => ?_⟩
  rw [Function.update_of_ne hj, Function.update_of_ne hj]

theorem setNext_setPrev {i : Nat} {n : Node α} (hi : h i = some n) (prev next : Option Nat) :
    ∃ h', ((setNext h (some i) next).bind fun h₁ => setPrev h₁ (some i) prev) = some h' ∧
      h' i = some ⟨prev, next, n.val⟩ ∧ ∀ j ≠ i, h' j = h j := by
  rw [setNext_some hi, Option.bind_some, setPrev_some (Function.update_self _ _ _)]
  refine ⟨_, rfl, Function.update_self _ _ _, fun j hj => ?_⟩
  rw [Function.update_of_ne hj, Function.update_of_ne hj]

theorem release_some {i : Nat} {n : Node α} (hi : h i = some n) : release h i = some (Function.update h i none) := by
  simp [release, hi]

/-- The node `c` of a chain. -/
theorem Chain.node (hc : Chain h p (a ++ c :: b) q) : h c.1 = some ⟨last p a, first q b, c.2⟩ :=
  (chain_append.1 hc).2.1

/-- A write to `next` of the last node changes what the chain leads to. -/
theorem Chain.setNext (hc : Chain h p (a ++ [c]) q) (hd : (ids (a ++ [c])).Nodup) (q' : Option Nat) :
    ∃ h', setNext h (some c.1) q' = some h' ∧ Chain h' p (a ++ [c]) q' ∧ ∀ i ≠ c.1, h' i = h i := by
  refine ⟨_, setNext_some hc.node q', ?_, fun i hi => Function.update_of_ne hi _ _⟩
  have hnot : c.1 ∉ ids a := by
    simp only [ids_append, List.nodup_append] at hd
    exact fun hmem => hd.2.2 _ hmem _ (by simp) rfl
  rw [chain_append] at hc ⊢
  exact ⟨hc.1.update hnot _, Function.update_self _ _ _, trivial⟩

/-- A write to `prev` of the first node changes what the chain comes from. -/
theorem Chain.setPrev (hc : Chain h p (c :: b) q) (hd : (ids (c :: b)).Nodup) (p' : Option Nat) :
    ∃ h', setPrev h (some c.1) p' = some h' ∧ Chain h' p' (c :: b) q ∧ ∀ i ≠ c.1, h' i = h i := by
  refine ⟨_, setPrev_some hc.1 p', ?_, fun i hi => Function.update_of_ne hi _ _⟩
  exact ⟨Function.update_self _ _ _, hc.2.update (List.nodup_cons.1 hd).1 _⟩

end Writes

end Linked
