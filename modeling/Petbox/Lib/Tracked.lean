/-
Records that are changed member by member with a flag beside them, raised
whenever a member changes: the `need_save` pattern. An update is `Honest`
when it cannot change the record without raising the flag, and honest updates
compose, so a record whose flag is still down is the record it was.
-/
import Mathlib.Tactic.Common
import Mathlib.Data.List.Forall2

/-- A change to a record and its flag. -/
abbrev Update (α : Type) := α × Bool → α × Bool

namespace Update

variable {α β : Type}

/-- `if (record.member != v) { record.member = v; flag = true; }` -/
def assign [DecidableEq β] (get : α → β) (set : α → β → α) (v : β) : Update α :=
  fun s => if get s.1 ≠ v then (set s.1 v, true) else s

/-- An update of a member that is itself a record, under the flag of the whole. -/
def focus (get : α → β) (set : α → β → α) (u : Update β) : Update α :=
  fun s => (set s.1 (u (get s.1, s.2)).1, (u (get s.1, s.2)).2)

/-- One update after the other. -/
def chain : List (Update α) → Update α
  | [], s => s
  | u :: us, s => chain us (u s)

@[simp] theorem chain_nil (s : α × Bool) : chain [] s = s := rfl

@[simp] theorem chain_cons (u : Update α) (us : List (Update α)) (s : α × Bool) :
    chain (u :: us) s = chain us (u s) := rfl

theorem chain_snoc (us : List (Update α)) (u : Update α) (s : α × Bool) : chain (us ++ [u]) s = u (chain us s) := by
  induction us generalizing s with
  | nil => rfl
  | cons v us ih => exact ih (v s)

/-- When the flag is down afterwards nothing happened. -/
def Honest (u : Update α) : Prop := ∀ s, (u s).2 = false → u s = s

theorem Honest.fst {u : Update α} (h : Honest u) {a : α} (hu : (u (a, false)).2 = false) :
    (u (a, false)).1 = a := by
  rw [h _ hu]

theorem honest_assign [DecidableEq β] (get : α → β) (set : α → β → α) (v : β) :
    Honest (assign get set v) := by
  intro s h
  unfold assign at h ⊢
  split at h
  · exact absurd h (by simp)
  · next hv => rw [if_neg hv]

theorem honest_focus {get : α → β} {set : α → β → α} {u : Update β} (hu : Honest u)
    (hset : ∀ a, set a (get a) = a) : Honest (focus get set u) := by
  intro s h
  unfold focus at h ⊢
  rw [hu _ h, hset]

theorem honest_chain {us : List (Update α)} (h : ∀ u ∈ us, Honest u) : Honest (chain us) := by
  induction us with
  | nil => exact fun _ _ => rfl
  | cons u us ih =>
    intro s hs
    rw [chain_cons] at hs ⊢
    have htail := ih (fun v hv => h v (List.mem_cons_of_mem _ hv)) _ hs
    rw [htail] at hs ⊢
    exact h u (List.mem_cons_self ..) s hs

/-- What an assignment leaves is the record with the member set, changed or not. -/
theorem assign_fst [DecidableEq β] {get : α → β} {set : α → β → α} (hset : ∀ a, set a (get a) = a) (v : β)
    (s : α × Bool) : (assign get set v s).1 = set s.1 v := by
  unfold assign
  split
  · rfl
  · next hv =>
    have hv : get s.1 = v := not_not.1 hv
    rw [← hv, hset]

@[simp] theorem focus_fst (get : α → β) (set : α → β → α) (u : Update β) (s : α × Bool) :
    (focus get set u s).1 = set s.1 (u (get s.1, s.2)).1 := rfl

/-! ## What becomes of the record -/

/-- Flag or no flag, the record becomes `f` of it. -/
def Sets (u : Update α) (f : α → α) : Prop := ∀ s, (u s).1 = f s.1

theorem sets_assign [DecidableEq β] {get : α → β} {set : α → β → α} (hset : ∀ a, set a (get a) = a) (v : β) :
    Sets (assign get set v) fun a => set a v := assign_fst hset v

theorem sets_focus {get : α → β} {set : α → β → α} {u : Update β} {f : β → β} (hu : Sets u f) :
    Sets (focus get set u) fun a => set a (f (get a)) := by
  intro s
  rw [focus_fst, hu]

theorem sets_chain {us : List (Update α)} {fs : List (α → α)} (h : List.Forall₂ Sets us fs) :
    Sets (chain us) fun a => fs.foldl (fun a f => f a) a := by
  induction h with
  | nil => exact fun _ => rfl
  | cons hu _ ih =>
    intro s
    rw [chain_cons, ih, hu]
    rfl

/-! ## Updates that change nothing -/

theorem assign_keep [DecidableEq β] {get : α → β} {set : α → β → α} {v : β} {s : α × Bool} (h : get s.1 = v) :
    assign get set v s = s := if_neg (not_not.2 h)

theorem focus_keep {get : α → β} {set : α → β → α} {u : Update β} {s : α × Bool} (hset : ∀ a, set a (get a) = a)
    (h : u (get s.1, s.2) = (get s.1, s.2)) : focus get set u s = s := by
  unfold focus
  rw [h, hset]

theorem chain_keep {us : List (Update α)} {s : α × Bool} (h : ∀ u ∈ us, u s = s) : chain us s = s := by
  induction us with
  | nil => rfl
  | cons u us ih =>
    rw [chain_cons, h u (List.mem_cons_self ..)]
    exact ih fun v hv => h v (List.mem_cons_of_mem _ hv)

/-! ## Properties an update keeps -/

/-- The update keeps a property of the record. -/
def Keeps (P : α → Prop) (u : Update α) : Prop := ∀ s, P s.1 → P (u s).1

theorem keeps_assign [DecidableEq β] {P : α → Prop} {get : α → β} {set : α → β → α} {v : β}
    (h : ∀ a, P a → P (set a v)) : Keeps P (assign get set v) := by
  intro s hs
  unfold assign
  split
  · exact h s.1 hs
  · exact hs

theorem keeps_focus {P : α → Prop} {Q : β → Prop} {get : α → β} {set : α → β → α} {u : Update β} (hu : Keeps Q u)
    (hget : ∀ a, P a → Q (get a)) (hset : ∀ a b, P a → Q b → P (set a b)) : Keeps P (focus get set u) :=
  fun s hs => hset s.1 _ hs (hu (get s.1, s.2) (hget s.1 hs))

theorem keeps_chain {P : α → Prop} {us : List (Update α)} (h : ∀ u ∈ us, Keeps P u) : Keeps P (chain us) := by
  induction us with
  | nil => exact fun _ hs => hs
  | cons u us ih =>
    intro s hs
    exact ih (fun v hv => h v (List.mem_cons_of_mem _ hv)) (u s) (h u (List.mem_cons_self ..) s hs)

end Update
