/-
Logs in segments. Records are put behind the others of a segment, marked dead
one by one, and wiped a segment at a time. What a log holds are the items of
its live records; here is what each of these changes does to them, and when a
log holds exactly what a table of keys does.
-/
import Mathlib.Algebra.BigOperators.Group.Finset.Piecewise
import Mathlib.Algebra.BigOperators.Group.Multiset.Defs
import Mathlib.Algebra.Order.BigOperators.Group.List
import Mathlib.Algebra.Order.Group.Nat
import Mathlib.Data.Fintype.Basic
import Mathlib.Data.List.AList
import Mathlib.Data.Multiset.AddSub
import Mathlib.Algebra.Order.Group.Multiset

open scoped BigOperators

namespace Log

/-! ## A table of which one entry changes -/

section Table

variable {ι β M : Type*} [Fintype ι] [DecidableEq ι] [AddCommMonoid M]

theorem sum_update (f : ι → β) (i : ι) (b : β) (μ : β → M) :
    ∑ j, μ (Function.update f i b j) + μ (f i) = ∑ j, μ (f j) + μ b := by
  have h : (fun j => μ (Function.update f i b j)) = Function.update (fun j => μ (f j)) i (μ b) := by
    funext j
    rw [Function.apply_update (fun _ => μ)]
  rw [h, Finset.sum_update_of_mem (Finset.mem_univ i), Finset.sdiff_singleton_eq_erase,
    ← Finset.sum_erase_add Finset.univ (fun j => μ (f j)) (Finset.mem_univ i), add_assoc, add_comm]

theorem sum_update_same {f : ι → β} {i : ι} {b : β} {μ : β → M} (h : μ b = μ (f i)) :
    ∑ j, μ (Function.update f i b j) = ∑ j, μ (f j) :=
  Finset.sum_congr rfl fun j _ => by
    by_cases hj : j = i
    · rw [hj, Function.update_self, h]
    · rw [Function.update_of_ne hj]

end Table

/-! ## What the records of a segment hold -/

section Items

variable {ι ρ α : Type*} (live : ρ → Bool) (item : ρ → α)

/-- The items of the live records. -/
def items (l : List ρ) : Multiset α := ((l.filter live).map item : List α)

variable {live item}

@[simp] theorem items_nil : items live item [] = 0 := rfl

theorem items_append (l l' : List ρ) : items live item (l ++ l') = items live item l + items live item l' := by
  rw [items, List.filter_append, List.map_append, ← Multiset.coe_add]
  rfl

theorem items_live {r : ρ} (h : live r = true) : items live item [r] = {item r} := by
  rw [items, List.filter_cons_of_pos h, List.filter_nil]
  rfl

theorem items_dead {r : ρ} (h : live r = false) : items live item [r] = 0 := by
  rw [items, List.filter_cons_of_neg (by rw [h]; exact Bool.false_ne_true), List.filter_nil]
  rfl

theorem items_eq_zero {l : List ρ} (h : ∀ r ∈ l, live r = false) : items live item l = 0 := by
  rw [items, List.filter_eq_nil_iff.2 fun r hr => by rw [h r hr]; exact Bool.false_ne_true]
  rfl

theorem mem_items {l : List ρ} {a : α} : a ∈ items live item l ↔ ∃ r ∈ l, live r = true ∧ item r = a := by
  simp [items, and_assoc]

variable [Fintype ι]

variable (live item) in
/-- What the log holds. -/
def held (f : ι → List ρ) : Multiset α := ∑ i, items live item (f i)

theorem mem_held {f : ι → List ρ} {a : α} :
    a ∈ held live item f ↔ ∃ i, ∃ r ∈ f i, live r = true ∧ item r = a := by
  simp [held, Multiset.mem_sum, mem_items]

/-- What the items measure together is what those of the segments do. -/
theorem sum_held {M : Type*} [AddCommMonoid M] (size : α → M) (f : ι → List ρ) :
    ((held live item f).map size).sum = ∑ i, ((items live item (f i)).map size).sum :=
  map_sum (Multiset.sumAddMonoidHom.comp (Multiset.mapAddMonoidHom size)) (fun i => items live item (f i)) Finset.univ

variable [DecidableEq ι]

/-- A live record put behind the others adds its item. -/
theorem held_put {f : ι → List ρ} {i : ι} {r : ρ} (h : live r = true) :
    held live item (Function.update f i (f i ++ [r])) = held live item f + {item r} := by
  have hsum := sum_update f i (f i ++ [r]) (items live item)
  rw [items_append, items_live h, ← add_assoc, add_right_comm] at hsum
  exact add_right_cancel hsum

/-- Wiping a segment without live records loses nothing. -/
theorem held_wipe {f : ι → List ρ} {i : ι} (h : ∀ r ∈ f i, live r = false) :
    held live item (Function.update f i []) = held live item f :=
  sum_update_same (by rw [items_nil, items_eq_zero h])

/-- A live record that dies takes its item away. -/
theorem held_kill {f : ι → List ρ} {i : ι} {l₁ l₂ : List ρ} {r r' : ρ} (hf : f i = l₁ ++ r :: l₂)
    (hr : live r = true) (hr' : live r' = false) :
    held live item (Function.update f i (l₁ ++ r' :: l₂)) + {item r} = held live item f := by
  have hsum := sum_update f i (l₁ ++ r' :: l₂) (items live item)
  have hold : items live item (f i) = items live item (l₁ ++ r' :: l₂) + {item r} := by
    rw [hf, ← List.singleton_append, ← List.singleton_append (x := r'), items_append, items_append, items_append,
      items_append, items_live hr, items_dead hr', zero_add]
    exact (add_left_comm _ _ _).trans (add_comm _ _)
  rw [hold, ← add_assoc, add_right_comm] at hsum
  exact add_right_cancel hsum

/-- Changes that leave every record as live as it was, with its item, change nothing. -/
theorem held_same {f : ι → List ρ} {i : ι} {l : List ρ} (h : items live item l = items live item (f i)) :
    held live item (Function.update f i l) = held live item f := sum_update_same h

end Items

/-! ## Marking one record -/

section Mark

variable {ρ κ : Type*} [DecidableEq κ]

/-- The record at `k` is changed, the others stay. -/
def mark (key : ρ → κ) (k : κ) (g : ρ → ρ) (l : List ρ) : List ρ := l.map fun r => if key r = k then g r else r

/-- Nothing is marked in a list without a record at `k`. -/
theorem mark_absent {key : ρ → κ} {k : κ} {g : ρ → ρ} {l : List ρ} (h : ∀ r ∈ l, key r ≠ k) : mark key k g l = l :=
  (List.map_congr_left fun r hr => if_neg (h r hr)).trans l.map_id

theorem mark_middle {key : ρ → κ} {k : κ} {g : ρ → ρ} {l₁ l₂ : List ρ} {r : ρ} (hl : ((l₁ ++ r :: l₂).map key).Nodup)
    (hk : key r = k) : mark key k g (l₁ ++ r :: l₂) = l₁ ++ g r :: l₂ := by
  rw [List.map_append, List.map_cons, List.nodup_append] at hl
  obtain ⟨-, hl₂, hdisj⟩ := hl
  have h₁ : mark key k g l₁ = l₁ := mark_absent fun r' hr' h =>
    hdisj (key r') (List.mem_map_of_mem hr') (key r) List.mem_cons_self (h.trans hk.symm)
  have h₂ : mark key k g l₂ = l₂ := mark_absent fun r' hr' h =>
    (List.nodup_cons.1 hl₂).1 (hk ▸ h ▸ List.mem_map_of_mem hr')
  rw [mark, List.map_append, List.map_cons, if_pos hk]
  exact congrArg₂ (fun a b => a ++ g r :: b) h₁ h₂

theorem mark_split {key : ρ → κ} {k : κ} {g : ρ → ρ} {l : List ρ} {r : ρ} (hl : (l.map key).Nodup) (hr : r ∈ l)
    (hk : key r = k) : ∃ l₁ l₂, l = l₁ ++ r :: l₂ ∧ mark key k g l = l₁ ++ g r :: l₂ := by
  obtain ⟨l₁, l₂, rfl⟩ := List.append_of_mem hr
  exact ⟨l₁, l₂, rfl, mark_middle hl hk⟩

theorem mem_mark {key : ρ → κ} {k : κ} {g : ρ → ρ} {l : List ρ} {r : ρ} (h : r ∈ mark key k g l) :
    (r ∈ l ∧ key r ≠ k) ∨ ∃ r' ∈ l, key r' = k ∧ r = g r' := by
  obtain ⟨r', hr', rfl⟩ := List.mem_map.1 h
  by_cases hk : key r' = k
  · exact .inr ⟨r', hr', hk, if_pos hk⟩
  · rw [if_neg hk]
    exact .inl ⟨hr', hk⟩

theorem mem_mark_of_ne {key : ρ → κ} {k : κ} {g : ρ → ρ} {l : List ρ} {r : ρ} (h : r ∈ l) (hk : key r ≠ k) :
    r ∈ mark key k g l := List.mem_map.2 ⟨r, h, if_neg hk⟩

theorem mem_mark_self {key : ρ → κ} {k : κ} {g : ρ → ρ} {l : List ρ} {r : ρ} (h : r ∈ l) (hk : key r = k) :
    g r ∈ mark key k g l := List.mem_map.2 ⟨r, h, if_pos hk⟩

/-- The first record that is looked for, with what is before and behind it. -/
theorem findIdx?_split {p : ρ → Bool} {l : List ρ} {i : Nat} (h : l.findIdx? p = some i) :
    ∃ l₁ r l₂, l = l₁ ++ r :: l₂ ∧ l₁.length = i ∧ p r = true ∧ ∀ r' ∈ l₁, p r' = false := by
  induction l generalizing i with
  | nil => cases h
  | cons r l ih =>
    rw [List.findIdx?_cons] at h
    cases hp : p r with
    | true =>
      rw [hp, if_pos rfl] at h
      exact ⟨[], r, l, rfl, Option.some.inj h, hp, fun _ h => nomatch h⟩
    | false =>
      rw [hp, if_neg Bool.false_ne_true] at h
      obtain ⟨j, hj, rfl⟩ := Option.map_eq_some_iff.1 h
      obtain ⟨l₁, r', l₂, rfl, rfl, hr', hbefore⟩ := ih hj
      exact ⟨r :: l₁, r', l₂, rfl, rfl, hr', List.forall_mem_cons.2 ⟨hp, hbefore⟩⟩

theorem set_split (l₁ l₂ : List ρ) (r r' : ρ) : (l₁ ++ r :: l₂).set l₁.length r' = l₁ ++ r' :: l₂ := by
  rw [List.set_append_right _ _ le_rfl, Nat.sub_self, List.set_cons_zero]

theorem modify_split (l₁ l₂ : List ρ) (r : ρ) (g : ρ → ρ) :
    (l₁ ++ r :: l₂).modify l₁.length g = l₁ ++ g r :: l₂ := by
  induction l₁ with
  | nil => exact List.modify_zero_cons g r l₂
  | cons r' l₁ ih => exact (List.modify_succ_cons g r' _ _).trans (congrArg _ ih)

end Mark

/-! ## Against a table of keys -/

section Keys

variable {κ : Type*} {β : κ → Type*} [DecidableEq κ] {D D' : Multiset (Sigma β)} {st : AList β}

/-- The log holds one item for each key of the table. -/
def Shows (D : Multiset (Sigma β)) (st : AList β) : Prop := D = (st.entries : Multiset (Sigma β))

theorem Shows.mem_iff (h : Shows D st) {k : κ} {v : β k} : (⟨k, v⟩ : Sigma β) ∈ D ↔ st.lookup k = some v := by
  rw [h, Multiset.mem_coe]
  exact AList.mem_lookup_iff.symm

/-- A key that the table has not is that of no item. -/
theorem Shows.absent (h : Shows D st) {k : κ} (hk : ∀ v : β k, (⟨k, v⟩ : Sigma β) ∉ D) : k ∉ st := by
  intro hmem
  obtain ⟨v, hv⟩ := Option.isSome_iff_exists.1 (AList.lookup_isSome.2 hmem)
  exact hk v (h.mem_iff.2 hv)

theorem Shows.erase_absent (h : Shows D st) {k : κ} (hk : k ∉ st) : Shows D (st.erase k) :=
  Eq.trans h (congrArg _ (List.kerase_of_notMem_keys hk).symm)

/-- An item put for a key that is not in the way. -/
theorem Shows.put {k : κ} (h : Shows D (st.erase k)) (v : β k) : Shows (D + {⟨k, v⟩}) (st.insert k v) := by
  rw [Shows, AList.entries_insert, h, add_comm, Multiset.singleton_add]
  rfl

theorem Shows.remove (h : Shows D st) {k : κ} {v : β k} (hD : D' + {⟨k, v⟩} = D) : Shows D' (st.erase k) := by
  have hmem : (⟨k, v⟩ : Sigma β) ∈ D := by
    rw [← hD]
    exact Multiset.mem_add.2 (.inr (Multiset.mem_singleton_self _))
  have hlook := h.mem_iff.1 hmem
  have hkey : k ∈ st.entries.keys := AList.lookup_isSome.1 (by rw [hlook]; rfl)
  obtain ⟨w, l₁, l₂, -, hsplit, herase⟩ := List.exists_of_kerase hkey
  have hw : w = v := by
    have : st.lookup k = some w := AList.mem_lookup_iff.2 (by rw [hsplit]; exact List.mem_append_cons_self)
    exact Option.some.inj (this.symm.trans hlook)
  subst hw
  have hall : D' + {⟨k, w⟩} = ((l₁ ++ l₂ : List (Sigma β)) : Multiset (Sigma β)) + {⟨k, w⟩} := by
    rw [hD, h, hsplit, ← Multiset.coe_add, ← Multiset.coe_add, ← Multiset.cons_coe, ← Multiset.singleton_add]
    exact (add_left_comm _ _ _).trans (add_comm _ _)
  rw [Shows, add_right_cancel hall, ← herase]
  rfl

end Keys

end Log
