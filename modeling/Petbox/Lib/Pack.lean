/-
Code that stores bytes through a pointer: the stores it makes, in order, and the
value it returns. A packing function stores some bytes from its pointer on and
returns how many, and its caller moves the pointer by that.
-/
import Petbox.Lib.Mem

namespace Pack

open Mem

/-- The stores of a piece of code, and its value. -/
structure Emit (α : Type) where
  stores : List (Nat × UInt8)
  val : α

variable {α β : Type}

instance : Monad Emit where
  pure a := ⟨[], a⟩
  bind x f := ⟨x.stores ++ (f x.val).stores, (f x.val).val⟩

@[simp] theorem stores_pure (a : α) : (pure a : Emit α).stores = [] := rfl
@[simp] theorem val_pure (a : α) : (pure a : Emit α).val = a := rfl
@[simp] theorem stores_bind (x : Emit α) (f : α → Emit β) :
    (x >>= f).stores = x.stores ++ (f x.val).stores := rfl
@[simp] theorem val_bind (x : Emit α) (f : α → Emit β) : (x >>= f).val = (f x.val).val := rfl

/-- `*p = c`. -/
def put (p : Nat) (c : UInt8) : Emit Unit := ⟨[(p, c)], ()⟩

/-- `p - q` of two pointers, in 8 bits. -/
def ptrDiff (p q : Nat) : UInt8 := UInt8.ofInt (p - q)

@[simp] theorem ptrDiff_forward (p n : Nat) : ptrDiff (p + n) p = UInt8.ofNat n := by
  rw [← UInt8.toNat_inj, ptrDiff, UInt8.ofInt, UInt8.toNat_ofNat', UInt8.toNat_ofNat']
  omega

@[simp] theorem ptrDiff_backward (p n : Nat) : ptrDiff p (p + n) = UInt8.ofInt (-n) := by
  unfold ptrDiff
  rw [show (p : Int) - (p + n : Nat) = -n by omega]

/-! ## Consecutive bytes -/

/-- The stores of some bytes from a place on. -/
def cells : Nat → List UInt8 → List (Nat × UInt8)
  | _, [] => []
  | p, b :: bs => (p, b) :: cells (p + 1) bs

@[simp] theorem cells_cons (p : Nat) (b : UInt8) (bs : List UInt8) : cells p (b :: bs) = (p, b) :: cells (p + 1) bs :=
  rfl

@[simp] theorem length_cells (p : Nat) (bs : List UInt8) : (cells p bs).length = bs.length := by
  induction bs generalizing p with
  | nil => rfl
  | cons b bs ih => simp [ih]

theorem cells_append (p : Nat) (bs cs : List UInt8) : cells p (bs ++ cs) = cells p bs ++ cells (p + bs.length) cs := by
  induction bs generalizing p with
  | nil => rfl
  | cons b bs ih =>
    rw [List.cons_append, cells_cons, ih, cells_cons, List.cons_append, List.length_cons,
      show p + 1 + bs.length = p + (bs.length + 1) by omega]

theorem cells_inj {p : Nat} {bs cs : List UInt8} : cells p bs = cells p cs ↔ bs = cs := by
  have values (p : Nat) (bs : List UInt8) : (cells p bs).map (·.2) = bs := by
    induction bs generalizing p with
    | nil => rfl
    | cons b bs ih => rw [cells_cons, List.map_cons, ih]
  refine ⟨fun h => ?_, congrArg (cells p)⟩
  rw [← values p bs, h, values]

theorem mem_cells {p : Nat} {bs : List UInt8} {s : Nat × UInt8} (h : s ∈ cells p bs) :
    p ≤ s.1 ∧ s.1 < p + bs.length := by
  induction bs generalizing p with
  | nil => exact absurd h List.not_mem_nil
  | cons b bs ih =>
    rw [List.length_cons]
    rcases List.mem_cons.1 h with rfl | h
    · exact ⟨Nat.le_refl p, by omega⟩
    · have := ih h
      omega

theorem exists_mem_cells (bs : List UInt8) (i p : Nat) (hi : i < bs.length) : ∃ s ∈ cells p bs, s.1 = p + i := by
  induction bs generalizing i p with
  | nil => exact absurd hi (Nat.not_lt_zero i)
  | cons b bs ih =>
    cases i with
    | zero => exact ⟨_, List.mem_cons_self .., rfl⟩
    | succ i =>
      obtain ⟨s, hs, heq⟩ := ih i (p + 1) (Nat.lt_of_succ_lt_succ hi)
      exact ⟨s, List.mem_cons_of_mem _ hs, by omega⟩

/-- A packing function of these bytes: it stores them from its pointer on and
returns their number. -/
structure Packs (f : Nat → Emit UInt8) (bs : List UInt8) : Prop where
  stores : ∀ p, (f p).stores = cells p bs
  val : ∀ p, (f p).val.toNat = bs.length

/-- It returns the number of bytes it stored. -/
def ReturnsWritten (f : Nat → Emit UInt8) : Prop := ∀ p, (f p).val.toNat = (f p).stores.length

theorem Packs.returnsWritten {f : Nat → Emit UInt8} {bs : List UInt8} (h : Packs f bs) : ReturnsWritten f := by
  intro p
  rw [h.stores, h.val, length_cells]

/-- Packing functions one behind the other, each at the pointer the one before
it leaves; the value is the last pointer. -/
def chain : List (Nat → Emit UInt8) → Nat → Emit Nat
  | [], p => pure p
  | f :: fs, p => do
    let n ← f p
    chain fs (p + n.toNat)

theorem stores_chain_cons (f : Nat → Emit UInt8) (fs : List (Nat → Emit UInt8)) (p : Nat) :
    (chain (f :: fs) p).stores = (f p).stores ++ (chain fs (p + (f p).val.toNat)).stores := rfl

theorem chain_append (fs gs : List (Nat → Emit UInt8)) (p : Nat) :
    (chain (fs ++ gs) p).stores = (chain fs p).stores ++ (chain gs (chain fs p).val).stores := by
  induction fs generalizing p with
  | nil => rfl
  | cons f fs ih =>
    rw [List.cons_append, stores_chain_cons, ih, ← List.append_assoc]
    rfl

/-- The chain stores these bytes one behind the other, and ends behind them. -/
structure Lays (fs : List (Nat → Emit UInt8)) (bs : List UInt8) : Prop where
  stores : ∀ p, (chain fs p).stores = cells p bs
  val : ∀ p, (chain fs p).val = p + bs.length

theorem lays_nil : Lays [] [] where
  stores _ := rfl
  val _ := rfl

theorem Lays.cons {f : Nat → Emit UInt8} {fs : List (Nat → Emit UInt8)} {bs cs : List UInt8} (hf : Packs f bs)
    (hfs : Lays fs cs) : Lays (f :: fs) (bs ++ cs) where
  stores p := by rw [stores_chain_cons, hf.stores, hf.val, hfs.stores, cells_append]
  val p := by
    have h : (chain (f :: fs) p).val = (chain fs (p + (f p).val.toNat)).val := rfl
    rw [h, hf.val, hfs.val, List.length_append, Nat.add_assoc]

/-- A chain that returns the difference of its pointers is a packing function,
as long as the difference fits. -/
theorem Lays.packs {fs : List (Nat → Emit UInt8)} {bs : List UInt8} (h : Lays fs bs) (hlen : bs.length < 256) :
    Packs (fun p => do let q ← chain fs p; return ptrDiff q p) bs where
  stores p := by rw [stores_bind, h.stores, stores_pure, List.append_nil]
  val p := by
    rw [val_bind, val_pure, h.val, ptrDiff_forward, UInt8.toNat_ofNat']
    exact Nat.mod_eq_of_lt hlen

/-! ## The memory behind the stores -/

/-- The memory after some stores. -/
def afterStores (m : Nat → UInt8) (stores : List (Nat × UInt8)) : Nat → UInt8 :=
  stores.foldl (fun m s => store m s.1 s.2) m

theorem afterStores_append (m : Nat → UInt8) (ss ts : List (Nat × UInt8)) :
    afterStores m (ss ++ ts) = afterStores (afterStores m ss) ts := List.foldl_append

/-- A place no store is made to. -/
theorem afterStores_frame {m : Nat → UInt8} {ss : List (Nat × UInt8)} {i : Nat} (h : ∀ s ∈ ss, s.1 ≠ i) :
    afterStores m ss i = m i := by
  induction ss generalizing m with
  | nil => rfl
  | cons s ss ih =>
    refine (ih fun t ht => h t (List.mem_cons_of_mem _ ht)).trans (store_ne ?_)
    exact (h s (List.mem_cons_self ..)).symm

/-- The bytes of a packing function stand at its place. -/
theorem slice_afterStores_cells (m : Nat → UInt8) (p : Nat) (bs : List UInt8) :
    slice (afterStores m (cells p bs)) p bs.length = bs := by
  induction bs generalizing m p with
  | nil => rfl
  | cons b bs ih =>
    rw [List.length_cons, slice_succ]
    have hhead : afterStores (store m p b) (cells (p + 1) bs) p = b := by
      refine (afterStores_frame fun s hs => ?_).trans (store_self m p b)
      have := mem_cells hs
      omega
    exact congrArg₂ List.cons hhead (ih (store m p b) (p + 1))

/-! ## Stores in any order -/

/-- Stores that leave these bytes from a place on, whatever stood there, and
touch nothing else. -/
structure Fills (ss : List (Nat × UInt8)) (p : Nat) (bs : List UInt8) : Prop where
  bytes : ∀ m, slice (afterStores m ss) p bs.length = bs
  within : ∀ s ∈ ss, p ≤ s.1 ∧ s.1 < p + bs.length

theorem fills_nil (p : Nat) : Fills [] p [] := ⟨fun _ => rfl, fun _ h => absurd h List.not_mem_nil⟩

theorem fills_cells (p : Nat) (bs : List UInt8) : Fills (cells p bs) p bs :=
  ⟨fun m => slice_afterStores_cells m p bs, fun _ h => mem_cells h⟩

/-- Stores made elsewhere do not change a slice. -/
theorem slice_afterStores {m : Nat → UInt8} {ss : List (Nat × UInt8)} {p n : Nat}
    (h : ∀ s ∈ ss, s.1 < p ∨ p + n ≤ s.1) : slice (afterStores m ss) p n = slice m p n := by
  refine slice_congr fun i h1 h2 => afterStores_frame fun s hs => ?_
  have := h s hs
  omega

theorem Fills.within_append {ss ts us : List (Nat × UInt8)} {p : Nat} {bs cs : List UInt8} (h : Fills ss p bs)
    (h' : Fills ts (p + bs.length) cs) (hus : ∀ s ∈ us, s ∈ ss ∨ s ∈ ts) :
    ∀ s ∈ us, p ≤ s.1 ∧ s.1 < p + (bs ++ cs).length := by
  intro s hs
  rw [List.length_append]
  rcases hus s hs with hs | hs
  · have := h.within s hs
    omega
  · have := h'.within s hs
    omega

/-- The front is filled first. -/
theorem Fills.append {ss ts : List (Nat × UInt8)} {p : Nat} {bs cs : List UInt8} (h : Fills ss p bs)
    (h' : Fills ts (p + bs.length) cs) : Fills (ss ++ ts) p (bs ++ cs) where
  bytes m := by
    rw [List.length_append, slice_add, afterStores_append, h'.bytes, slice_afterStores, h.bytes]
    intro s hs
    exact .inr (h'.within s hs).1
  within := h.within_append h' fun _ => List.mem_append.1

/-- The end is filled first. -/
theorem Fills.append_before {ss ts : List (Nat × UInt8)} {p : Nat} {bs cs : List UInt8} (h : Fills ss p bs)
    (h' : Fills ts (p + bs.length) cs) : Fills (ts ++ ss) p (bs ++ cs) where
  bytes m := by
    rw [List.length_append, slice_add, afterStores_append, h.bytes, slice_afterStores, h'.bytes]
    intro s hs
    exact .inl (h.within s hs).2
  within := h.within_append h' fun _ hs => (List.mem_append.1 hs).symm

end Pack
