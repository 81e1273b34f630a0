/-
Code that prints into a buffer and reads back what it printed: from the memory
it finds, the stores it makes, the lengths it keeps in 8 bits and a value.

A text is put together piece by piece, each piece behind the last one; `Adds`
says what a piece of such code adds to the text, and that it does so inside the
buffer and with lengths that fit.
-/
import Petbox.Lib.Pack
import Petbox.Lib.Print

namespace PrintBuf

open Mem Pack CStr

/-- The stores, the lengths kept in 8 bits, and the value. -/
structure Printed (α : Type) where
  stores : List (Nat × UInt8)
  narrowed : List Nat
  val : α

/-- Code that starts in some memory. -/
def Printer (α : Type) := (Nat → UInt8) → Printed α

variable {α β : Type}

instance : Monad Printer where
  pure a := fun _ => ⟨[], [], a⟩
  bind x f := fun m =>
    let r := x m
    let s := f r.val (afterStores m r.stores)
    ⟨r.stores ++ s.stores, r.narrowed ++ s.narrowed, s.val⟩

/-- Bytes stored from a place on. -/
def store (p : Nat) (bs : List UInt8) : Printer Unit := fun _ => ⟨cells p bs, [], ()⟩

/-- What `snprintf` leaves: the text, cut to its buffer, and a 0. -/
def print (p bufLen : Nat) (text : List UInt8) : Printer Unit :=
  store p (if bufLen = 0 then [] else Print.snprintf bufLen text ++ [0])

/-- `strlen` at a place of a buffer of this size. -/
def strlen (size p : Nat) : Printer Nat := fun m => ⟨[], [], (cstr (slice m p (size - p))).length⟩

/-- A length assigned to a `uint8_t`. -/
def narrow (n : Nat) : Printer UInt8 := fun _ => ⟨[], [n], n.toUInt8⟩

/-! ## What stands in the buffer -/

/-- The buffer holds the text, and zeros behind it. -/
def Holds (size : Nat) (m : Nat → UInt8) (t : List UInt8) : Prop :=
  t.length ≤ size ∧ slice m 0 size = t ++ List.replicate (size - t.length) 0

variable {size : Nat} {m : Nat → UInt8} {t u v : List UInt8}

theorem Holds.rest (h : Holds size m t) : slice m t.length (size - t.length) = List.replicate (size - t.length) 0 := by
  have hdrop := drop_slice m 0 size t.length
  rw [h.2, List.drop_left, Nat.zero_add] at hdrop
  exact hdrop.symm

theorem Holds.front (h : Holds size m t) : slice m 0 t.length = t := by
  have htake := take_slice m 0 size t.length
  rw [h.2, List.take_left, Nat.min_eq_left h.1] at htake
  exact htake.symm

/-- The C string from a place of the text on. -/
theorem Holds.cstr (h : Holds size m (t ++ u)) (hu : Text u) :
    cstr (slice m t.length (size - t.length)) = u := by
  have hdrop := drop_slice m 0 size t.length
  rw [h.2, List.append_assoc, List.drop_left, Nat.zero_add] at hdrop
  rw [← hdrop, cstr_append hu, cstr_replicate, List.append_nil]

/-- A text stored behind the one that stands there, with some zeros. -/
theorem Holds.store (h : Holds size m t) {k : Nat} (hfits : t.length + u.length + k ≤ size) :
    Holds size (afterStores m (cells t.length (u ++ List.replicate k 0))) (t ++ u) := by
  have hle := h.1
  have hlen : (u ++ List.replicate k (0 : UInt8)).length = u.length + k := by simp
  have hfront : slice (afterStores m (cells t.length (u ++ List.replicate k 0))) 0 t.length = t := by
    refine (slice_afterStores fun s hs => .inr ?_).trans h.front
    rw [Nat.zero_add]
    exact (mem_cells hs).1
  have hmid := slice_afterStores_cells m t.length (u ++ List.replicate k 0)
  have hback : slice (afterStores m (cells t.length (u ++ List.replicate k 0))) (t.length + (u.length + k))
      (size - (t.length + (u.length + k))) = List.replicate (size - (t.length + (u.length + k))) 0 := by
    refine (slice_afterStores fun s hs => .inl ?_).trans ?_
    · have := (mem_cells hs).2
      rwa [hlen] at this
    · have hdrop := drop_slice m t.length (size - t.length) (u.length + k)
      rw [h.rest, List.drop_replicate, Nat.sub_sub] at hdrop
      exact hdrop.symm
  rw [hlen] at hmid
  refine ⟨by rw [List.length_append]; omega, ?_⟩
  rw [show size = t.length + ((u.length + k) + (size - (t.length + (u.length + k)))) by omega, slice_add, Nat.zero_add,
    hfront, slice_add, hmid, hback, List.append_assoc, List.append_assoc, List.append_cancel_left_eq,
    List.append_cancel_left_eq, List.replicate_append_replicate, List.length_append]
  congr 1
  omega

/-! ## What a printer adds -/

/-- A run that adds `u` to the text of the buffer and returns `a`. -/
structure AddsAt (size : Nat) (m : Nat → UInt8) (r : Printed α) (t u : List UInt8) (a : α) : Prop where
  holds : Holds size (afterStores m r.stores) (t ++ u)
  within : ∀ s ∈ r.stores, s.1 < size
  narrowed : ∀ n ∈ r.narrowed, n < 256
  val : r.val = a

/-- Behind `t`, the printer adds `u` and returns `a`. -/
def Adds (size : Nat) (x : Printer α) (t u : List UInt8) (a : α) : Prop :=
  ∀ m, Holds size m t → AddsAt size m (x m) t u a

theorem Adds.pure (a : α) : Adds size (pure a) t [] a := fun m h =>
  { holds := by
      rw [List.append_nil]
      exact h
    within := fun _ hs => absurd hs List.not_mem_nil
    narrowed := fun _ hn => absurd hn List.not_mem_nil
    val := rfl }

theorem Adds.bind {x : Printer α} {f : α → Printer β} {a : α} {b : β} (hx : Adds size x t u a)
    (hf : Adds size (f a) (t ++ u) v b) : Adds size (x >>= f) t (u ++ v) b := by
  intro m h
  have h1 := hx m h
  have h2 := hf _ h1.holds
  rw [← h1.val] at h2
  exact {
    holds := by
      rw [← List.append_assoc]
      exact (afterStores_append m _ _).symm ▸ h2.holds
    within := List.forall_mem_append.2 ⟨h1.within, h2.within⟩
    narrowed := List.forall_mem_append.2 ⟨h1.narrowed, h2.narrowed⟩
    val := h2.val }

/-- A piece that adds nothing. -/
theorem Adds.bind_nil {x : Printer α} {f : α → Printer β} {a : α} {b : β} (hx : Adds size x t [] a)
    (hf : Adds size (f a) t v b) : Adds size (x >>= f) t v b := by
  refine hx.bind (u := []) ?_
  rwa [List.append_nil]

/-- A last piece that adds nothing. -/
theorem Adds.bind_end {x : Printer α} {f : α → Printer β} {a : α} {b : β} (hx : Adds size x t u a)
    (hf : Adds size (f a) (t ++ u) [] b) : Adds size (x >>= f) t u b := by
  have h := hx.bind hf
  rwa [List.append_nil] at h

/-- A value computed from the one a printer returns. -/
theorem Adds.map {x : Printer α} {a : α} (hx : Adds size x t u a) (f : α → β) :
    Adds size (x >>= fun a => Pure.pure (f a)) t u (f a) :=
  hx.bind_end (f := fun a => Pure.pure (f a)) (Adds.pure (f a))

/-- A text stored with some zeros behind it. -/
theorem adds_padded {p k : Nat} (hp : p = t.length) (hfits : t.length + u.length + k ≤ size) :
    Adds size (store p (u ++ List.replicate k 0)) t u () := by
  subst hp
  intro m h
  exact {
    holds := h.store hfits
    within := by
      intro s hs
      have hlt := (mem_cells hs).2
      rw [List.length_append, List.length_replicate] at hlt
      omega
    narrowed := fun _ hn => absurd hn List.not_mem_nil
    val := rfl }

theorem adds_store {p : Nat} (hp : p = t.length) (hfits : t.length + u.length ≤ size) :
    Adds size (store p u) t u () := by
  have h := adds_padded (u := u) (k := 0) hp hfits
  rwa [List.replicate_zero, List.append_nil] at h

/-- A text that fits its buffer is printed whole. -/
theorem adds_print {p bufLen : Nat} (hp : p = t.length) (hcut : u.length < bufLen)
    (hfits : t.length + u.length + 1 ≤ size) : Adds size (print p bufLen u) t u () := by
  unfold print
  rw [if_neg (by omega), Print.snprintf_fits hcut]
  exact adds_padded hp hfits

/-- The length of the text from a place on. -/
theorem adds_strlen {p : Nat} (hp : p = t.length) (hv : v = t ++ u) (hu : Text u) :
    Adds size (strlen size p) v [] u.length := by
  subst hp hv
  intro m h
  exact {
    holds := by
      rw [List.append_nil]
      exact h
    within := fun _ hs => absurd hs List.not_mem_nil
    narrowed := fun _ hn => absurd hn List.not_mem_nil
    val := congrArg List.length (h.cstr hu) }

theorem adds_narrow {n : Nat} (hn : n < 256) : Adds size (narrow n) t [] n.toUInt8 := fun m h =>
  { holds := by
      rw [List.append_nil]
      exact h
    within := fun _ hs => absurd hs List.not_mem_nil
    narrowed := List.forall_mem_singleton.2 hn
    val := rfl }

/-! ## A cleared buffer -/

theorem holds_clear (m : Nat → UInt8) : Holds size (afterStores m (cells 0 (List.replicate size 0))) [] := by
  have h := slice_afterStores_cells m 0 (List.replicate size 0)
  rw [List.length_replicate] at h
  exact ⟨Nat.zero_le size, h⟩

/-- Code that clears the buffer first, from any memory. -/
theorem Adds.of_clear {x : Printer α} {a : α} (hx : Adds size x [] u a) (m : Nat → UInt8) :
    AddsAt size m ((PrintBuf.store 0 (List.replicate size 0) >>= fun _ => x) m) [] u a := by
  have h := hx _ (holds_clear m)
  exact {
    holds := (afterStores_append m _ _).symm ▸ h.holds
    within := by
      refine List.forall_mem_append.2 ⟨fun s hs => ?_, h.within⟩
      have hlt := (mem_cells hs).2
      rwa [List.length_replicate, Nat.zero_add] at hlt
    narrowed := h.narrowed
    val := h.val }

end PrintBuf
