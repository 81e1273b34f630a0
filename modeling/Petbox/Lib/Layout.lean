/-
Memory layouts: how the values of a type lie in memory as a fixed number of
bytes, and the layouts a C struct is put together from (little-endian
integers, character arrays, padding, one member after the other).

Decoding reads from the front of a byte list and is total, as a C struct
takes whatever bytes are copied over it.
-/
import Mathlib.Algebra.Group.Nat.Defs
import Petbox.Lib.CString

open CStr (CharArray)

/-- A layout: `size` bytes for every value, from which the value can be read
back whatever lies behind them. -/
structure Layout (α : Type) where
  size : Nat
  encode : α → List UInt8
  decode : List UInt8 → α
  length_encode : ∀ a, (encode a).length = size
  decode_append : ∀ a rest, decode (encode a ++ rest) = a

namespace Layout

variable {α β : Type}

/-! ## Integers -/

/-- `uint8_t`. -/
def u8 : Layout UInt8 where
  size := 1
  encode x := [x]
  decode bs := bs.headD 0
  length_encode _ := rfl
  decode_append _ _ := rfl

/-- The number a list of bytes denotes, low byte first. -/
def leVal : List UInt8 → Nat
  | [] => 0
  | b :: bs => b.toNat + 256 * leVal bs

/-- The `k` low bytes of a number, low byte first. -/
def leBytes : Nat → Nat → List UInt8
  | 0, _ => []
  | k + 1, n => n.toUInt8 :: leBytes k (n / 256)

@[simp] theorem length_leBytes (k n : Nat) : (leBytes k n).length = k := by
  induction k generalizing n with
  | zero => rfl
  | succ k ih => simp [leBytes, ih]

theorem leVal_leBytes (k n : Nat) : leVal (leBytes k n) = n % 256 ^ k := by
  induction k generalizing n with
  | zero => simp [leBytes, leVal, Nat.mod_one]
  | succ k ih =>
    have hb : (n.toUInt8).toNat = n % 256 := by simp
    rw [leBytes, leVal, ih, hb, Nat.pow_succ', Nat.mod_mul]

/-- An integer of `k` bytes, low byte first. -/
def le (k : Nat) (toNat : α → Nat) (ofNat : Nat → α) (bound : ∀ a, toNat a < 256 ^ k)
    (inv : ∀ a, ofNat (toNat a) = a) : Layout α where
  size := k
  encode a := leBytes k (toNat a)
  decode bs := ofNat (leVal (bs.take k))
  length_encode a := length_leBytes k _
  decode_append a rest := by
    rw [List.take_append_of_le_length (by simp), List.take_of_length_le (by simp), leVal_leBytes,
      Nat.mod_eq_of_lt (bound a), inv]

/-- `uint16_t`. -/
def u16 : Layout UInt16 :=
  le 2 UInt16.toNat UInt16.ofNat UInt16.toNat_lt fun _ => UInt16.ofNat_toNat

/-- `uint32_t`. -/
def u32 : Layout UInt32 :=
  le 4 UInt32.toNat UInt32.ofNat UInt32.toNat_lt fun _ => UInt32.ofNat_toNat

/-! ## Arrays, padding, members -/

/-- `char[n]`. -/
def chars (n : Nat) : Layout (CharArray n) where
  size := n
  encode a := a.bytes
  decode bs := CharArray.ofBytes n bs
  length_encode a := a.size
  decode_append a rest := CharArray.ofBytes_append a rest

/-- A member followed by `n` bytes of padding. -/
def padded (L : Layout α) (n : Nat) : Layout α where
  size := L.size + n
  encode a := L.encode a ++ List.replicate n 0
  decode := L.decode
  length_encode a := by simp [L.length_encode]
  decode_append a rest := by rw [List.append_assoc, L.decode_append]

/-- One member after the other. -/
def prod (L : Layout α) (M : Layout β) : Layout (α × β) where
  size := L.size + M.size
  encode p := L.encode p.1 ++ M.encode p.2
  decode bs := (L.decode bs, M.decode (bs.drop L.size))
  length_encode p := by simp [L.length_encode, M.length_encode]
  decode_append p rest := by
    rw [List.append_assoc, L.decode_append, List.drop_left' (L.length_encode _), M.decode_append]

/-- The same bytes as a value of another type. -/
def iso (L : Layout α) (members : β → α) (back : α → β) (inv : ∀ b, back (members b) = b) : Layout β where
  size := L.size
  encode b := L.encode (members b)
  decode bs := back (L.decode bs)
  length_encode b := L.length_encode _
  decode_append b rest := by rw [L.decode_append, inv]

/-! ## Copying over a value -/

/-- What is in the memory of `a` after `bs` is copied over its first bytes. -/
def overlay (L : Layout α) (a : α) (bs : List UInt8) : α := L.decode (bs ++ (L.encode a).drop bs.length)

/-- A full image replaces the value. -/
theorem overlay_encode (L : Layout α) (a b : α) : L.overlay a (L.encode b) = b := L.decode_append b _

end Layout
