/-
C strings and fixed-size character arrays: what `strlen`, `strncmp`,
`strncpy`, `memcpy` and the `ctype.h` tests of the C library do, on bytes.

A buffer is the list of its bytes. Reading behind the list reads 0, so a list
without a 0 in it is the C string of just these bytes.
-/
import Mathlib.Algebra.Group.Nat.Defs
import Mathlib.Tactic.Common

namespace CStr

/-- The bytes of a string literal. -/
def ascii (s : String) : List UInt8 := s.toList.map fun c => c.toNat.toUInt8

/-! ## The string in a buffer -/

/-- The C string a buffer starts with: its bytes up to the first 0. -/
def cstr (b : List UInt8) : List UInt8 := b.takeWhile (· != 0)

@[simp] theorem cstr_nil : cstr [] = [] := rfl

@[simp] theorem cstr_zero (b : List UInt8) : cstr (0 :: b) = [] := rfl

theorem cstr_cons {c : UInt8} (h : c ≠ 0) (b : List UInt8) : cstr (c :: b) = c :: cstr b := by
  simp [cstr, h]

/-- A text has no 0 byte: it is its own C string. -/
def Text (b : List UInt8) : Prop := ∀ c ∈ b, c ≠ 0

instance (b : List UInt8) : Decidable (Text b) := List.decidableBAll (fun c => c ≠ 0) b

theorem Text.cons {c : UInt8} {b : List UInt8} (hc : c ≠ 0) (hb : Text b) : Text (c :: b) := by
  intro x hx
  cases hx with
  | head => exact hc
  | tail _ h => exact hb x h

theorem text_cstr (b : List UInt8) : Text (cstr b) := by
  induction b with
  | nil => exact fun c hc => absurd hc (List.not_mem_nil)
  | cons d b ih =>
    by_cases hd : d = 0
    · simp [hd, Text]
    · rw [cstr_cons hd]
      exact ih.cons hd

theorem Text.take {b : List UInt8} (h : Text b) (n : Nat) : Text (b.take n) := by
  intro c hc
  exact h c (List.mem_of_mem_take hc)

theorem cstr_append {a : List UInt8} (h : Text a) (b : List UInt8) : cstr (a ++ b) = a ++ cstr b := by
  induction a with
  | nil => rfl
  | cons c a ih =>
    rw [List.cons_append, cstr_cons (h c (List.mem_cons_self ..)),
      ih fun x hx => h x (List.mem_cons_of_mem _ hx), List.cons_append]

theorem cstr_text {a : List UInt8} (h : Text a) : cstr a = a := by
  simpa using cstr_append h []

theorem cstr_append_zero {a : List UInt8} (h : Text a) (b : List UInt8) : cstr (a ++ 0 :: b) = a := by
  simp [cstr_append h]

theorem cstr_take (b : List UInt8) (n : Nat) : cstr (b.take n) = (cstr b).take n := by
  induction b generalizing n with
  | nil => rw [List.take_nil, cstr_nil, List.take_nil]
  | cons c b ih =>
    cases n with
    | zero => rfl
    | succ n =>
      rw [List.take_succ_cons]
      by_cases hc : c = 0
      · rw [hc, cstr_zero, cstr_zero, List.take_nil]
      · rw [cstr_cons hc, cstr_cons hc, List.take_succ_cons, ih]

theorem cstr_replicate (n : Nat) : cstr (List.replicate n 0) = [] := by
  cases n <;> rfl

theorem length_cstr_le (b : List UInt8) : (cstr b).length ≤ b.length :=
  (List.takeWhile_prefix _).length_le

/-- A string that is shorter than the buffer is followed by a 0. -/
theorem cstr_split (b : List UInt8) :
    cstr b = b ∨ ∃ r, b = cstr b ++ 0 :: r := by
  induction b with
  | nil => exact .inl rfl
  | cons c b ih =>
    by_cases hc : c = 0
    · exact .inr ⟨b, by simp [hc]⟩
    · rw [cstr_cons hc]
      rcases ih with h | ⟨r, hr⟩
      · exact .inl (by rw [h])
      · exact .inr ⟨r, by rw [List.cons_append, ← hr]⟩

/-- A 0 behind the buffer ends the string that fills it, and changes no other. -/
theorem cstr_append_nul (a : List UInt8) : cstr (a ++ [0]) = cstr a := by
  rcases cstr_split a with h | ⟨r, hr⟩
  · have ht : Text a := h ▸ text_cstr a
    rw [cstr_append_zero ht, h]
  · rw [hr, List.append_assoc, List.cons_append, cstr_append_zero (text_cstr a), cstr_append_zero (text_cstr a)]

/-! ## `strncmp` and `strncpy` -/

/-- `strncmp(a, b, n) == 0`. -/
def strncmpEq : List UInt8 → List UInt8 → Nat → Bool
  | _, _, 0 => true
  | a, b, n + 1 =>
    if a.headD 0 ≠ b.headD 0 then false
    else if a.headD 0 = 0 then true
    else strncmpEq a.tail b.tail n

/-- `strncmp` compares the C strings of the first `n` bytes. -/
theorem strncmpEq_iff {a b : List UInt8} {n : Nat} :
    strncmpEq a b n = true ↔ cstr (a.take n) = cstr (b.take n) := by
  induction n generalizing a b with
  | zero => simp [strncmpEq]
  | succ n ih =>
    have head (l : List UInt8) : cstr (l.take (n + 1)) =
        if l.headD 0 = 0 then [] else l.headD 0 :: cstr (l.tail.take n) := by
      cases l with
      | nil => simp
      | cons c l => by_cases hc : c = 0 <;> simp [hc, cstr_cons]
    rw [strncmpEq, head a, head b]
    by_cases hab : a.headD 0 = b.headD 0
    · by_cases hb : b.headD 0 = 0
      · rw [hab, hb]
        simp
      · rw [hab, if_neg (by simp), if_neg hb, if_neg hb, if_neg hb, ih, List.cons.injEq]
        simp
    · rw [if_pos hab]
      by_cases ha : a.headD 0 = 0 <;> by_cases hb : b.headD 0 = 0
      · exact absurd (ha.trans hb.symm) hab
      · simp only [ha, hb, if_true, if_false, Bool.false_eq_true, reduceCtorEq]
      · simp only [ha, hb, if_true, if_false, Bool.false_eq_true, reduceCtorEq]
      · simp only [ha, hb, if_false, Bool.false_eq_true, List.cons.injEq, hab, false_and]

/-- A text of `n` bytes that `strncmp` finds in a buffer of `n` bytes is all of it. -/
theorem eq_of_strncmpEq {a b : List UInt8} {n : Nat} (h : strncmpEq a b n = true) (ha : a.length = n)
    (hb : Text b) (hbn : b.length = n) : a = b := by
  rw [strncmpEq_iff, List.take_of_length_le (Nat.le_of_eq ha), List.take_of_length_le (Nat.le_of_eq hbn),
    cstr_text hb] at h
  rcases cstr_split a with hs | ⟨r, hr⟩
  · exact hs ▸ h
  · have := congrArg List.length hr
    rw [h, List.length_append, List.length_cons] at this
    omega

/-- The `n` bytes `strncpy(.., src, n)` writes: the string, cut to `n` bytes
and filled up with zeros. -/
def strncpyBytes (src : List UInt8) (n : Nat) : List UInt8 :=
  cstr (src.take n) ++ List.replicate (n - (cstr (src.take n)).length) 0

theorem length_cstr_take_le (src : List UInt8) (n : Nat) : (cstr (src.take n)).length ≤ n :=
  Nat.le_trans (length_cstr_le _) (List.length_take_le ..)

@[simp] theorem length_strncpyBytes (src : List UInt8) (n : Nat) : (strncpyBytes src n).length = n := by
  have := length_cstr_take_le src n
  simp only [strncpyBytes, List.length_append, List.length_replicate]
  omega

/-- A string of `n` characters is copied without its end. -/
theorem strncpyBytes_text {s : List UInt8} (hs : Text s) {n : Nat} (hn : n = s.length) : strncpyBytes s n = s := by
  rw [hn, strncpyBytes, List.take_length, cstr_text hs, Nat.sub_self, List.replicate_zero, List.append_nil]

theorem cstr_strncpyBytes (src : List UInt8) (n : Nat) : cstr (strncpyBytes src n) = cstr (src.take n) := by
  rw [strncpyBytes, cstr_append (text_cstr _), cstr_replicate, List.append_nil]

/-! ## Character arrays -/

/-- A character array of `n` bytes. -/
structure CharArray (n : Nat) where
  bytes : List UInt8
  size : bytes.length = n
  deriving DecidableEq

namespace CharArray

variable {n : Nat}

@[ext] theorem ext {a b : CharArray n} (h : a.bytes = b.bytes) : a = b := by
  cases a
  cases b
  cases h
  rfl

/-- The array that holds the first `n` of these bytes, filled up with zeros. -/
def ofBytes (n : Nat) (bs : List UInt8) : CharArray n where
  bytes := bs.take n ++ List.replicate (n - bs.length) 0
  size := by simp only [List.length_append, List.length_take, List.length_replicate]; omega

/-- `memset(a, 0, sizeof a)`. -/
def zero (n : Nat) : CharArray n := ofBytes n []

theorem ofBytes_append (a : CharArray n) (rest : List UInt8) : ofBytes n (a.bytes ++ rest) = a := by
  have h := a.size
  apply ext
  simp [ofBytes, h]

/-- The array with its first bytes overwritten: `memcpy(a, bs, len)`. -/
def overwrite (a : CharArray n) (bs : List UInt8) : CharArray n where
  bytes := (bs ++ a.bytes.drop bs.length).take n
  size := by simp only [List.length_take, List.length_append, List.length_drop, a.size]; omega

/-- `strncpy(a, src, len)`. -/
def strncpy (a : CharArray n) (src : List UInt8) (len : Nat) : CharArray n :=
  a.overwrite (strncpyBytes src len)

/-- The C string the array holds. -/
def str (a : CharArray n) : List UInt8 := cstr a.bytes

theorem bytes_zero : (zero n).bytes = List.replicate n 0 := by
  simp [zero, ofBytes]

/-- The cells behind the overwritten ones stay. -/
theorem bytes_overwrite {a : CharArray n} {bs : List UInt8} (h : bs.length ≤ n) :
    (a.overwrite bs).bytes = bs ++ a.bytes.drop bs.length := by
  have := a.size
  simp only [overwrite]
  apply List.take_of_length_le
  simp only [List.length_append, List.length_drop]
  omega

theorem bytes_strncpy {a : CharArray n} {src : List UInt8} {len : Nat} (h : len ≤ n) :
    (a.strncpy src len).bytes = strncpyBytes src len ++ a.bytes.drop len := by
  rw [strncpy, bytes_overwrite (by simpa using h), length_strncpyBytes]

end CharArray

/-! ## Character classes and numbers -/

/-- `isdigit`. -/
def isDigit (c : UInt8) : Bool := 0x30 ≤ c && c ≤ 0x39

/-- `isxdigit`. -/
def isXDigit (c : UInt8) : Bool := isDigit c || (0x41 ≤ c && c ≤ 0x46) || (0x61 ≤ c && c ≤ 0x66)

/-- `isalnum`. -/
def isAlnum (c : UInt8) : Bool := isDigit c || (0x41 ≤ c && c ≤ 0x5a) || (0x61 ≤ c && c ≤ 0x7a)

/-- `toupper`. -/
def toUpper (c : UInt8) : UInt8 := if 0x61 ≤ c && c ≤ 0x7a then c - 0x20 else c

/-- The number a digit stands for. -/
def digitVal (c : UInt8) : Nat := c.toNat - 0x30

/-- The decimal number a list of digits denotes. -/
def decimal (ds : List UInt8) : Nat := ds.foldl (fun n c => n * 10 + digitVal c) 0

theorem isDigit_iff {c : UInt8} : isDigit c = true ↔ 0x30 ≤ c.toNat ∧ c.toNat ≤ 0x39 := by
  simp [isDigit, UInt8.le_iff_toNat_le]

/-- The characters in front of the digits are none. -/
theorem ne_of_isDigit {c x : UInt8} (h : isDigit c = true) (hx : x.toNat < 0x30) : c ≠ x := by
  rintro rfl
  have := isDigit_iff.1 h
  omega

theorem digitVal_lt {c : UInt8} (h : isDigit c = true) : digitVal c < 10 := by
  have := isDigit_iff.1 h
  unfold digitVal
  omega

theorem decimal_lt {ds : List UInt8} (hds : ∀ c ∈ ds, isDigit c = true) : decimal ds < 10 ^ ds.length := by
  have key (l : List UInt8) (n : Nat) (hl : ∀ c ∈ l, isDigit c = true) :
      l.foldl (fun n c => n * 10 + digitVal c) n < (n + 1) * 10 ^ l.length := by
    induction l generalizing n with
    | nil => simp
    | cons c l ih =>
      have hc := digitVal_lt (hl c (List.mem_cons_self ..))
      have := ih (n * 10 + digitVal c) fun x hx => hl x (List.mem_cons_of_mem _ hx)
      rw [List.foldl_cons, List.length_cons, Nat.pow_succ']
      refine Nat.lt_of_lt_of_le this ?_
      rw [← Nat.mul_assoc]
      exact Nat.mul_le_mul_right _ (by omega)
  simpa [decimal] using key ds 0 hds

end CStr
