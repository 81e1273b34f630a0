/-
`btlink_protocol_util.c`: the tests and conversions the frame parser and the
query use on a field. A field is the list of the characters in front of the
0 that ends it.
-/
import Petbox.Tracker.Config

namespace Petbox.Tracker

open CStr

def chrDot : UInt8 := 0x2e

/-- The loop of `btlink_utils_isdigit_buffer` and its siblings: every one of the
first `length` characters up to the 0 passes the test, and there is one. -/
def testBuffer (test : UInt8 → Bool) : List UInt8 → Nat → Bool
  | _, 0 => true
  | [], _ + 1 => false
  | c :: cs, n + 1 => test c && (cs.take n).all test

/-- `btlink_utils_isdigit_buffer`. -/
def isdigitBuffer (buffer : List UInt8) (length : Nat) : Bool := testBuffer isDigit buffer length

/-- `btlink_utils_isxdigit_buffer`. -/
def isxdigitBuffer (buffer : List UInt8) (length : Nat) : Bool := testBuffer isXDigit buffer length

/-- `btlink_util_isalnum_buffer`. -/
def isalnumBuffer (buffer : List UInt8) (length : Nat) : Bool := testBuffer isAlnum buffer length

/-! ## Numbers -/

def intMax : Nat := 0x7FFFFFFF

/-- The digit loop of `btlink_utils_atoi_buffer`; `none` is its early `return 0`. -/
def atoiLoop (limit : Nat) : Nat → List UInt8 → Option Nat
  | result, [] => some result
  | result, c :: cs =>
    if isDigit c then
      if result * 10 + digitVal c > limit then none else atoiLoop limit (result * 10 + digitVal c) cs
    else some result

/-- `btlink_utils_atoi_buffer`. -/
def atoiBuffer (str : List UInt8) : Int :=
  match str.dropWhile (· == 0x20) with
  | 0x2d :: cs => -((atoiLoop (intMax + 1) 0 cs).getD 0 : Nat)
  | 0x2b :: cs => ((atoiLoop intMax 0 cs).getD 0 : Nat)
  | cs => ((atoiLoop intMax 0 cs).getD 0 : Nat)

/-- The digit loop of `btlink_hex_string_2_int`, in 32 bits. -/
def hexLoop (value : UInt32) (c : UInt8) : UInt32 :=
  if isDigit c then value * 16 + c.toUInt32 - 0x30 else value * 16 + (c ||| 0x20).toUInt32 - 0x61 + 10

/-- `btlink_hex_string_2_int`, as the `uint32_t` it is assigned to. -/
def hexString2Int (str : List UInt8) : UInt32 :=
  let (sign, str) : UInt32 × List UInt8 := match str with
    | 0x2d :: cs => (0 - 1, cs)
    | cs => (1, cs)
  let str := match str with
    | 0x30 :: 0x78 :: cs => cs
    | 0x30 :: 0x58 :: cs => cs
    | cs => cs
  sign * (str.dropWhile (· == 0x30)).foldl hexLoop 0

/-- `atoi` of the C library on a text of digits and dots. -/
def atoi (s : List UInt8) : Nat := min (decimal (s.takeWhile isDigit)) intMax

/-! ## Addresses -/

/-- `strstr(s, ".") + 1`. -/
def afterDot (s : List UInt8) : Option (List UInt8) :=
  match s.dropWhile (· != chrDot) with
  | [] => none
  | _ :: cs => some cs

/-- The loop of `btlink_soc_ip_check` with `n` octets to go: whether it ran to
the end, and the octets it stored. -/
def ipOctets : Nat → List UInt8 → Bool × List UInt8
  | 0, _ => (true, [])
  | n + 1, s =>
    if s = [] then (false, [])
    else if atoi s > 255 then (false, [])
    else if n = 0 then (true, [(atoi s).toUInt8])
    else match afterDot s with
      | none => (false, [(atoi s).toUInt8])
      | some r => ((ipOctets n r).1, (atoi s).toUInt8 :: (ipOctets n r).2)

/-- What `btlink_soc_ip_check` returns, and what it leaves in `*ip_validity` (if
it returns true) and in `ip_addr`. -/
structure IpCheck where
  ret : Bool
  validity : Bool
  octets : List UInt8
  deriving DecidableEq

/-- `btlink_soc_ip_check`. -/
def socIpCheck (asciAddr : List UInt8) : IpCheck :=
  if asciAddr.all fun c => isDigit c || c == chrDot then
    { ret := (ipOctets 4 asciAddr).1
      validity := (ipOctets 4 asciAddr).2 != [0, 0, 0, 0]
      octets := (ipOctets 4 asciAddr).2 }
  else { ret := false, validity := false, octets := [] }

/-- `btlink_util_ip_all_zero`. -/
def ipAllZero (ip : List UInt8) : Bool := strncmpEq (ascii "0.0.0.0") ip 7

/-! ## Passwords and names -/

def superPassword : List UInt8 := ascii "btlink"

/-- `btlink_util_password_match`, for the device password `dev`. -/
def passwordMatch (dev : CharArray lenScsPassword) (password : List UInt8) : Bool :=
  strncmpEq dev.bytes password lenScsPassword || strncmpEq superPassword password lenScsPassword

/-- `btlink_util_is_letter`. -/
def isLetter (c : UInt8) : Bool := (0x61 ≤ c && c ≤ 0x7a) || (0x41 ≤ c && c ≤ 0x5a)

/-- One pass of the loop of `btlink_util_is_same_str_ignore_lc`. -/
def sameIgnoreLc (a b : UInt8) : Bool := if isLetter a && isLetter b then toUpper a == toUpper b else a == b

/-- `btlink_util_is_same_str_ignore_lc`. -/
def isSameStrIgnoreLc (str1 str2 : List UInt8) : Bool :=
  str1.length == str2.length && (str1.zip str2).all fun p => sameIgnoreLc p.1 p.2

/-! ## Numbers and dots -/

theorem digits_no_dot {ds : List UInt8} (hds : ∀ c ∈ ds, isDigit c = true) : ∀ c ∈ ds, c ≠ chrDot := by
  rintro c hc rfl
  exact absurd (hds _ hc) (by decide)

/-- The digits of a number end at a dot, or with the text. -/
theorem takeWhile_number {ds r : List UInt8} (hds : ∀ c ∈ ds, isDigit c = true)
    (hr : r = [] ∨ ∃ r', r = chrDot :: r') : (ds ++ r).takeWhile isDigit = ds := by
  rw [List.takeWhile_append_of_pos hds]
  rcases hr with rfl | ⟨r', rfl⟩
  · simp
  · rw [List.takeWhile_cons_of_neg (by decide), List.append_nil]

theorem afterDot_append {a : List UInt8} (ha : ∀ c ∈ a, c ≠ chrDot) (r : List UInt8) :
    afterDot (a ++ chrDot :: r) = some r := by
  unfold afterDot
  rw [List.dropWhile_append_of_pos fun c hc => by simpa using ha c hc, List.dropWhile_cons_of_neg (by simp)]

theorem afterDot_none {a : List UInt8} (ha : ∀ c ∈ a, c ≠ chrDot) : afterDot a = none := by
  have hdrop : a.dropWhile (· != chrDot) = [] := by
    rw [← List.append_nil a, List.dropWhile_append_of_pos fun c hc => by simpa using ha c hc, List.dropWhile_nil]
  unfold afterDot
  rw [hdrop]

/-! ## What the tests say of a field -/

/-- On a field that is not longer than the buffer the test is one of all its characters. -/
theorem testBuffer_iff {test : UInt8 → Bool} {f : List UInt8} {n : Nat} (hn : 0 < n) (hf : f.length ≤ n) :
    testBuffer test f n = true ↔ f ≠ [] ∧ ∀ c ∈ f, test c = true := by
  obtain ⟨n, rfl⟩ : ∃ m, n = m + 1 := ⟨n - 1, by omega⟩
  cases f with
  | nil => simp [testBuffer]
  | cons c f =>
    rw [testBuffer, List.take_of_length_le (by simpa using hf)]
    simp

/-- Digits behind a number do not make it smaller. -/
theorem le_foldl_digits (ds : List UInt8) (n : Nat) : n ≤ ds.foldl (fun n c => n * 10 + digitVal c) n := by
  induction ds generalizing n with
  | nil => exact Nat.le_refl _
  | cons d ds ih => exact Nat.le_trans (by omega) (ih (n * 10 + digitVal d))

/-- The loop returns early if and only if the longest run of digits is over the limit. -/
theorem atoiLoop_eq {limit n : Nat} (hn : n ≤ limit) (str : List UInt8) :
    atoiLoop limit n str =
      if (str.takeWhile isDigit).foldl (fun n c => n * 10 + digitVal c) n ≤ limit then
        some ((str.takeWhile isDigit).foldl (fun n c => n * 10 + digitVal c) n)
      else none := by
  induction str generalizing n with
  | nil => simp [atoiLoop, hn]
  | cons c str ih =>
    by_cases hc : isDigit c = true
    · rw [atoiLoop, if_pos hc, List.takeWhile_cons_of_pos hc, List.foldl_cons]
      by_cases hover : n * 10 + digitVal c > limit
      · have hgrow := le_foldl_digits (str.takeWhile isDigit) (n * 10 + digitVal c)
        rw [if_pos hover, if_neg (by omega)]
      · rw [if_neg hover]
        exact ih (Nat.le_of_not_lt hover)
    · rw [atoiLoop, if_neg hc, List.takeWhile_cons_of_neg hc]
      simp [hn]

theorem atoiLoop_digits {limit : Nat} {ds : List UInt8} {n : Nat} (hds : ∀ c ∈ ds, isDigit c = true)
    (hlim : ds.foldl (fun n c => n * 10 + digitVal c) n ≤ limit) :
    atoiLoop limit n ds = some (ds.foldl (fun n c => n * 10 + digitVal c) n) := by
  have hall : (ds ++ []).takeWhile isDigit = ds := takeWhile_number hds (.inl rfl)
  rw [List.append_nil] at hall
  rw [atoiLoop_eq (Nat.le_trans (le_foldl_digits ds n) hlim), hall, if_pos hlim]

theorem decimal_le_intMax {ds : List UInt8} (hds : ∀ c ∈ ds, isDigit c = true) (hlen : ds.length ≤ 9) :
    decimal ds ≤ intMax := by
  have hlt : decimal ds < 10 ^ 9 := Nat.lt_of_lt_of_le (decimal_lt hds) (Nat.pow_le_pow_right (by omega) hlen)
  unfold intMax
  omega

/-- A field of at most nine digits is converted to the number it denotes. -/
theorem atoiBuffer_digits {f : List UInt8} (hf : ∀ c ∈ f, isDigit c = true) (hlen : f.length ≤ 9) :
    atoiBuffer f = (decimal f : Nat) := by
  have hloop : atoiLoop intMax 0 f = some (decimal f) := atoiLoop_digits hf (decimal_le_intMax hf hlen)
  cases f with
  | nil => rfl
  | cons c f =>
    have hc : isDigit c = true := hf c (List.mem_cons_self ..)
    have h20 : (c == 0x20) = false := by simpa using ne_of_isDigit hc (x := 0x20) (by decide)
    unfold atoiBuffer
    rw [List.dropWhile_cons_of_neg (by simp [h20])]
    split
    · next cs heq => exact absurd (List.cons.inj heq).1 (ne_of_isDigit hc (by decide))
    · next cs heq => exact absurd (List.cons.inj heq).1 (ne_of_isDigit hc (by decide))
    · rw [hloop, Option.getD_some]

end Petbox.Tracker
