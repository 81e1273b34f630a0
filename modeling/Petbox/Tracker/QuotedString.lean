/-
The tokenizer of quoted strings, `btlink_getExtendedString`, with the places of
the command and of the output that it accesses.

The loop wants to see one more character behind what it stores, two behind an
escape, and lets a string grow to one character more than the limit before it
gives up.
-/
import Petbox.Lib.Access
import Petbox.Tracker.Password

namespace Petbox.Tracker

open Access CStr

/-- A read of `commandBuffer_p->character[i]`, or a write of `outString[i]`. -/
inductive StringAccess
  | character (i : Nat)
  | outString (i : Nat)

/-- Where the loop stops, with what it has put out; `length` is its counter. -/
structure QuotedEnd where
  position : Nat
  length : Nat
  chars : List UInt8
  result : Bool

/-- What the function returns, puts out, and reports in `outStringLength`. -/
structure ExtendedString where
  result : Bool
  outString : List UInt8
  outStringLength : Nat

def readChar (line : List UInt8) (i : Nat) : Logged StringAccess UInt8 := (read (charAt line) i).rename .character

def writeOut (i : Nat) : Logged StringAccess Unit := touch [.outString i]

/-- A character in front of what the rest of the loop puts out. -/
def QuotedEnd.store (c : UInt8) (r : QuotedEnd) : QuotedEnd := { r with chars := c :: r.chars }

/-- The loop of `btlink_getExtendedString`; every pass moves the position. -/
def quotedLoopAccess (line : List UInt8) (maxStringLength : Nat) : Nat → Nat → Nat → Logged StringAccess QuotedEnd
  | 0, position, length => pure ⟨position, length, [], true⟩
  | fuel + 1, position, length =>
    if position + 1 < line.length then do
      let c ← readChar line position
      if c ≠ quotesChar ∧ length ≤ maxStringLength then do
        let c ← readChar line position
        if c = backslashChar then
          if position + 3 + 1 < line.length then do
            let d ← readChar line (position + 1)
            match getHexaValue d with
            | some first => do
              let e ← readChar line (position + 2)
              match getHexaValue e with
              | some second => do
                writeOut length
                let r ← quotedLoopAccess line maxStringLength fuel (position + 3) (length + 1)
                return r.store (16 * first + second)
              | none => pure ⟨position + 3, length, [], false⟩
            | none => pure ⟨position + 2, length, [], false⟩
          else pure ⟨position + 1, length, [], false⟩
        else do
          let c ← readChar line position
          writeOut length
          let r ← quotedLoopAccess line maxStringLength fuel (position + 1) (length + 1)
          return r.store c
      else pure ⟨position, length, [], true⟩
    else pure ⟨position, length, [], true⟩

/-- `btlink_getExtendedString`. The last character read is the one behind the
closing quote. -/
def getExtendedStringAccess (line : List UInt8) (position maxStringLength : Nat) :
    Logged StringAccess ExtendedString := do
  writeOut 0
  if position + 1 < line.length then do
    let c ← readChar line position
    if c = commaChar then return ⟨true, [], 0⟩
    let c ← readChar line position
    if c = semicolonChar then return ⟨true, [], 0⟩
    let c ← readChar line position
    if c ≠ quotesChar then return ⟨false, [], 0⟩
    let r ← quotedLoopAccess line maxStringLength line.length (position + 1) 0
    writeOut r.length
    let c ← readChar line r.position
    if c = quotesChar ∧ r.length ≤ maxStringLength then do
      let _ ← readChar line (r.position + 1)
      return ⟨r.result, r.chars, r.length⟩
    else return ⟨false, r.chars, r.length⟩
  else return ⟨true, [], 0⟩

/-! ## Quoted characters -/

/-- One character of a quoted string, as it is written: itself, or a backslash
and two hexadecimal digits. -/
inductive QuotedChar
  | plain (c : UInt8) (hquote : c ≠ quotesChar) (hescape : c ≠ backslashChar)
  | escape (d e first second : UInt8) (hd : getHexaValue d = some first) (he : getHexaValue e = some second)

namespace QuotedChar

def text : QuotedChar → List UInt8
  | plain c _ _ => [c]
  | escape d e _ _ _ _ => [backslashChar, d, e]

def char : QuotedChar → UInt8
  | plain c _ _ => c
  | escape _ _ first second _ _ => 16 * first + second

/-- How many characters the loop wants to see behind it. -/
def room : QuotedChar → Nat
  | plain _ _ _ => 1
  | escape _ _ _ _ _ _ => 2

theorem text_length_pos (q : QuotedChar) : 0 < q.text.length := by
  cases q with
  | plain c hquote hescape => exact Nat.one_pos
  | escape d e first second hd he => exact Nat.succ_pos _

theorem room_pos (q : QuotedChar) : 0 < q.room := by
  cases q with
  | plain c hquote hescape => exact Nat.one_pos
  | escape d e first second hd he => exact Nat.two_pos

theorem room_le_two (q : QuotedChar) : q.room ≤ 2 := by
  cases q with
  | plain c hquote hescape => exact Nat.le_succ 1
  | escape d e first second hd he => exact Nat.le_refl 2

end QuotedChar

/-- The text of a string between its quotes. -/
def quotedText (qs : List QuotedChar) : List UInt8 := qs.flatMap QuotedChar.text

@[simp] theorem quotedText_nil : quotedText [] = [] := rfl

@[simp] theorem quotedText_cons (q : QuotedChar) (qs : List QuotedChar) :
    quotedText (q :: qs) = q.text ++ quotedText qs := rfl

/-- The quoted characters, one by one. -/
theorem unquotes_iff {q s : List UInt8} : Unquotes q s ↔ ∃ qs, q = quotedText qs ∧ s = qs.map QuotedChar.char := by
  constructor
  · intro h
    induction h with
    | nil => exact ⟨[], rfl, rfl⟩
    | char hquote hescape h ih =>
      obtain ⟨qs, rfl, rfl⟩ := ih
      exact ⟨.plain _ hquote hescape :: qs, rfl, rfl⟩
    | hex hd he h ih =>
      obtain ⟨qs, rfl, rfl⟩ := ih
      exact ⟨.escape _ _ _ _ hd he :: qs, rfl, rfl⟩
  · rintro ⟨qs, rfl, rfl⟩
    induction qs with
    | nil => exact .nil
    | cons q qs ih =>
      cases q with
      | plain c hquote hescape => exact .char hquote hescape ih
      | escape d e first second hd he => exact .hex hd he ih

/-- A closed string of at most `maxStringLength` characters, from the quote at a
position on. -/
def ClosedString (line : List UInt8) (position maxStringLength : Nat) : Prop :=
  ∃ q s rest, line.drop position = quotesChar :: q ++ quotesChar :: rest ∧ Unquotes q s ∧ s.length ≤ maxStringLength

theorem closedString_iff {line : List UInt8} {position m : Nat} : ClosedString line position m ↔
    ∃ qs rest, line.drop position = quotesChar :: quotedText qs ++ quotesChar :: rest ∧ qs.length ≤ m := by
  constructor
  · rintro ⟨q, s, rest, hline, hq, hlength⟩
    obtain ⟨qs, rfl, rfl⟩ := unquotes_iff.1 hq
    exact ⟨qs, rest, hline, by rwa [List.length_map] at hlength⟩
  · rintro ⟨qs, rest, hline, hlength⟩
    exact ⟨_, _, rest, hline, unquotes_iff.2 ⟨qs, rfl, rfl⟩, by rwa [List.length_map]⟩

/-- Reads below one bound, writes below another. -/
def StringAccess.Below (reads writes : Nat) : StringAccess → Prop
  | .character i => i < reads
  | .outString i => i < writes

/-- What `btlink_getExtendedString` owes: room for the terminator, the command
read inside its buffer, the right length, and the strings that it takes. -/
structure Tokenized (line : List UInt8) (position maxStringLength : Nat) : Prop where
  below : Within (StringAccess.Below (commandLineSize + 1) (maxStringLength + 1))
    (getExtendedStringAccess line position maxStringLength)
  length : (getExtendedStringAccess line position maxStringLength).val.outStringLength =
    (getExtendedStringAccess line position maxStringLength).val.outString.length
  result : charAt line position = quotesChar →
    ((getExtendedStringAccess line position maxStringLength).val.result = true ↔
      ClosedString line position maxStringLength)

/-- What it gets wrong: a quote with nothing behind it, a string of one character
too many, and an escape at the end of a string at the end of the line. -/
inductive Mistaken (line : List UInt8) (position maxStringLength : Nat) : Prop
  | open (hline : line.drop position = [quotesChar])
  | long (qs : List QuotedChar) (q : QuotedChar) (rest : List UInt8)
      (hline : line.drop position = quotesChar :: quotedText (qs ++ [q]) ++ rest)
      (hlength : qs.length = maxStringLength) (hroom : q.room ≤ rest.length)
  | escapeLast (qs : List QuotedChar) (q : QuotedChar)
      (hline : line.drop position = quotesChar :: quotedText (qs ++ [q]) ++ [quotesChar])
      (hlength : qs.length + 1 ≤ maxStringLength) (hroom : q.room = 2)

/-! ## One pass -/

@[simp] theorem readChar_val (line : List UInt8) (i : Nat) : (readChar line i).val = charAt line i := rfl

@[simp] theorem readChar_within {P : StringAccess → Prop} {line : List UInt8} {i : Nat} :
    Within P (readChar line i) ↔ P (.character i) := by
  simp only [readChar, within_rename, within_read]

@[simp] theorem writeOut_within {P : StringAccess → Prop} {i : Nat} : Within P (writeOut i) ↔ P (.outString i) := by
  simp only [writeOut, within_touch, List.forall_mem_singleton]

theorem charAt_drop (line : List UInt8) (position i : Nat) :
    charAt line (position + i) = (line.drop position).getD i 0 := by
  simp only [charAt, List.getD_eq_getElem?_getD, List.getElem?_drop]

/-- The first character of the rest of the line. -/
theorem charAt_of_drop {line : List UInt8} {position : Nat} {c : UInt8} {rest : List UInt8}
    (h : line.drop position = c :: rest) : position < line.length ∧ charAt line position = c := by
  have hlen := congrArg List.length h
  have hc := charAt_drop line position 0
  rw [h] at hc
  rw [List.length_drop, List.length_cons] at hlen
  exact ⟨by omega, hc⟩

variable {line : List UInt8} {m : Nat}

/-- What the loop finds at a position: an end, a character with room behind it,
or a backslash without the digits or the room. -/
inductive Found (line : List UInt8) (m position length : Nat) : Prop
  | stop (h : position + 1 < line.length → charAt line position = quotesChar ∨ m < length)
  | char (q : QuotedChar) (rest : List UInt8) (hdrop : line.drop position = q.text ++ rest)
      (hroom : q.room ≤ rest.length) (hlength : length ≤ m)
  | bad (hlt : position + 1 < line.length) (hc : charAt line position = backslashChar) (hlength : length ≤ m)
      (hnot : ¬ ∃ d e x y rest, line.drop position = backslashChar :: d :: e :: x :: y :: rest ∧
        (getHexaValue d).isSome ∧ (getHexaValue e).isSome)

/-- The rest of the line, character by character. -/
theorem drop_charAt {position : Nat} (h : position < line.length) :
    line.drop position = charAt line position :: line.drop (position + 1) := by
  rw [List.drop_eq_getElem_cons h, charAt, List.getD_eq_getElem?_getD, List.getElem?_eq_getElem h, Option.getD_some]

theorem found (line : List UInt8) (m position length : Nat) : Found line m position length := by
  by_cases hstop : position + 1 < line.length → charAt line position = quotesChar ∨ m < length
  · exact .stop hstop
  · obtain ⟨hlt, hnot⟩ := Classical.not_imp.1 hstop
    obtain ⟨hquote, hlength⟩ := not_or.1 hnot
    by_cases hescape : charAt line position = backslashChar
    · by_cases hhex : ∃ d e x y rest, line.drop position = backslashChar :: d :: e :: x :: y :: rest ∧
          (getHexaValue d).isSome ∧ (getHexaValue e).isSome
      · obtain ⟨d, e, x, y, rest, hdrop, hd, he⟩ := hhex
        refine .char (.escape d e _ _ (Option.some_get hd).symm (Option.some_get he).symm) (x :: y :: rest) hdrop ?_
          (Nat.not_lt.1 hlength)
        exact Nat.le_add_left 2 _
      · exact .bad hlt hescape (Nat.not_lt.1 hlength) hhex
    · refine .char (.plain _ hquote hescape) _ (drop_charAt (by omega)) ?_ (Nat.not_lt.1 hlength)
      simp only [QuotedChar.room, List.length_drop]
      omega

/-- An end of the loop. -/
theorem quotedLoopAccess_stop (P : StringAccess → Prop) (fuel : Nat) {position length : Nat}
    (h : position + 1 < line.length → charAt line position = quotesChar ∨ m < length) :
    (quotedLoopAccess line m fuel position length).val = ⟨position, length, [], true⟩ ∧
      ((position + 1 < line.length → P (.character position)) →
        Within P (quotedLoopAccess line m fuel position length)) := by
  cases fuel with
  | zero => exact ⟨rfl, fun _ => within_pure _⟩
  | succ fuel =>
    unfold quotedLoopAccess
    by_cases hlt : position + 1 < line.length
    · have hend : ¬ (charAt line position ≠ quotesChar ∧ length ≤ m) := by
        intro hgo
        exact (h hlt).elim hgo.1 (Nat.not_lt.2 hgo.2)
      simp only [if_pos hlt, val_bind, readChar_val, hend, if_false, val_pure, within_bind, readChar_within,
        within_pure, and_true, true_and]
      exact fun hP => hP hlt
    · simp only [if_neg hlt, val_pure, within_pure, true_and, implies_true]

/-- A character that is stored. -/
theorem quotedLoopAccess_char (P : StringAccess → Prop) (fuel : Nat) {position length : Nat} {q : QuotedChar}
    {rest : List UInt8} (hdrop : line.drop position = q.text ++ rest) (hroom : q.room ≤ rest.length)
    (hlength : length ≤ m) :
    (quotedLoopAccess line m (fuel + 1) position length).val =
        (quotedLoopAccess line m fuel (position + q.text.length) (length + 1)).val.store q.char ∧
      ((∀ i < q.text.length, P (.character (position + i))) → P (.outString length) →
        Within P (quotedLoopAccess line m fuel (position + q.text.length) (length + 1)) →
        Within P (quotedLoopAccess line m (fuel + 1) position length)) := by
  have hlen := congrArg List.length hdrop
  rw [List.length_drop, List.length_append] at hlen
  have hchar : ∀ i, charAt line (position + i) = (q.text ++ rest).getD i 0 := by
    intro i
    rw [charAt_drop, hdrop]
  have h0 := hchar 0
  cases q with
  | plain c hquote hescape =>
    have hlt : position + 1 < line.length := by
      simp only [QuotedChar.text, QuotedChar.room, List.length_singleton] at hlen hroom
      omega
    have hc : charAt line position = c := h0
    simp only [quotedLoopAccess, if_pos hlt, val_bind, readChar_val, hc, ne_eq, hquote, not_false_eq_true, hlength,
      if_true, hescape, if_false, val_pure, within_bind, readChar_within, writeOut_within, within_pure, and_true]
    refine ⟨rfl, fun hread hwrite hrest => ?_⟩
    have hp := hread 0 (Nat.one_pos)
    exact ⟨hp, hp, hp, hwrite, hrest⟩
  | escape d e first second hd he =>
    have hlt : position + 3 + 1 < line.length := by
      simp only [QuotedChar.text, QuotedChar.room, List.length_cons, List.length_nil] at hlen hroom
      omega
    have hlt' : position + 1 < line.length := by omega
    have hc : charAt line position = backslashChar := h0
    have h1 : charAt line (position + 1) = d := hchar 1
    have h2 : charAt line (position + 2) = e := hchar 2
    have hgo : (backslashChar ≠ quotesChar ∧ length ≤ m) = True := eq_true ⟨by decide, hlength⟩
    simp only [quotedLoopAccess, if_pos hlt', val_bind, readChar_val, hc, hgo, if_true, if_pos hlt, h1, hd, h2, he,
      val_pure, within_bind, readChar_within, writeOut_within, within_pure, and_true]
    refine ⟨rfl, fun hread hwrite hrest => ?_⟩
    have hp := hread 0 (Nat.succ_pos 2)
    exact ⟨hp, hp, hread 1 (Nat.le_succ 2), hread 2 (Nat.le_refl 3), hwrite, hrest⟩

/-- A backslash that is no escape. -/
theorem quotedLoopAccess_bad (fuel : Nat) {position length : Nat} (hlt : position + 1 < line.length)
    (hc : charAt line position = backslashChar) (hlength : length ≤ m)
    (hnot : ¬ ∃ d e x y rest, line.drop position = backslashChar :: d :: e :: x :: y :: rest ∧
      (getHexaValue d).isSome ∧ (getHexaValue e).isSome) :
    ∃ p, (quotedLoopAccess line m (fuel + 1) position length).val = ⟨p, length, [], false⟩ ∧ p < line.length ∧
      Within (StringAccess.Below line.length 0) (quotedLoopAccess line m (fuel + 1) position length) := by
  have hgo : (backslashChar ≠ quotesChar ∧ length ≤ m) = True := eq_true ⟨by decide, hlength⟩
  have h0 : position < line.length := by omega
  simp only [quotedLoopAccess, if_pos hlt, val_bind, readChar_val, hc, hgo, if_true, within_bind, readChar_within]
  by_cases hroom : position + 3 + 1 < line.length
  · have hdrop : line.drop position = backslashChar :: charAt line (position + 1) :: charAt line (position + 2) ::
        charAt line (position + 3) :: charAt line (position + 4) :: line.drop (position + 5) := by
      rw [drop_charAt h0, drop_charAt (by omega : position + 1 < line.length),
        drop_charAt (by omega : position + 1 + 1 < line.length), drop_charAt (by omega : position + 1 + 1 + 1 < _),
        drop_charAt hroom, hc]
    simp only [if_pos hroom, val_bind, readChar_val, within_bind, readChar_within]
    cases hd : getHexaValue (charAt line (position + 1)) with
    | none => exact ⟨position + 2, rfl, by omega, h0, h0, hlt, within_pure _⟩
    | some first =>
      cases he : getHexaValue (charAt line (position + 2)) with
      | none =>
        simp only [val_bind, readChar_val, he, within_bind, readChar_within]
        exact ⟨position + 3, rfl, by omega, h0, h0, hlt, (by omega : position + 2 < line.length), within_pure _⟩
      | some second =>
        exact absurd ⟨_, _, _, _, _, hdrop, by rw [hd]; rfl, by rw [he]; rfl⟩ hnot
  · simp only [if_neg hroom]
    exact ⟨position + 1, rfl, hlt, h0, h0, within_pure _⟩

/-! ## The loop -/

/-- What the loop has done when it stops: it has stored characters, with room
behind the last one, and not too many. -/
structure Scanned (line : List UInt8) (m position length : Nat) (r : QuotedEnd) (qs : List QuotedChar)
    (rest : List UInt8) : Prop where
  drop : line.drop position = quotedText qs ++ rest
  chars : r.chars = qs.map QuotedChar.char
  length : r.length = length + qs.length
  le : r.length ≤ m + 1
  inside : r.position < line.length
  room : ∀ q ∈ qs.getLast?, q.room ≤ rest.length
  closed : r.result = true → r.position = position + (quotedText qs).length ∧
    (r.position + 1 < line.length → charAt line r.position = quotesChar ∨ m < r.length)

/-- One character more in front of what the loop has done. -/
theorem Scanned.cons {position length : Nat} {r : QuotedEnd} {q : QuotedChar} {qs : List QuotedChar}
    {rest rest' : List UInt8} (hdrop : line.drop position = q.text ++ rest) (hroom : q.room ≤ rest.length)
    (h : Scanned line m (position + q.text.length) (length + 1) r qs rest') :
    Scanned line m position length (r.store q.char) (q :: qs) rest' := by
  have hrest : rest = quotedText qs ++ rest' := by
    rw [← h.drop, ← List.drop_drop, hdrop, List.drop_left]
  refine ⟨by rw [hdrop, hrest, quotedText_cons, List.append_assoc], ?_, ?_, h.le, h.inside, ?_, ?_⟩
  · simp only [QuotedEnd.store, h.chars, List.map_cons]
  · simp only [QuotedEnd.store, h.length, List.length_cons]
    omega
  · intro last hlast
    cases qs with
    | nil =>
      rw [List.getLast?_singleton, Option.mem_some_iff] at hlast
      rw [← hlast, ← List.nil_append rest', ← quotedText_nil, ← hrest]
      exact hroom
    | cons q' qs' =>
      rw [List.getLast?_cons_cons] at hlast
      exact h.room last hlast
  · intro hresult
    obtain ⟨hp, hstop⟩ := h.closed hresult
    refine ⟨?_, hstop⟩
    simp only [QuotedEnd.store, hp, quotedText_cons, List.length_append]
    omega

theorem StringAccess.Below.mono {reads writes reads' writes' : Nat} (hr : reads ≤ reads') (hw : writes ≤ writes')
    {a : StringAccess} (h : a.Below reads writes) : a.Below reads' writes' := by
  cases a with
  | character i => exact Nat.lt_of_lt_of_le h hr
  | outString i => exact Nat.lt_of_lt_of_le h hw

theorem below_mono {α : Type} {reads writes reads' writes' : Nat} {x : Logged StringAccess α}
    (h : Within (StringAccess.Below reads writes) x) (hr : reads ≤ reads') (hw : writes ≤ writes') :
    Within (StringAccess.Below reads' writes') x := fun a ha => (h a ha).mono hr hw

/-- Every run of the loop from inside the line. -/
theorem quotedLoopAccess_scanned {fuel position : Nat} (length : Nat) (hfuel : line.length ≤ position + fuel)
    (hposition : position < line.length) (hlength : length ≤ m + 1) :
    ∃ qs rest, Scanned line m position length (quotedLoopAccess line m fuel position length).val qs rest ∧
      Within (StringAccess.Below line.length (quotedLoopAccess line m fuel position length).val.length)
        (quotedLoopAccess line m fuel position length) := by
  induction fuel generalizing position length with
  | zero => omega
  | succ fuel ih =>
    cases found line m position length with
    | stop hstop =>
      obtain ⟨hval, hlog⟩ := quotedLoopAccess_stop (StringAccess.Below line.length length) (fuel + 1) hstop
      rw [hval]
      refine ⟨[], line.drop position, ?_, hlog fun h => hposition⟩
      exact ⟨rfl, rfl, rfl, hlength, hposition, fun q hq => (nomatch hq), fun _ => ⟨rfl, hstop⟩⟩
    | char q rest hdrop hroom hle =>
      have hlen := congrArg List.length hdrop
      rw [List.length_drop, List.length_append] at hlen
      have hroom' := q.room_pos
      have htext := q.text_length_pos
      obtain ⟨qs, rest', hscan, hlog⟩ :=
        @ih (position + q.text.length) (length + 1) (by omega) (by omega) (by omega)
      obtain ⟨hval, hwithin⟩ := quotedLoopAccess_char (StringAccess.Below line.length
        (quotedLoopAccess line m fuel (position + q.text.length) (length + 1)).val.length) fuel hdrop hroom hle
      rw [hval]
      refine ⟨q :: qs, rest', hscan.cons hdrop hroom, hwithin (fun i hi => ?_) ?_ hlog⟩
      · exact (by omega : position + i < line.length)
      · have hcount := hscan.length
        exact Nat.lt_of_lt_of_eq (by omega : length < length + 1 + qs.length) hcount.symm
    | bad hlt hc hle hnot =>
      obtain ⟨p, hval, hp, hlog⟩ := quotedLoopAccess_bad fuel hlt hc hle hnot
      rw [hval]
      refine ⟨[], line.drop position, ?_, below_mono hlog (Nat.le_refl _) (Nat.zero_le _)⟩
      exact ⟨rfl, rfl, rfl, hlength, hp, fun q hq => (nomatch hq), fun h => nomatch h⟩

/-- The loop stores the characters it finds, as far as there is room. -/
theorem quotedLoopAccess_text {qs : List QuotedChar} {rest : List UInt8} {fuel position : Nat} (length : Nat)
    (hdrop : line.drop position = quotedText qs ++ rest) (hroom : ∀ q ∈ qs.getLast?, q.room ≤ rest.length)
    (hlength : length + qs.length ≤ m + 1) (hfuel : line.length ≤ position + fuel) :
    ∃ fuel', line.length ≤ position + (quotedText qs).length + fuel' ∧
      (quotedLoopAccess line m fuel position length).val =
        { (quotedLoopAccess line m fuel' (position + (quotedText qs).length) (length + qs.length)).val with
          chars := qs.map QuotedChar.char ++
            (quotedLoopAccess line m fuel' (position + (quotedText qs).length) (length + qs.length)).val.chars } := by
  induction qs generalizing position length fuel with
  | nil => exact ⟨fuel, hfuel, rfl⟩
  | cons q qs ih =>
    rw [quotedText_cons, List.append_assoc] at hdrop
    rw [List.length_cons] at hlength
    have hlen := congrArg List.length hdrop
    rw [List.length_drop, List.length_append] at hlen
    have htext := q.text_length_pos
    have hnext : line.drop (position + q.text.length) = quotedText qs ++ rest := by
      rw [← List.drop_drop, hdrop, List.drop_left]
    have hbehind : q.room ≤ (quotedText qs ++ rest).length := by
      cases qs with
      | nil => exact hroom q rfl
      | cons q' qs' =>
        have hlast : (q :: q' :: qs').getLast? = some ((q' :: qs').getLast (List.cons_ne_nil _ _)) :=
          List.getLast?_eq_some_getLast (List.cons_ne_nil _ _)
        have hq := hroom _ hlast
        have hpos := QuotedChar.room_pos ((q' :: qs').getLast (List.cons_ne_nil _ _))
        have htext' := q'.text_length_pos
        have htwo := q.room_le_two
        rw [quotedText_cons, List.length_append, List.length_append]
        omega
    cases fuel with
    | zero => omega
    | succ fuel =>
      obtain ⟨fuel', hfuel', hval⟩ := @ih fuel (position + q.text.length) (length + 1) hnext
        (fun last hlast => hroom last (by
          cases qs with
          | nil => exact nomatch hlast
          | cons q' qs' => exact hlast)) (by omega) (by omega)
      refine ⟨fuel', ?_, ?_⟩
      · rw [quotedText_cons, List.length_append]
        omega
      · rw [(quotedLoopAccess_char (fun _ => True) fuel hdrop hbehind (by omega)).1, hval]
        simp only [QuotedEnd.store, quotedText_cons, List.length_append, List.length_cons, List.map_cons,
          List.cons_append, Nat.add_assoc, Nat.add_comm 1]

/-! ## The string -/

/-- Without an opening quote, and something behind it, nothing is stored. -/
theorem getExtendedStringAccess_other {position : Nat}
    (h : ¬ (position + 1 < line.length ∧ charAt line position = quotesChar)) :
    Within (StringAccess.Below line.length 1) (getExtendedStringAccess line position m) ∧
      (getExtendedStringAccess line position m).val.outString = [] ∧
      (getExtendedStringAccess line position m).val.outStringLength = 0 := by
  unfold getExtendedStringAccess
  by_cases hlt : position + 1 < line.length
  · have hquote : charAt line position ≠ quotesChar := fun hc => h ⟨hlt, hc⟩
    have hread : position < line.length := by omega
    simp only [if_pos hlt, val_bind, readChar_val, within_bind, readChar_within, writeOut_within]
    by_cases hcomma : charAt line position = commaChar
    · simp only [eq_true hcomma, if_true, val_pure, within_pure, and_true]
      exact ⟨Nat.one_pos, hread⟩
    · by_cases hsemi : charAt line position = semicolonChar
      · simp only [eq_false hcomma, eq_true hsemi, if_true, if_false, val_bind, readChar_val, val_pure, within_bind,
          readChar_within, within_pure, and_true]
        exact ⟨Nat.one_pos, hread, hread⟩
      · simp only [eq_false hcomma, eq_false hsemi, eq_true hquote, if_true, if_false, val_bind, readChar_val,
          val_pure, within_bind, readChar_within, within_pure, and_true]
        exact ⟨Nat.one_pos, hread, hread, hread⟩
  · simp only [if_neg hlt, val_bind, val_pure, within_bind, writeOut_within, within_pure, and_true]
    exact Nat.one_pos

/-- The quoted string: the loop, and what it stopped at. -/
theorem getExtendedStringAccess_quoted {position : Nat} {r : Logged StringAccess QuotedEnd}
    (hr : quotedLoopAccess line m line.length (position + 1) 0 = r) (hlt : position + 1 < line.length)
    (hquote : charAt line position = quotesChar) :
    (getExtendedStringAccess line position m).val =
        ⟨r.val.result && decide (charAt line r.val.position = quotesChar ∧ r.val.length ≤ m), r.val.chars,
          r.val.length⟩ ∧
      ∀ P, Within P (getExtendedStringAccess line position m) ↔ P (.outString 0) ∧ P (.character position) ∧
        Within P r ∧ P (.outString r.val.length) ∧ P (.character r.val.position) ∧
        (charAt line r.val.position = quotesChar ∧ r.val.length ≤ m → P (.character (r.val.position + 1))) := by
  have hcomma : quotesChar ≠ commaChar := by decide
  have hsemi : quotesChar ≠ semicolonChar := by decide
  unfold getExtendedStringAccess
  simp only [if_pos hlt, val_bind, readChar_val, within_bind, readChar_within, writeOut_within, hquote, ne_eq,
    not_true_eq_false, if_false, hcomma, hsemi, hr]
  by_cases hend : charAt line r.val.position = quotesChar ∧ r.val.length ≤ m
  · have hend' := eq_true hend
    simp only [hend', if_true, decide_true, Bool.and_true, val_bind, val_pure, within_bind, readChar_within,
      within_pure, and_true, forall_const, true_and]
    intro P
    tauto
  · have hend' := eq_false hend
    simp only [hend', if_false, decide_false, Bool.and_false, val_pure, within_pure, and_true, true_and,
      false_implies]
    intro P
    tauto

theorem ClosedString.opening {position : Nat} (h : ClosedString line position m) :
    position + 1 < line.length ∧ charAt line position = quotesChar := by
  obtain ⟨q, s, rest, hdrop, -⟩ := h
  have hlen := congrArg List.length hdrop
  simp only [List.length_drop, List.length_cons, List.length_append] at hlen
  exact ⟨by omega, (charAt_of_drop hdrop).2⟩

/-- The text between an opening quote and the end of the line. -/
theorem drop_of_opening {position : Nat} (hlt : position + 1 < line.length)
    (hquote : charAt line position = quotesChar) : line.drop position = quotesChar :: line.drop (position + 1) := by
  rw [drop_charAt (by omega), hquote]

/-- Every mistaken string begins with a quote. -/
theorem Mistaken.opening {position : Nat} (h : Mistaken line position m) :
    position < line.length ∧ charAt line position = quotesChar := by
  cases h with
  | «open» hline => exact charAt_of_drop hline
  | long qs q rest hline hlength hroom => exact charAt_of_drop hline
  | escapeLast qs q hline hlength hroom => exact charAt_of_drop hline

section Opening

variable {position : Nat}

/-- A string of one character too many is stored whole, and the terminator goes
behind the array. -/
theorem not_tokenized_long (hlt : position + 1 < line.length) (hquote : charAt line position = quotesChar)
    {qs : List QuotedChar} {q : QuotedChar} {rest : List UInt8}
    (hdrop : line.drop (position + 1) = quotedText (qs ++ [q]) ++ rest) (hlength : qs.length = m)
    (hroom : q.room ≤ rest.length) : ¬ Tokenized line position m := by
  intro h
  obtain ⟨fuel', -, hval⟩ := @quotedLoopAccess_text line m (qs ++ [q]) rest line.length (position + 1) 0 hdrop
    (fun last hlast => by
      rw [List.getLast?_append, List.getLast?_singleton, Option.some_or, Option.mem_some_iff] at hlast
      rwa [← hlast])
    (by rw [List.length_append, List.length_singleton]; omega) (by omega)
  have hcount : 0 + (qs ++ [q]).length = m + 1 := by
    rw [List.length_append, List.length_singleton, hlength, Nat.zero_add]
  have hstop := (@quotedLoopAccess_stop line m (fun _ => True) fuel'
    (position + 1 + (quotedText (qs ++ [q])).length) (m + 1) fun _ => .inr (Nat.lt_succ_self m)).1
  rw [hcount, hstop] at hval
  have hwrite := ((getExtendedStringAccess_quoted rfl hlt hquote).2 _).1 h.below
  have hterm := hwrite.2.2.2.1
  rw [hval] at hterm
  exact absurd hterm (Nat.lt_irrefl (m + 1))

/-- An escape without room is refused, though the string is closed behind it. -/
theorem not_tokenized_escapeLast (hlt : position + 1 < line.length) (hquote : charAt line position = quotesChar)
    {qs : List QuotedChar} {q : QuotedChar}
    (hdrop : line.drop (position + 1) = quotedText (qs ++ [q]) ++ [quotesChar]) (hlength : qs.length + 1 ≤ m)
    (hroom : q.room = 2) : ¬ Tokenized line position m := by
  intro h
  have hclosed : ClosedString line position m := by
    refine closedString_iff.2 ⟨qs ++ [q], [], ?_, ?_⟩
    · rw [drop_of_opening hlt hquote, hdrop, List.cons_append]
    · rw [List.length_append, List.length_singleton]
      exact hlength
  cases q with
  | plain c hquote' hescape => exact absurd hroom (Nat.ne_of_lt (Nat.lt_succ_self 1))
  | escape d e first second hd he =>
    have hdrop' : line.drop (position + 1) = quotedText qs ++ [backslashChar, d, e, quotesChar] := by
      rw [hdrop, quotedText, List.flatMap_append, List.append_assoc]
      rfl
    obtain ⟨fuel', hfuel', hval⟩ := @quotedLoopAccess_text line m qs _ line.length (position + 1) 0 hdrop'
      (fun last _ => Nat.le_trans last.room_le_two (Nat.le_add_left 2 2)) (by omega) (by omega)
    have hrest : line.drop (position + 1 + (quotedText qs).length) = [backslashChar, d, e, quotesChar] := by
      rw [← List.drop_drop, hdrop', List.drop_left]
    have hlen := congrArg List.length hrest
    rw [List.length_drop] at hlen
    cases fuel' with
    | zero => exact absurd hlen (by simp only [List.length_cons, List.length_nil]; omega)
    | succ fuel' =>
      obtain ⟨p, hbad, -, -⟩ := @quotedLoopAccess_bad line m fuel' _ (0 + qs.length)
        (by simp only [List.length_cons, List.length_nil] at hlen; omega) (charAt_of_drop hrest).2 (by omega) (by
          rintro ⟨d', e', x, y, rest, hsix, -⟩
          rw [hrest] at hsix
          exact absurd (congrArg List.length hsix) (by simp))
      rw [hbad] at hval
      have hresult := (h.result hquote).2 hclosed
      rw [(getExtendedStringAccess_quoted rfl hlt hquote).1, hval] at hresult
      exact Bool.false_ne_true hresult

/-- A closed string that is not mistaken is taken: the loop stops at its closing
quote. -/
theorem quotedLoopAccess_closed (hlt : position + 1 < line.length) (hquote : charAt line position = quotesChar)
    (hnot : ¬ Mistaken line position m) (h : ClosedString line position m) :
    (quotedLoopAccess line m line.length (position + 1) 0).val.result = true ∧
      charAt line (quotedLoopAccess line m line.length (position + 1) 0).val.position = quotesChar ∧
      (quotedLoopAccess line m line.length (position + 1) 0).val.length ≤ m := by
  obtain ⟨qs, rest, hdrop, hlength⟩ := closedString_iff.1 h
  have hbody : line.drop (position + 1) = quotedText qs ++ quotesChar :: rest := by
    rw [drop_of_opening hlt hquote, List.cons_append] at hdrop
    exact (List.cons.inj hdrop).2
  have hroom : ∀ q ∈ qs.getLast?, q.room ≤ (quotesChar :: rest).length := by
    intro q hq
    obtain ⟨qs', rfl⟩ := List.getLast?_eq_some_iff.1 hq
    cases rest with
    | nil =>
      refine Nat.le_of_lt_succ (Nat.lt_of_le_of_ne q.room_le_two fun htwo => hnot ?_)
      exact .escapeLast qs' q hdrop (by rwa [List.length_append, List.length_singleton] at hlength) htwo
    | cons c rest => exact Nat.le_trans q.room_le_two (Nat.le_add_left 2 _)
  obtain ⟨fuel', -, hval⟩ := @quotedLoopAccess_text line m qs _ line.length (position + 1) 0 hbody hroom
    (by omega) (by omega)
  have hend : charAt line (position + 1 + (quotedText qs).length) = quotesChar := by
    refine (@charAt_of_drop line _ quotesChar rest ?_).2
    rw [← List.drop_drop, hbody, List.drop_left]
  have hstop := (@quotedLoopAccess_stop line m (fun _ => True) fuel' _ (0 + qs.length) fun _ => .inl hend).1
  rw [hval, hstop]
  exact ⟨rfl, hend, (Nat.zero_add qs.length).symm ▸ hlength⟩

/-- What is not mistaken is right. -/
theorem tokenized_of_not_mistaken (hline : line.length ≤ commandLineSize) (hlt : position + 1 < line.length)
    (hquote : charAt line position = quotesChar) (hnot : ¬ Mistaken line position m) :
    Tokenized line position m := by
  obtain ⟨qs, rest, hscan, hlog⟩ := @quotedLoopAccess_scanned line m line.length (position + 1) 0
    (by omega) hlt (Nat.zero_le _)
  obtain ⟨hval, hwithin⟩ := getExtendedStringAccess_quoted (m := m) rfl hlt hquote
  have hcount := hscan.length
  have hle : (quotedLoopAccess line m line.length (position + 1) 0).val.length ≤ m := by
    refine Nat.le_of_lt_succ (Nat.lt_of_le_of_ne hscan.le fun hmax => hnot ?_)
    cases hlast : qs.getLast? with
    | none =>
      rw [List.getLast?_eq_none_iff.1 hlast, List.length_nil] at hcount
      omega
    | some q =>
      obtain ⟨qs', rfl⟩ := List.getLast?_eq_some_iff.1 hlast
      rw [List.length_append, List.length_singleton] at hcount
      refine .long qs' q rest ?_ (by omega) (hscan.room q hlast)
      rw [drop_of_opening hlt hquote, hscan.drop, List.cons_append]
  refine ⟨(hwithin _).2 ⟨Nat.succ_pos m, ?_, below_mono hlog ?_ (by omega), Nat.lt_succ_of_le hle, ?_, fun _ => ?_⟩,
    ?_, fun _ => ⟨fun hresult => ?_, fun hclosed => ?_⟩⟩
  · exact Nat.lt_succ_of_le (by omega)
  · omega
  · exact Nat.lt_succ_of_le (Nat.le_trans (Nat.le_of_lt hscan.inside) hline)
  · exact Nat.lt_succ_of_le (Nat.le_trans hscan.inside hline)
  · rw [hval]
    simp only [hscan.chars, List.length_map, hscan.length, Nat.zero_add]
  · rw [hval, Bool.and_eq_true, decide_eq_true_eq] at hresult
    obtain ⟨hok, hend, -⟩ := hresult
    obtain ⟨hp, -⟩ := hscan.closed hok
    have hrest : line.drop (position + 1 + (quotedText qs).length) = rest := by
      rw [← List.drop_drop, hscan.drop, List.drop_left]
    have hinside := hscan.inside
    rw [hp] at hend hinside
    rw [drop_charAt hinside, hend] at hrest
    refine closedString_iff.2 ⟨qs, line.drop (position + 1 + (quotedText qs).length + 1), ?_, by omega⟩
    rw [drop_of_opening hlt hquote, hscan.drop, ← hrest, List.cons_append]
  · obtain ⟨hok, hend, hle'⟩ := quotedLoopAccess_closed hlt hquote hnot hclosed
    rw [hval, Bool.and_eq_true, decide_eq_true_eq]
    exact ⟨hok, hend, hle'⟩

end Opening

/-- **A quoted string is read right exactly when it is none of these three**: a
quote at the end of the line, a string of more characters than the limit, and
a string whose last character is an escape and which ends the line. -/
theorem tokenized_iff (hline : line.length ≤ commandLineSize) (position m : Nat) :
    Tokenized line position m ↔ ¬ Mistaken line position m := by
  by_cases hopen : position + 1 < line.length ∧ charAt line position = quotesChar
  · obtain ⟨hlt, hquote⟩ := hopen
    refine ⟨fun h hmistaken => ?_, tokenized_of_not_mistaken hline hlt hquote⟩
    have hbody := drop_of_opening hlt hquote
    cases hmistaken with
    | «open» hdrop =>
      rw [hbody] at hdrop
      have hlen := congrArg List.length (List.cons.inj hdrop).2
      rw [List.length_drop, List.length_nil] at hlen
      omega
    | long qs q rest hdrop hlength hroom =>
      rw [hbody, List.cons_append] at hdrop
      exact not_tokenized_long hlt hquote (List.cons.inj hdrop).2 hlength hroom h
    | escapeLast qs q hdrop hlength hroom =>
      rw [hbody, List.cons_append] at hdrop
      exact not_tokenized_escapeLast hlt hquote (List.cons.inj hdrop).2 hlength hroom h
  · obtain ⟨hlog, hchars, hcount⟩ := getExtendedStringAccess_other (m := m) hopen
    by_cases hquote : position < line.length ∧ charAt line position = quotesChar
    · obtain ⟨hlt, hc⟩ := hquote
      have hend : ¬ position + 1 < line.length := fun hlt' => hopen ⟨hlt', hc⟩
      have hdrop : line.drop position = [quotesChar] := by
        rw [drop_charAt hlt, hc, List.drop_eq_nil_of_le (Nat.not_lt.1 hend)]
      refine iff_of_false (fun h => ?_) fun hnot => hnot (.open hdrop)
      have hresult : (getExtendedStringAccess line position m).val.result = true := by
        simp only [getExtendedStringAccess, if_neg hend, val_bind, val_pure]
      exact hend ((h.result hc).1 hresult).opening.1
    · refine iff_of_true ⟨below_mono hlog (by omega) (by omega), by rw [hchars, hcount]; rfl, fun hc => ?_⟩
        fun hmistaken => hquote hmistaken.opening
      refine absurd ⟨Nat.lt_of_not_le fun hle => ?_, hc⟩ hquote
      rw [charAt, List.getD_eq_getElem?_getD, List.getElem?_eq_none hle] at hc
      exact absurd hc (by decide)

theorem tokenized_iff_gnss :
    Tokenized (ascii "AT@IPS?\"gnss\"") 7 lenPassword ↔ ¬ Mistaken (ascii "AT@IPS?\"gnss\"") 7 lenPassword :=
  tokenized_iff (by decide +kernel) 7 lenPassword

/-- A password of 21 characters is stored with its terminator behind the 21 bytes
of the array. -/
theorem password_overrun : ¬ Tokenized (ascii "AT@IPS?\"aaaaaaaaaaaaaaaaaaaaa\"") 7 lenPassword :=
  @not_tokenized_long _ _ 7 (by decide +kernel) (by decide +kernel)
    (List.replicate 20 (.plain 0x61 (by decide) (by decide))) (.plain 0x61 (by decide) (by decide)) [quotesChar]
    (by decide +kernel) rfl (by decide +kernel)

/-! ## The accesses beside the function -/

/-- Two characters of the rest, with what follows them. -/
theorem quotedLoop_cons (m : Nat) (c d : UInt8) (rest : List UInt8) (length : Nat) :
    quotedLoop m (c :: d :: rest) length =
      if c ≠ quotesChar ∧ length ≤ m then
        if c = backslashChar then
          match rest with
          | e :: x :: y :: more =>
            match getHexaValue d, getHexaValue e with
            | some first, some second =>
              (quotedLoop m (x :: y :: more) (length + 1)).map fun r => ((16 * first + second) :: r.1, r.2)
            | _, _ => none
          | _ => none
        else (quotedLoop m (d :: rest) (length + 1)).map fun r => (c :: r.1, r.2)
      else some ([], c :: d :: rest) := by
  match rest with
  | [] | [e] | [e, x] | e :: x :: y :: more => rfl

theorem quotedLoop_char {q : QuotedChar} {rest : List UInt8} {length : Nat} (hroom : q.room ≤ rest.length)
    (hle : length ≤ m) :
    quotedLoop m (q.text ++ rest) length = (quotedLoop m rest (length + 1)).map fun r => (q.char :: r.1, r.2) := by
  cases q with
  | plain c hquote hescape =>
    cases rest with
    | nil => exact absurd hroom (Nat.not_succ_le_zero 0)
    | cons d rest =>
      rw [QuotedChar.text, List.singleton_append, quotedLoop_cons, if_pos ⟨hquote, hle⟩, if_neg hescape]
      rfl
  | escape d e first second hd he =>
    cases rest with
    | nil => exact absurd hroom (Nat.not_succ_le_zero 1)
    | cons x rest =>
      cases rest with
      | nil => exact absurd hroom (Nat.not_succ_le_self 1)
      | cons y more =>
        have hgo : backslashChar ≠ quotesChar ∧ length ≤ m := ⟨by decide, hle⟩
        rw [QuotedChar.text, List.cons_append, List.cons_append, quotedLoop_cons, if_pos hgo, if_pos rfl]
        simp only [List.cons_append, List.nil_append, hd, he, QuotedChar.char]

/-- A backslash without the digits or the room ends the loop with a failure. -/
theorem quotedLoop_bad {d : UInt8} {rest : List UInt8} {length : Nat} (hle : length ≤ m)
    (hnot : ¬ ∃ d' e x y more, backslashChar :: d :: rest = backslashChar :: d' :: e :: x :: y :: more ∧
      (getHexaValue d').isSome ∧ (getHexaValue e).isSome) :
    quotedLoop m (backslashChar :: d :: rest) length = none := by
  have hgo : backslashChar ≠ quotesChar ∧ length ≤ m := ⟨by decide, hle⟩
  rw [quotedLoop_cons, if_pos hgo, if_pos rfl]
  split
  · next e x y more =>
    split
    · next first second hd he =>
      exact absurd ⟨d, e, x, y, more, rfl, by rw [hd]; rfl, by rw [he]; rfl⟩ hnot
    · rfl
  · rfl

/-- The loop with its accesses is the loop. -/
theorem quotedLoop_eq {fuel position length : Nat} (hfuel : line.length ≤ position + fuel)
    (hposition : position < line.length) :
    quotedLoop m (line.drop position) length =
      if (quotedLoopAccess line m fuel position length).val.result = true then
        some ((quotedLoopAccess line m fuel position length).val.chars,
          line.drop (quotedLoopAccess line m fuel position length).val.position)
      else none := by
  induction fuel generalizing position length with
  | zero => omega
  | succ fuel ih =>
    cases found line m position length with
    | stop hstop =>
      rw [(quotedLoopAccess_stop (fun _ => True) (fuel + 1) hstop).1, if_pos rfl, drop_charAt hposition]
      by_cases hlt : position + 1 < line.length
      · have hgo : ¬ (charAt line position ≠ quotesChar ∧ length ≤ m) := fun hgo =>
          (hstop hlt).elim hgo.1 (Nat.not_lt.2 hgo.2)
        rw [drop_charAt hlt, quotedLoop_cons, if_neg hgo]
      · rw [List.drop_eq_nil_of_le (Nat.not_lt.1 hlt), quotedLoop]
        intro c d rest h
        cases h
    | char q rest hdrop hroom hle =>
      have hnext : line.drop (position + q.text.length) = rest := by
        rw [← List.drop_drop, hdrop, List.drop_left]
      have hrest := q.room_pos
      have hlen := congrArg List.length hnext
      rw [List.length_drop] at hlen
      rw [hdrop, quotedLoop_char hroom hle, (quotedLoopAccess_char (fun _ => True) fuel hdrop hroom hle).1, ← hnext,
        ih (by have := q.text_length_pos; omega) (by omega)]
      cases hresult : (quotedLoopAccess line m fuel (position + q.text.length) (length + 1)).val.result with
      | false => simp only [QuotedEnd.store, hresult, Bool.false_eq_true, if_false, Option.map_none]
      | true => simp only [QuotedEnd.store, hresult, if_true, Option.map_some]
    | bad hlt hc hle hnot =>
      obtain ⟨p, hval, -, -⟩ := quotedLoopAccess_bad fuel hlt hc hle hnot
      rw [hval, if_neg Bool.false_ne_true]
      rw [drop_charAt hposition, drop_charAt hlt, hc] at hnot ⊢
      exact quotedLoop_bad hle hnot

/-- The function with its accesses is the function. -/
theorem getExtendedStringAccess_val (line : List UInt8) (position m : Nat) :
    getExtendedString line position m =
      if (getExtendedStringAccess line position m).val.result = true then
        some (getExtendedStringAccess line position m).val.outString
      else none := by
  unfold getExtendedString
  by_cases hlt : position + 1 < line.length
  · rw [if_pos hlt]
    by_cases hquote : charAt line position = quotesChar
    · have hcomma : quotesChar ≠ commaChar := by decide
      have hsemi : quotesChar ≠ semicolonChar := by decide
      have hclose : ∀ p, (line.drop p).headD 0 = charAt line p := by
        intro p
        rw [← Nat.add_zero p, charAt_drop, Nat.add_zero, List.headD_eq_head?_getD, List.head?_eq_getElem?,
          List.getD_eq_getElem?_getD]
      obtain ⟨qs, rest, hscan, -⟩ := @quotedLoopAccess_scanned line m line.length (position + 1) 0
        (by omega) hlt (Nat.zero_le _)
      have hcount : (quotedLoopAccess line m line.length (position + 1) 0).val.chars.length =
          (quotedLoopAccess line m line.length (position + 1) 0).val.length := by
        rw [hscan.chars, List.length_map, hscan.length, Nat.zero_add]
      rw [(getExtendedStringAccess_quoted (m := m) rfl hlt hquote).1, hquote, if_neg hcomma, if_neg hsemi,
        if_neg (not_not.2 rfl), @quotedLoop_eq line m line.length _ _ (by omega) hlt]
      cases hresult : (quotedLoopAccess line m line.length (position + 1) 0).val.result with
      | false => rfl
      | true => simp only [if_true, Option.bind_some, hclose, hcount, Bool.true_and, decide_eq_true_eq]
    · obtain ⟨-, hchars, -⟩ := getExtendedStringAccess_other (m := m) fun h => hquote h.2
      rw [hchars]
      by_cases hcomma : charAt line position = commaChar
      · simp only [getExtendedStringAccess, if_pos hlt, val_bind, readChar_val, eq_true hcomma, if_true, val_pure]
      · by_cases hsemi : charAt line position = semicolonChar
        · simp only [getExtendedStringAccess, if_pos hlt, val_bind, readChar_val, eq_false hcomma, eq_true hsemi,
            if_true, if_false, val_pure]
        · simp only [getExtendedStringAccess, if_pos hlt, val_bind, readChar_val, eq_false hcomma, eq_false hsemi,
            ne_eq, eq_false hquote, not_false_eq_true, if_true, if_false, val_pure, Bool.false_eq_true]
  · simp only [if_neg hlt, getExtendedStringAccess, val_bind, val_pure, if_true]

end Petbox.Tracker
