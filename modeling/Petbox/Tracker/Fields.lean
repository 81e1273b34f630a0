/-
What the frame parser reads: a field is the text up to the next comma or `#`,
and a parser that succeeds has read one field after the other. The fields of a
frame are those of its text, split at the commas.
-/
import Petbox.Tracker.Frame

namespace Petbox.Tracker

open CStr Mem

/-! ## Peeling parsers -/

section Peel

variable {β γ : Type}

theorem bind_some_iff {x : Parse β} {f : β → Parse γ} {p : Nat} {r : γ × Nat} :
    (x >>= f) p = some r ↔ ∃ a q, x p = some (a, q) ∧ f a q = some r := by
  change (x p).bind (fun a => f a.1 a.2) = some r ↔ _
  rw [Option.bind_eq_some_iff]
  exact ⟨fun ⟨a, h1, h2⟩ => ⟨a.1, a.2, h1, h2⟩, fun ⟨a, q, h1, h2⟩ => ⟨(a, q), h1, h2⟩⟩

theorem pure_some_iff {a : β} {p : Nat} {r : β × Nat} : (pure a : Parse β) p = some r ↔ (a, p) = r := by
  change some (a, p) = some r ↔ _
  rw [Option.some.injEq]

/-- An argument is a field that passes its check. -/
theorem argField_some_iff {raw : RawFrame} {maxLen p : Nat} {check : List UInt8 → Option β} {v : β} {q : Nat} :
    argField raw maxLen check p = some (v, q) ↔
      ∃ f, getFrameField raw maxLen chrSeparator chrTail p = some (f, q) ∧ check f = some v := by
  unfold argField
  rw [Option.bind_eq_some_iff]
  constructor
  · intro h
    obtain ⟨⟨f, q'⟩, hf, hc⟩ := h
    obtain ⟨v', hv, heq⟩ := Option.map_eq_some_iff.1 hc
    obtain ⟨rfl, rfl⟩ := Prod.mk.inj heq
    exact ⟨f, hf, hv⟩
  · intro h
    obtain ⟨f, hf, hc⟩ := h
    exact ⟨(f, q), hf, by rw [hc]; rfl⟩

end Peel

/-! ## One field -/

/-- What may stand in a field. -/
def FieldText (f : List UInt8) : Prop := ∀ c ∈ f, c ≠ chrSeparator ∧ c ≠ chrTail ∧ c ≠ 0

instance (f : List UInt8) : Decidable (FieldText f) :=
  inferInstanceAs (Decidable (∀ c ∈ f, c ≠ chrSeparator ∧ c ≠ chrTail ∧ c ≠ 0))

theorem FieldText.text {f : List UInt8} (h : FieldText f) : Text f := fun c hc => (h c hc).2.2

/-- The field `f` stands at `p`, and the next one is read at `q`: behind the
comma, or at the `#` that ends the frame. -/
structure FieldAt (raw : RawFrame) (p : Nat) (f : List UInt8) (q : Nat) : Prop where
  cells : slice raw.data p f.length = f
  text : FieldText f
  inside : p + f.length ≤ max p raw.length
  stop : (p + f.length < raw.length ∧ raw.data (p + f.length) = chrSeparator ∧ q = p + f.length + 1) ∨
    (raw.data (p + f.length) = chrTail ∧ q = p + f.length)

theorem fieldLoop_spec (raw : RawFrame) (n p : Nat) :
    (fieldLoop raw chrSeparator chrTail n p).length ≤ n ∧
    slice raw.data p (fieldLoop raw chrSeparator chrTail n p).length = fieldLoop raw chrSeparator chrTail n p ∧
    FieldText (fieldLoop raw chrSeparator chrTail n p) ∧
    p + (fieldLoop raw chrSeparator chrTail n p).length ≤ max p raw.length := by
  induction n generalizing p with
  | zero => exact ⟨Nat.le_refl _, rfl, fun c hc => absurd hc List.not_mem_nil, Nat.le_max_left ..⟩
  | succ n ih =>
    unfold fieldLoop
    split
    · next hp =>
      obtain ⟨h1, h2, h3, h4⟩ := ih (p + 1)
      refine ⟨by simpa using h1, by rw [List.length_cons, slice_succ, h2], ?_, ?_⟩
      · intro c hc
        cases hc with
        | head => exact ⟨hp.2.1, hp.2.2.1, hp.2.2.2⟩
        | tail _ hc => exact h3 c hc
      · simp only [List.length_cons]
        omega
    · exact ⟨Nat.zero_le _, rfl, fun c hc => absurd hc List.not_mem_nil, Nat.le_max_left ..⟩

theorem getFrameField_some {raw : RawFrame} {maxLen p q : Nat} {f : List UInt8}
    (h : getFrameField raw maxLen chrSeparator chrTail p = some (f, q)) :
    FieldAt raw p f q ∧ (0 < maxLen → f.length ≤ maxLen) := by
  obtain ⟨hlen, hcells, htext, hin⟩ := fieldLoop_spec raw (fieldMaxLength raw maxLen p) p
  have hmax : 0 < maxLen → fieldMaxLength raw maxLen p = maxLen := fun hpos => if_neg (by omega)
  simp only [getFrameField] at h
  split at h
  · next hsep =>
    obtain ⟨rfl, rfl⟩ := Prod.mk.inj (Option.some.inj h)
    exact ⟨⟨hcells, htext, hin, .inl ⟨hsep.1, hsep.2, rfl⟩⟩, fun hpos => Nat.le_trans hlen (Nat.le_of_eq (hmax hpos))⟩
  · split at h
    · next htail =>
      obtain ⟨rfl, rfl⟩ := Prod.mk.inj (Option.some.inj h)
      exact ⟨⟨hcells, htext, hin, .inr ⟨htail, rfl⟩⟩, fun hpos => Nat.le_trans hlen (Nat.le_of_eq (hmax hpos))⟩
    · exact absurd h (by simp)

/-! ## Several fields -/

/-- The fields `fs` are read one after the other, from `p` to `q`. -/
inductive Fields (raw : RawFrame) : Nat → List (List UInt8) → Nat → Prop
  | nil (p : Nat) : Fields raw p [] p
  | cons {p q r : Nat} {f : List UInt8} {fs : List (List UInt8)} :
      FieldAt raw p f q → Fields raw q fs r → Fields raw p (f :: fs) r

theorem Fields.one {raw : RawFrame} {p q : Nat} {f : List UInt8} (h : FieldAt raw p f q) :
    Fields raw p [f] q := .cons h (.nil q)

theorem Fields.append {raw : RawFrame} {p q r : Nat} {fs gs : List (List UInt8)} (h : Fields raw p fs q)
    (h' : Fields raw q gs r) : Fields raw p (fs ++ gs) r := by
  induction h with
  | nil => exact h'
  | cons hf _ ih => exact .cons hf (ih h')

/-- The text from `p` to the `#` that ends the frame. -/
def textAt (raw : RawFrame) (p : Nat) : List UInt8 :=
  (slice raw.data p (raw.length - p)).takeWhile (· != chrTail)

/-- The fields of a text. -/
def fieldsOf (text : List UInt8) : List (List UInt8) := text.splitOnP (· == chrSeparator)

theorem fieldsOf_cons {f : List UInt8} (hf : FieldText f) (rest : List UInt8) :
    fieldsOf (f ++ chrSeparator :: rest) = f :: fieldsOf rest :=
  List.splitOnP_append_cons_of_forall_mem (fun c hc => by simpa using (hf c hc).1) _ (by simp) _

theorem fieldsOf_last {f : List UInt8} (hf : FieldText f) : fieldsOf f = [f] :=
  List.splitOnP_eq_singleton fun c hc => by simpa using (hf c hc).1

theorem takeWhile_field {f : List UInt8} (hf : FieldText f) (l : List UInt8) :
    (f ++ l).takeWhile (· != chrTail) = f ++ l.takeWhile (· != chrTail) :=
  List.takeWhile_append_of_pos fun c hc => by simpa using (hf c hc).2.1

/-- The text behind a field: what follows the comma, or nothing. -/
theorem FieldAt.text_split {raw : RawFrame} {p q : Nat} {f : List UInt8} (h : FieldAt raw p f q) :
    (q = p + f.length + 1 ∧ textAt raw p = f ++ chrSeparator :: textAt raw q) ∨
    (raw.data q = chrTail ∧ textAt raw p = f) := by
  have hin := h.inside
  rcases h.stop with ⟨hlt, hsep, hq⟩ | ⟨htail, hq⟩
  · refine .inl ⟨hq, ?_⟩
    have hlen : raw.length - p = f.length + (1 + (raw.length - q)) := by omega
    unfold textAt
    rw [hlen, slice_add, h.cells, takeWhile_field h.text, slice_add, slice_succ, slice_zero, hsep,
      List.singleton_append, List.takeWhile_cons_of_pos (by decide), hq]
  · refine .inr ⟨hq ▸ htail, ?_⟩
    have hlen : raw.length - p = f.length + (raw.length - q) ∨ f = [] := by
      cases f with
      | nil => exact .inr rfl
      | cons c f =>
        simp only [List.length_cons] at hin hq ⊢
        omega
    have hrest (n : Nat) : (slice raw.data q n).takeWhile (· != chrTail) = [] := by
      cases n with
      | zero => rfl
      | succ n => rw [slice_succ, List.takeWhile_cons_of_neg (by rw [hq, htail]; decide)]
    unfold textAt
    rcases hlen with hlen | hnil
    · rw [hlen, slice_add, h.cells, takeWhile_field h.text, ← hq, hrest, List.append_nil]
    · subst hnil
      rw [show p = q from hq.symm, hrest]

/-- **The fields that are read are the fields of the text**, in order, and
fields that are read behind the end of the text are empty. -/
theorem Fields.eq_fieldsOf {raw : RawFrame} {p q : Nat} {fs : List (List UInt8)} (h : Fields raw p fs q)
    {k : Nat} (hk : k < fs.length) : fs.getD k [] = (fieldsOf (textAt raw p)).getD k [] := by
  induction h generalizing k with
  | nil => exact absurd hk (by simp)
  | cons hf _ ih =>
    rcases hf.text_split with hs | hs
    · rw [hs.2, fieldsOf_cons hf.text]
      cases k with
      | zero => rfl
      | succ k => simpa using ih (by simpa using hk)
    · rw [hs.2, fieldsOf_last hf.text]
      cases k with
      | zero => rfl
      | succ k =>
        -- at the `#` there is no more text, and all that is read is empty
        next q _ _ _ _ =>
        have hempty : textAt raw q = [] := by
          unfold textAt
          cases raw.length - q with
          | zero => rfl
          | succ n => rw [slice_succ, List.takeWhile_cons_of_neg (by rw [hs.1]; decide)]
        rw [List.getD_cons_succ, ih (by simpa using hk), hempty]
        cases k <;> rfl

/-! ## The parsers read fields -/

section Read

variable {β γ : Type} {raw : RawFrame} {p q : Nat}

theorem argField_read {maxLen : Nat} {check : List UInt8 → Option β} {v : β}
    (h : argField raw maxLen check p = some (v, q)) :
    ∃ f, FieldAt raw p f q ∧ (0 < maxLen → f.length ≤ maxLen) ∧ check f = some v := by
  obtain ⟨f, hf, hc⟩ := argField_some_iff.1 h
  obtain ⟨hat, hlen⟩ := getFrameField_some hf
  exact ⟨f, hat, hlen, hc⟩

theorem getFrameArgReserved_read {total : Nat} {u : Unit}
    (h : getFrameArgReserved raw total p = some (u, q)) : ∃ fs, Fields raw p fs q ∧ fs.length = total := by
  induction total generalizing p with
  | zero =>
    obtain ⟨-, rfl⟩ := Prod.mk.inj (pure_some_iff.1 h)
    exact ⟨[], .nil _, rfl⟩
  | succ total ih =>
    obtain ⟨_, r, h1, h2⟩ := bind_some_iff.1 h
    obtain ⟨f, hf, -, -⟩ := argField_read h1
    obtain ⟨fs, hfs, hlen⟩ := ih h2
    exact ⟨f :: fs, .cons hf hfs, by simp [hlen]⟩

/-- A numeric argument: the current value for an empty field, and otherwise the
number that the digits of the field denote, which passed the test. -/
theorem argNumber_read {maxLen : Nat} {ofInt : Int → β} {legal : β → Bool} {store : β → γ} {current v : γ}
    (hpos : 0 < maxLen) (hmax : maxLen ≤ 9)
    (h : argNumber raw maxLen ofInt legal store current p = some (v, q)) :
    ∃ f, FieldAt raw p f q ∧ if f = [] then v = current else
      decimal f < 10 ^ maxLen ∧ legal (ofInt (decimal f : Nat)) = true ∧ v = store (ofInt (decimal f : Nat)) := by
  obtain ⟨f, hf, hlen, hc⟩ := argField_read h
  have hlen := hlen hpos
  refine ⟨f, hf, ?_⟩
  split at hc
  · next hnil =>
    rw [if_pos hnil]
    exact (Option.some.inj hc).symm
  · next hnil =>
    rw [if_neg hnil]
    unfold checkNumber at hc
    split at hc
    · next hd =>
      have hdig := ((testBuffer_iff hpos hlen).1 hd).2
      rw [atoiBuffer_digits hdig (by omega)] at hc
      split at hc
      · next hlegal =>
        refine ⟨?_, hlegal, (Option.some.inj hc).symm⟩
        exact Nat.lt_of_lt_of_le (decimal_lt hdig) (Nat.pow_le_pow_right (by omega) hlen)
      · exact absurd hc (by simp)
    · exact absurd hc (by simp)

end Read

theorem toNat_ofInt_u8 (n : Nat) : (UInt8.ofInt (n : Int)).toNat = n % 256 := by
  simp only [UInt8.ofInt, UInt8.toNat_ofNat']
  omega

theorem toNat_ofInt_u32 (n : Nat) : (UInt32.ofInt (n : Int)).toNat = n % 4294967296 := by
  simp only [UInt32.ofInt, UInt32.toNat_ofNat']
  omega

end Petbox.Tracker
