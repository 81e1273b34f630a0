/-
The three letters of a frame type are matched in four places. The table search,
its second copy and the query ignore case; `btlink_get_dnlnk_frame_type` does
not, although `at@` is as good as `AT@` in front of it.
-/
import Petbox.Tracker.Grammar
import Petbox.Tracker.Lookup

namespace Petbox.Tracker

open CStr Mem Lookup

/-! ## Letters -/

theorem toUpper_upper {u : UInt8} (hu : 0x41 ≤ u.toNat ∧ u.toNat ≤ 0x5a) : toUpper u = u ∧ isLetter u = true := by
  refine ⟨if_neg ?_, ?_⟩
  · simp only [Bool.and_eq_true, decide_eq_true_eq, UInt8.le_iff_toNat_le]
    exact fun h => absurd (Nat.le_trans h.1 hu.2) (by decide)
  · simp only [isLetter, Bool.or_eq_true, Bool.and_eq_true, decide_eq_true_eq, UInt8.le_iff_toNat_le]
    exact .inr hu

/-- Only a letter has an upper-case letter. -/
theorem isLetter_of_toUpper {c : UInt8} (h : 0x41 ≤ (toUpper c).toNat ∧ (toUpper c).toNat ≤ 0x5a) :
    isLetter c = true := by
  simp only [isLetter, Bool.or_eq_true, Bool.and_eq_true, decide_eq_true_eq, UInt8.le_iff_toNat_le]
  by_cases hlower : (0x61 ≤ c && c ≤ 0x7a) = true
  · simp only [Bool.and_eq_true, decide_eq_true_eq, UInt8.le_iff_toNat_le] at hlower
    exact .inl hlower
  · rw [toUpper, if_neg hlower] at h
    exact .inr h

/-- Against an upper-case letter, the comparison of the query is one with the
upper-case letter. -/
theorem sameIgnoreLc_upper {u c : UInt8} (hu : 0x41 ≤ u.toNat ∧ u.toNat ≤ 0x5a) (hc : isLetter c = true) :
    sameIgnoreLc u c = decide (u = toUpper c) := by
  obtain ⟨hupper, hletter⟩ := toUpper_upper hu
  rw [sameIgnoreLc, if_pos (by rw [hletter, hc]; rfl), hupper]
  rfl

/-- Upper-case letters only. -/
def UpperText (s : List UInt8) : Prop := ∀ u ∈ s, 0x41 ≤ u.toNat ∧ u.toNat ≤ 0x5a

instance (s : List UInt8) : Decidable (UpperText s) :=
  inferInstanceAs (Decidable (∀ u ∈ s, 0x41 ≤ u.toNat ∧ u.toNat ≤ 0x5a))

/-- Against a text in upper case, the comparison of the query is one with the text
in upper case. -/
theorem isSameStrIgnoreLc_upper {s l : List UInt8} (hs : UpperText s) (hl : UpperText (l.map toUpper)) :
    isSameStrIgnoreLc s l = true ↔ s = l.map toUpper := by
  unfold isSameStrIgnoreLc
  rw [Bool.and_eq_true, beq_iff_eq]
  induction s generalizing l with
  | nil =>
    cases l with
    | nil => exact iff_of_true ⟨rfl, rfl⟩ rfl
    | cons c l => exact iff_of_false (fun h => nomatch h.1) fun h => nomatch h
  | cons u s ih =>
    cases l with
    | nil => exact iff_of_false (fun h => nomatch h.1) fun h => nomatch h
    | cons c l =>
      obtain ⟨hu, hs⟩ := List.forall_mem_cons.1 hs
      rw [List.map_cons] at hl
      obtain ⟨hc, hl⟩ := List.forall_mem_cons.1 hl
      rw [List.length_cons, List.length_cons, Nat.add_right_cancel_iff, List.zip_cons_cons, List.all_cons,
        Bool.and_eq_true, sameIgnoreLc_upper hu (isLetter_of_toUpper hc), decide_eq_true_eq, List.map_cons,
        List.cons_eq_cons, ← ih hs hl]
      exact and_left_comm

theorem str_upper (type : FrameHeader) : UpperText type.str := by
  cases type <;> decide +kernel

/-! ## The spellings -/

/-- The letters of a type, in any case. -/
def Spells (type : FrameHeader) (letters : List UInt8) : Prop := letters.map toUpper = type.str

/-- The line with a prefix and letters. -/
def spelled (pre letters rest : List UInt8) : List UInt8 := pre ++ letters ++ rest

theorem Spells.length {type : FrameHeader} {letters : List UInt8} (h : Spells type letters) : letters.length = 3 := by
  rw [← List.length_map toUpper, h]
  exact (text_header type).2

/-- The query finds the type, in whatever case. -/
theorem Spells.query {type : FrameHeader} {letters : List UInt8} (h : Spells type letters) :
    findProtocolType letters = some type := by
  have hupper : UpperText (letters.map toUpper) := by
    rw [h]
    exact str_upper type
  have hcmp : ∀ t : FrameHeader, isSameStrIgnoreLc t.str letters = decide (t.str = type.str) := by
    intro t
    rw [Bool.eq_iff_iff, isSameStrIgnoreLc_upper (str_upper t) hupper, h, decide_eq_true_eq]
  simp only [findProtocolType, hcmp]
  cases type <;> rfl

/-- In upper case, the letters are those of the type. -/
theorem Spells.eq_of_str {type type' : FrameHeader} {letters : List UInt8} (h : Spells type letters)
    (hstr : letters = type'.str) : letters = type.str := by
  have hsame : type'.str.map toUpper = type'.str := by
    cases type' <;> decide
  rw [Spells, hstr, hsame] at h
  rw [hstr, h]

/-! ## The assignment -/

/-- The raw frame of a line. -/
def rawOf (line : List UInt8) (past : Nat → UInt8) : RawFrame :=
  rawDnlnkFrame (atDnlnkContent line) (atDnlnkContent line).length past

/-- The frame type of an assignment. -/
def assignType (line : List UInt8) (past : Nat → UInt8) : Option FrameHeader :=
  (getDnlnkFrameType (rawOf line past) headerChklen).map Prod.fst

/-- Two raw frames that are the same behind the prefix. -/
structure SameBehind (raw raw' : RawFrame) : Prop where
  length : raw.length = raw'.length
  data : ∀ i, headerChklen ≤ i → raw.data i = raw'.data i

namespace SameBehind

variable {raw raw' : RawFrame} (h : SameBehind raw raw')

include h

theorem slice_eq {p : Nat} (hp : headerChklen ≤ p) (n : Nat) : slice raw.data p n = slice raw'.data p n :=
  slice_congr fun i hi _ => h.data i (Nat.le_trans hp hi)

theorem field {p q : Nat} {f : List UInt8} (hp : headerChklen ≤ p) (hf : FieldAt raw p f q) :
    FieldAt raw' p f q ∧ headerChklen ≤ q := by
  have hstop := hf.stop
  have hbehind := h.data (p + f.length) (by omega)
  refine ⟨⟨?_, hf.text, ?_, ?_⟩, ?_⟩
  · rw [← h.slice_eq hp]
    exact hf.cells
  · rw [← h.length]
    exact hf.inside
  · rw [← h.length, ← hbehind]
    exact hstop
  · omega

theorem fields {p q : Nat} {fs : List (List UInt8)} (hp : headerChklen ≤ p) (hfs : Fields raw p fs q) :
    Fields raw' p fs q ∧ headerChklen ≤ q := by
  induction hfs with
  | nil p => exact ⟨.nil p, hp⟩
  | cons hf _ ih =>
    obtain ⟨hf', hq⟩ := h.field hp hf
    obtain ⟨hfs', hr⟩ := ih hq
    exact ⟨.cons hf' hfs', hr⟩

/-- The parser looks at the prefix once. -/
theorem parse {cfg : Config} {frame : ParsedFrame} (hraw : raw.length < 256)
    (hheader : slice raw'.data 0 headerChklen = dnlnkHeader ∨ slice raw'.data 0 headerChklen = dnlnkHeaderLc)
    (hparse : parseDnlnkFrame cfg raw = some frame) : parseDnlnkFrame cfg raw' = some frame := by
  obtain ⟨hpos, -, type, hstr, fs, q, r, hfs, hlang, hsn, htext⟩ := (parseDnlnkFrame_iff hraw).1 hparse
  obtain ⟨hfs', hq⟩ := h.fields (by decide) hfs
  obtain ⟨hsn', hr⟩ := h.field hq hsn.field
  rw [h.length] at hraw hpos
  refine (parseDnlnkFrame_iff hraw).2
    ⟨hpos, hheader, type, ?_, fs, q, r, hfs', hlang, ⟨hsn', hsn.fits, hsn.digits, ?_⟩, ?_⟩
  · rw [← h.slice_eq (Nat.le_refl 3)]
    exact hstr
  · rw [← h.data r hr]
    exact hsn.tail
  · rw [htext, paraText, paraText, h.slice_eq (by decide)]

end SameBehind

/-- A prefix that the parser takes. -/
def IsPrefix (pre : List UInt8) : Prop := pre = dnlnkHeader ∨ pre = dnlnkHeaderLc

theorem IsPrefix.text {pre : List UInt8} (h : IsPrefix pre) : Text pre ∧ pre.length = headerChklen := by
  cases h with
  | inl h => exact h ▸ ⟨by decide, rfl⟩
  | inr h => exact h ▸ ⟨by decide, rfl⟩

theorem Spells.text {type : FrameHeader} {letters : List UInt8} (h : Spells type letters) : Text letters := by
  intro c hc hzero
  have hupper := str_upper type (toUpper c) (h ▸ List.mem_map_of_mem hc)
  rw [hzero] at hupper
  exact absurd hupper.1 (by decide)

/-- What is left of a line behind the letters. -/
def contentRest (rest : List UInt8) : List UInt8 := rest.take (min rest.length (maxDnlnkFrameSize + 1 - 6))

section Spelled

variable {type : FrameHeader} {pre letters rest : List UInt8} {past : Nat → UInt8}

theorem atDnlnkContent_spelled (hpre : IsPrefix pre) (hletters : Spells type letters) :
    atDnlnkContent (spelled pre letters rest) = spelled pre letters (contentRest rest) := by
  have hlen : (pre ++ letters).length = 6 := by
    rw [List.length_append, hpre.text.2, hletters.length]
    rfl
  rw [atDnlnkContent, spelled, spelled, List.length_append, hlen,
    show min (6 + rest.length) (maxDnlnkFrameSize + 1) =
      (pre ++ letters).length + min rest.length (maxDnlnkFrameSize + 1 - 6) by
      rw [hlen]; unfold maxDnlnkFrameSize; omega, List.take_length_add_append]
  rfl

/-- The characters of the raw frame. -/
theorem rawOf_data (hpre : IsPrefix pre) (hletters : Spells type letters) (i : Nat) :
    (rawOf (spelled pre letters rest) past).data i =
      if i < maxDnlnkFrameSize then (pre ++ letters ++ cstr (contentRest rest)).getD i 0 else past i := by
  have htext : Text (pre ++ letters) := by
    intro c hc
    cases List.mem_append.1 hc with
    | inl hc => exact hpre.text.1 c hc
    | inr hc => exact hletters.text c hc
  rw [rawOf, atDnlnkContent_spelled hpre hletters]
  simp only [rawDnlnkFrame, List.take_length, spelled, cstr_append htext]

/-- The prefix and the letters of the raw frame. -/
theorem rawOf_header (hpre : IsPrefix pre) (hletters : Spells type letters) :
    slice (rawOf (spelled pre letters rest) past).data 0 headerChklen = pre ∧
      slice (rawOf (spelled pre letters rest) past).data headerChklen lenHeader = letters := by
  have hprelen : pre.length = headerChklen := hpre.text.2
  have hlen : letters.length = lenHeader := hletters.length
  have hcells (i : Nat) (hi : i < headerChklen + lenHeader) : (rawOf (spelled pre letters rest) past).data i =
      (pre ++ letters ++ cstr (contentRest rest)).getD i 0 := by
    rw [rawOf_data hpre hletters]
    exact if_pos (Nat.lt_trans hi (by decide))
  have hfits : headerChklen + lenHeader ≤ (pre ++ letters ++ cstr (contentRest rest)).length := by
    simp only [List.length_append]
    omega
  constructor
  · rw [slice_congr fun i _ hi => hcells i (by omega), slice_getD (by omega)]
    simp [← hprelen]
  · rw [slice_congr fun i _ hi => hcells i hi, slice_getD hfits]
    simp [← hprelen, ← hlen]

/-- The type of an assignment: the letters have to be those of the type. -/
theorem assignType_eq (hpre : IsPrefix pre) (hletters : Spells type letters) :
    assignType (spelled pre letters rest) past = if letters = type.str then some type else none := by
  obtain ⟨-, hslice⟩ := @rawOf_header type pre letters rest past hpre hletters
  unfold assignType
  by_cases heq : letters = type.str
  · rw [if_pos heq, getDnlnkFrameType_iff.2 ⟨hslice.trans heq, rfl⟩]
    rfl
  · rw [if_neg heq, Option.map_eq_none_iff, Option.eq_none_iff_forall_ne_some]
    intro r hr
    exact heq (hletters.eq_of_str (hslice.symm.trans (getDnlnkFrameType_iff.1 hr).1))

/-- Another prefix makes no difference behind it. -/
theorem sameBehind_spelled {pre' : List UInt8} (hpre : IsPrefix pre) (hpre' : IsPrefix pre')
    (hletters : Spells type letters) :
    SameBehind (rawOf (spelled pre letters rest) past) (rawOf (spelled pre' letters rest) past) where
  length := by
    rw [rawOf, rawOf, atDnlnkContent_spelled hpre hletters, atDnlnkContent_spelled hpre' hletters]
    simp only [rawDnlnkFrame, spelled, List.length_append, hpre.text.2, hpre'.text.2]
  data i hi := by
    have hlen := hpre.text.2
    have hlen' := hpre'.text.2
    rw [rawOf_data hpre hletters, rawOf_data hpre' hletters, List.append_assoc, List.append_assoc,
      List.getD_eq_getElem?_getD, List.getD_eq_getElem?_getD, @List.getElem?_append_right _ pre _ i (by omega),
      @List.getElem?_append_right _ pre' _ i (by omega), hlen, hlen']

end Spelled

/-! ## The agreement -/

section Agreement

variable {τ : Type} (os : OsTimer τ) (t : Device τ) (past : Nat → UInt8)

/-- `btlink_check_and_exec_protocol` with what is copied of a line. -/
def assignLine (line : List UInt8) : Bool × Device τ :=
  checkAndExecProtocol os t (atDnlnkContent line) (atDnlnkContent line).length past

/-- The table has the name, the assignment finds the type that the query finds,
and a frame that is accepted in upper case is accepted in this spelling, with
the same effect. -/
structure CaseAgrees (type : FrameHeader) (pre letters rest : List UInt8) : Prop where
  accepted : rmmiIsBtlinkCmd (charAt (spelled pre letters rest)) = true
  sameType : assignType (spelled pre letters rest) past = findProtocolType letters
  effect : (assignLine os t past (spelled dnlnkHeader type.str rest)).1 = true →
    assignLine os t past (spelled pre letters rest) = assignLine os t past (spelled dnlnkHeader type.str rest)

variable {os t past} {type : FrameHeader} {pre letters rest : List UInt8}

/-- The table search takes every spelling. -/
theorem rmmiIsBtlinkCmd_spelled (hpre : IsPrefix pre) (hletters : Spells type letters) :
    rmmiIsBtlinkCmd (charAt (spelled pre letters rest)) = true := by
  have hat : charAt (spelled pre letters rest) 2 = 0x40 := by
    cases hpre with
    | inl h => exact h ▸ rfl
    | inr h => exact h ▸ rfl
  have hbehind : ∀ k < 3, charAt (spelled pre letters rest) (3 + k) = letters.getD k 0 := by
    intro k hk
    have hlen : pre.length = 3 := hpre.text.2
    rw [charAt, spelled, List.append_assoc, List.getD_eq_getElem?_getD, ← hlen,
      List.getElem?_append_right (Nat.le_add_right _ _), Nat.add_sub_cancel_left,
      List.getElem?_append_left (by rw [hletters.length]; exact hk), List.getD_eq_getElem?_getD]
  have hletter : ∀ k < 3, toUpper (type.str.getD k 0) = toUpper (letters.getD k 0) := by
    intro k hk
    have hupper : type.str.map toUpper = type.str := by
      cases type <;> decide
    have hmap : ∀ l : List UInt8, toUpper (l.getD k 0) = (l.map toUpper).getD k 0 := by
      intro l
      rw [List.getD_eq_getElem?_getD, List.getD_eq_getElem?_getD, List.getElem?_map]
      cases l[k]? with
      | none => rfl
      | some c => rfl
    rw [hmap, hmap, hupper, hletters]
  refine rmmiIsBtlinkCmd_iff.2 ⟨(0x40 :: type.str, .rmmiProtocolCmdEntry), ?_, fun k hk => decide_eq_true ?_⟩
  · cases type <;> decide
  · cases k with
    | zero => rw [hat]; rfl
    | succ k =>
      have hk3 : k < 3 := by
        have hsize : k + 1 < type.str.length + 1 := hk
        rw [(text_header type).2] at hsize
        exact Nat.lt_of_succ_lt_succ hsize
      rw [List.getD_cons_succ, hletter k hk3, ← hbehind k hk3, show k + 1 + 2 = 3 + k by omega]

/-- The effect in upper case, with either prefix. -/
theorem assignLine_prefix (hpre : IsPrefix pre) (hletters : Spells type letters)
    (h : (assignLine os t past (spelled dnlnkHeader letters rest)).1 = true) :
    assignLine os t past (spelled pre letters rest) = assignLine os t past (spelled dnlnkHeader letters rest) := by
  have hraw : (rawOf (spelled dnlnkHeader letters rest) past).length < 256 := Nat.mod_lt _ (by decide)
  obtain ⟨frame, hparse, -⟩ := checkAndExecProtocol_true os h
  have hheader := (@rawOf_header type pre letters rest past hpre hletters).1
  have hparse' := (sameBehind_spelled (.inl rfl) hpre hletters).parse hraw
    (by rw [hheader]; exact hpre) hparse
  unfold assignLine checkAndExecProtocol
  rw [show rawDnlnkFrame (atDnlnkContent (spelled pre letters rest)) _ past = rawOf _ past from rfl, hparse',
    show rawDnlnkFrame (atDnlnkContent (spelled dnlnkHeader letters rest)) _ past = rawOf _ past from rfl]
  exact (show _ = some frame from hparse) ▸ rfl

/-- **The letters are matched alike exactly in upper case**, whatever the case of
the prefix. -/
theorem caseAgrees_iff (hpre : IsPrefix pre) (hletters : Spells type letters) :
    CaseAgrees os t past type pre letters rest ↔ letters = type.str := by
  constructor
  · intro h
    have htype := h.sameType
    rw [assignType_eq hpre hletters, hletters.query] at htype
    by_contra hne
    rw [if_neg hne] at htype
    exact nomatch htype
  · intro heq
    refine ⟨rmmiIsBtlinkCmd_spelled hpre hletters, ?_, fun h => ?_⟩
    · rw [assignType_eq hpre hletters, if_pos heq, hletters.query]
    · subst heq
      exact assignLine_prefix hpre hletters h

/-- In any other case the frame is refused, and does nothing. -/
theorem assignLine_refused (hpre : IsPrefix pre) (hletters : Spells type letters) (hne : letters ≠ type.str) :
    assignLine os t past (spelled pre letters rest) = (false, t) := by
  have hraw : (rawOf (spelled pre letters rest) past).length < 256 := Nat.mod_lt _ (by decide)
  have hslice := (@rawOf_header type pre letters rest past hpre hletters).2
  have hparse : parseDnlnkFrame t.config (rawOf (spelled pre letters rest) past) = none := by
    refine Option.eq_none_iff_forall_ne_some.2 fun frame hframe => ?_
    obtain ⟨-, -, type', hstr, -⟩ := (parseDnlnkFrame_iff hraw).1 hframe
    exact hne (hletters.eq_of_str (hslice.symm.trans hstr))
  unfold assignLine checkAndExecProtocol
  rw [show rawDnlnkFrame (atDnlnkContent (spelled pre letters rest)) _ past = rawOf _ past from rfl, hparse]

end Agreement

theorem caseAgrees_iff_rth :
    CaseAgrees plainTimer (powerOn plainTimer fun _ => none) (fun _ => 0) .rth (ascii "at@") (ascii "RTH")
        (ascii "=btlink,1,,,,,0001#") ↔ ascii "RTH" = FrameHeader.rth.str :=
  caseAgrees_iff (.inr rfl) rfl

/-- `at@rth` is a command, and its query one for the type, but its assignment has
no type. -/
theorem rth_lower_case :
    ¬ CaseAgrees plainTimer (powerOn plainTimer fun _ => none) (fun _ => 0) .rth (ascii "at@") (ascii "rth")
      (ascii "=btlink,1,,,,,0001#") := by
  intro h
  exact absurd h.sameType (by decide +kernel)

end Petbox.Tracker
