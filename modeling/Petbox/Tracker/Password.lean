/-
Who may change and read the tracker's configuration: every change needs a
frame whose first field is a password, and every printed section needs a
quoted password.
-/
import Petbox.Tracker.Command
import Petbox.Tracker.Fields

namespace Petbox.Tracker

open CStr Mem

/-- The two strings that open the tracker: its own password and the super password. -/
def Opens (cfg : Config) (password : List UInt8) : Prop :=
  password = cfg.scs.devPassword.str ∨ password = superPassword

theorem passwordMatch_iff {cfg : Config} {f : List UInt8} (hf : f.length ≤ lenScsPassword) :
    passwordMatch cfg.scs.devPassword f = true ↔ Opens cfg (cstr f) := by
  have hsize := cfg.scs.devPassword.size
  have hsuper : cstr (superPassword.take lenScsPassword) = superPassword := by decide
  unfold passwordMatch Opens CharArray.str
  rw [Bool.or_eq_true, strncmpEq_iff, strncmpEq_iff, List.take_of_length_le (Nat.le_of_eq hsize),
    List.take_of_length_le hf, hsuper, eq_comm, eq_comm (a := superPassword)]

/-! ## The frame -/

section Frame

variable {cfg : Config} {raw : RawFrame}

theorem text_header (type : FrameHeader) : Text type.str ∧ type.str.length = lenHeader := by
  cases type <;> exact ⟨by decide, by decide⟩

theorem getDnlnkFrameType_some {p q : Nat} {type : FrameHeader}
    (h : getDnlnkFrameType raw p = some (type, q)) :
    slice raw.data p lenHeader = type.str ∧ q = p + lenHeader := by
  unfold getDnlnkFrameType at h
  obtain ⟨t, ht, heq⟩ := Option.map_eq_some_iff.1 h
  obtain ⟨rfl, rfl⟩ := Prod.mk.inj heq
  have hcmp := List.find?_some ht
  obtain ⟨htext, hlen⟩ := text_header t
  rw [strncmpEq_iff, eq_comm, ← strncmpEq_iff] at hcmp
  exact ⟨eq_of_strncmpEq hcmp (length_slice ..) htext hlen, rfl⟩

/-- What a parsed frame consists of. -/
theorem parseDnlnkFrame_some {frame : ParsedFrame} (h : parseDnlnkFrame cfg raw = some frame) :
    (slice raw.data 0 headerChklen = dnlnkHeader ∨ slice raw.data 0 headerChklen = dnlnkHeaderLc) ∧
    ∃ type : FrameHeader, slice raw.data 3 lenHeader = type.str ∧
      ∃ q r, getDnlnkFrameArg cfg raw type 7 = some ((frame.password, frame.arg), q) ∧
        getDnlnkFrameSn raw q = some (frame.serialNumber, r) ∧ raw.data r = chrTail := by
  unfold parseDnlnkFrame at h
  split at h
  · next hhead =>
    refine ⟨hhead.2.imp (fun hh => eq_of_strncmpEq hh (length_slice ..) (by decide) rfl)
      fun hh => eq_of_strncmpEq hh (length_slice ..) (by decide) rfl, ?_⟩
    obtain ⟨⟨frame', r⟩, hbody, rfl⟩ := Option.map_eq_some_iff.1 h
    obtain ⟨type, p1, htype, hbody⟩ := bind_some_iff.1 hbody
    obtain ⟨hstr, rfl⟩ := getDnlnkFrameType_some htype
    obtain ⟨u, p2, hskip, hbody⟩ := bind_some_iff.1 hbody
    obtain ⟨-, rfl⟩ := Prod.mk.inj (Option.some.inj hskip)
    obtain ⟨arg, q, harg, hbody⟩ := bind_some_iff.1 hbody
    obtain ⟨sn, p3, hsn, hbody⟩ := bind_some_iff.1 hbody
    obtain ⟨v, p4, htail, hbody⟩ := bind_some_iff.1 hbody
    obtain ⟨rfl, rfl⟩ := Prod.mk.inj (pure_some_iff.1 hbody)
    refine ⟨type, hstr, q, p3, harg, hsn, ?_⟩
    unfold verifyDnlnkFrameTail at htail
    split at htail
    · next ht => exact ht
    · exact absurd htail (by simp)
  · exact absurd h (by simp)

theorem password_field {p q : Nat} {password : List UInt8}
    (h : argField raw lenScsPassword (fun field =>
      if passwordMatch cfg.scs.devPassword field then some field else none) p = some (password, q)) :
    FieldAt raw p password q ∧ password.length ≤ lenScsPassword ∧ Opens cfg password := by
  obtain ⟨f, hf, hlen, hc⟩ := argField_read h
  have hlen := hlen (by decide)
  split at hc
  · next hm =>
    have hopen := (passwordMatch_iff hlen).1 hm
    rw [cstr_text hf.text.text] at hopen
    exact Option.some.inj hc ▸ ⟨hf, hlen, hopen⟩
  · exact absurd hc (by simp)

/-- Whatever the type, the first field behind the `=` is the password. -/
theorem getDnlnkFrameArg_password {type : FrameHeader} {p q : Nat} {r : List UInt8 × DnlnkArg}
    (h : getDnlnkFrameArg cfg raw type p = some (r, q)) :
    ∃ q', FieldAt raw p r.1 q' ∧ r.1.length ≤ lenScsPassword ∧ Opens cfg r.1 := by
  cases type with
  | scs =>
    -- `AT@SCS` checks it in its own argument parser
    obtain ⟨a, q1, ha, hr⟩ := bind_some_iff.1 h
    obtain ⟨password, q2, hp, ha⟩ := bind_some_iff.1 ha
    obtain ⟨dev, q3, -, ha⟩ := bind_some_iff.1 ha
    obtain ⟨mask, q4, -, ha⟩ := bind_some_iff.1 ha
    obtain ⟨u, q5, -, ha⟩ := bind_some_iff.1 ha
    obtain ⟨rfl, rfl⟩ := Prod.mk.inj (pure_some_iff.1 ha)
    obtain ⟨rfl, rfl⟩ := Prod.mk.inj (pure_some_iff.1 hr)
    exact ⟨q2, password_field hp⟩
  | ips | apn | lss | rth =>
    obtain ⟨password, q1, hp, hr⟩ := bind_some_iff.1 h
    obtain ⟨arg, q2, -, hr⟩ := bind_some_iff.1 hr
    obtain ⟨rfl, rfl⟩ := Prod.mk.inj (pure_some_iff.1 hr)
    exact ⟨q1, password_field hp⟩

end Frame

/-! ## The line -/

/-- An assign frame and its first field: a header, a type, `=`, the field, and
the comma or `#` that ends it. -/
def AssignFrame (line field : List UInt8) : Prop :=
  ∃ header type c rest, (header = dnlnkHeader ∨ header = dnlnkHeaderLc) ∧ FieldText field ∧
    (c = chrSeparator ∨ c = chrTail) ∧
    line = header ++ (FrameHeader.str type ++ equalsChar :: (field ++ c :: rest))

section Line

variable {line : List UInt8} (past : Nat → UInt8)

theorem rawDnlnkFrame_data (hline : Text line) {i : Nat} (hi : i < maxDnlnkFrameSize) :
    (rawDnlnkFrame (atDnlnkContent line) (atDnlnkContent line).length past).data i = line.getD i 0 := by
  have hget : (atDnlnkContent line).getD i 0 = line.getD i 0 := by
    unfold atDnlnkContent
    rw [List.getD_eq_getElem?_getD, List.getD_eq_getElem?_getD]
    by_cases hlen : i < line.length
    · rw [List.getElem?_take_of_lt (by omega)]
    · rw [List.getElem?_take_eq_none (by omega), List.getElem?_eq_none (by omega)]
  simp only [rawDnlnkFrame, if_pos hi, List.take_length]
  rw [cstr_text (show Text (atDnlnkContent line) from hline.take _), hget]

theorem rawDnlnkFrame_cells (hline : Text line) {n : Nat} (hn : n ≤ maxDnlnkFrameSize) (hn' : n ≤ line.length) :
    slice (rawDnlnkFrame (atDnlnkContent line) (atDnlnkContent line).length past).data 0 n = line.take n := by
  have hcongr : slice (rawDnlnkFrame (atDnlnkContent line) (atDnlnkContent line).length past).data 0 n
      = slice (fun i => line.getD i 0) 0 n :=
    slice_congr fun i _ hi => rawDnlnkFrame_data past hline (by omega)
  rw [hcongr, slice_getD (by omega), List.drop_zero]

theorem lt_length_of_getD_ne {i : Nat} (h : line.getD i 0 ≠ 0) : i < line.length := by
  rcases Nat.lt_or_ge i line.length with hlt | hge
  · exact hlt
  · exact absurd (by simp [hge]) h

/-- A frame that is parsed was an assign frame, and its password opens the tracker. -/
theorem assignFrame_of_parse {cfg : Config} {frame : ParsedFrame} (hline : Text line)
    (heq : charAt line 6 = equalsChar)
    (h : parseDnlnkFrame cfg (rawDnlnkFrame (atDnlnkContent line) (atDnlnkContent line).length past)
      = some frame) : AssignFrame line frame.password ∧ Opens cfg frame.password := by
  obtain ⟨hhead, type, htype, q, r, harg, -, -⟩ := parseDnlnkFrame_some h
  obtain ⟨q', hfield, hlen, hopen⟩ := getDnlnkFrameArg_password harg
  refine ⟨?_, hopen⟩
  have hpw : frame.password.length ≤ 20 := hlen
  -- the field ends at a character of the line
  have hstop : line.getD (7 + frame.password.length) 0 = chrSeparator ∨
      line.getD (7 + frame.password.length) 0 = chrTail := by
    rw [← rawDnlnkFrame_data past hline (by unfold maxDnlnkFrameSize; omega)]
    exact hfield.stop.imp (fun hs => hs.2.1) fun hs => hs.1
  have hne : line.getD (7 + frame.password.length) 0 ≠ 0 := by
    rcases hstop with hs | hs
    · rw [hs]; decide
    · rw [hs]; decide
  have hlt := lt_length_of_getD_ne hne
  have hcells := rawDnlnkFrame_cells past hline
    (show 3 + (3 + (1 + (frame.password.length + 1))) ≤ maxDnlnkFrameSize by unfold maxDnlnkFrameSize; omega)
    (by omega)
  have h6 : slice (rawDnlnkFrame (atDnlnkContent line) (atDnlnkContent line).length past).data 6 1
      = [equalsChar] := by
    rw [slice_succ, slice_zero, rawDnlnkFrame_data past hline (by decide)]
    exact congrArg (fun c => [c]) heq
  have h7 : slice (rawDnlnkFrame (atDnlnkContent line) (atDnlnkContent line).length past).data 7
      frame.password.length = frame.password := hfield.cells
  rw [slice_add _ 0 3, slice_add _ _ 3, slice_add _ _ 1] at hcells
  simp only [Nat.zero_add, Nat.reduceAdd] at hcells
  rw [show slice _ 3 3 = _ from htype, h6, slice_snoc _ 7, h7,
    rawDnlnkFrame_data past hline (by unfold maxDnlnkFrameSize; omega)] at hcells
  refine ⟨_, type, line.getD (7 + frame.password.length) 0,
    line.drop (3 + (3 + (1 + (frame.password.length + 1)))), hhead, hfield.text, hstop, ?_⟩
  conv => lhs; rw [← List.take_append_drop (3 + (3 + (1 + (frame.password.length + 1)))) line, ← hcells]
  simp only [List.append_assoc, List.cons_append, List.nil_append]
  rfl

end Line

/-! ## The quoted string of a query -/

/-- What stands between the quotes, and the string it stands for: a backslash
and two hexadecimal digits are one character. -/
inductive Unquotes : List UInt8 → List UInt8 → Prop
  | nil : Unquotes [] []
  | char {c : UInt8} {q s : List UInt8} : c ≠ quotesChar → c ≠ backslashChar → Unquotes q s →
      Unquotes (c :: q) (c :: s)
  | hex {d e x y : UInt8} {q s : List UInt8} : getHexaValue d = some x → getHexaValue e = some y →
      Unquotes q s → Unquotes (backslashChar :: d :: e :: q) ((16 * x + y) :: s)

theorem quotedLoop_some {maxLen n : Nat} {l s rest : List UInt8}
    (h : quotedLoop maxLen l n = some (s, rest)) : ∃ q, l = q ++ rest ∧ Unquotes q s := by
  fun_induction quotedLoop maxLen l n generalizing s rest with
  | case1 d n e x y more first second he hd hc ih =>
    obtain ⟨⟨s', rest'⟩, hr, heq⟩ := Option.map_eq_some_iff.1 h
    obtain ⟨rfl, rfl⟩ := Prod.mk.inj heq
    obtain ⟨q, hq, hu⟩ := ih hr
    exact ⟨backslashChar :: d :: e :: q, by rw [hq]; rfl, .hex hd he hu⟩
  | case2 => exact absurd h (by simp)
  | case3 => exact absurd h (by simp)
  | case4 c d r n hc hb ih =>
    obtain ⟨⟨s', rest'⟩, hr, heq⟩ := Option.map_eq_some_iff.1 h
    obtain ⟨rfl, rfl⟩ := Prod.mk.inj heq
    obtain ⟨q, hq, hu⟩ := ih hr
    exact ⟨c :: q, by rw [hq]; rfl, .char hc.1 hb hu⟩
  | case5 c d r n hc =>
    obtain ⟨rfl, rfl⟩ := Prod.mk.inj (Option.some.inj h)
    exact ⟨[], rfl, .nil⟩
  | case6 r n hr =>
    obtain ⟨rfl, rfl⟩ := Prod.mk.inj (Option.some.inj h)
    exact ⟨[], rfl, .nil⟩

theorem getExtendedString_some {line s : List UInt8} {p maxLen : Nat}
    (h : getExtendedString line p maxLen = some s) (hs : 0 < s.length) :
    p + 1 < line.length ∧ charAt line p = quotesChar ∧ s.length ≤ maxLen ∧
      ∃ q rest, line.drop (p + 1) = q ++ quotesChar :: rest ∧ Unquotes q s := by
  have hnil : some [] ≠ some s := by
    intro heq
    rw [← Option.some.inj heq] at hs
    exact absurd hs (by simp)
  unfold getExtendedString at h
  split at h
  · next hp =>
    split at h
    · exact absurd h hnil
    · split at h
      · exact absurd h hnil
      · split at h
        · exact absurd h (by simp)
        · next hquote =>
          obtain ⟨⟨s', rest⟩, hloop, h⟩ := Option.bind_eq_some_iff.1 h
          split at h
          · next hend =>
            obtain rfl := Option.some.inj h
            obtain ⟨q, hq, hu⟩ := quotedLoop_some hloop
            cases rest with
            | nil => exact absurd (show (0 : UInt8) = quotesChar from hend.1) (by decide)
            | cons c rest =>
              have hc : c = quotesChar := hend.1
              exact ⟨hp, not_not.1 hquote, hend.2, q, rest, hc ▸ hq, hu⟩
          · exact absurd h (by simp)
  · exact absurd h hnil

/-- A query `AT@XXX?\"...\"` with this between the quotes. -/
def QueryLine (line quoted : List UInt8) : Prop :=
  ∃ command rest, command.length = 6 ∧
    line = command ++ queryChar :: quotesChar :: (quoted ++ quotesChar :: rest)

theorem getElem_eq_charAt {l : List UInt8} {i : Nat} (hi : i < l.length) : l[i] = charAt l i := by
  simp [charAt, hi]

theorem queryLine_of_string {line s : List UInt8} (hq : charAt line 6 = queryChar)
    (h : getExtendedString line 7 lenPassword = some s) (hs : 0 < s.length) :
    ∃ quoted, QueryLine line quoted ∧ Unquotes quoted s ∧ s.length ≤ lenPassword := by
  obtain ⟨hlt, hquote, hlen, quoted, rest, hdrop, hu⟩ := getExtendedString_some h hs
  refine ⟨quoted, ⟨line.take 6, rest, by simp; omega, ?_⟩, hu, hlen⟩
  conv => lhs; rw [← List.take_append_drop 6 line]
  rw [List.drop_eq_getElem_cons (by omega), List.drop_eq_getElem_cons (by omega), hdrop,
    getElem_eq_charAt, getElem_eq_charAt, hq, hquote]

/-! ## The tracker -/

section Main

variable {τ : Type} (os : OsTimer τ)

/-- What a line may change: the configuration, the NV items and the minute timer. -/
def SameSettings (t t' : Device τ) : Prop :=
  t'.config = t.config ∧ t'.nv = t.nv ∧ t'.minTimer = t.minTimer

/-- **No change and no print without a password.** In every state and for every
line: the settings change only if the line is an assign frame whose first field
is the device password stored before it or the super password; they do not
change when `btlink_check_and_exec_protocol` returns false for the line; and a
section is printed only for a query whose quoted string, read as a C string, is
one of the two. -/
theorem settings_need_password (t : Device τ) (cmd : Nat → UInt8) (cmdLen : Nat) (past : Nat → UInt8) :
    let line := commandLine cmd cmdLen
    let r := btlinkCmdParse os t cmd cmdLen past
    (¬ SameSettings t r.2.1 → ∃ field, AssignFrame line field ∧ Opens t.config field) ∧
    ((checkAndExecProtocol os t (atDnlnkContent line) (atDnlnkContent line).length past).1 = false →
      SameSettings t r.2.1) ∧
    ∀ type cfg, .protocolParam type cfg ∈ r.2.2 →
      cfg = t.config ∧ ∃ quoted password, QueryLine line quoted ∧ Unquotes quoted password ∧
        password.length ≤ lenPassword ∧ Opens t.config (cstr password) := by
  refine ⟨?_, ?_, ?_⟩
  · intro hchange
    rcases btlinkCmdParse_state os t cmd cmdLen past with ⟨value, hv⟩ | ⟨-, heq, hstate⟩
    · exact absurd (by rw [hv]; exact ⟨rfl, rfl, rfl⟩) hchange
    · rw [hstate] at hchange
      unfold checkAndExecProtocol at hchange
      split at hchange
      · next frame hparse => exact ⟨frame.password, assignFrame_of_parse past (text_cstr _) heq hparse⟩
      · exact absurd ⟨rfl, rfl, rfl⟩ hchange
  · intro hfalse
    rcases btlinkCmdParse_state os t cmd cmdLen past with ⟨value, hv⟩ | hr
    · rw [hv]
      exact ⟨rfl, rfl, rfl⟩
    · rw [hr.2.2, checkAndExecProtocol_false os hfalse]
      exact ⟨rfl, rfl, rfl⟩
  · intro type cfg hprint
    obtain ⟨hcfg, hq, password, hstr, hpos, hm⟩ := btlinkCmdParse_param os hprint
    obtain ⟨quoted, hline, hu, hlen⟩ := queryLine_of_string hq hstr hpos
    exact ⟨hcfg, quoted, password, hline, hu, hlen, (passwordMatch_iff hlen).1 hm⟩

end Main

end Petbox.Tracker
