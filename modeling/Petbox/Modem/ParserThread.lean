/-
The parser thread of the AT client over the SIM7070 driver, one character at a time:
`client_parser` reads lines and hands the URCs to the functions of the driver, and
`urc_recv_func` reads the bytes of a packet itself (`at_client_obj_recv`).

What the modem sends are items: text, notices that a connection is closed, and
packets. From any stream of items the thread takes the packets and the notices.
-/
import Mathlib.Data.List.Find
import Petbox.Lib.Print
import Petbox.Lib.Run
import Petbox.Modem.Domain
import Petbox.Modem.ReadLine
import Petbox.Modem.Send

namespace Petbox.Modem

open CStr Cut Machine Print

/-! ## The code -/

def sendOkFlag : UInt32 := 2
def sendFailFlag : UInt32 := 4

/-- What the parser thread hands on: a line that is no URC, a packet of a connection, a
notice that one is closed, a flag, a GNSS report, and that the ring is to be flushed. -/
inductive ThreadEvent
  | line (buffer : List UInt8)
  | recv (fd : Int) (buf : List UInt8)
  | closed (fd : Int)
  | setFlag (flag : UInt32)
  | gnss (data : List UInt8)
  | flush
  deriving DecidableEq, Repr

/-- What `sscanf(data, "+CAURC: \"recv\",%d,%d,", &fd, &bfsz)` stores. -/
def scanRecv (data : List UInt8) : Option Int × Option Int :=
  match scanLiteral (ascii "+CAURC:") data with
  | none => (none, none)
  | some s =>
    match (scanLiteral (ascii "\"recv\",") (s.dropWhile isSpace)).bind fun s => scanInt (s.dropWhile isSpace) with
    | none => (none, none)
    | some (fd, s) =>
      match (scanLiteral (ascii ",") s).bind fun s => scanInt (s.dropWhile isSpace) with
      | none => (some fd, none)
      | some (bfsz, _) => (some fd, some bfsz)

/-- `sscanf(data, "+CACLOSE: %d", &fd)`, where `fd` is 0 before. -/
def scanClose (data : List UInt8) : Int :=
  match (scanLiteral (ascii "+CACLOSE:") data).bind fun s => scanInt (s.dropWhile isSpace) with
  | none => 0
  | some (fd, _) => fd

/-- `urc_send_func`. -/
def urcSendFunc (data : List UInt8) : Option ThreadEvent :=
  if hasKeyword (ascii "SEND OK") data then some (.setFlag sendOkFlag)
  else if hasKeyword (ascii "SEND FAIL") data then some (.setFlag sendFailFlag)
  else none

/-- `urc_close_func`. -/
def urcCloseFunc (data : List UInt8) : Option ThreadEvent := some (.closed (scanClose data))

/-- Where the parser thread is: in `at_recv_readline`, or in `urc_recv_func`, where it
reads a packet, or, without the memory for it, drops it 8 bytes at a time. -/
inductive ThreadMode
  | readline (r : LineReader)
  | recv (fd : Int) (bfsz : Nat) (buf : List UInt8)
  | clean (bfsz tempSize got : Nat)
  deriving DecidableEq, Repr

def ThreadMode.fresh : ThreadMode := .readline .fresh

/-- `urc_recv_func` up to its first character. Where `sscanf` finds no size, it is 0. -/
def urcRecvFunc (mem : Bool) (data : List UInt8) : ThreadMode :=
  match scanRecv data with
  | (some fd, some bfsz) =>
    let bfsz := (UInt32.ofInt bfsz).toNat
    if fd < 0 ∨ bfsz = 0 then .fresh
    else if mem then .recv fd bfsz []
    else .clean bfsz 0 0
  | _ => .fresh

/-- `client_parser` with a line. -/
def clientParserLine (table : List AtUrc) (mem : Bool) (buffer : List UInt8) : Option ThreadEvent × ThreadMode :=
  if buffer = [] then (none, .fresh)
  else
    match (getUrcObj table buffer).map AtUrc.func with
    | some .urcSendFunc => (urcSendFunc (cstr buffer), .fresh)
    | some .urcCloseFunc => (urcCloseFunc (cstr buffer), .fresh)
    | some .urcRecvFunc => (none, urcRecvFunc mem (cstr buffer))
    | some .urcGnssFunc => (some (.gnss (cstr buffer)), .fresh)
    | none => (some (.line buffer), .fresh)

/-- The next eight bytes, or fewer, are dropped. -/
def cleanNext (bfsz tempSize : Nat) : ThreadMode := if tempSize + 8 < bfsz then .clean bfsz (tempSize + 8) 0 else .fresh

/-- The parser thread with what `at_client_getchar` did; `mem` is whether `HAL_Malloc`
gives memory for a packet. -/
def parserThread (table : List AtUrc) (m : ThreadMode) (mem : Bool) (g : Getchar) : Option ThreadEvent × ThreadMode :=
  match m with
  | .readline r =>
    match atRecvReadline table r g with
    | (none, r) => (none, .readline r)
    | (some (.failed flush), _) => (if flush then some .flush else none, .fresh)
    | (some (.line buffer), _) => clientParserLine table mem buffer
  | .recv fd bfsz buf =>
    match g with
    | .failed => (none, .fresh)
    | .got _ ch =>
      if (buf ++ [ch]).length < bfsz then (none, .recv fd bfsz (buf ++ [ch])) else (some (.recv fd (buf ++ [ch])), .fresh)
  | .clean bfsz tempSize got =>
    match g with
    | .failed => (none, cleanNext bfsz tempSize)
    | .got _ _ =>
      (none, if got + 1 < min 8 (bfsz - tempSize) then .clean bfsz tempSize (got + 1) else cleanNext bfsz tempSize)

/-! ## The thread at work -/

def ThreadMode.step (m : ThreadMode) (a : Bool × Getchar) : Option ThreadMode := some (parserThread urcTable m a.1 a.2).2

/-- What reaches the sockets and the ring. -/
def ThreadEvent.outside : ThreadEvent → Bool
  | .recv _ _ => true
  | .closed _ => true
  | .flush => true
  | _ => false

def ThreadMode.emits (m : ThreadMode) (a : Bool × Getchar) : List ThreadEvent :=
  (parserThread urcTable m a.1 a.2).1.toList.filter ThreadEvent.outside

/-! ## Items -/

/-- What the modem sends: text, that a connection is closed, and the bytes that came in
on one. -/
inductive Item
  | text (l : List UInt8)
  | closed (fd : Nat) (tail : List UInt8)
  | data (fd : Nat) (tail payload : List UInt8)
  deriving DecidableEq, Repr

/-- The line that an item starts with. -/
def Item.head : Item → List UInt8
  | .text l => l
  | .closed fd tail => ascii "+CACLOSE: " ++ dec fd ++ tail ++ crLf
  | .data fd tail payload => ascii "+CAURC: \"recv\"," ++ dec fd ++ ascii "," ++ dec payload.length ++ tail ++ crLf

def Item.bytes : Item → List UInt8
  | .data fd tail payload => (Item.data fd tail payload).head ++ payload
  | item => item.head

def Item.events : Item → List ThreadEvent
  | .text _ => []
  | .closed fd _ => [.closed fd]
  | .data fd _ payload => [.recv fd payload]

/-- Text in which no line is a packet or a notice. -/
def Quiet (l : List UInt8) : Prop :=
  l.length ≤ clinetBuffLen ∧ ¬ ascii "+CAURC" <:+: l ∧ ¬ ascii "+CACLOSE" <:+: l

/-- No end of a line, no prompt, and no 0. -/
def Plain (l : List UInt8) : Prop := ∀ c ∈ l, c ≠ 0x0d ∧ c ≠ 0x0a ∧ c ≠ promptSign ∧ c ≠ 0

instance (l : List UInt8) : Decidable (Plain l) :=
  List.decidableBAll (fun c => c ≠ 0x0d ∧ c ≠ 0x0a ∧ c ≠ promptSign ∧ c ≠ 0) l

/-- What may follow a number. -/
def Tail (tail : List UInt8) : Prop := Plain tail ∧ ∀ c ∈ tail.head?, isDigit c = false

/-- What the modem sends: the text ends with a newline, the numbers are those of `int`,
and the lines are not too long. -/
def Item.Ok (item : Item) : Prop :=
  item.head.length ≤ clinetBuffLen ∧
    match item with
    | .text l => Quiet l ∧ crLf <:+ l
    | .closed fd tail => fd ≤ 2147483647 ∧ Tail tail
    | .data fd tail payload => fd ≤ 2147483647 ∧ payload ≠ [] ∧ payload.length ≤ 2147483647 ∧ Tail tail

/-! ## Characters as they come in -/

/-- A character and the end sign it came under. -/
abbrev Signed := UInt8 × UInt8

def gots (cs : List Signed) : List Getchar := cs.map fun c => .got c.1 c.2
def acts (cs : List Signed) : List (Bool × Getchar) := cs.map fun c => (true, .got c.1 c.2)
def heard (cs : List Signed) : List UInt8 := cs.map Prod.snd

/-- The driver sets no other end sign than its prompt. -/
def Signs (cs : List Signed) : Prop := ∀ c ∈ cs, c.1 = 0 ∨ c.1 = promptSign

section Heard

variable {cs ds : List Signed} {c : Signed}

@[simp] theorem chars_gots (cs : List Signed) : chars (gots cs) = heard cs := by
  induction cs with
  | nil => rfl
  | cons c cs ih => exact congrArg (c.2 :: ·) ih

@[simp] theorem gots_nil : gots [] = [] := rfl
@[simp] theorem heard_nil : heard [] = [] := rfl
@[simp] theorem acts_nil : acts [] = [] := rfl
@[simp] theorem length_gots (cs : List Signed) : (gots cs).length = cs.length := List.length_map _
@[simp] theorem length_heard (cs : List Signed) : (heard cs).length = cs.length := List.length_map _
@[simp] theorem gots_append (cs ds : List Signed) : gots (cs ++ ds) = gots cs ++ gots ds := List.map_append
@[simp] theorem acts_append (cs ds : List Signed) : acts (cs ++ ds) = acts cs ++ acts ds := List.map_append
@[simp] theorem heard_append (cs ds : List Signed) : heard (cs ++ ds) = heard cs ++ heard ds := List.map_append
@[simp] theorem gots_cons (c : Signed) (cs : List Signed) : gots (c :: cs) = .got c.1 c.2 :: gots cs := rfl
@[simp] theorem acts_cons (c : Signed) (cs : List Signed) : acts (c :: cs) = (true, .got c.1 c.2) :: acts cs := rfl
@[simp] theorem heard_cons (c : Signed) (cs : List Signed) : heard (c :: cs) = c.2 :: heard cs := rfl

theorem Signs.append (h : Signs (cs ++ ds)) : Signs cs ∧ Signs ds :=
  ⟨fun c hc => h c (List.mem_append_left _ hc), fun c hc => h c (List.mem_append_right _ hc)⟩

/-- Every URC of the driver ends with a newline. -/
theorem urc_suffix {buffer : List UInt8} {urc : AtUrc} (h : getUrcObj urcTable buffer = some urc) : crLf <:+ buffer := by
  have hmem := List.mem_of_find?_eq_some h
  have hsuffix := List.find?_some h
  have hcrLf : ∀ urc ∈ urcTable, urc.cmdSuffix = crLf := by decide
  rw [hcrLf urc hmem] at hsuffix
  simp only [Bool.and_eq_true, List.isSuffixOf_iff_suffix] at hsuffix
  exact hsuffix.2

/-- Where a line ends: at a newline, and at the prompt when it is the end sign. -/
theorem lineStops_gots (hlen : cs.length < clinetBuffLen) :
    lineStops urcTable (gots (cs ++ [c])) = true ↔ crLf <:+ heard (cs ++ [c]) ∨ c.1 ≠ 0 ∧ c.2 = c.1 := by
  have htake : (heard cs ++ [c.2]).take clinetBuffLen = heard cs ++ [c.2] :=
    List.take_of_length_le (by simp; omega)
  rw [gots_append, gots_cons, gots_nil, lineStops, heard_append, heard_cons, heard_nil]
  simp only [List.getLast?_concat, chars_got, chars_gots, htake, Bool.or_eq_true, Bool.and_eq_true, bne_iff_ne, beq_iff_eq,
    List.isSuffixOf_iff_suffix]
  constructor
  · rintro ((h | h) | h)
    · exact .inl h
    · exact .inr h
    · obtain ⟨urc, hurc⟩ := Option.isSome_iff_exists.1 h
      exact .inl (urc_suffix hurc)
  · rintro (h | h)
    · exact .inl (.inl h)
    · exact .inl (.inr h)

/-- No line ends in characters without a newline and a prompt. -/
theorem open_gots (hs : Signs cs) (hlen : cs.length ≤ clinetBuffLen)
    (hplain : ∀ b ∈ heard cs, b ≠ 0x0a ∧ b ≠ promptSign) : Open (lineStops urcTable) (gots cs) := by
  induction cs using List.reverseRecOn with
  | nil => exact open_nil
  | append_singleton cs c ih =>
    obtain ⟨hnl, hprompt⟩ := hplain c.2 (by simp)
    rw [List.length_append, List.length_singleton] at hlen
    have hopen := ih hs.append.1 (by omega) fun b hb => hplain b (by simp [hb])
    rw [gots_append, gots_cons, gots_nil, open_snoc]
    refine ⟨hopen, ?_⟩
    have hstop := @lineStops_gots cs c (by omega)
    rw [gots_append, gots_cons, gots_nil] at hstop
    rw [← Bool.not_eq_true, hstop]
    rintro (⟨l, hl⟩ | ⟨hne, heq⟩)
    · have hlast := congrArg List.getLast? hl
      simp [crLf] at hlast
      exact hnl hlast.symm
    · rcases hs c (by simp) with hzero | hsign
      · exact hne hzero
      · exact hprompt (heq.trans hsign)

/-- Characters in which no line ends are held. -/
theorem emits_open (h : Open (lineStops urcTable) (gots (cs ++ ds))) :
    Emits ThreadMode.step ThreadMode.emits (.readline (.of (gots cs))) (acts ds) []
      (.readline (.of (gots (cs ++ ds)))) := by
  induction ds generalizing cs with
  | nil => simpa using Emits.nil _
  | cons d ds ih =>
    rw [List.append_cons] at h ⊢
    have hopen : Open (lineStops urcTable) (gots cs ++ [.got d.1 d.2]) := by
      rw [gots_append, gots_append] at h
      exact h.append
    obtain ⟨hcs, hstop⟩ := open_snoc.1 hopen
    have hmore := readline_more (gots cs) (.got d.1 d.2) hcs hstop
    have hstep : ThreadMode.step (.readline (.of (gots cs))) (true, .got d.1 d.2) =
        some (.readline (.of (gots (cs ++ [d])))) := by
      simp [ThreadMode.step, parserThread, hmore]
    have hemits : ThreadMode.emits (.readline (.of (gots cs))) (true, .got d.1 d.2) = [] := by
      simp [ThreadMode.emits, parserThread, hmore]
    have hrest := Emits.cons hstep (ih h)
    rwa [hemits, List.nil_append] at hrest

/-- A line ends, and is handed to the URC functions or to the parser of responses. -/
theorem parserThread_line (hopen : Open (lineStops urcTable) (gots cs))
    (hstop : lineStops urcTable (gots (cs ++ [c])) = true) (hlen : cs.length < clinetBuffLen) (mem : Bool) :
    parserThread urcTable (.readline (.of (gots cs))) mem (.got c.1 c.2) =
      clientParserLine urcTable mem (heard (cs ++ [c])) := by
  rw [gots_append, gots_cons, gots_nil] at hstop
  have hend := readline_end (gots cs) (.got c.1 c.2) hopen hstop
  have hline : readline (gots cs ++ [.got c.1 c.2]) = .line (heard (cs ++ [c])) := by
    have hshort : ¬ clinetBuffLen < cs.length + 1 := by omega
    simp [readline, hshort]
  simp only [parserThread, hend, hline]

end Heard

/-! ## The lines of notices and packets -/

section Scan

variable {rest tail : List UInt8}

theorem scanLiteral_append (literal rest : List UInt8) : scanLiteral literal (literal ++ rest) = some rest := by
  have hprefix : literal.isPrefixOf (literal ++ rest) = true := List.isPrefixOf_iff_prefix.2 (List.prefix_append _ _)
  rw [scanLiteral, if_pos hprefix, List.drop_left]

theorem takeWhile_dec (n : Nat) (hrest : ∀ c ∈ rest.head?, isDigit c = false) :
    (dec n ++ rest).takeWhile isDigit = dec n ∧ (dec n ++ rest).dropWhile isDigit = rest := by
  have hdec := isDigit_dec n
  rw [List.takeWhile_append_of_pos hdec, List.dropWhile_append_of_pos hdec]
  cases rest with
  | nil => simp
  | cons c rest => simp [hrest c rfl]

/-- The first digit is no sign and no blank. -/
theorem dec_cons (n : Nat) : ∃ d ds, dec n = d :: ds ∧ isDigit d = true := by
  cases h : dec n with
  | nil => exact absurd h (dec_ne_nil n)
  | cons d ds => exact ⟨d, ds, rfl, isDigit_dec n d (by simp [h])⟩

theorem scanSign_dec (n : Nat) (rest : List UInt8) : scanSign (dec n ++ rest) = (false, dec n ++ rest) := by
  obtain ⟨d, ds, hdec, hd⟩ := dec_cons n
  rw [hdec, List.cons_append]
  unfold scanSign
  split
  · next heq => cases heq; cases hd
  · next heq => cases heq; cases hd
  · rfl

theorem dropWhile_isSpace_dec (n : Nat) (rest : List UInt8) : (dec n ++ rest).dropWhile isSpace = dec n ++ rest := by
  obtain ⟨d, ds, hdec, hd⟩ := dec_cons n
  have hspace : isSpace d = false := by
    have hd' := isDigit_iff.1 hd
    have hblank : d ≠ 0x20 := by rintro rfl; simp at hd'
    simp [isSpace, hblank, UInt8.le_iff_toNat_le]
    omega
  rw [hdec, List.cons_append, List.dropWhile_cons, hspace]
  rfl

/-- A number is read back. -/
theorem scanInt_dec {n : Nat} (hn : n ≤ 2147483647) (hrest : ∀ c ∈ rest.head?, isDigit c = false) :
    scanInt (dec n ++ rest) = some ((n : Int), rest) := by
  obtain ⟨htake, hdrop⟩ := takeWhile_dec n hrest
  simp only [scanInt, scanSign_dec, htake, hdrop, dec_ne_nil, if_false, decimal_dec, Bool.false_eq_true]
  simp
  omega

/-- A text that is no longer than the one in front is looked for in that one. -/
theorem isPrefixOf_append {p q : List UInt8} (h : p.length ≤ q.length) (rest : List UInt8) :
    p.isPrefixOf (q ++ rest) = p.isPrefixOf q := by
  rw [Bool.eq_iff_iff, List.isPrefixOf_iff_prefix, List.isPrefixOf_iff_prefix]
  constructor
  · exact fun hp => List.prefix_of_prefix_length_le hp (List.prefix_append q rest) h
  · exact fun hp => hp.trans (List.prefix_append q rest)

theorem text_dec (n : Nat) : Text (dec n) := fun c hc => ne_of_isDigit (isDigit_dec n c hc) (by decide)

theorem Tail.text (h : Tail tail) : Text tail := fun c hc => (h.1 c hc).2.2.2

theorem text_append {a b : List UInt8} (ha : Text a) (hb : Text b) : Text (a ++ b) := by
  intro c hc
  rcases List.mem_append.1 hc with hc | hc
  · exact ha c hc
  · exact hb c hc

/-- What follows the last number of a line. -/
theorem Tail.crLf (h : Tail tail) : ∀ c ∈ (tail ++ Modem.crLf).head?, isDigit c = false := by
  cases tail with
  | nil =>
    rintro _ ⟨⟩
    rfl
  | cons c tail => simpa using h.2 c rfl

theorem scanClose_head {fd : Nat} (hfd : fd ≤ 2147483647) (h : Tail tail) :
    scanClose (cstr (Item.closed fd tail).head) = fd := by
  have htext : Text (Item.closed fd tail).head :=
    text_append (text_append (text_append (by decide) (text_dec fd)) h.text) (by decide)
  have hhead : (Item.closed fd tail).head = ascii "+CACLOSE:" ++ (0x20 :: (dec fd ++ (tail ++ crLf))) := by
    simp only [Item.head, List.append_assoc]
    rfl
  rw [cstr_text htext, scanClose, hhead, scanLiteral_append, Option.bind_some,
    List.dropWhile_cons_of_pos (by decide), dropWhile_isSpace_dec, scanInt_dec hfd h.crLf]

theorem scanRecv_head {fd : Nat} {payload : List UInt8} (hfd : fd ≤ 2147483647) (hlen : payload.length ≤ 2147483647)
    (h : Tail tail) :
    scanRecv (cstr (Item.data fd tail payload).head) = (some (fd : Int), some (payload.length : Int)) := by
  have htext : Text (Item.data fd tail payload).head :=
    text_append (text_append (text_append (text_append (text_append (by decide) (text_dec fd)) (by decide))
      (text_dec _)) h.text) (by decide)
  have hhead : (Item.data fd tail payload).head =
      ascii "+CAURC:" ++ (0x20 :: (ascii "\"recv\"," ++ (dec fd ++ (0x2c :: (dec payload.length ++ (tail ++ crLf)))))) := by
    simp only [Item.head, List.append_assoc]
    rfl
  have hblank : (0x20 :: (ascii "\"recv\"," ++ (dec fd ++ (0x2c :: (dec payload.length ++ (tail ++ crLf)))))).dropWhile
      isSpace = ascii "\"recv\"," ++ (dec fd ++ (0x2c :: (dec payload.length ++ (tail ++ crLf)))) := by
    rfl
  have hcomma : scanLiteral (ascii ",") (0x2c :: (dec payload.length ++ (tail ++ crLf))) =
      some (dec payload.length ++ (tail ++ crLf)) := scanLiteral_append (ascii ",") _
  have hfdrest : scanInt (dec fd ++ (0x2c :: (dec payload.length ++ (tail ++ crLf)))) =
      some ((fd : Int), 0x2c :: (dec payload.length ++ (tail ++ crLf))) := scanInt_dec hfd (by simp; decide)
  rw [cstr_text htext, scanRecv, hhead, scanLiteral_append]
  simp only [hblank, scanLiteral_append, Option.bind_some, dropWhile_isSpace_dec, hfdrest, hcomma,
    scanInt_dec hlen h.crLf]

/-- The URC of a line is that of the text it starts with. -/
theorem getUrcObj_append {q rest : List UInt8} (hq : 10 ≤ q.length) (hsuffix : crLf <:+ q ++ rest) :
    getUrcObj urcTable (q ++ rest) = urcTable.find? fun urc => urc.cmdPrefix.isPrefixOf q := by
  have hshort : ∀ urc ∈ urcTable, urc.cmdPrefix.length ≤ 8 ∧ urc.cmdSuffix = crLf := by decide
  have hcrLf : crLf.length = 2 := rfl
  refine List.find?_congr fun urc hurc => ?_
  obtain ⟨hle, heq⟩ := hshort urc hurc
  have hlong : ¬ (q ++ rest).length < urc.cmdPrefix.length + urc.cmdSuffix.length := by
    rw [heq, hcrLf, List.length_append]
    omega
  rw [decide_eq_false hlong, isPrefixOf_append (by omega), heq, List.isSuffixOf_iff_suffix.2 hsuffix]
  simp

theorem clientParserLine_closed {fd : Nat} (hfd : fd ≤ 2147483647) (h : Tail tail) (mem : Bool) :
    clientParserLine urcTable mem (Item.closed fd tail).head = (some (.closed fd), .fresh) := by
  have hurc : (getUrcObj urcTable (Item.closed fd tail).head).map AtUrc.func = some .urcCloseFunc := by
    simp only [Item.head, List.append_assoc]
    rw [getUrcObj_append (by decide) (by simp [← List.append_assoc, List.suffix_append])]
    decide
  have hne : (Item.closed fd tail).head ≠ [] := by simp [Item.head, crLf]
  rw [clientParserLine, if_neg hne, hurc]
  simp only [urcCloseFunc, scanClose_head hfd h]

theorem clientParserLine_data {fd : Nat} {payload : List UInt8} (hfd : fd ≤ 2147483647) (hne : payload ≠ [])
    (hlen : payload.length ≤ 2147483647) (h : Tail tail) :
    clientParserLine urcTable true (Item.data fd tail payload).head = (none, .recv fd payload.length []) := by
  have hurc : (getUrcObj urcTable (Item.data fd tail payload).head).map AtUrc.func = some .urcRecvFunc := by
    simp only [Item.head, List.append_assoc]
    rw [getUrcObj_append (by decide) (by simp [← List.append_assoc, List.suffix_append])]
    decide
  have hhead : (Item.data fd tail payload).head ≠ [] := by simp [Item.head, crLf]
  have hsize : (UInt32.ofInt (payload.length : Int)).toNat = payload.length := by
    simp [UInt32.ofInt]
    omega
  have hpos : payload.length ≠ 0 := by simpa using hne
  rw [clientParserLine, if_neg hhead, hurc]
  simp [urcRecvFunc, scanRecv_head hfd hlen h, hsize, hpos]

end Scan

/-! ## Items are read -/

section Items

variable {cs ds : List Signed} {c : Signed} {item : Item}

/-- The bytes of a packet. -/
theorem emits_recv {fd : Int} {n : Nat} {buf : List UInt8} (h : buf.length + cs.length < n) :
    Emits ThreadMode.step ThreadMode.emits (.recv fd n buf) (acts cs) [] (.recv fd n (buf ++ heard cs)) := by
  induction cs generalizing buf with
  | nil => simpa using Emits.nil _
  | cons c cs ih =>
    rw [List.length_cons] at h
    have hmore : (buf ++ [c.2]).length < n := by
      rw [List.length_append, List.length_singleton]
      omega
    have hstep : ThreadMode.step (.recv fd n buf) (true, .got c.1 c.2) = some (.recv fd n (buf ++ [c.2])) := by
      simp only [ThreadMode.step, parserThread, if_pos hmore]
    have hout : ThreadMode.emits (.recv fd n buf) (true, .got c.1 c.2) = [] := by
      simp only [ThreadMode.emits, parserThread, if_pos hmore, Option.toList_none, List.filter_nil]
    have hrest := Emits.cons hstep (@ih (buf ++ [c.2]) (by rw [List.length_append, List.length_singleton]; omega))
    rw [hout] at hrest
    simpa using hrest

theorem emits_recv_end {fd : Int} {buf : List UInt8} :
    Emits ThreadMode.step ThreadMode.emits (.recv fd (buf.length + 1) buf) (acts [c]) [.recv fd (buf ++ [c.2])] .fresh := by
  have hstep : ThreadMode.step (.recv fd (buf.length + 1) buf) (true, .got c.1 c.2) = some .fresh := by
    simp [ThreadMode.step, parserThread]
  have hout : ThreadMode.emits (.recv fd (buf.length + 1) buf) (true, .got c.1 c.2) = [.recv fd (buf ++ [c.2])] := by
    simp [ThreadMode.emits, parserThread, ThreadEvent.outside]
  have hend := Emits.one ThreadMode.emits hstep
  rwa [hout] at hend

/-- A line that is not too long is read, and the thread goes on from there. -/
theorem emits_line (hopen : Open (lineStops urcTable) (gots cs)) (hstop : lineStops urcTable (gots (cs ++ [c])) = true)
    (hlen : cs.length < clinetBuffLen) :
    Emits ThreadMode.step ThreadMode.emits (.readline (.of (gots cs))) (acts [c])
      ((clientParserLine urcTable true (heard (cs ++ [c]))).1.toList.filter ThreadEvent.outside)
      (clientParserLine urcTable true (heard (cs ++ [c]))).2 := by
  have hline := parserThread_line hopen hstop hlen true
  have hstep : ThreadMode.step (.readline (.of (gots cs))) (true, .got c.1 c.2) =
      some (clientParserLine urcTable true (heard (cs ++ [c]))).2 := by
    rw [ThreadMode.step, hline]
  have hend := Emits.one ThreadMode.emits hstep
  rwa [ThreadMode.emits, hline] at hend

/-- A line of a notice or of a packet, in part. -/
theorem emits_head_part {h : List UInt8} (hplain : ∀ b ∈ h, b ≠ 0x0a ∧ b ≠ promptSign)
    (hlen : (h ++ crLf).length ≤ clinetBuffLen) (hs : Signs cs) (hcs : heard cs <+: h ++ [0x0d]) :
    Open (lineStops urcTable) (gots cs) ∧
      Emits ThreadMode.step ThreadMode.emits .fresh (acts cs) [] (.readline (.of (gots cs))) := by
  have hle := hcs.length_le
  simp only [length_heard, List.length_append, List.length_cons, List.length_nil, crLf] at hle hlen
  have hopen : Open (lineStops urcTable) (gots cs) := by
    refine open_gots hs (by omega) fun b hb => ?_
    rcases List.mem_append.1 (hcs.subset hb) with hb | hb
    · exact hplain b hb
    · rw [List.mem_singleton.1 hb]
      decide
  exact ⟨hopen, @emits_open [] cs hopen⟩

theorem emits_head {h : List UInt8} (hplain : ∀ b ∈ h, b ≠ 0x0a ∧ b ≠ promptSign)
    (hlen : (h ++ crLf).length ≤ clinetBuffLen) (hs : Signs cs) (hcs : heard cs = h ++ crLf) :
    Emits ThreadMode.step ThreadMode.emits .fresh (acts cs)
      ((clientParserLine urcTable true (h ++ crLf)).1.toList.filter ThreadEvent.outside)
      (clientParserLine urcTable true (h ++ crLf)).2 := by
  have hcs' : heard cs = (h ++ [0x0d]) ++ [0x0a] := by rw [hcs, crLf, List.append_assoc]; rfl
  obtain ⟨init, last, rfl, hinit, hlast⟩ := List.map_eq_append_iff.1 hcs'
  obtain ⟨c, rest, rfl, hc, hrest⟩ := List.map_eq_cons_iff.1 hlast
  obtain rfl := List.map_eq_nil_iff.1 hrest
  obtain ⟨hopen, hemits⟩ := emits_head_part hplain hlen hs.append.1 ⟨[], by simp [heard, hinit]⟩
  have hshort : init.length < clinetBuffLen := by
    have hle := congrArg List.length hcs
    simp only [length_heard, List.length_append, List.length_singleton] at hle hlen
    omega
  have hstop : lineStops urcTable (gots (init ++ [c])) = true := by
    rw [lineStops_gots hshort, hcs]
    exact .inl (List.suffix_append _ _)
  have hline := hemits.append (emits_line hopen hstop hshort)
  rwa [hcs, List.nil_append, ← acts_append] at hline

/-- A line of text reaches neither the sockets nor the ring. -/
theorem clientParserLine_quiet {b : List UInt8} (h : Quiet b) (mem : Bool) :
    (clientParserLine urcTable mem b).1.toList.filter ThreadEvent.outside = [] ∧
      (clientParserLine urcTable mem b).2 = .fresh := by
  obtain ⟨-, hrecv, hclose⟩ := h
  by_cases hnil : b = []
  · simp [clientParserLine, hnil]
  · rw [clientParserLine, if_neg hnil]
    cases hurc : getUrcObj urcTable b with
    | none => simp [ThreadEvent.outside]
    | some urc =>
      have hmem := List.mem_of_find?_eq_some hurc
      have hfound := List.find?_some hurc
      simp only [Bool.and_eq_true, List.isPrefixOf_iff_prefix] at hfound
      have hinfix : urc.cmdPrefix <:+: b := hfound.1.2.isInfix
      simp only [urcTable, List.mem_cons, List.not_mem_nil, or_false] at hmem
      rcases hmem with rfl | rfl | rfl | rfl
      · simp only [Option.map_some, urcSendFunc]
        split
        · simp [ThreadEvent.outside]
        · split <;> simp [ThreadEvent.outside]
      · exact absurd hinfix hclose
      · exact absurd hinfix hrecv
      · simp [ThreadEvent.outside]

theorem Quiet.part {b l : List UInt8} (h : Quiet l) (hb : b <:+: l) : Quiet b :=
  ⟨hb.length_le.trans h.1, fun hi => h.2.1 (hi.trans hb), fun hi => h.2.2 (hi.trans hb)⟩

/-- Text, however it is cut: what is held is the end of it. -/
theorem emits_text (hopen : Open (lineStops urcTable) (gots ds)) (hquiet : Quiet (heard (ds ++ cs))) :
    ∃ held, Open (lineStops urcTable) (gots held) ∧ held <:+ ds ++ cs ∧
      Emits ThreadMode.step ThreadMode.emits (.readline (.of (gots ds))) (acts cs) [] (.readline (.of (gots held))) := by
  induction cs generalizing ds with
  | nil => exact ⟨ds, hopen, by simp, .nil _⟩
  | cons c cs ih =>
    have hline : Quiet (heard (ds ++ [c])) := hquiet.part ⟨[], heard cs, by simp⟩
    have hshort : ds.length < clinetBuffLen := by
      have hle := hline.1
      simp only [length_heard, List.length_append, List.length_singleton] at hle
      omega
    cases hstop : lineStops urcTable (gots (ds ++ [c])) with
    | true =>
      obtain ⟨held, hheld, hsuffix, hemits⟩ := @ih [] open_nil (hquiet.part ⟨heard (ds ++ [c]), [], by simp⟩)
      obtain ⟨hnone, hfresh⟩ := clientParserLine_quiet hline true
      have hend := emits_line hopen hstop hshort
      rw [hnone, hfresh] at hend
      refine ⟨held, hheld, hsuffix.trans ⟨ds ++ [c], by simp⟩, ?_⟩
      simpa using hend.append hemits
    | false =>
      have hopen' : Open (lineStops urcTable) (gots (ds ++ [c])) := by
        rw [gots_append, gots_cons, gots_nil, open_snoc]
        rw [gots_append, gots_cons, gots_nil] at hstop
        exact ⟨hopen, hstop⟩
      obtain ⟨held, hheld, hsuffix, hemits⟩ := ih hopen' (by simpa using hquiet)
      refine ⟨held, hheld, by simpa using hsuffix, ?_⟩
      simpa using (emits_open hopen').append hemits

theorem emits_text_whole {l : List UInt8} (hs : Signs cs) (hquiet : Quiet l) (hend : crLf <:+ l) (hcs : heard cs = l) :
    Emits ThreadMode.step ThreadMode.emits .fresh (acts cs) [] .fresh := by
  obtain ⟨p, rfl⟩ := hend
  obtain ⟨init, last, rfl, -, hlast⟩ := List.map_eq_append_iff.1 hcs
  obtain ⟨a, rest, rfl, ha, hrest⟩ := List.map_eq_cons_iff.1 hlast
  obtain ⟨b, rest, rfl, hb, hnil⟩ := List.map_eq_cons_iff.1 hrest
  obtain rfl := List.map_eq_nil_iff.1 hnil
  rw [← hcs] at hquiet
  obtain ⟨held, hopen, hsuffix, hemits⟩ :=
    @emits_text init [] open_nil (hquiet.part ⟨[], heard [a, b], by simp⟩)
  have hsub : held ++ [a, b] <:+ init ++ [a, b] := (List.suffix_append_inj_of_length_eq rfl).2 ⟨hsuffix, rfl⟩
  have hline : Quiet (heard (held ++ [a, b])) := hquiet.part (hsub.map Prod.snd).isInfix
  have hlen := hline.1
  simp only [length_heard, List.length_append, List.length_cons, List.length_nil] at hlen
  -- The carriage return ends no line, and the newline behind it does.
  have hmore : lineStops urcTable (gots (held ++ [a])) = false := by
    rw [← Bool.not_eq_true, lineStops_gots (by omega)]
    rintro (⟨m, hm⟩ | ⟨hne, heq⟩)
    · have hlast := congrArg List.getLast? hm
      simp [crLf, ha] at hlast
    · rcases hs a (by simp) with hzero | hsign
      · exact hne hzero
      · rw [ha, hsign] at heq
        cases heq
  have hopen' : Open (lineStops urcTable) (gots (held ++ [a])) := by
    rw [gots_append, gots_cons, gots_nil, open_snoc]
    rw [gots_append, gots_cons, gots_nil] at hmore
    exact ⟨hopen, hmore⟩
  have hstop : lineStops urcTable (gots (held ++ [a] ++ [b])) = true := by
    rw [lineStops_gots (by rw [List.length_append, List.length_singleton]; omega)]
    refine .inl ⟨heard held, ?_⟩
    simp [crLf, ha, hb]
  obtain ⟨hnone, hfresh⟩ := clientParserLine_quiet hline true
  have hlast := emits_line hopen' hstop (by rw [List.length_append, List.length_singleton]; omega)
  rw [List.append_assoc, List.cons_append, List.nil_append, hnone, hfresh] at hlast
  simpa [ThreadMode.fresh] using (hemits.append (emits_open hopen')).append hlast

theorem plain_dec (n : Nat) : Plain (dec n) := by
  intro c hc
  have hd := isDigit_iff.1 (isDigit_dec n c hc)
  refine ⟨?_, ?_, ?_, ?_⟩ <;> rintro rfl <;> simp [promptSign] at hd

theorem Plain.append {a b : List UInt8} (ha : Plain a) (hb : Plain b) : Plain (a ++ b) := by
  intro c hc
  rcases List.mem_append.1 hc with hc | hc
  · exact ha c hc
  · exact hb c hc

/-- The line of a notice or of a packet up to its newline. -/
theorem head_plain (h : item.Ok) (hline : ∀ l, item ≠ .text l) : ∃ p, item.head = p ++ crLf ∧ Plain p := by
  have hclosed : Plain (ascii "+CACLOSE: ") := by decide
  have hrecv : Plain (ascii "+CAURC: \"recv\",") := by decide
  have hcomma : Plain (ascii ",") := by decide
  cases item with
  | text l => exact absurd rfl (hline l)
  | closed fd tail => exact ⟨_, rfl, (hclosed.append (plain_dec fd)).append h.2.2.1⟩
  | data fd tail payload =>
    exact ⟨_, rfl, (((hrecv.append (plain_dec fd)).append hcomma).append (plain_dec _)).append h.2.2.2.2.1⟩

/-- **An item that came in**: the thread hands it on, and starts afresh. -/
theorem emits_item (h : item.Ok) (hs : Signs cs) (hcs : heard cs = item.bytes) :
    Emits ThreadMode.step ThreadMode.emits .fresh (acts cs) item.events .fresh := by
  cases item with
  | text l => exact emits_text_whole hs h.2.1 h.2.2 hcs
  | closed fd tail =>
    obtain ⟨p, hp, hplain⟩ := head_plain h (by simp)
    have hhead := emits_head (fun b hb => ⟨(hplain b hb).2.1, (hplain b hb).2.2.1⟩) (hp ▸ h.1) hs (hp ▸ hcs)
    rwa [← hp, clientParserLine_closed h.2.1 h.2.2] at hhead
  | data fd tail payload =>
    obtain ⟨p, hp, hplain⟩ := head_plain h (by simp)
    obtain ⟨hfd, hne, hlen, htail⟩ := h.2
    obtain ⟨init, last, rfl, hinit, hlast⟩ := List.map_eq_append_iff.1 hcs
    have hhead := emits_head (fun b hb => ⟨(hplain b hb).2.1, (hplain b hb).2.2.1⟩) (hp ▸ h.1) hs.append.1 (hp ▸ hinit)
    rw [← hp, clientParserLine_data hfd hne hlen htail] at hhead
    -- The bytes of the packet, and the last one.
    obtain ⟨cs, c, rfl⟩ := (List.eq_nil_or_concat last).resolve_left fun hnil => hne (by simpa [hnil] using hlast.symm)
    have hlast' : heard cs ++ [c.2] = payload := by simpa [heard] using hlast
    have hlen' : payload.length = (heard cs).length + 1 := by rw [← hlast']; simp
    have hbody := @emits_recv cs fd payload.length [] (by rw [hlen']; simp)
    rw [hlen'] at hbody hhead
    have hall := (hhead.append hbody).append (@emits_recv_end c fd (heard cs))
    rw [hlast'] at hall
    simpa [Item.events] using hall

/-- A prefix is cut off at a length. -/
theorem split_heard {a b : List UInt8} (hcs : heard cs <+: a ++ b) (hlen : a.length ≤ cs.length) :
    ∃ init rest, cs = init ++ rest ∧ heard init = a ∧ heard rest <+: b := by
  have ha : a <+: heard cs :=
    List.prefix_of_prefix_length_le (List.prefix_append a b) hcs (by simpa using hlen)
  obtain ⟨t, ht⟩ := ha
  obtain ⟨init, rest, rfl, hinit, hrest⟩ := List.map_eq_append_iff.1 ht.symm
  refine ⟨init, rest, rfl, hinit, ?_⟩
  rw [heard_append, show heard init = a from hinit] at hcs
  exact (List.prefix_append_right_inj a).1 hcs

theorem emits_part (h : item.Ok) (hs : Signs cs) (hcs : heard cs <+: item.bytes) (hlt : cs.length < item.bytes.length) :
    ∃ m, Emits ThreadMode.step ThreadMode.emits .fresh (acts cs) [] m := by
  -- A part of the first line of a notice or of a packet.
  have hfirst : ∀ p, item.head = p ++ crLf → Plain p → heard cs <+: item.head → cs.length < item.head.length →
      ∃ m, Emits ThreadMode.step ThreadMode.emits .fresh (acts cs) [] m := by
    intro p hp hplain hcs hlt
    have hshort : heard cs <+: p ++ [0x0d] := by
      have hsplit : item.head = (p ++ [0x0d]) ++ [0x0a] := by rw [hp, crLf, List.append_assoc]; rfl
      refine List.prefix_of_prefix_length_le hcs (hsplit ▸ List.prefix_append _ _) ?_
      rw [hsplit, List.length_append, List.length_singleton] at hlt
      rw [length_heard]
      omega
    exact ⟨_, (emits_head_part (fun b hb => ⟨(hplain b hb).2.1, (hplain b hb).2.2.1⟩) (hp ▸ h.1) hs hshort).2⟩
  cases item with
  | text l =>
    obtain ⟨held, -, -, hemits⟩ := @emits_text cs [] open_nil (h.2.1.part hcs.isInfix)
    exact ⟨_, hemits⟩
  | closed fd tail =>
    obtain ⟨p, hp, hplain⟩ := head_plain h (by simp)
    exact hfirst p hp hplain hcs hlt
  | data fd tail payload =>
    obtain ⟨p, hp, hplain⟩ := head_plain h (by simp)
    by_cases hle : (Item.data fd tail payload).head.length ≤ cs.length
    · obtain ⟨hfd, hne, hlen, htail⟩ := h.2
      obtain ⟨init, rest, rfl, hinit, hrest⟩ := split_heard hcs hle
      have hhead := emits_head (fun b hb => ⟨(hplain b hb).2.1, (hplain b hb).2.2.1⟩) (hp ▸ h.1) hs.append.1 (hp ▸ hinit)
      rw [← hp, clientParserLine_data hfd hne hlen htail] at hhead
      have hfew : rest.length < payload.length := by
        have hsum := congrArg List.length hinit
        simp only [length_heard, List.length_append, Item.bytes] at hlt hsum
        omega
      have hall := hhead.append (@emits_recv rest fd payload.length [] (by simpa using hfew))
      rw [← acts_append] at hall
      exact ⟨_, hall⟩
    · exact hfirst p hp hplain (List.prefix_of_prefix_length_le hcs (List.prefix_append _ _) (by simp; omega)) (by omega)

end Items

/-- The items that are complete with the first `n` bytes of a stream. -/
def arrived : List Item → Nat → List Item
  | [], _ => []
  | item :: items, n => if item.bytes.length ≤ n then item :: arrived items (n - item.bytes.length) else []

/-- **From any stream of items the thread takes what is complete**: wherever it is in
the stream, and whatever end signs were set, it handed on the packets and notices that
came in completely, in order, and nothing else. -/
theorem emits_items {items : List Item} (hitems : ∀ item ∈ items, item.Ok) {cs : List Signed} (hs : Signs cs)
    (hcs : heard cs <+: (items.map Item.bytes).flatten) :
    ∃ m, Emits ThreadMode.step ThreadMode.emits .fresh (acts cs) ((arrived items cs.length).flatMap Item.events) m := by
  induction items generalizing cs with
  | nil =>
    obtain rfl : cs = [] := by simpa [heard] using hcs
    exact ⟨_, .nil _⟩
  | cons item items ih =>
    rw [List.map_cons, List.flatten_cons] at hcs
    have hitem := hitems item (by simp)
    by_cases hle : item.bytes.length ≤ cs.length
    · obtain ⟨init, rest, rfl, hinit, hrest⟩ := split_heard hcs hle
      obtain ⟨m, hm⟩ := ih (fun i hi => hitems i (by simp [hi])) hs.append.2 hrest
      have hlen : init.length = item.bytes.length := by rw [← hinit, length_heard]
      have hall := (emits_item hitem hs.append.1 hinit).append hm
      rw [← acts_append] at hall
      refine ⟨m, ?_⟩
      rw [arrived, if_pos hle, List.flatMap_cons, List.length_append, hlen, Nat.add_sub_cancel_left]
      exact hall
    · rw [arrived, if_neg hle]
      exact emits_part hitem hs (List.prefix_of_prefix_length_le hcs (List.prefix_append _ _) (by simp; omega)) (by omega)

end Petbox.Modem
