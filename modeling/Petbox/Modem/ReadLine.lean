/-
`at_recv_readline` and `get_urc_obj` (`at_client.c`): the lines that the parser thread
reads from the modem, one character at a time.

The reader is in the state of the characters that it holds (`LineReader.of`), so the
lines of a stream are its pieces in the sense of `Petbox.Lib.Cut`.
-/
import Mathlib.Data.List.Induction
import Petbox.Lib.CString
import Petbox.Lib.Cut

namespace Petbox.Modem

open CStr Cut

/-! ## The code -/

/-- `CLINET_BUFF_LEN`. -/
def clinetBuffLen : Nat := 1536

/-- The functions of `urc_table` in the SIM7070 driver. -/
inductive UrcFunc
  | urcSendFunc
  | urcCloseFunc
  | urcRecvFunc
  | urcGnssFunc
  deriving DecidableEq, Repr

/-- `at_urc`. -/
structure AtUrc where
  cmdPrefix : List UInt8
  cmdSuffix : List UInt8
  func : UrcFunc
  deriving DecidableEq, Repr

/-- `AT_END_CR_LF`. -/
def crLf : List UInt8 := [0x0d, 0x0a]

/-- `urc_table`. -/
def urcTable : List AtUrc :=
  [⟨ascii "+CAOPEN", crLf, .urcSendFunc⟩, ⟨ascii "+CACLOSE", crLf, .urcCloseFunc⟩, ⟨ascii "+CAURC", crLf, .urcRecvFunc⟩,
    ⟨ascii "+SGNSCMD", crLf, .urcGnssFunc⟩]

/-- `get_urc_obj`, on the `cur_recv_len` bytes of `recv_buffer`. -/
def getUrcObj (table : List AtUrc) (buffer : List UInt8) : Option AtUrc :=
  table.find? fun urc =>
    !decide (buffer.length < urc.cmdPrefix.length + urc.cmdSuffix.length) && urc.cmdPrefix.isPrefixOf buffer &&
      urc.cmdSuffix.isSuffixOf buffer

/-- What `at_client_getchar` does: a character, under the end sign that is set then,
or a failure. -/
inductive Getchar
  | got (endSign ch : UInt8)
  | failed
  deriving DecidableEq, Repr

/-- The variables of `at_recv_readline`, and the first `cur_recv_len` bytes of
`recv_buffer`. -/
structure LineReader where
  recvBuffer : List UInt8
  lastCh : UInt8
  isFull : Bool
  deriving DecidableEq, Repr

def LineReader.fresh : LineReader := ⟨[], 0, false⟩

/-- How `at_recv_readline` ends: with the line in the buffer, or with -1, where a line
that is too long also has the ring buffer flushed. -/
inductive Readline
  | line (buffer : List UInt8)
  | failed (flush : Bool)
  deriving DecidableEq, Repr

/-- The character goes into the buffer, if there is room. -/
def LineReader.put (r : LineReader) (ch : UInt8) : LineReader :=
  if r.recvBuffer.length < clinetBuffLen then { r with recvBuffer := r.recvBuffer ++ [ch] } else { r with isFull := true }

/-- A newline, the end sign, or a URC. -/
def LineReader.atEnd (table : List AtUrc) (r : LineReader) (endSign ch : UInt8) : Bool :=
  ch == 0x0a && r.lastCh == 0x0d || endSign != 0 && ch == endSign || (getUrcObj table r.recvBuffer).isSome

/-- A turn of the loop of `at_recv_readline`, and the start of the next call where it
ends. -/
def atRecvReadline (table : List AtUrc) (r : LineReader) : Getchar → Option Readline × LineReader
  | .failed => (some (.failed false), .fresh)
  | .got endSign ch =>
    if (r.put ch).atEnd table endSign ch then
      (some (if (r.put ch).isFull then .failed true else .line (r.put ch).recvBuffer), .fresh)
    else (none, { r.put ch with lastCh := ch })

/-! ## Lines -/

/-- The characters that were got. -/
def chars (gs : List Getchar) : List UInt8 :=
  gs.filterMap fun g =>
    match g with
    | .got _ ch => some ch
    | .failed => none

/-- A line ends here: with a failure, a newline, the end sign, or a URC in what the
buffer holds of it. -/
def lineStops (table : List AtUrc) (gs : List Getchar) : Bool :=
  match gs.getLast? with
  | none => false
  | some .failed => true
  | some (.got endSign ch) =>
    crLf.isSuffixOf (chars gs) || endSign != 0 && ch == endSign ||
      (getUrcObj table ((chars gs).take clinetBuffLen)).isSome

/-- How the call that reads these characters ends. -/
def readline (gs : List Getchar) : Readline :=
  if gs.getLast? = some .failed then .failed false
  else if clinetBuffLen < gs.length then .failed true
  else .line (chars gs)

/-- The state of a reader that holds these characters. -/
def LineReader.of (gs : List Getchar) : LineReader where
  recvBuffer := (chars gs).take clinetBuffLen
  lastCh := (chars gs).getLast?.getD 0
  isFull := decide (clinetBuffLen < gs.length)

section Lines

variable {table : List AtUrc} {gs : List Getchar} {endSign ch : UInt8}

@[simp] theorem chars_nil : chars [] = [] := rfl
@[simp] theorem chars_got : chars (gs ++ [.got endSign ch]) = chars gs ++ [ch] := by simp [chars]

@[simp] theorem of_nil : LineReader.of [] = .fresh := rfl

/-- Characters in which no line ends are all there. -/
theorem length_chars (h : Open (lineStops table) gs) : (chars gs).length = gs.length := by
  induction gs using List.reverseRecOn with
  | nil => rfl
  | append_singleton gs g ih =>
    obtain ⟨hgs, hstop⟩ := open_snoc.1 h
    cases g with
    | failed => simp [lineStops] at hstop
    | got endSign ch => simp [ih hgs]

theorem put_of (endSign : UInt8) (h : Open (lineStops table) gs) :
    (LineReader.of gs).put ch =
      { LineReader.of (gs ++ [.got endSign ch]) with lastCh := (chars gs).getLast?.getD 0 } := by
  have hlen := length_chars h
  by_cases hfull : gs.length < clinetBuffLen
  · have htake : (chars gs).take clinetBuffLen = chars gs := List.take_of_length_le (by omega)
    have htake' : (chars gs ++ [ch]).take clinetBuffLen = chars gs ++ [ch] := List.take_of_length_le (by simp; omega)
    simp [LineReader.put, LineReader.of, htake, htake', hlen, hfull]
    omega
  · have hle : clinetBuffLen ≤ (chars gs).length := by omega
    simp [LineReader.put, LineReader.of, List.take_append_of_le_length hle, hle]
    omega

theorem crLf_suffix (cs : List UInt8) (ch : UInt8) :
    crLf.isSuffixOf (cs ++ [ch]) = (ch == 0x0a && cs.getLast?.getD 0 == 0x0d) := by
  cases cs using List.reverseRecOn with
  | nil => simp [crLf, List.isSuffixOf, List.isPrefixOf]
  | append_singleton cs c =>
    have hsym : ∀ a b : UInt8, (a == b) = (b == a) := fun _ _ => BEq.comm
    simp [crLf, List.isSuffixOf, List.isPrefixOf, hsym 0x0a, hsym 0x0d]

theorem atEnd_put (h : Open (lineStops table) gs) :
    ((LineReader.of gs).put ch).atEnd table endSign ch = lineStops table (gs ++ [.got endSign ch]) := by
  rw [put_of endSign h, LineReader.atEnd, lineStops]
  simp [crLf_suffix, LineReader.of]

/-- A line ends: the reader gives it, and starts afresh. -/
theorem readline_end (gs : List Getchar) (g : Getchar) (h : Open (lineStops table) gs)
    (hstop : lineStops table (gs ++ [g]) = true) :
    atRecvReadline table (.of gs) g = (some (readline (gs ++ [g])), .of []) := by
  cases g with
  | failed => simp [atRecvReadline, readline]
  | got endSign ch =>
    rw [atRecvReadline, if_pos (by rw [atEnd_put h, hstop]), put_of endSign h]
    by_cases hfull : clinetBuffLen < gs.length + 1
    · simp [readline, LineReader.of, LineReader.fresh, hfull]
    · have hlen : (chars gs ++ [ch]).length ≤ clinetBuffLen := by
        rw [List.length_append, length_chars h]
        simpa using hfull
      simp [readline, LineReader.of, LineReader.fresh, hfull, List.take_of_length_le hlen]

theorem readline_more (gs : List Getchar) (g : Getchar) (h : Open (lineStops table) gs)
    (hstop : lineStops table (gs ++ [g]) = false) :
    atRecvReadline table (.of gs) g = (none, .of (gs ++ [g])) := by
  cases g with
  | failed => simp [lineStops] at hstop
  | got endSign ch =>
    rw [atRecvReadline, if_neg (by simp [atEnd_put h, hstop]), put_of endSign h]
    simp [LineReader.of]

end Lines

/-- **The lines that are read are the pieces of the stream**, and the stream has them in
one way only: for every stream of characters and failures, the calls of
`at_recv_readline` end in turn as `readline` says of its pieces, and the last one
holds what is left. -/
theorem readline_pieces (table : List AtUrc) (gs : List Getchar) (calls : List Readline) (r : LineReader) :
    feed (atRecvReadline table) .fresh gs = (calls, r) ↔
      ∃ (lines : List (List Getchar)) (rest : List Getchar), gs = lines.flatten ++ rest ∧
        (∀ l ∈ lines, Piece (lineStops table) l) ∧ Open (lineStops table) rest ∧ calls = lines.map readline ∧ r = .of rest := by
  have hfeed := @feed_cut _ _ _ (lineStops table) [] (atRecvReadline table) LineReader.of readline readline_end
    readline_more open_nil gs
  rw [← of_nil, hfeed]
  constructor
  · intro h
    obtain ⟨hcalls, hr⟩ := Prod.mk.inj h
    obtain ⟨heq, hlines, hrest⟩ := cut_spec (open_nil : Open (lineStops table) []) gs
    exact ⟨_, _, heq, hlines, hrest, hcalls.symm, hr.symm⟩
  · rintro ⟨lines, rest, heq, hlines, hrest, rfl, rfl⟩
    rw [cut_iff.2 ⟨heq, hlines, hrest⟩]

end Petbox.Modem
