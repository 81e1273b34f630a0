/-
The collector of command lines (`cmd_uart/cmd_parse.c`).

The cursor has 8 bits and the length of the line has 32, so the 256th character
of a line puts the cursor back to 0, and the loop that moves the terminal's
cursor back compares a counter of 8 bits with 256: it does not end. Lines that
are shorter are collected as they should be.
-/
import Petbox.Lib.CString
import Petbox.Lib.Loop

namespace Petbox.Tracker

open CStr Loop

/-! ## The code -/

def cmdMaxCommandLine : Nat := 256
def cmdMaxHistoryLine : Nat := 1

/-- The size of `cmdline_buf`, and of a line of the history. -/
def cmdlineSize : Nat := cmdMaxCommandLine + 2

/-- `T_CMD_IF`. -/
structure CmdIf where
  cmdlineBuf : List UInt8
  cmdCur : UInt8
  cmdHistory : List (List UInt8)
  cmdHistoryLen : List UInt8
  historyHead : UInt8
  historyTail : UInt8
  historyCur : UInt8
  accumCmdLen : Nat

/-- What leaves the collector: text for the terminal, and the words given to
`user_cmd_parse_hdl` with their lengths. -/
inductive CmdOutput
  | print (text : List UInt8)
  | handle (cmd : List UInt8) (len : Int16)
  deriving DecidableEq

/-- The structure, and what has left it so far. -/
structure Collector where
  cmdIf : CmdIf
  out : List CmdOutput

def Collector.emit (t : Collector) (o : CmdOutput) : Collector := { t with out := t.out ++ [o] }

/-- `cmd_is_white_space`. -/
def cmdIsWhiteSpace (c : UInt8) : Bool := (9 ≤ c && c ≤ 13) || c == 32

/-- `cmdline_buf[i]`. -/
def getBuf (t : CmdIf) (i : Nat) : Except Stop UInt8 := do
  check (i < t.cmdlineBuf.length)
  return t.cmdlineBuf.getD i 0

/-- `cmdline_buf[i] = c`. -/
def setBuf (t : CmdIf) (i : Nat) (c : UInt8) : Except Stop CmdIf := do
  check (i < t.cmdlineBuf.length)
  return { t with cmdlineBuf := t.cmdlineBuf.set i c }

/-- The string at `cmdline_buf + i`; its end is in the buffer. -/
def stringAt (t : CmdIf) (i : Nat) : Except Stop (List UInt8) := do
  let text := cstr (t.cmdlineBuf.drop i)
  check (i + text.length < t.cmdlineBuf.length)
  return text

/-- `cmd_parse`: the word it finds, if any, which is ended in the buffer. -/
def cmdParse (t : CmdIf) : Except Stop (CmdIf × Option (List UInt8)) := do
  let rest := t.cmdlineBuf.dropWhile cmdIsWhiteSpace
  let p := t.cmdlineBuf.length - rest.length
  check (p < t.cmdlineBuf.length)
  let word := rest.takeWhile fun c => !cmdIsWhiteSpace c && c != 0
  if word = [] then return (t, none)
  let t ← setBuf t (p + word.length) 0
  return (t, some word)

/-- `cmd_clear`. -/
def cmdClear (t : CmdIf) : CmdIf :=
  { t with accumCmdLen := 0, cmdCur := 0, cmdlineBuf := List.replicate cmdlineSize 0 }

/-- `cmd_move_back`. -/
def cmdMoveBack (fuel : Nat) (t : CmdIf) : Except Stop CmdIf :=
  forU8 (t.accumCmdLen - t.cmdCur.toNat) (fun loop t => do
    let c ← getBuf t (t.accumCmdLen - loop.toNat - 1)
    setBuf t (t.accumCmdLen - loop.toNat) c) fuel 0 t

/-- The line of the history that the command is saved in. -/
def nextHistory (t : CmdIf) : CmdIf :=
  if t.historyHead.toNat = cmdMaxHistoryLine then { t with historyHead := 0, historyTail := 0 }
  else
    let tail := ((t.historyTail.toNat + 1) % cmdMaxHistoryLine).toUInt8
    { t with
      historyTail := tail
      historyHead :=
        if tail = t.historyHead then ((t.historyHead.toNat + 1) % cmdMaxHistoryLine).toUInt8 else t.historyHead }

/-- The copy of the command line to the history. -/
def saveHistory (t : CmdIf) : Except Stop CmdIf := do
  let tail := t.historyTail.toNat
  check (tail < t.cmdHistory.length && t.accumCmdLen ≤ cmdlineSize)
  let line := t.cmdlineBuf.take t.accumCmdLen ++ (t.cmdHistory.getD tail []).drop t.accumCmdLen
  return { t with
    cmdHistoryLen := t.cmdHistoryLen.set tail t.accumCmdLen.toUInt8
    cmdHistory := t.cmdHistory.set tail line }

/-- `cmd_collect` at the end of a line. -/
def cmdLineEnd (t : Collector) : Except Stop Collector := do
  let t := t.emit (.print [0x0d, 0x0a])
  let cmdIf := { t.cmdIf with historyCur := cmdMaxHistoryLine.toUInt8 }
  if cmdIf.accumCmdLen > 0 then
    let cmdIf ← saveHistory (nextHistory cmdIf)
    let cmdIf ← setBuf cmdIf cmdIf.accumCmdLen 0
    let (cmdIf, word) ← cmdParse cmdIf
    let t := match word with
      | some cmd => t.emit (.handle cmd cmd.length.toInt16)
      | none => t
    return { t with cmdIf := cmdClear cmdIf }
  else return { t with cmdIf := cmdClear cmdIf }

/-- `cmd_collect` at any other character. -/
def cmdPutChar (fuel : Nat) (t : Collector) (c : UInt8) : Except Stop Collector := do
  if t.cmdIf.accumCmdLen < cmdMaxCommandLine then
    let cmdIf ← cmdMoveBack fuel t.cmdIf
    let cmdIf ← setBuf cmdIf cmdIf.cmdCur.toNat c
    let text ← stringAt cmdIf cmdIf.cmdCur.toNat
    let t := t.emit (.print text)
    let cmdIf := { cmdIf with accumCmdLen := cmdIf.accumCmdLen + 1, cmdCur := cmdIf.cmdCur + 1 }
    forU8 (cmdIf.accumCmdLen - cmdIf.cmdCur.toNat) (fun _ t => .ok (t.emit (.print [0x08]))) fuel 0
      { t with cmdIf }
  else return t

/-- `'\n'` and `'\r'`. -/
def isLineEnd (c : UInt8) : Bool := c == 0x0a || c == 0x0d

/-- One round of `cmd_collect`. -/
def cmdCollectChar (fuel : Nat) (t : Collector) (c : UInt8) : Except Stop Collector :=
  if c = 0 then .ok t else if isLineEnd c then cmdLineEnd t else cmdPutChar fuel t c

/-- `cmd_collect`. -/
def cmdCollect (fuel : Nat) (t : Collector) (data : List UInt8) : Except Stop Collector :=
  data.foldlM (cmdCollectChar fuel) t

/-- `cmd_init`. -/
def cmdInit (projectName : List UInt8) : Collector where
  cmdIf :=
    { cmdlineBuf := List.replicate cmdlineSize 0
      cmdCur := 0
      cmdHistory := List.replicate cmdMaxHistoryLine (List.replicate cmdlineSize 0)
      cmdHistoryLen := List.replicate cmdMaxHistoryLine 0
      historyHead := cmdMaxHistoryLine.toUInt8
      historyTail := cmdMaxHistoryLine.toUInt8
      historyCur := cmdMaxHistoryLine.toUInt8
      accumCmdLen := 0 }
  out := [.print (ascii ">> Command Parse Init (" ++ (projectName ++ ascii ") <<\r\n"))]

/-! ## The buffer while a line is collected -/

/-- The buffer that holds a line. -/
def lineBuf (p : List UInt8) : List UInt8 := p ++ List.replicate (cmdlineSize - p.length) 0

/-- The collector has taken these characters of a line. -/
structure Collecting (t : CmdIf) (p : List UInt8) : Prop where
  buf : t.cmdlineBuf = lineBuf p
  cur : t.cmdCur.toNat = p.length
  accum : t.accumCmdLen = p.length
  text : Text p
  history : t.cmdHistory.length = cmdMaxHistoryLine

variable {t : CmdIf} {p : List UInt8}

theorem Collecting.short (h : Collecting t p) : p.length < cmdMaxCommandLine := by
  rw [← h.cur]
  exact t.cmdCur.toNat_lt

theorem length_lineBuf (h : p.length < cmdMaxCommandLine) : (lineBuf p).length = cmdlineSize := by
  unfold cmdMaxCommandLine at h
  simp only [lineBuf, List.length_append, List.length_replicate, cmdlineSize, cmdMaxCommandLine]
  omega

theorem lineBuf_zeros (h : p.length < cmdMaxCommandLine) :
    List.replicate (cmdlineSize - p.length) (0 : UInt8) = 0 :: List.replicate (cmdlineSize - (p.length + 1)) 0 := by
  unfold cmdMaxCommandLine at h
  rw [← List.replicate_succ]
  congr 1
  unfold cmdlineSize cmdMaxCommandLine
  omega

/-- A character stored behind the line. -/
theorem lineBuf_set (h : p.length < cmdMaxCommandLine) (c : UInt8) :
    (lineBuf p).set p.length c = lineBuf (p ++ [c]) := by
  rw [lineBuf, lineBuf_zeros h, List.set_append_right _ _ (Nat.le_refl _), Nat.sub_self, List.set_cons_zero, lineBuf,
    List.append_assoc, List.length_append]
  rfl

/-- The end of the line is there already. -/
theorem lineBuf_set_zero (h : p.length < cmdMaxCommandLine) : (lineBuf p).set p.length 0 = lineBuf p := by
  rw [lineBuf, lineBuf_zeros h, List.set_append_right _ _ (Nat.le_refl _), Nat.sub_self, List.set_cons_zero]

theorem cmdClear_holds (h : t.cmdHistory.length = cmdMaxHistoryLine) : Collecting (cmdClear t) [] where
  buf := rfl
  cur := rfl
  accum := rfl
  text := fun _ hc => absurd hc List.not_mem_nil
  history := h

/-! ## A character -/

theorem setBuf_eq {i : Nat} (h : i < t.cmdlineBuf.length) (c : UInt8) :
    setBuf t i c = .ok { t with cmdlineBuf := t.cmdlineBuf.set i c } := by
  rw [setBuf, decide_eq_true h]
  rfl

theorem cmdMoveBack_holds (h : Collecting t p) (fuel : Nat) : cmdMoveBack (fuel + 1) t = .ok t :=
  forU8_none (by rw [h.accum, h.cur]; omega) _ fuel t

/-- The collector with a character stored, before the last loop. -/
def typed (t : Collector) (p : List UInt8) (c : UInt8) : Collector where
  cmdIf := { t.cmdIf with
    cmdlineBuf := lineBuf (p ++ [c]), accumCmdLen := t.cmdIf.accumCmdLen + 1, cmdCur := t.cmdIf.cmdCur + 1 }
  out := t.out ++ [.print [c]]

section Char

variable {t : Collector} {p : List UInt8} {c : UInt8}

theorem stringAt_typed (h : p.length < cmdMaxCommandLine) (hc : c ≠ 0) {t : CmdIf}
    (hbuf : t.cmdlineBuf = lineBuf (p ++ [c])) : stringAt t p.length = .ok [c] := by
  have hlen : (lineBuf (p ++ [c])).length = cmdlineSize := by
    rw [← lineBuf_set h, List.length_set, length_lineBuf h]
  have hdrop : (lineBuf (p ++ [c])).drop p.length = c :: List.replicate (cmdlineSize - (p.length + 1)) 0 := by
    rw [lineBuf, List.append_assoc, List.drop_left, List.length_append]
    rfl
  have htext : cstr ((lineBuf (p ++ [c])).drop p.length) = [c] := by
    rw [hdrop, cstr_cons hc, cstr_replicate]
  unfold cmdMaxCommandLine at h
  have hend : p.length + 1 < cmdlineSize := by
    unfold cmdlineSize cmdMaxCommandLine
    omega
  rw [stringAt, hbuf, htext, hlen]
  simp only [List.length_singleton, hend, decide_true, check_true]
  rfl

theorem cmdPutChar_eq (h : Collecting t.cmdIf p) (hc : c ≠ 0) (fuel : Nat) :
    cmdPutChar (fuel + 1) t c =
      forU8 ((typed t p c).cmdIf.accumCmdLen - (typed t p c).cmdIf.cmdCur.toNat)
        (fun _ t => .ok (t.emit (.print [0x08]))) (fuel + 1) 0 (typed t p c) := by
  have hlen : t.cmdIf.cmdCur.toNat < t.cmdIf.cmdlineBuf.length := by
    rw [h.cur, h.buf, length_lineBuf h.short]
    have := h.short
    unfold cmdMaxCommandLine at this
    unfold cmdlineSize cmdMaxCommandLine
    omega
  have hset : setBuf t.cmdIf t.cmdIf.cmdCur.toNat c = .ok { t.cmdIf with cmdlineBuf := lineBuf (p ++ [c]) } := by
    rw [setBuf_eq hlen, h.buf, h.cur, lineBuf_set h.short]
  have htext : stringAt { t.cmdIf with cmdlineBuf := lineBuf (p ++ [c]) } t.cmdIf.cmdCur.toNat = .ok [c] := by
    rw [h.cur]
    exact stringAt_typed h.short hc rfl
  rw [cmdPutChar, if_pos (by rw [h.accum]; exact h.short), cmdMoveBack_holds h]
  simp only [bind, Except.bind, hset, htext]
  rfl

theorem typed_holds (h : Collecting t.cmdIf p) (hc : c ≠ 0) (hlen : p.length + 1 < cmdMaxCommandLine) :
    Collecting (typed t p c).cmdIf (p ++ [c]) where
  buf := rfl
  cur := by
    unfold cmdMaxCommandLine at hlen
    have hcur := h.cur
    simp only [typed, UInt8.toNat_add, UInt8.reduceToNat, List.length_append, List.length_singleton]
    omega
  accum := by
    rw [List.length_append, ← h.accum]
    rfl
  text := by
    intro x hx
    rcases List.mem_append.1 hx with hx | hx
    · exact h.text x hx
    · rw [List.mem_singleton.1 hx]
      exact hc
  history := h.history

/-- A character of a short line is taken. -/
theorem cmdPutChar_takes (h : Collecting t.cmdIf p) (hc : c ≠ 0) (hlen : p.length + 1 < cmdMaxCommandLine)
    (fuel : Nat) :
    cmdPutChar (fuel + 1) t c = .ok (typed t p c) := by
  have hnew := typed_holds h hc hlen
  rw [cmdPutChar_eq h hc]
  exact forU8_none (by rw [hnew.accum, hnew.cur]; omega) _ fuel _

/-- The 256th character of a line is not: the cursor is 0 again, and the loop
behind it does not end. -/
theorem cmdPutChar_spins (h : Collecting t.cmdIf p) (hc : c ≠ 0) (hlen : ¬ p.length + 1 < cmdMaxCommandLine)
    (fuel : Nat) :
    cmdPutChar fuel t c = .error .fuel := by
  have hshort := h.short
  unfold cmdMaxCommandLine at hlen hshort
  cases fuel with
  | zero =>
    rw [cmdPutChar, if_pos (by rw [h.accum]; exact h.short)]
    rfl
  | succ fuel =>
    rw [cmdPutChar_eq h hc]
    refine forU8_spins ?_ (fun _ t => ⟨_, rfl⟩) _ _ _
    have haccum := h.accum
    have hcur := h.cur
    simp only [typed, UInt8.toNat_add, UInt8.reduceToNat]
    omega

end Char

/-! ## The end of a line -/

/-- The first word of a line. -/
def firstWord (line : List UInt8) : List UInt8 :=
  (line.dropWhile cmdIsWhiteSpace).takeWhile fun c => !cmdIsWhiteSpace c

/-- What the handler is to get for a line: its first word, or nothing. -/
def lineCommand (line : List UInt8) : Option (List UInt8 × Int16) :=
  if firstWord line = [] then none else some (firstWord line, (firstWord line).length.toInt16)

/-- What the handler has got. -/
def handled (out : List CmdOutput) : List (List UInt8 × Int16) :=
  out.filterMap fun
    | .handle cmd len => some (cmd, len)
    | .print _ => none

theorem dropWhile_lineBuf (p : List UInt8) :
    (lineBuf p).dropWhile cmdIsWhiteSpace =
      p.dropWhile cmdIsWhiteSpace ++ List.replicate (cmdlineSize - p.length) 0 := by
  have hzeros (n : Nat) : (List.replicate n (0 : UInt8)).dropWhile cmdIsWhiteSpace = List.replicate n 0 := by
    cases n <;> rfl
  rw [lineBuf, List.dropWhile_append, hzeros]
  split
  · next h => rw [List.isEmpty_iff.1 h, List.nil_append]
  · rfl

theorem takeWhile_word (h : Text p) (n : Nat) :
    (p ++ List.replicate n 0).takeWhile (fun c => !cmdIsWhiteSpace c && c != 0) =
      p.takeWhile fun c => !cmdIsWhiteSpace c := by
  induction p with
  | nil => cases n <;> rfl
  | cons c p ih =>
    have hc : (c != 0) = true := bne_iff_ne.2 (h c (List.mem_cons_self ..))
    have htail := ih fun x hx => h x (List.mem_cons_of_mem _ hx)
    rw [List.cons_append, List.takeWhile_cons, List.takeWhile_cons, hc, Bool.and_true, htail]

/-- The parser finds the first word of the line. -/
theorem cmdParse_line (hbuf : t.cmdlineBuf = lineBuf p) (hp : p.length < cmdMaxCommandLine) (htext : Text p) :
    ∃ t', cmdParse t = .ok (t', if firstWord p = [] then none else some (firstWord p)) ∧
      t'.cmdHistory = t.cmdHistory := by
  have hrest : t.cmdlineBuf.dropWhile cmdIsWhiteSpace =
      p.dropWhile cmdIsWhiteSpace ++ List.replicate (cmdlineSize - p.length) 0 := by
    rw [hbuf, dropWhile_lineBuf]
  have hword : (t.cmdlineBuf.dropWhile cmdIsWhiteSpace).takeWhile (fun c => !cmdIsWhiteSpace c && c != 0) =
      firstWord p := by
    rw [hrest]
    exact takeWhile_word (fun c hc => htext c ((List.dropWhile_sublist _).subset hc)) _
  have hlen : t.cmdlineBuf.length = cmdlineSize := by rw [hbuf, length_lineBuf hp]
  have hfirst : (firstWord p).length ≤ (p.dropWhile cmdIsWhiteSpace).length := (List.takeWhile_sublist _).length_le
  have hdrop : (p.dropWhile cmdIsWhiteSpace).length ≤ p.length := (List.dropWhile_sublist _).length_le
  have hrestLen := congrArg List.length hrest
  rw [List.length_append, List.length_replicate] at hrestLen
  unfold cmdMaxCommandLine at hp
  have hsize : cmdlineSize = 258 := rfl
  have hcheck : decide (t.cmdlineBuf.length - (t.cmdlineBuf.dropWhile cmdIsWhiteSpace).length < t.cmdlineBuf.length) =
      true := decide_eq_true (by omega)
  simp only [cmdParse, hcheck, check_true, hword]
  by_cases hnil : firstWord p = []
  · simp only [if_pos hnil]
    exact ⟨t, rfl, rfl⟩
  · have hset := setBuf_eq (t := t)
      (show t.cmdlineBuf.length - (t.cmdlineBuf.dropWhile cmdIsWhiteSpace).length + (firstWord p).length <
        t.cmdlineBuf.length by omega) 0
    simp only [if_neg hnil, hset]
    exact ⟨_, rfl, rfl⟩

theorem nextHistory_tail (t : CmdIf) : (nextHistory t).historyTail = 0 := by
  unfold nextHistory
  split
  · rfl
  · simp only [cmdMaxHistoryLine, Nat.mod_one]
    rfl

/-- The command is saved in the history, and the line stays. -/
theorem saveHistory_next (hhist : t.cmdHistory.length = cmdMaxHistoryLine) (haccum : t.accumCmdLen ≤ cmdlineSize) :
    ∃ t', saveHistory (nextHistory t) = .ok t' ∧ t'.cmdlineBuf = t.cmdlineBuf ∧ t'.accumCmdLen = t.accumCmdLen ∧
      t'.cmdHistory.length = cmdMaxHistoryLine := by
  have hkeep : (nextHistory t).cmdlineBuf = t.cmdlineBuf ∧ (nextHistory t).accumCmdLen = t.accumCmdLen ∧
      (nextHistory t).cmdHistory = t.cmdHistory := by
    unfold nextHistory
    split <;> exact ⟨rfl, rfl, rfl⟩
  obtain ⟨hbuf, hlen, hrows⟩ := hkeep
  have hcheck : (decide ((nextHistory t).historyTail.toNat < (nextHistory t).cmdHistory.length) &&
      decide ((nextHistory t).accumCmdLen ≤ cmdlineSize)) = true := by
    rw [nextHistory_tail, hrows, hhist, hlen, decide_eq_true haccum]
    rfl
  simp only [saveHistory, hcheck]
  refine ⟨_, rfl, hbuf, hlen, ?_⟩
  rw [List.length_set, hrows, hhist]

section Line

variable {t : Collector} {p : List UInt8}

/-- At the end of a line the handler gets its command, and a new line begins. -/
theorem cmdLineEnd_handles (h : Collecting t.cmdIf p) :
    ∃ t', cmdLineEnd t = .ok t' ∧ Collecting t'.cmdIf [] ∧
      handled t'.out = handled t.out ++ (lineCommand p).toList := by
  have hshort := h.short
  unfold cmdMaxCommandLine at hshort
  have haccum := h.accum
  by_cases hpos : t.cmdIf.accumCmdLen > 0
  · obtain ⟨t₁, hsave, hbuf, hlen, hhist⟩ := saveHistory_next
      (t := { t.cmdIf with historyCur := cmdMaxHistoryLine.toUInt8 }) h.history
      (by simp only [cmdlineSize, cmdMaxCommandLine]; omega)
    have hbuf₁ : t₁.cmdlineBuf = lineBuf p := hbuf.trans h.buf
    have hlen₁ : t₁.accumCmdLen = p.length := hlen.trans haccum
    have hset := setBuf_eq (t := t₁) (i := t₁.accumCmdLen)
      (by rw [hbuf₁, hlen₁, length_lineBuf h.short]; simp only [cmdlineSize, cmdMaxCommandLine]; omega) 0
    obtain ⟨t₂, hparse, hhist₂⟩ := cmdParse_line (t := { t₁ with cmdlineBuf := t₁.cmdlineBuf.set t₁.accumCmdLen 0 })
      (by rw [hbuf₁, hlen₁, lineBuf_set_zero h.short]) h.short h.text
    have hnew : Collecting (cmdClear t₂) [] := cmdClear_holds (by rw [hhist₂, hhist])
    simp only [cmdLineEnd, Collector.emit, if_pos hpos, hsave, hset, hparse, bind, Except.bind, lineCommand]
    by_cases hword : firstWord p = []
    · exact ⟨_, rfl, hnew, by simp [handled, hword]⟩
    · exact ⟨_, rfl, hnew, by simp [handled, hword]⟩
  · have hnil : p = [] := List.eq_nil_of_length_eq_zero (by omega)
    have hrun : cmdLineEnd t = .ok
        { t.emit (.print [0x0d, 0x0a]) with
          cmdIf := cmdClear { t.cmdIf with historyCur := cmdMaxHistoryLine.toUInt8 } } := if_neg hpos
    refine ⟨_, hrun, cmdClear_holds h.history, ?_⟩
    subst hnil
    simp [handled, lineCommand, firstWord, Collector.emit]

end Line

/-! ## A stream -/

/-- The lines of a stream without their NUL characters, when a line has begun;
the last one is not ended yet. -/
def linesFrom (p stream : List UInt8) : List (List UInt8) :=
  ((stream.filter (· != 0)).splitOnP isLineEnd).modifyHead (p ++ ·)

@[simp] theorem linesFrom_nil (p : List UInt8) : linesFrom p [] = [p] := by simp [linesFrom]

theorem linesFrom_ne_nil (p stream : List UInt8) : linesFrom p stream ≠ [] := by
  simp [linesFrom, List.splitOnP_ne_nil]

theorem linesFrom_zero (p stream : List UInt8) : linesFrom p (0 :: stream) = linesFrom p stream := rfl

theorem linesFrom_end {c : UInt8} (hc : c ≠ 0) (hend : isLineEnd c = true) (p stream : List UInt8) :
    linesFrom p (c :: stream) = p :: linesFrom [] stream := by
  have hid (l : List (List UInt8)) : l.modifyHead (fun line => line) = l := by cases l <;> rfl
  simp [linesFrom, hc, hend, List.splitOnP_cons_eq_if_modifyHead, hid]

theorem linesFrom_char {c : UInt8} (hc : c ≠ 0) (hend : isLineEnd c = false) (p stream : List UInt8) :
    linesFrom p (c :: stream) = linesFrom (p ++ [c]) stream := by
  simp [linesFrom, hc, hend, List.splitOnP_cons_eq_if_modifyHead, Function.comp_def]

/-- All lines have fewer than 256 characters. -/
def ShortFrom (p stream : List UInt8) : Prop := ∀ line ∈ linesFrom p stream, line.length < cmdMaxCommandLine

/-- What the handler is to get for a stream: for every line that is ended the
command in its first 256 characters. -/
def commandsFrom (p stream : List UInt8) : List (List UInt8 × Int16) :=
  (linesFrom p stream).dropLast.filterMap fun line => lineCommand (line.take cmdMaxCommandLine)

theorem commandsFrom_end {c : UInt8} (hc : c ≠ 0) (hend : isLineEnd c = true) {p : List UInt8}
    (hp : p.length < cmdMaxCommandLine) (stream : List UInt8) :
    commandsFrom p (c :: stream) = (lineCommand p).toList ++ commandsFrom [] stream := by
  rw [commandsFrom, linesFrom_end hc hend, List.dropLast_cons_of_ne_nil (linesFrom_ne_nil _ _), List.filterMap_cons,
    List.take_of_length_le (Nat.le_of_lt hp), commandsFrom]
  cases lineCommand p <;> rfl

/-- The line that has begun is the start of a line. -/
theorem exists_mem_linesFrom (p stream : List UInt8) : ∃ line ∈ linesFrom p stream, p <+: line := by
  induction stream generalizing p with
  | nil => exact ⟨p, by simp, List.prefix_rfl⟩
  | cons c stream ih =>
    by_cases hc : c = 0
    · rw [hc, linesFrom_zero]
      exact ih p
    by_cases hend : isLineEnd c = true
    · rw [linesFrom_end hc hend]
      exact ⟨p, List.mem_cons_self .., List.prefix_rfl⟩
    · rw [linesFrom_char hc (Bool.eq_false_iff.2 hend)]
      obtain ⟨line, hmem, hpre⟩ := ih (p ++ [c])
      exact ⟨line, hmem, (List.prefix_append p [c]).trans hpre⟩

theorem ShortFrom.length_lt {p stream : List UInt8} (h : ShortFrom p stream) : p.length < cmdMaxCommandLine := by
  obtain ⟨line, hmem, hpre⟩ := exists_mem_linesFrom p stream
  exact Nat.lt_of_le_of_lt hpre.length_le (h line hmem)

section Stream

variable {t : Collector} {p : List UInt8}

/-- With short lines the stream is collected, and the handler gets its commands. -/
theorem cmdCollect_short (h : Collecting t.cmdIf p) {stream : List UInt8} (hshort : ShortFrom p stream) (fuel : Nat) :
    ∃ t' q, cmdCollect (fuel + 1) t stream = .ok t' ∧ Collecting t'.cmdIf q ∧
      handled t'.out = handled t.out ++ commandsFrom p stream := by
  induction stream generalizing t p with
  | nil => exact ⟨t, p, rfl, h, by simp [commandsFrom]⟩
  | cons c stream ih =>
    by_cases hc : c = 0
    · subst hc
      obtain ⟨t', q, hrun, hq, hout⟩ := ih h hshort
      exact ⟨t', q, hrun, hq, hout⟩
    by_cases hend : isLineEnd c = true
    · obtain ⟨t₁, hstep, h₁, hout₁⟩ := cmdLineEnd_handles h
      rw [ShortFrom, linesFrom_end hc hend] at hshort
      obtain ⟨t', q, hrun, hq, hout⟩ := ih h₁ fun line hline => hshort line (List.mem_cons_of_mem _ hline)
      refine ⟨t', q, ?_, hq, ?_⟩
      · rw [cmdCollect, List.foldlM_cons, cmdCollectChar, if_neg hc, if_pos hend, hstep]
        exact hrun
      · rw [hout, hout₁, List.append_assoc, commandsFrom_end hc hend h.short]
    · have hend' : isLineEnd c = false := Bool.eq_false_iff.2 hend
      rw [ShortFrom, linesFrom_char hc hend'] at hshort
      have hlen := ShortFrom.length_lt hshort
      rw [List.length_append, List.length_singleton] at hlen
      obtain ⟨t', q, hrun, hq, hout⟩ := ih (typed_holds h hc hlen) hshort
      refine ⟨t', q, ?_, hq, ?_⟩
      · rw [cmdCollect, List.foldlM_cons, cmdCollectChar, if_neg hc, if_neg hend, cmdPutChar_takes h hc hlen]
        exact hrun
      · rw [hout, commandsFrom, commandsFrom, linesFrom_char hc hend']
        simp [typed, handled]

/-- With a long line the collector does not come to the end of the stream. -/
theorem cmdCollect_long (h : Collecting t.cmdIf p) {stream : List UInt8} (hlong : ¬ ShortFrom p stream) (fuel : Nat) :
    cmdCollect fuel t stream = .error .fuel := by
  induction stream generalizing t p with
  | nil =>
    refine absurd (fun line hline => ?_) hlong
    rw [linesFrom_nil, List.mem_singleton] at hline
    exact hline ▸ h.short
  | cons c stream ih =>
    by_cases hc : c = 0
    · subst hc
      exact ih h hlong
    rw [cmdCollect, List.foldlM_cons, cmdCollectChar, if_neg hc]
    by_cases hend : isLineEnd c = true
    · obtain ⟨t₁, hstep, h₁, -⟩ := cmdLineEnd_handles h
      rw [if_pos hend, hstep]
      refine ih h₁ fun hshort => hlong ?_
      rw [ShortFrom, linesFrom_end hc hend]
      exact List.forall_mem_cons.2 ⟨h.short, hshort⟩
    · rw [if_neg hend]
      by_cases hlen : p.length + 1 < cmdMaxCommandLine
      · cases fuel with
        | zero =>
          rw [cmdPutChar, if_pos (by rw [h.accum]; exact h.short)]
          rfl
        | succ fuel =>
          rw [cmdPutChar_takes h hc hlen]
          refine ih (typed_holds h hc hlen) fun hshort => hlong ?_
          rw [ShortFrom, linesFrom_char hc (Bool.eq_false_iff.2 hend)]
          exact hshort
      · rw [cmdPutChar_spins h hc hlen]
        rfl

end Stream

/-! ## The collector -/

/-- `cmd_collect` on one piece of a stream after the other. -/
def collectPieces (fuel : Nat) (t : Collector) (pieces : List (List UInt8)) : Except Stop Collector :=
  pieces.foldlM (cmdCollect fuel) t

theorem collectPieces_eq (fuel : Nat) (t : Collector) (pieces : List (List UInt8)) :
    collectPieces fuel t pieces = cmdCollect fuel t pieces.flatten := by
  induction pieces generalizing t with
  | nil => rfl
  | cons piece pieces ih =>
    rw [List.flatten_cons, cmdCollect, List.foldlM_append, collectPieces, List.foldlM_cons]
    exact congrArg _ (funext ih)

theorem cmdInit_holds (projectName : List UInt8) : Collecting (cmdInit projectName).cmdIf [] where
  buf := rfl
  cur := rfl
  accum := rfl
  text := fun _ hc => absurd hc List.not_mem_nil
  history := rfl

/-- With this fuel for its loops the collector comes to the end of all pieces,
all its accesses are in range, the handler gets the commands of the stream, and
at every character on the way the cursor is at the end of a line that fits. -/
structure CollectsWith (fuel : Nat) (projectName : List UInt8) (pieces : List (List UInt8)) : Prop where
  ends : ∃ t, collectPieces fuel (cmdInit projectName) pieces = .ok t ∧
    handled t.out = commandsFrom [] pieces.flatten
  cursor : ∀ stream, stream <+: pieces.flatten → ∃ t, cmdCollect fuel (cmdInit projectName) stream = .ok t ∧
    t.cmdIf.cmdCur.toNat = t.cmdIf.accumCmdLen ∧ t.cmdIf.accumCmdLen ≤ cmdMaxCommandLine

/-- **When the collector works**: just when no line of the stream, and no line
that is not ended yet, has 256 characters or more. -/
theorem collects_iff (projectName : List UInt8) (pieces : List (List UInt8)) :
    (∃ fuel, CollectsWith fuel projectName pieces) ↔ ShortFrom [] pieces.flatten := by
  have hinit := cmdInit_holds projectName
  constructor
  · rintro ⟨fuel, h⟩
    by_contra hlong
    obtain ⟨t, hrun, -⟩ := h.ends
    rw [collectPieces_eq, cmdCollect_long hinit hlong] at hrun
    exact absurd hrun (by simp)
  · intro hshort
    obtain ⟨t, q, hrun, -, hout⟩ := cmdCollect_short hinit hshort 0
    refine ⟨1, ⟨t, by rw [collectPieces_eq, hrun], hout⟩, ?_⟩
    rintro stream ⟨rest, hrest⟩
    -- a long line at the start of the stream would have stopped it
    have hstart : ShortFrom [] stream := by
      by_contra hlong
      rw [← hrest, cmdCollect, List.foldlM_append] at hrun
      rw [show stream.foldlM (cmdCollectChar 1) (cmdInit projectName) = .error .fuel from
        cmdCollect_long hinit hlong 1] at hrun
      exact absurd hrun (by simp [bind, Except.bind])
    obtain ⟨t', q, hrun', hq, -⟩ := cmdCollect_short hinit hstart 0
    exact ⟨t', hrun', hq.cur.trans hq.accum.symm, hq.accum ▸ Nat.le_of_lt hq.short⟩

/-- A line of 256 characters: whatever the fuel, the collector does not come to its end. -/
theorem long_line_hangs : ¬ ∃ fuel t, collectPieces fuel (cmdInit []) [List.replicate 256 0x61] = .ok t := by
  have hlines : linesFrom [] [List.replicate 256 (0x61 : UInt8)].flatten = [List.replicate 256 0x61] := by
    decide +kernel
  have hlong : ¬ ShortFrom [] [List.replicate 256 (0x61 : UInt8)].flatten := by
    intro h
    rw [ShortFrom, hlines] at h
    exact absurd (h _ (List.mem_cons_self ..)) (by decide +kernel)
  rintro ⟨fuel, t, hrun⟩
  rw [collectPieces_eq, cmdCollect_long (cmdInit_holds []) hlong] at hrun
  exact absurd hrun (by simp)

end Petbox.Tracker
