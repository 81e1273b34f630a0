/-
The responses of the modem (`at_client.c`): `client_parser` stores the lines of the
response that `at_obj_exec_cmd` waits for, and `at_resp_get_line` finds them again.

How many lines and bytes are stored is known to the parser thread alone. It counts
from zero again behind a response that ended, not behind one that did not come in time.
-/
import Petbox.Lib.Run
import Petbox.Modem.Domain
import Petbox.Modem.ReadLine

namespace Petbox.Modem

open CStr Machine

/-! ## The code -/

/-- `at_resp_status`, but for `AT_RESP_TIMEOUT`, which is set without an operating
system only. -/
inductive AtRespStatus
  | ok
  | error
  | buffFull
  deriving DecidableEq, Repr

/-- `at_response`: its `buf_size` bytes, how many lines it waits for, and how many it
got. -/
structure AtResponse where
  buf : List UInt8
  lineNum : Nat
  lineCounts : Nat
  deriving DecidableEq, Repr

/-- The loop of `at_resp_get_line`, with `n` lines left. -/
def getLineLoop (respLine : Nat) : (n lineNum : Nat) → List UInt8 → Option (List UInt8)
  | 0, _, _ => none
  | n + 1, lineNum, buf =>
    if respLine = lineNum then some (cstr buf)
    else getLineLoop respLine n (lineNum + 1) (buf.drop ((cstr buf).length + 1))

/-- `at_resp_get_line`. -/
def atRespGetLine (resp : AtResponse) (respLine : Nat) : Option (List UInt8) :=
  if respLine > resp.lineCounts ∨ respLine = 0 then none else getLineLoop respLine resp.lineCounts 1 resp.buf

/-- The loop of `at_resp_get_line_by_kw`. -/
def getLineByKwLoop (keyword : List UInt8) : (n : Nat) → List UInt8 → Option (List UInt8)
  | 0, _ => none
  | n + 1, buf =>
    if hasKeyword keyword (cstr buf) then some (cstr buf)
    else getLineByKwLoop keyword n (buf.drop ((cstr buf).length + 1))

/-- Where `at_obj_exec_cmd` is: in no call, in `HAL_SemaphoreWait`, behind it, or behind
the test of `resp_status`. -/
inductive ExecPhase
  | idle
  | waiting
  | woken
  | checked (result : Int)
  deriving DecidableEq, Repr

/-- `sg_at_client` and the variables of `client_parser`. `client->resp` is null, or the
object `obj` of the command that is executed. -/
structure AtClient where
  obj : AtResponse
  resp : Bool
  respStatus : AtRespStatus
  respSem : Bool
  endSign : UInt8
  respBufLen : Nat
  lineCounts : Nat
  phase : ExecPhase
  deriving DecidableEq, Repr

/-- `client_parser` from its label `exit` on. -/
def AtClient.exit (c : AtClient) : AtClient :=
  { c with
    obj := { c.obj with lineCounts := c.lineCounts }, resp := false, respBufLen := 0, lineCounts := 0, respSem := true }

/-- A line is copied behind those that are stored. -/
def AtClient.store (c : AtClient) (line : List UInt8) : AtClient :=
  if c.respBufLen + line.length < c.obj.buf.length then
    { c with
      obj := { c.obj with buf := c.obj.buf.take c.respBufLen ++ line ++ c.obj.buf.drop (c.respBufLen + line.length) }
      respBufLen := c.respBufLen + line.length, lineCounts := c.lineCounts + 1 }
  else { c with respStatus := .buffFull }

/-- How a line ends the response, if it does. -/
def endStatus (lineNum lineCounts : Nat) (line : List UInt8) : Option AtRespStatus :=
  if (ascii "OK").isPrefixOf line ∧ lineNum = 0 then some .ok
  else if hasKeyword (ascii "ERROR") (cstr line) ∨ (ascii "FAIL").isPrefixOf line then some .error
  else if lineCounts = lineNum ∧ lineNum ≠ 0 then some .ok
  else none

/-- `client_parser` with a line that is no URC. -/
def clientParser (c : AtClient) (buffer : List UInt8) : AtClient :=
  if buffer = [] then c
  else if c.resp = false then c
  else if c.endSign ≠ 0 then
    if buffer.getLast? = some c.endSign then c.exit else c
  else
    let line := buffer.dropLast ++ [0]
    let c := c.store line
    match endStatus c.obj.lineNum c.lineCounts line with
    | some status => { c with respStatus := status }.exit
    | none => c

/-! ## The client at work -/

/-- What happens to the client: a command is sent and its response waited for; the
parser thread gets a line; the wait ends with the semaphore or without it, the status
is tested, and the call returns; the end sign is set. -/
inductive ClientAct
  | execCmd (resp : AtResponse)
  | line (buffer : List UInt8)
  | take
  | expire
  | check
  | detach
  | setEndSign (ch : UInt8)
  deriving DecidableEq

def AtClient.step (c : AtClient) : ClientAct → Option AtClient
  | .execCmd resp =>
    if c.phase = .idle then
      some { c with obj := { resp with lineCounts := 0 }, resp := true, respStatus := .ok, phase := .waiting }
    else none
  | .line buffer => some (clientParser c buffer)
  | .take => if c.phase = .waiting ∧ c.respSem = true then some { c with respSem := false, phase := .woken } else none
  | .expire => if c.phase = .waiting ∧ c.respSem = false then some { c with phase := .woken } else none
  | .check =>
    if c.phase = .woken then
      some { c with phase := .checked (if c.respStatus ≠ .ok then qcloudErrFailure else qcloudRetSuccess) }
    else none
  | .detach =>
    match c.phase with
    | .checked _ => some { c with resp := false, phase := .idle }
    | _ => none
  | .setEndSign ch => some { c with endSign := ch }

/-- What the caller of `at_obj_exec_cmd` has from it: the result, and what it reads from
the response. -/
structure Reply where
  ret : Int
  getLine : Nat → Option (List UInt8)
  getLineByKw : List UInt8 → Option (List UInt8)

/-- The replies to the commands. -/
def AtClient.replies (c : AtClient) (a : ClientAct) : List Reply :=
  match a, c.phase with
  | .detach, .checked ret => [⟨ret, atRespGetLine c.obj, fun kw => getLineByKwLoop kw c.obj.lineCounts c.obj.buf⟩]
  | _, _ => []

/-- No command is executed, and no line was stored. -/
structure AtClient.Idle (c : AtClient) : Prop where
  phase : c.phase = .idle
  resp : c.resp = false
  respSem : c.respSem = false
  respBufLen : c.respBufLen = 0
  lineCounts : c.lineCounts = 0

/-! ## Commands and their responses -/

/-- A command, with the lines of its response as they come in, and whether one of them
did not fit. -/
inductive Command
  | idle
  | waiting (size lineNum : Nat) (lines : List (List UInt8)) (full : Bool)
  | ended (answer : Answer)
  | woken (answer : Answer)
  | checked (answer : Answer)

/-- The commands one after the other, and the end sign. -/
structure Talk where
  command : Command
  endSign : UInt8

/-- The bytes of lines that are stored: a 0 behind each. -/
def stored (lines : List (List UInt8)) : List UInt8 := (lines.map fun l => l ++ [0]).flatten

def result (failed : Bool) : Int := if failed then qcloudErrFailure else qcloudRetSuccess

/-- The parser thread gets a line. -/
def Command.next (endSign : UInt8) (buffer : List UInt8) : Command → Command
  | .waiting size lineNum lines full =>
    if buffer = [] then .waiting size lineNum lines full
    else if endSign ≠ 0 then
      if buffer.getLast? = some endSign then .ended ⟨result full, lines⟩ else .waiting size lineNum lines full
    else
      let fits := (stored (lines ++ [buffer.dropLast])).length < size
      let lines := if fits then lines ++ [buffer.dropLast] else lines
      match endStatus lineNum lines.length (buffer.dropLast ++ [0]) with
      | some status => .ended ⟨result (status != .ok), lines⟩
      | none => .waiting size lineNum lines (full || !fits)
  | command => command

def Talk.step (t : Talk) : ClientAct → Option Talk
  | .execCmd resp =>
    match t.command with
    | .idle => some { t with command := .waiting resp.buf.length resp.lineNum [] false }
    | _ => none
  | .line buffer => some { t with command := t.command.next t.endSign buffer }
  | .take =>
    match t.command with
    | .ended answer => some { t with command := .woken answer }
    | _ => none
  -- That no response came is no failure.
  | .expire =>
    match t.command with
    | .waiting _ _ _ full => some { t with command := .woken ⟨result full, []⟩ }
    | _ => none
  | .check =>
    match t.command with
    | .woken answer => some { t with command := .checked answer }
    | _ => none
  | .detach =>
    match t.command with
    | .checked _ => some { t with command := .idle }
    | _ => none
  | .setEndSign ch => some { t with endSign := ch }

/-- What the caller reads from an answer. -/
def Answer.reply (a : Answer) : Reply where
  ret := a.ret
  getLine k := if k = 0 then none else a.lines[k - 1]?
  getLineByKw kw := a.lines.find? (hasKeyword kw)

def Talk.replies (t : Talk) (a : ClientAct) : List Reply :=
  match a, t.command with
  | .detach, .checked answer => [answer.reply]
  | _, _ => []

/-- A command times out before a line is stored for it, no line comes between that and
the end of the call, and no line of a response has a 0 in it. -/
def Punctual (c : AtClient) : ClientAct → Prop
  | .line buffer => c.resp = true → c.phase = .waiting ∧ Text buffer.dropLast
  | .expire => c.lineCounts = 0
  | _ => True

/-! ## Reading a response -/

section Read

variable {lines : List (List UInt8)} {line : List UInt8}

@[simp] theorem stored_nil : stored [] = [] := rfl
@[simp] theorem stored_cons : stored (line :: lines) = line ++ 0 :: stored lines := by simp [stored]
@[simp] theorem stored_append (ls ms : List (List UInt8)) : stored (ls ++ ms) = stored ls ++ stored ms := by
  simp [stored]

theorem getLineLoop_stored (hlines : ∀ l ∈ lines, Text l) (rest : List UInt8) {k i : Nat} (hk : i ≤ k) :
    getLineLoop k lines.length i (stored lines ++ rest) = lines[k - i]? := by
  induction lines generalizing i with
  | nil => rfl
  | cons line lines ih =>
    have hcstr : cstr (stored (line :: lines) ++ rest) = line := by
      rw [stored_cons, List.append_assoc, List.cons_append, cstr_append_zero (hlines line (by simp))]
    by_cases heq : k = i
    · rw [List.length_cons, getLineLoop, if_pos heq, hcstr]
      simp [heq]
    · have hdrop : (stored (line :: lines) ++ rest).drop (line.length + 1) = stored lines ++ rest := by
        simp
      obtain ⟨j, rfl⟩ := Nat.exists_eq_add_of_lt (show i < k by omega)
      rw [List.length_cons, getLineLoop, if_neg heq, hcstr, hdrop, ih (fun l hl => hlines l (by simp [hl])) (by omega)]
      simp [show i + j + 1 - i = j + 1 by omega, show i + j + 1 - (i + 1) = j by omega]

theorem getLineByKwLoop_stored (hlines : ∀ l ∈ lines, Text l) (rest keyword : List UInt8) :
    getLineByKwLoop keyword lines.length (stored lines ++ rest) = lines.find? (hasKeyword keyword) := by
  induction lines with
  | nil => rfl
  | cons line lines ih =>
    have hcstr : cstr (stored (line :: lines) ++ rest) = line := by
      rw [stored_cons, List.append_assoc, List.cons_append, cstr_append_zero (hlines line (by simp))]
    have hdrop : (stored (line :: lines) ++ rest).drop (line.length + 1) = stored lines ++ rest := by
      simp
    rw [List.length_cons, getLineByKwLoop, hcstr, hdrop, ih fun l hl => hlines l (by simp [hl]), List.find?_cons]
    cases hasKeyword keyword line <;> rfl

/-- The object has these lines. -/
def AtResponse.Has (resp : AtResponse) (lines : List (List UInt8)) : Prop :=
  resp.lineCounts = lines.length ∧ (∃ rest, resp.buf = stored lines ++ rest) ∧ ∀ l ∈ lines, Text l

theorem AtResponse.Has.reply {resp : AtResponse} (h : resp.Has lines) (ret : Int) :
    Reply.mk ret (atRespGetLine resp) (fun kw => getLineByKwLoop kw resp.lineCounts resp.buf) =
      (Answer.mk ret lines).reply := by
  obtain ⟨hcounts, ⟨rest, hbuf⟩, hlines⟩ := h
  simp only [Answer.reply, Reply.mk.injEq, true_and]
  constructor
  · funext k
    by_cases hk : k = 0
    · simp [atRespGetLine, hk]
    · rw [if_neg hk, atRespGetLine, hcounts, hbuf, getLineLoop_stored hlines rest (by omega)]
      by_cases hlt : k > lines.length
      · simp [hlt]
        omega
      · simp [hlt, hk]
  · funext kw
    rw [hcounts, hbuf, getLineByKwLoop_stored hlines]

end Read

/-! ## The client keeps to the commands -/

/-- The client waits for the rest of a response. -/
structure AtClient.Collects (c : AtClient) (size lineNum : Nat) (lines : List (List UInt8)) (full : Bool) : Prop where
  phase : c.phase = .waiting
  resp : c.resp = true
  respSem : c.respSem = false
  size : c.obj.buf.length = size
  lineNum : c.obj.lineNum = lineNum
  notYet : c.obj.lineCounts = 0
  status : c.respStatus = if full then .buffFull else .ok
  lineCounts : c.lineCounts = lines.length
  respBufLen : c.respBufLen = (stored lines).length
  buf : ∃ rest, c.obj.buf = stored lines ++ rest
  text : ∀ l ∈ lines, Text l

/-- The client has the answer to the command, and counts from zero again. -/
structure AtClient.Answers (c : AtClient) (answer : Answer) : Prop where
  respBufLen : c.respBufLen = 0
  lineCounts : c.lineCounts = 0
  has : c.obj.Has answer.lines
  ret : answer.ret = result (c.respStatus != .ok)

/-- The client stands for the commands. -/
def Stands (c : AtClient) (t : Talk) : Prop :=
  c.endSign = t.endSign ∧
    match t.command with
    | .idle => c.Idle
    | .waiting size lineNum lines full => c.Collects size lineNum lines full
    | .ended answer => c.Answers answer ∧ c.phase = .waiting ∧ c.resp = false ∧ c.respSem = true
    | .woken answer => c.Answers answer ∧ c.phase = .woken ∧ c.respSem = false
    | .checked answer => c.Answers answer ∧ c.phase = .checked answer.ret ∧ c.respSem = false

section Sim

variable {c : AtClient} {t : Talk} {size lineNum : Nat} {lines : List (List UInt8)} {line buffer : List UInt8}
  {full : Bool}

theorem clientParser_detached (h : c.resp = false) (buffer : List UInt8) : clientParser c buffer = c := by
  simp [clientParser, h]

/-- A line that fits is added; another one is dropped. -/
theorem AtClient.Collects.store (hc : c.Collects size lineNum lines full) (hline : Text line) :
    (c.store (line ++ [0])).Collects size lineNum
      (if (stored (lines ++ [line])).length < size then lines ++ [line] else lines)
      (full || !decide ((stored (lines ++ [line])).length < size)) := by
  have hlen : (stored (lines ++ [line])).length = c.respBufLen + (line ++ [0]).length := by
    simp [hc.respBufLen]
  obtain ⟨rest, hbuf⟩ := hc.buf
  by_cases hfits : (stored (lines ++ [line])).length < size
  · have hfits' : c.respBufLen + (line ++ [0]).length < c.obj.buf.length := by rwa [← hlen, hc.size]
    simp only [AtClient.store, if_pos hfits', hfits, decide_true, Bool.not_true, Bool.or_false]
    refine { hc with size := ?_, lineCounts := ?_, respBufLen := ?_, buf := ?_, text := ?_ }
    · rw [← hc.size]
      simp at hfits' ⊢
      omega
    · simp [hc.lineCounts]
    · simp [hc.respBufLen]
    · refine ⟨rest.drop (line.length + 1), ?_⟩
      rw [hbuf, hc.respBufLen]
      simp [List.drop_append]
    · intro l hl
      rcases List.mem_append.1 hl with hl | hl
      · exact hc.text l hl
      · rwa [List.mem_singleton.1 hl]
  · have hfits' : ¬ c.respBufLen + (line ++ [0]).length < c.obj.buf.length := by rwa [← hlen, hc.size]
    simp only [AtClient.store, if_neg hfits', hfits, decide_false, Bool.not_false, Bool.or_true]
    exact { hc with status := rfl }

/-- The response ends with these lines. -/
theorem AtClient.Collects.exit (hc : c.Collects size lineNum lines full) (status : AtRespStatus) :
    (AtClient.exit { c with respStatus := status }).Answers ⟨result (status != .ok), lines⟩ := by
  exact ⟨rfl, rfl, ⟨hc.lineCounts, hc.buf, hc.text⟩, rfl⟩

theorem endSign_store (c : AtClient) (line : List UInt8) : (c.store line).endSign = c.endSign := by
  by_cases hfits : c.respBufLen + line.length < c.obj.buf.length <;> simp [AtClient.store, hfits]

theorem AtClient.Collects.next (hc : c.Collects size lineNum lines full) (hbuffer : Text buffer.dropLast) :
    Stands (clientParser c buffer) ⟨(Command.waiting size lineNum lines full).next c.endSign buffer, c.endSign⟩ := by
  by_cases hnil : buffer = []
  · simpa [clientParser, Command.next, hnil, Stands] using hc
  · by_cases hsign : c.endSign = 0
    · have hstore := hc.store hbuffer
      have hsign' := endSign_store c (buffer.dropLast ++ [0])
      simp only [clientParser, if_neg hnil, hc.resp, hsign, Command.next]
      rw [hstore.lineNum, hstore.lineCounts]
      generalize c.store (buffer.dropLast ++ [0]) = d at hstore hsign'
      cases hend : endStatus lineNum
          (if (stored (lines ++ [buffer.dropLast])).length < size then lines ++ [buffer.dropLast] else lines).length
          (buffer.dropLast ++ [0]) with
      | none => simpa [Stands, hsign', hsign] using hstore
      | some status =>
        simpa [Stands, AtClient.exit, hsign', hsign, hstore.phase, hstore.lineCounts] using hstore.exit status
    · by_cases hlast : buffer.getLast? = some c.endSign
      · have hexit := hc.exit c.respStatus
        have hfull : full = (c.respStatus != .ok) := by
          rw [hc.status]
          cases full <;> rfl
        simpa [clientParser, Command.next, hnil, hsign, hlast, hc.resp, Stands, AtClient.exit, hc.phase, hfull] using hexit
      · simpa [clientParser, Command.next, hnil, hsign, hlast, hc.resp, Stands] using hc

theorem stands_line (h : Stands c t) (hp : Punctual c (.line buffer)) :
    Stands (clientParser c buffer) { t with command := t.command.next t.endSign buffer } := by
  obtain ⟨command, endSign⟩ := t
  obtain ⟨rfl, h⟩ := h
  cases command with
  | idle =>
    rw [clientParser_detached h.resp]
    exact ⟨rfl, h⟩
  | waiting size lineNum lines full => exact h.next (hp h.resp).2
  | ended answer =>
    rw [clientParser_detached h.2.2.1]
    exact ⟨rfl, h⟩
  | woken answer =>
    have hresp : c.resp = false := by
      by_contra hresp
      have hphase := (hp (by simpa using hresp)).1
      rw [h.2.1] at hphase
      cases hphase
    rw [clientParser_detached hresp]
    exact ⟨rfl, h⟩
  | checked answer =>
    have hresp : c.resp = false := by
      by_contra hresp
      have hphase := (hp (by simpa using hresp)).1
      rw [h.2.1] at hphase
      cases hphase
    rw [clientParser_detached hresp]
    exact ⟨rfl, h⟩

theorem stands_setEndSign (h : Stands c t) (ch : UInt8) : Stands { c with endSign := ch } { t with endSign := ch } := by
  obtain ⟨command, endSign⟩ := t
  refine ⟨rfl, ?_⟩
  cases command with
  | idle => exact { h.2 with }
  | waiting size lineNum lines full => exact { h.2 with }
  | ended answer => exact ⟨{ h.2.1 with }, h.2.2⟩
  | woken answer => exact ⟨{ h.2.1 with }, h.2.2⟩
  | checked answer => exact ⟨{ h.2.1 with }, h.2.2⟩

theorem stands_execCmd (h : Stands c t) {resp : AtResponse} {c' : AtClient} (hstep : c.step (.execCmd resp) = some c') :
    ∃ t', t.step (.execCmd resp) = some t' ∧ Stands c' t' := by
  obtain ⟨command, endSign⟩ := t
  obtain ⟨rfl, h⟩ := h
  obtain ⟨hphase, hc'⟩ := Option.ite_none_right_eq_some.1 hstep
  cases hc'
  cases command with
  | idle =>
    refine ⟨_, rfl, rfl, ?_⟩
    exact ⟨rfl, rfl, h.respSem, rfl, rfl, rfl, rfl, h.lineCounts, h.respBufLen, ⟨resp.buf, rfl⟩, by simp⟩
  | waiting size lineNum lines full => simp [h.phase] at hphase
  | ended answer => simp [h.2.1] at hphase
  | woken answer => simp [h.2.1] at hphase
  | checked answer => simp [h.2.1] at hphase

/-- The semaphore is there behind the end of a response only. -/
theorem stands_take (h : Stands c t) {c' : AtClient} (hstep : c.step .take = some c') :
    ∃ t', t.step .take = some t' ∧ Stands c' t' := by
  obtain ⟨command, endSign⟩ := t
  obtain ⟨rfl, h⟩ := h
  obtain ⟨⟨hphase, hsem⟩, hc'⟩ := Option.ite_none_right_eq_some.1 hstep
  cases hc'
  cases command with
  | idle => simp [h.phase] at hphase
  | waiting size lineNum lines full => simp [h.respSem] at hsem
  | ended answer => exact ⟨_, rfl, rfl, { h.1 with }, rfl, rfl⟩
  | woken answer => simp [h.2.1] at hphase
  | checked answer => simp [h.2.1] at hphase

theorem stands_expire (h : Stands c t) (hp : Punctual c .expire) {c' : AtClient} (hstep : c.step .expire = some c') :
    ∃ t', t.step .expire = some t' ∧ Stands c' t' := by
  obtain ⟨command, endSign⟩ := t
  obtain ⟨rfl, h⟩ := h
  obtain ⟨⟨hphase, hsem⟩, hc'⟩ := Option.ite_none_right_eq_some.1 hstep
  cases hc'
  cases command with
  | idle => simp [h.phase] at hphase
  | waiting size lineNum lines full =>
    have hnil : lines = [] := List.eq_nil_of_length_eq_zero (h.lineCounts.symm.trans hp)
    subst hnil
    refine ⟨_, rfl, rfl, ⟨h.respBufLen, h.lineCounts, ⟨h.notYet, h.buf, h.text⟩, ?_⟩, rfl, hsem⟩
    simp only [h.status]
    cases full <;> rfl
  | ended answer => simp [h.2.2.2] at hsem
  | woken answer => simp [h.2.1] at hphase
  | checked answer => simp [h.2.1] at hphase

theorem stands_check (h : Stands c t) {c' : AtClient} (hstep : c.step .check = some c') :
    ∃ t', t.step .check = some t' ∧ Stands c' t' := by
  obtain ⟨command, endSign⟩ := t
  obtain ⟨rfl, h⟩ := h
  obtain ⟨hphase, hc'⟩ := Option.ite_none_right_eq_some.1 hstep
  cases hc'
  cases command with
  | idle => simp [h.phase] at hphase
  | waiting size lineNum lines full => simp [h.phase] at hphase
  | ended answer => simp [h.2.1] at hphase
  | woken answer =>
    refine ⟨_, rfl, rfl, { h.1 with }, ?_, h.2.2⟩
    have hret := h.1.ret
    cases hstatus : c.respStatus <;> simp [hret, hstatus, result]
  | checked answer => simp [h.2.1] at hphase

/-- The call returns, and its caller reads what the lines say. -/
theorem stands_detach (h : Stands c t) {c' : AtClient} (hstep : c.step .detach = some c') :
    ∃ t', t.step .detach = some t' ∧ Stands c' t' ∧ c.replies .detach = t.replies .detach := by
  obtain ⟨command, endSign⟩ := t
  obtain ⟨rfl, h⟩ := h
  cases command with
  | idle => simp [AtClient.step, h.phase] at hstep
  | waiting size lineNum lines full => simp [AtClient.step, h.phase] at hstep
  | ended answer => simp [AtClient.step, h.2.1] at hstep
  | woken answer => simp [AtClient.step, h.2.1] at hstep
  | checked answer =>
    simp only [AtClient.step, h.2.1, Option.some.injEq] at hstep
    subst hstep
    refine ⟨_, rfl, ⟨rfl, rfl, rfl, h.2.2, h.1.respBufLen, h.1.lineCounts⟩, ?_⟩
    simp only [AtClient.replies, h.2.1, Talk.replies, h.1.has.reply]

/-- Every step of the client is one of the commands, and the callers see the same. -/
theorem stands_step (c : AtClient) (a : ClientAct) (c' : AtClient) (t : Talk) (h : Stands c t) (hp : Punctual c a)
    (hstep : c.step a = some c') : ∃ t', t.step a = some t' ∧ Stands c' t' ∧ c.replies a = t.replies a := by
  -- only the end of a call shows something
  have silent : (∃ t', t.step a = some t' ∧ Stands c' t') → c.replies a = [] → t.replies a = [] →
      ∃ t', t.step a = some t' ∧ Stands c' t' ∧ c.replies a = t.replies a := by
    intro hsim hc ht
    obtain ⟨t', ht', hstands⟩ := hsim
    exact ⟨t', ht', hstands, hc.trans ht.symm⟩
  cases a with
  | line buffer =>
    cases hstep
    exact silent ⟨_, rfl, stands_line h hp⟩ rfl rfl
  | setEndSign ch =>
    cases hstep
    exact silent ⟨_, rfl, stands_setEndSign h ch⟩ rfl rfl
  | execCmd resp => exact silent (stands_execCmd h hstep) rfl rfl
  | take => exact silent (stands_take h hstep) rfl rfl
  | expire => exact silent (stands_expire h hp hstep) rfl rfl
  | check => exact silent (stands_check h hstep) rfl rfl
  | detach => exact stands_detach h hstep

end Sim

/-- **Every command gets the lines of its response**: in every order of commands, lines,
time-outs and end signs, what a caller has from `at_obj_exec_cmd`, from
`at_resp_get_line` for any number and from `at_resp_get_line_by_kw` for any keyword is
what the lines that came for its command say. -/
theorem client_answers (c : AtClient) (as : List ClientAct) (c' : AtClient) (h : c.Idle)
    (hp : Along AtClient.step Punctual c as) (hx : exec AtClient.step c as = some c') :
    ∃ t, exec Talk.step ⟨.idle, c.endSign⟩ as = some t ∧
      trace AtClient.step AtClient.replies c as = trace Talk.step Talk.replies ⟨.idle, c.endSign⟩ as := by
  obtain ⟨t, ht, -, hreplies⟩ := exec_sim_trace_along stands_step
    (show Stands c ⟨.idle, c.endSign⟩ from ⟨rfl, h⟩) hp hx
  exact ⟨t, ht, hreplies⟩

/-- A client at rest, and a command that gets `1` and `OK`. -/
def restingClient : AtClient := ⟨⟨[], 0, 0⟩, false, .ok, false, 0, 0, 0, .idle⟩

def oneLine : List ClientAct :=
  [.execCmd ⟨List.replicate 9 0, 0, 0⟩, .line [0x31, 0x0d, 0x0a], .line [0x4f, 0x4b, 0x0d, 0x0a], .take, .check, .detach]

theorem client_answers_one :
    ∃ t, exec Talk.step ⟨.idle, restingClient.endSign⟩ oneLine = some t ∧
      trace AtClient.step AtClient.replies restingClient oneLine =
        trace Talk.step Talk.replies ⟨.idle, restingClient.endSign⟩ oneLine := by
  refine client_answers restingClient oneLine _ ⟨rfl, rfl, rfl, rfl, rfl⟩ ?_ rfl
  refine .cons rfl trivial (.cons rfl (fun _ => ⟨rfl, by decide⟩) (.cons rfl (fun _ => ⟨rfl, by decide⟩) ?_))
  exact .cons rfl trivial (.cons rfl trivial (.cons rfl trivial trivial))

end Petbox.Modem
