/-
`sim7070_send`: a buffer goes to the modem in chunks, each announced by
`AT+CASEND`, written raw behind the `>` of the modem, and confirmed by `AT+CAACK`.
-/
import Petbox.Modem.AtClient

namespace Petbox.Modem

open Dialogue

/-! ## The code -/

def sim7070SendMaxLenOnce : Nat := 256

/-- `'>'`. -/
def promptSign : UInt8 := 0x3e

/-- The size of the chunk behind the first `sent` bytes of `len`. -/
def curPktSize (len sent : Nat) : Nat :=
  if len - sent < sim7070SendMaxLenOnce then len - sent else sim7070SendMaxLenOnce

theorem curPktSize_pos {len sent : Nat} (h : sent < len) : 0 < curPktSize len sent := by
  unfold curPktSize sim7070SendMaxLenOnce
  split <;> omega

/-- The loop of `sim7070_send`, and where its exits lead: `sent_size`. -/
def sendLoop (resp fd : Int) (buff : List UInt8) (sent : Nat) : ClientM Nat := do
  if sent < buff.length then
    let size := curPktSize buff.length sent
    let ret ← atExecCmd resp (.casend fd size)
    if ret ≠ qcloudRetSuccess then return sent
    atSetEndSign 0
    let temp ← atClientSend ((buff.drop sent).take size)
    if temp ≠ size then return sent
    if (← atExecCmd resp (.caack fd)) < 0 then return sent
    sendLoop resp fd buff (sent + size)
  else return sent
termination_by buff.length - sent
decreasing_by
  have := curPktSize_pos ‹_›
  omega

/-- The `size_t` returned as an `int`. -/
def sizeToInt (n : Nat) : Int := (n : Int).bmod 4294967296

/-- `sim7070_send`; no buffer stands for a null pointer. -/
def sim7070Send (fd : Int) (buff : Option (List UInt8)) : ClientM Int :=
  match buff with
  | none => return qcloudErrInval
  | some buff => do
    let resp ← atCreateResp 128 2 atRespTimeoutMs
    if resp = 0 then return qcloudErrFailure
    atSetEndSign promptSign
    let sent ← sendLoop resp fd buff 0
    atDeleteResp resp
    return sizeToInt sent

/-! ## What one turn of the loop asks -/

/-- `sim7070_send` from its label `__exit` on. -/
def sendExit (resp : Int) (sent : Nat) : ClientM Int := do
  atDeleteResp resp
  return sizeToInt sent

/-- `sim7070_send` from its loop on. -/
def sendRest (resp fd : Int) (buff : List UInt8) (sent : Nat) : ClientM Int :=
  sendLoop resp fd buff sent >>= sendExit resp

theorem sim7070Send_some (fd : Int) (buff : List UInt8) :
    sim7070Send fd (some buff) =
      (do
        let resp ← atCreateResp 128 2 atRespTimeoutMs
        if resp = 0 then return qcloudErrFailure
        atSetEndSign promptSign
        sendRest resp fd buff 0) := rfl

section Turn

variable (m : AtServer) (n : Nat) (client : Client) {resp fd : Int} {buff : List UInt8} {sent : Nat}

theorem sendRest_done (h : ¬ sent < buff.length) : sendRest resp fd buff sent = sendExit resp sent := by
  rw [sendRest, sendLoop, if_neg h, pure_bind]

/-- One turn. -/
theorem sendRest_turn (h : sent < buff.length) :
    sendRest resp fd buff sent =
      (do
        let ret ← atExecCmd resp (.casend fd (curPktSize buff.length sent))
        if ret ≠ qcloudRetSuccess then sendExit resp sent
        else
          atSetEndSign 0
          let temp ← atClientSend ((buff.drop sent).take (curPktSize buff.length sent))
          if temp ≠ curPktSize buff.length sent then sendExit resp sent
          else
            let ack ← atExecCmd resp (.caack fd)
            if ack < 0 then sendExit resp sent
            else sendRest resp fd buff (sent + curPktSize buff.length sent)) := by
  rw [sendRest, sendLoop, if_pos h]
  simp only [sendRest, bind_assoc, apply_ite (· >>= sendExit resp), pure_bind]

theorem run_sendExit :
    (sendExit resp sent).run m.env n client =
      ⟨[⟨client, .deleteResp resp, m.answer n⟩], (m.env n client).2, sizeToInt sent⟩ := by
  rw [sendExit, run_deleteResp, run_pure]
  simp only [Outcome.behind, List.append_nil]

end Turn

/-! ## The end sign -/

/-- Every `AT+CASEND` is sent while the client waits for `>`, and afterwards it does
not. -/
def Prompted (r : Outcome Client Request Answer Int) : Prop :=
  (∀ e ∈ r.asked, ∀ resp fd size, e.question = .execCmd resp (.casend fd size) → e.state.endSign = promptSign) ∧
    r.state.endSign = 0

/-- Nothing is sent, or the first `AT+CASEND` succeeds and there is no second one. -/
def SentAtOnce (m : AtServer) (client : Client) : Option (List UInt8) → Prop
  | none => client.endSign = 0
  | some buff =>
    if (m.answer 0).ret = 0 then client.endSign = 0
    else
      0 < buff.length ∧ (m.answer 1).ret = qcloudRetSuccess ∧
        (buff.length ≤ sim7070SendMaxLenOnce ∨ (m.answer 2).ret ≠ sim7070SendMaxLenOnce ∨ (m.answer 3).ret < 0)

theorem prompted_behind {r : Outcome Client Request Answer Int} {e : Exchange} :
    Prompted (r.behind [e]) ↔
      (∀ resp fd size, e.question = .execCmd resp (.casend fd size) → e.state.endSign = promptSign) ∧ Prompted r := by
  simp only [Prompted, Outcome.behind_asked, Outcome.behind_state, List.singleton_append, List.forall_mem_cons,
    and_assoc]

theorem prompted_exit {m : AtServer} {n : Nat} {client : Client} {resp : Int} {sent : Nat} :
    Prompted ((sendExit resp sent).run m.env n client) ↔ client.endSign = 0 := by
  rw [run_sendExit]
  simp [Prompted]

/-- The loop behind its first turn, which has reset the end sign. -/
theorem sendRest_prompted {m : AtServer} {n : Nat} {client : Client} {resp fd : Int} {buff : List UInt8} {sent : Nat}
    (h : client.endSign = 0) :
    Prompted ((sendRest resp fd buff sent).run m.env n client) ↔ ¬ sent < buff.length := by
  by_cases hlt : sent < buff.length
  · rw [sendRest_turn hlt, run_execCmd, prompted_behind]
    refine iff_of_false (fun hp => ?_) (not_not_intro hlt)
    have hsign := hp.1 resp fd _ rfl
    rw [h] at hsign
    exact absurd hsign (by decide)
  · rw [sendRest_done hlt, prompted_exit]
    exact iff_of_true h hlt

/-- The first turn. -/
theorem sendRest_first {m : AtServer} {n : Nat} {client : Client} {resp fd : Int} {buff : List UInt8}
    (h : client.endSign = promptSign) :
    Prompted ((sendRest resp fd buff 0).run m.env n client) ↔
      0 < buff.length ∧ (m.answer n).ret = qcloudRetSuccess ∧
        (buff.length ≤ sim7070SendMaxLenOnce ∨ (m.answer (n + 1)).ret ≠ sim7070SendMaxLenOnce ∨
          (m.answer (n + 2)).ret < 0) := by
  have hprompt : ¬ client.endSign = 0 := by simp [h, promptSign]
  by_cases hlen : 0 < buff.length
  · rw [sendRest_turn hlen]
    simp only [run_execCmd, run_ite, run_setEndSign, run_clientSend, prompted_behind, h, Nat.add_assoc]
    by_cases hret : (m.answer n).ret = qcloudRetSuccess
    · simp only [hret, hlen, ne_eq, not_true_eq_false, if_false, prompted_behind, true_and, implies_true, reduceCtorEq,
        false_implies, Nat.reduceAdd]
      have hsize : buff.length ≤ sim7070SendMaxLenOnce ∨ curPktSize buff.length 0 = sim7070SendMaxLenOnce := by
        unfold curPktSize
        split <;> omega
      have hrest : ¬ 0 + curPktSize buff.length 0 < buff.length ↔ buff.length ≤ sim7070SendMaxLenOnce := by
        unfold curPktSize
        split <;> omega
      by_cases htemp : (m.answer (n + 1)).ret = curPktSize buff.length 0
      · by_cases hack : (m.answer (n + 2)).ret < 0
        · simp [htemp, hack, prompted_behind, prompted_exit]
        · have hback : Prompted ((sendRest resp fd buff (0 + curPktSize buff.length 0)).run m.env (n + 3)
              (m.env (n + 2) (m.env (n + 1) { (m.env n client).2 with endSign := 0 }).2).2) ↔
              buff.length ≤ sim7070SendMaxLenOnce := (sendRest_prompted rfl).trans hrest
          simp only [htemp, hack, not_true_eq_false, if_false, prompted_behind, hback]
          simp
          omega
      · simp only [htemp, not_false_eq_true, if_true, prompted_exit, env_endSign, true_iff]
        rcases hsize with hsmall | hfull
        · exact .inl hsmall
        · exact .inr (.inl (hfull ▸ htemp))
    · simp [hret, prompted_exit, hprompt]
  · rw [sendRest_done hlen, prompted_exit]
    simp [hlen, hprompt]

/-- A call that has a response object. -/
theorem sim7070Send_first {m : AtServer} {fd : Int} {buff : List UInt8} {client : Client} (h : (m.answer 0).ret ≠ 0) :
    Prompted ((sim7070Send fd (some buff)).run m.env 0 client) ↔
      0 < buff.length ∧ (m.answer 1).ret = qcloudRetSuccess ∧
        (buff.length ≤ sim7070SendMaxLenOnce ∨ (m.answer 2).ret ≠ sim7070SendMaxLenOnce ∨ (m.answer 3).ret < 0) := by
  have hfirst : Prompted ((sendRest (m.answer 0).ret fd buff 0).run m.env 1
      { (m.env 0 client).2 with endSign := promptSign }) ↔ _ := sendRest_first rfl
  simp only [sim7070Send_some, run_createResp, prompted_behind, h, if_false, run_setEndSign, Nat.zero_add, hfirst]
  simp

/-- **When the prompt is handled as it should**: every `AT+CASEND` is sent with the
end sign `>`, and the end sign is 0 at the return, just when there is a chunk to
send, its `AT+CASEND` succeeds, and no second one is reached. -/
theorem sim7070Send_prompted_iff (m : AtServer) (fd : Int) (buff : Option (List UInt8)) (client : Client) :
    Prompted ((sim7070Send fd buff).run m.env 0 client) ↔ SentAtOnce m client buff := by
  cases buff with
  | none => simp [sim7070Send, Prompted, SentAtOnce]
  | some buff =>
    by_cases hresp : (m.answer 0).ret = 0
    · simp [sim7070Send_some, hresp, SentAtOnce, Prompted]
    · rw [sim7070Send_first hresp, SentAtOnce, if_neg hresp]

/-- Memory for the response object, and a modem that takes 257 bytes in two chunks. -/
def grantingServer : AtServer where
  answer
    | 0 => ⟨1, []⟩
    | 2 => ⟨256, []⟩
    | 5 => ⟨1, []⟩
    | _ => ⟨qcloudRetSuccess, []⟩
  urc _ bits := bits

/-- The second `AT+CASEND` for 257 bytes is sent when the client no longer waits for `>`. -/
theorem sim7070Send_keeps_prompt :
    ¬ Prompted ((sim7070Send 0 (some (List.replicate 257 0x31))).run grantingServer.env 0 ⟨1, 0⟩) := by
  rw [sim7070Send_first (by decide), List.length_replicate]
  decide

/-! ## The chunks -/

/-- What is written, each with the length of the last `AT+CASEND`, if that was not
used before; `last` is the one before the exchange. -/
def payloads : Option Nat → List Exchange → List (Option Nat × List UInt8)
  | _, [] => []
  | last, e :: es =>
    match e.question with
    | .execCmd _ (.casend _ size) => payloads (some size) es
    | .clientSend data => (last, data) :: payloads none es
    | _ => payloads last es

/-- What is confirmed: the last thing written before each `AT+CAACK` that succeeds. -/
def confirmed : List UInt8 → List Exchange → List (List UInt8)
  | _, [] => []
  | last, e :: es =>
    match e.question with
    | .clientSend data => confirmed data es
    | .execCmd _ (.caack _) => if 0 ≤ e.answer.ret then last :: confirmed [] es else confirmed [] es
    | _ => confirmed last es

/-- The step succeeded. -/
def Succeeded (e : Exchange) : Prop :=
  match e.question with
  | .createResp _ _ _ => e.answer.ret ≠ 0
  | .clientSend data => e.answer.ret = data.length
  | .execCmd _ (.caack _) => 0 ≤ e.answer.ret
  | .execCmd _ _ => e.answer.ret = qcloudRetSuccess
  | _ => True

/-- The rest of the buffer, from `sent` on, goes out in chunks. -/
structure Chunked (buff : List UInt8) (sent : Nat) (r : Outcome Client Request Answer Int) : Prop where
  slices : ((payloads none r.asked).map Prod.snd).flatten <+: buff.drop sent
  announced : ∀ p ∈ payloads none r.asked, p.1 = some p.2.length ∧ p.2.length ≤ sim7070SendMaxLenOnce
  confirms : (confirmed [] r.asked).flatten <+: buff.drop sent
  value : r.value = sizeToInt (sent + (confirmed [] r.asked).flatten.length)
  whole : sent + (confirmed [] r.asked).flatten.length = buff.length ↔ ∀ e ∈ r.asked, Succeeded e

section Turns

variable {c₁ c₂ c₃ c₄ c₅ : Client} {resp fd : Int} {a₁ a₂ a₃ a₄ : Answer} {buff data : List UInt8} {sent : Nat}

/-- Nothing is left. -/
theorem chunked_done (h : sent = buff.length) :
    Chunked buff sent ⟨[⟨c₁, .deleteResp resp, a₁⟩], c₅, sizeToInt sent⟩ := by
  constructor <;> simp [payloads, confirmed, Succeeded, h]

/-- The modem refuses `AT+CASEND`. -/
theorem chunked_refused {size : Nat} (hlt : sent < buff.length) (h : a₁.ret ≠ qcloudRetSuccess) :
    Chunked buff sent
      ⟨[⟨c₁, .execCmd resp (.casend fd size), a₁⟩, ⟨c₂, .deleteResp resp, a₂⟩], c₅, sizeToInt sent⟩ := by
  have hne : sent ≠ buff.length := by omega
  constructor <;> simp [payloads, confirmed, Succeeded, h, hne]

/-- Not everything is written. -/
theorem chunked_cut (hlt : sent < buff.length) (hdata : data <+: buff.drop sent)
    (hmax : data.length ≤ sim7070SendMaxLenOnce) (h : a₂.ret ≠ data.length) :
    Chunked buff sent
      ⟨[⟨c₁, .execCmd resp (.casend fd data.length), a₁⟩, ⟨c₂, .clientSend data, a₂⟩, ⟨c₃, .deleteResp resp, a₃⟩], c₅,
        sizeToInt sent⟩ := by
  have hne : sent ≠ buff.length := by omega
  constructor <;> simp [payloads, confirmed, Succeeded, h, hne, hdata, hmax]

/-- It is not confirmed. -/
theorem chunked_unconfirmed (hlt : sent < buff.length) (hdata : data <+: buff.drop sent)
    (hmax : data.length ≤ sim7070SendMaxLenOnce) (h : a₃.ret < 0) :
    Chunked buff sent
      ⟨[⟨c₁, .execCmd resp (.casend fd data.length), a₁⟩, ⟨c₂, .clientSend data, a₂⟩,
        ⟨c₃, .execCmd resp (.caack fd), a₃⟩, ⟨c₄, .deleteResp resp, a₄⟩], c₅, sizeToInt sent⟩ := by
  have hne : sent ≠ buff.length := by omega
  have hneg : ¬ 0 ≤ a₃.ret := by omega
  constructor <;> simp [payloads, confirmed, Succeeded, hneg, hne, hdata, hmax]

/-- It is, and the loop goes on. -/
theorem Chunked.turn {r : Outcome Client Request Answer Int} (hr : Chunked buff (sent + data.length) r)
    (hdata : data <+: buff.drop sent) (hmax : data.length ≤ sim7070SendMaxLenOnce)
    (h₁ : a₁.ret = qcloudRetSuccess) (h₂ : a₂.ret = data.length) (h₃ : 0 ≤ a₃.ret) :
    Chunked buff sent
      (r.behind [⟨c₁, .execCmd resp (.casend fd data.length), a₁⟩, ⟨c₂, .clientSend data, a₂⟩,
        ⟨c₃, .execCmd resp (.caack fd), a₃⟩]) := by
  have hrest : buff.drop sent = data ++ buff.drop (sent + data.length) := by
    obtain ⟨rest, hsplit⟩ := hdata
    rw [← List.drop_drop, ← hsplit, List.drop_left]
  constructor
  · simpa [payloads, hrest] using hr.slices
  · simpa [payloads, hmax] using hr.announced
  · simpa [confirmed, h₃, hrest] using hr.confirms
  · simpa [confirmed, h₃, Nat.add_assoc] using hr.value
  · simpa [confirmed, h₃, Nat.add_assoc, Succeeded, h₁, h₂] using hr.whole

end Turns

theorem curPktSize_le {len sent : Nat} : curPktSize len sent ≤ sim7070SendMaxLenOnce := by
  unfold curPktSize
  split <;> omega

theorem curPktSize_le_rest {len sent : Nat} : curPktSize len sent ≤ len - sent := by
  unfold curPktSize
  split <;> omega

theorem length_slice {buff : List UInt8} {sent : Nat} :
    ((buff.drop sent).take (curPktSize buff.length sent)).length = curPktSize buff.length sent := by
  rw [List.length_take, List.length_drop]
  exact Nat.min_eq_left curPktSize_le_rest

/-- The loop, one turn after the other. -/
theorem sendRest_chunked (m : AtServer) (n : Nat) (client : Client) (resp fd : Int) {buff : List UInt8} {sent : Nat}
    (h : sent ≤ buff.length) : Chunked buff sent ((sendRest resp fd buff sent).run m.env n client) := by
  by_cases hlt : sent < buff.length
  · rw [sendRest_turn hlt]
    obtain ⟨data, hslice⟩ : ∃ data, data = (buff.drop sent).take (curPktSize buff.length sent) := ⟨_, rfl⟩
    have hdata : data <+: buff.drop sent := hslice ▸ List.take_prefix ..
    have hlen : data.length = curPktSize buff.length sent := hslice ▸ length_slice
    have hmax : data.length ≤ sim7070SendMaxLenOnce := hlen ▸ curPktSize_le
    rw [← hslice, ← hlen, run_execCmd, run_ite]
    by_cases hret : (m.answer n).ret = qcloudRetSuccess
    · rw [if_neg (not_not_intro hret), run_setEndSign, run_clientSend, run_ite]
      by_cases htemp : (m.answer (n + 1)).ret = data.length
      · rw [if_neg (not_not_intro htemp), run_execCmd, run_ite]
        by_cases hack : (m.answer (n + 1 + 1)).ret < 0
        · rw [if_pos hack, run_sendExit]
          simpa [Outcome.behind] using chunked_unconfirmed hlt hdata hmax hack
        · rw [if_neg hack]
          have hpos := curPktSize_pos hlt
          have hle := @curPktSize_le_rest buff.length sent
          exact (sendRest_chunked m _ _ resp fd (by omega)).turn hdata hmax hret htemp (by omega)
      · rw [if_pos htemp, run_sendExit]
        simpa [Outcome.behind] using chunked_cut hlt hdata hmax htemp
    · rw [if_pos hret, run_sendExit]
      simpa [Outcome.behind] using chunked_refused hlt hret
  · rw [sendRest_done hlt, run_sendExit]
    exact chunked_done (by omega)
termination_by buff.length - sent

/-- **What `sim7070_send` sends**: the payloads are consecutive slices of the buffer,
each as long as its `AT+CASEND` says and no longer than 256 bytes; the value is the
total of the confirmed ones as an `int`, a prefix of the buffer, and the whole of it
just when every step succeeded. -/
theorem sim7070Send_chunks (m : AtServer) (fd : Int) (buff : List UInt8) (client : Client) :
    let r := (sim7070Send fd (some buff)).run m.env 0 client
    let total := (confirmed [] r.asked).flatten.length
    ((payloads none r.asked).map Prod.snd).flatten <+: buff ∧
      (∀ p ∈ payloads none r.asked, p.1 = some p.2.length ∧ p.2.length ≤ sim7070SendMaxLenOnce) ∧
      (confirmed [] r.asked).flatten <+: buff ∧
      (r.value = if (m.answer 0).ret = 0 then qcloudErrFailure else sizeToInt total) ∧
      ((m.answer 0).ret ≠ 0 ∧ total = buff.length ↔ ∀ e ∈ r.asked, Succeeded e) := by
  by_cases hresp : (m.answer 0).ret = 0
  · simp [sim7070Send_some, hresp, payloads, confirmed, Succeeded]
  · have h := sendRest_chunked m 1 { (m.env 0 client).2 with endSign := promptSign } (m.answer 0).ret fd
      (Nat.zero_le buff.length)
    rw [sim7070Send_some, run_createResp, run_ite, if_neg hresp, run_setEndSign]
    simp only [Outcome.behind_asked, Outcome.behind_value, List.singleton_append]
    refine ⟨h.slices, h.announced, h.confirms, ?_, ?_⟩
    · rw [if_neg hresp, ← Nat.zero_add (List.length _)]
      exact h.value
    · have hwhole := h.whole
      rw [Nat.zero_add] at hwhole
      rw [List.forall_mem_cons, ← hwhole]
      exact Iff.rfl

/-- Without memory for the response object. -/
def fullServer : AtServer where
  answer _ := ⟨0, []⟩
  urc _ bits := bits

/-- Then nothing is confirmed, and the value is not 0. -/
theorem sim7070Send_without_response :
    let r := (sim7070Send 0 (some [0x31])).run fullServer.env 0 ⟨1, 0⟩
    (confirmed [] r.asked).flatten.length = 0 ∧ r.value = qcloudErrFailure ∧
      r.value ≠ ((confirmed [] r.asked).flatten.length : Int) := by
  rw [sim7070Send_some, run_createResp, run_ite, if_pos (show (fullServer.answer 0).ret = 0 from rfl)]
  decide

end Petbox.Modem
