/-
The UART receive ring of the Tuya SDK (`tuya/mcu_api.c`, `tuya/system.c`):
`wifi_uart_rx_buf` with its two pointers, as the code moves them.

Each pointer may rest one past the end and is wrapped lazily, at its next
dereference; the full test is made before the wrap. With the in pointer at
the end and the out pointer at offset 1 the test does not see that the ring
is full: the wrapped in pointer lands on the out pointer, which is how the
code says "empty", and all 22 stored bytes are gone (`uartReceiveInput_lost`).
Everywhere else the ring is a FIFO.
-/
import Petbox.Lib.Mem
import Petbox.Lib.Run

namespace Petbox.Wifi

open Machine Mem

/-- `sizeof(wifi_uart_rx_buf)`: `PROTOCOL_HEAD + WIFI_UART_RECV_BUF_LMT`. -/
def rxBufSize : Nat := 7 + 16

theorem rxBufSize_eq : rxBufSize = 23 := rfl

/-- `wifi_uart_rx_buf`, `rx_buf_in` and `rx_buf_out`; the pointers as offsets
from the start of the buffer. -/
structure RxRing where
  buf : Nat → UInt8
  rxBufIn : Nat
  rxBufOut : Nat

/-- A write through a pointer: defined inside the buffer only. -/
def RxRing.write (r : RxRing) (i : Nat) (v : UInt8) : Option RxRing :=
  if i < rxBufSize then some { r with buf := store r.buf i v } else none

/-- A read through a pointer: defined inside the buffer only. -/
def RxRing.read (r : RxRing) (i : Nat) : Option UInt8 :=
  if i < rxBufSize then some (r.buf i) else none

/-- `wifi_protocol_init`, the ring's part; the buffer keeps what it held. -/
def wifiProtocolInit (buf : Nat → UInt8) : RxRing := { buf, rxBufIn := 0, rxBufOut := 0 }

/-- The two "receive buffer is full" tests of `uart_receive_input`. -/
def RxRing.full (r : RxRing) : Bool :=
  (r.rxBufOut == r.rxBufIn + 1) || (r.rxBufIn > r.rxBufOut && r.rxBufIn - r.rxBufOut ≥ rxBufSize)

def uartReceiveInput (r : RxRing) (value : UInt8) : Option RxRing :=
  if r.full then some r
  else
    let rxBufIn := if r.rxBufIn ≥ rxBufSize then 0 else r.rxBufIn
    (r.write rxBufIn value).map fun r => { r with rxBufIn := rxBufIn + 1 }

def withDataRxbuff (r : RxRing) : Bool := r.rxBufIn != r.rxBufOut

/-- `junk` is the uninitialised local the code returns from an empty ring. -/
def takeByteRxbuff (junk : UInt8) (r : RxRing) : Option (UInt8 × RxRing) :=
  if r.rxBufOut ≠ r.rxBufIn then
    let rxBufOut := if r.rxBufOut ≥ rxBufSize then 0 else r.rxBufOut
    (r.read rxBufOut).map fun value => (value, { r with rxBufOut := rxBufOut + 1 })
  else some (junk, r)

/-! ## The bytes in the ring -/

/-- What is stored, oldest first: from the out pointer to the in pointer,
around the end when the in pointer has wrapped and the out pointer has not. -/
def RxRing.contents (r : RxRing) : List UInt8 :=
  if r.rxBufOut ≤ r.rxBufIn then slice r.buf r.rxBufOut (r.rxBufIn - r.rxBufOut)
  else slice r.buf r.rxBufOut (rxBufSize - r.rxBufOut) ++ slice r.buf 0 r.rxBufIn

/-- Neither pointer is more than one past the end, and the in pointer is at the
start only in a ring nothing was taken from. -/
structure RxRing.Ok (r : RxRing) : Prop where
  rxBufIn : r.rxBufIn ≤ rxBufSize
  rxBufOut : r.rxBufOut ≤ rxBufSize
  start : r.rxBufIn = 0 → r.rxBufOut = 0

/-- The state in which the next stored byte makes the ring look empty. -/
def RxRing.Wraps (r : RxRing) : Prop := r.rxBufIn = rxBufSize ∧ r.rxBufOut = 1

instance (r : RxRing) : Decidable r.Wraps := inferInstanceAs (Decidable (_ ∧ _))

@[simp] theorem contents_init (buf : Nat → UInt8) : (wifiProtocolInit buf).contents = [] := by
  simp [wifiProtocolInit, RxRing.contents]

theorem init_ok (buf : Nat → UInt8) : (wifiProtocolInit buf).Ok :=
  ⟨Nat.zero_le _, Nat.zero_le _, fun _ => rfl⟩

theorem full_eq_true {r : RxRing} :
    r.full = true ↔ r.rxBufOut = r.rxBufIn + 1 ∨ rxBufSize ≤ r.rxBufIn - r.rxBufOut := by
  have := rxBufSize_eq
  simp only [RxRing.full, Bool.or_eq_true, beq_iff_eq, Bool.and_eq_true, decide_eq_true_eq]
  omega

/-- A ring that tests full holds at least 22 bytes. -/
theorem full_length {r : RxRing} (hr : r.Ok) (h : r.full = true) : 22 ≤ r.contents.length := by
  have := rxBufSize_eq
  have := hr.rxBufIn
  have := hr.rxBufOut
  rw [full_eq_true] at h
  simp only [RxRing.contents]
  split <;> simp only [List.length_append, length_slice] <;> omega

/-- A call on a full ring changes nothing. -/
theorem uartReceiveInput_full {r : RxRing} (h : r.full = true) (v : UInt8) :
    uartReceiveInput r v = some r := by simp [uartReceiveInput, h]

/-- A call on a ring that does not test full stores the byte at the in pointer,
wrapped when it rests at the end. -/
theorem uartReceiveInput_store {r : RxRing} (hr : r.Ok) (h : r.full = false) (v : UInt8) :
    uartReceiveInput r v =
      if r.rxBufIn = rxBufSize then some { r with buf := store r.buf 0 v, rxBufIn := 1 }
      else some { r with buf := store r.buf r.rxBufIn v, rxBufIn := r.rxBufIn + 1 } := by
  have hN := rxBufSize_eq
  have h1 := hr.rxBufIn
  by_cases he : r.rxBufIn = rxBufSize
  · simp [uartReceiveInput, h, he, RxRing.write, hN]
  · have hlt : r.rxBufIn < rxBufSize := by omega
    simp [uartReceiveInput, h, he, RxRing.write, hlt, show ¬ rxBufSize ≤ r.rxBufIn by omega]

/-- Outside the wrapping state a stored byte is appended. -/
theorem uartReceiveInput_append {r r' : RxRing} {v : UInt8} (hr : r.Ok) (h : r.full = false) (hw : ¬ r.Wraps)
    (hx : uartReceiveInput r v = some r') : r'.contents = r.contents ++ [v] := by
  have hN := rxBufSize_eq
  have h1 := hr.rxBufIn
  have h2 := hr.rxBufOut
  have hf : ¬ (r.rxBufOut = r.rxBufIn + 1 ∨ rxBufSize ≤ r.rxBufIn - r.rxBufOut) := by
    rw [← full_eq_true, h]; simp
  simp only [RxRing.Wraps] at hw
  rw [uartReceiveInput_store hr h] at hx
  split at hx <;> simp only [Option.some.injEq] at hx <;> subst hx <;> simp only [RxRing.contents]
  · next he =>
    -- The in pointer rests at the end: the byte goes to offset 0, and the out pointer is behind 1.
    rw [if_neg (by omega), if_pos (by omega), slice_store (by omega), he]
    simp [slice_succ]
  · next he =>
    by_cases hle : r.rxBufOut ≤ r.rxBufIn
    · obtain ⟨n, hn⟩ : ∃ n, r.rxBufIn = r.rxBufOut + n := ⟨r.rxBufIn - r.rxBufOut, by omega⟩
      rw [if_pos (by omega), if_pos hle, hn, show r.rxBufOut + n + 1 - r.rxBufOut = n + 1 by omega,
        slice_store_end, show r.rxBufOut + n - r.rxBufOut = n by omega]
    · have hend := slice_store_end r.buf 0 r.rxBufIn v
      rw [Nat.zero_add] at hend
      rw [if_neg (by omega), if_neg hle, slice_store (by omega), hend, List.append_assoc]

/-- In the wrapping state the call stores its byte and the ring reads as empty:
the 22 bytes it held are lost, and the new one with them. -/
theorem uartReceiveInput_lost {r r' : RxRing} {v : UInt8} (hw : r.Wraps)
    (hx : uartReceiveInput r v = some r') : r.contents.length = 22 ∧ r.full = false ∧ r'.contents = [] := by
  have hN := rxBufSize_eq
  obtain ⟨h1, h2⟩ := hw
  have hr : r.Ok := ⟨by omega, by omega, by omega⟩
  have hf : r.full = false := by
    rw [Bool.eq_false_iff, ne_eq, full_eq_true]; omega
  rw [uartReceiveInput_store hr hf, if_pos h1, Option.some.injEq] at hx
  subst hx
  refine ⟨?_, hf, ?_⟩
  · simp only [RxRing.contents, h1, h2, hN]; simp
  · simp [RxRing.contents, h2]

theorem uartReceiveInput_ok {r r' : RxRing} {v : UInt8} (hr : r.Ok) (hx : uartReceiveInput r v = some r') :
    r'.Ok := by
  have hN := rxBufSize_eq
  have h1 := hr.rxBufIn
  cases hf : r.full with
  | true =>
    rw [uartReceiveInput_full hf, Option.some.injEq] at hx
    exact hx ▸ hr
  | false =>
    rw [uartReceiveInput_store hr hf] at hx
    split at hx <;> simp only [Option.some.injEq] at hx <;> subst hx
    · exact ⟨by simp only; omega, hr.rxBufOut, by simp⟩
    · exact ⟨by simp only; omega, hr.rxBufOut, by simp⟩

/-- The write of a call is inside the buffer. -/
theorem uartReceiveInput_isSome {r : RxRing} (hr : r.Ok) (v : UInt8) : (uartReceiveInput r v).isSome := by
  cases hf : r.full with
  | true => simp [uartReceiveInput_full hf]
  | false => rw [uartReceiveInput_store hr hf]; split <;> rfl

/-- Taking a byte takes the oldest one, through a pointer inside the buffer. -/
theorem takeByteRxbuff_spec {r : RxRing} (hr : r.Ok) (h : withDataRxbuff r = true) (junk : UInt8) :
    ∃ v r', takeByteRxbuff junk r = some (v, r') ∧ r'.Ok ∧ r.contents = v :: r'.contents := by
  have hN := rxBufSize_eq
  have h1 := hr.rxBufIn
  have h2 := hr.rxBufOut
  have h3 := hr.start
  have hne : r.rxBufOut ≠ r.rxBufIn := fun he => by simp [withDataRxbuff, he] at h
  by_cases he : r.rxBufOut = rxBufSize
  · -- The out pointer rests at the end and the in pointer has wrapped: offset 0 holds the oldest byte.
    refine ⟨r.buf 0, { r with rxBufOut := 1 }, ?_, ⟨hr.rxBufIn, by simp only; omega, by simp only; omega⟩, ?_⟩
    · simp [takeByteRxbuff, he, RxRing.read, hN, show ¬ 23 = r.rxBufIn by omega]
    · obtain ⟨n, hn⟩ : ∃ n, r.rxBufIn = n + 1 := ⟨r.rxBufIn - 1, by omega⟩
      simp only [RxRing.contents]
      rw [if_neg (by omega), if_pos (by omega), he, hn, Nat.sub_self, slice_zero, List.nil_append, slice_succ,
        Nat.zero_add, Nat.add_sub_cancel]
  · refine ⟨r.buf r.rxBufOut, { r with rxBufOut := r.rxBufOut + 1 }, ?_,
      ⟨hr.rxBufIn, by simp only; omega, by simp only; omega⟩, ?_⟩
    · simp [takeByteRxbuff, hne, RxRing.read, show r.rxBufOut < rxBufSize by omega,
        show ¬ rxBufSize ≤ r.rxBufOut by omega]
    · simp only [RxRing.contents]
      by_cases hlt : r.rxBufOut < r.rxBufIn
      · obtain ⟨n, hn⟩ : ∃ n, r.rxBufIn = r.rxBufOut + (n + 1) := ⟨r.rxBufIn - r.rxBufOut - 1, by omega⟩
        rw [if_pos (by omega), if_pos (by omega), hn, Nat.add_sub_cancel_left, slice_succ,
          show r.rxBufOut + (n + 1) - (r.rxBufOut + 1) = n by omega]
      · obtain ⟨n, hn⟩ : ∃ n, rxBufSize = r.rxBufOut + (n + 1) := ⟨rxBufSize - r.rxBufOut - 1, by omega⟩
        rw [if_neg (by omega), if_neg (by omega), hn, Nat.add_sub_cancel_left, slice_succ,
          show r.rxBufOut + (n + 1) - (r.rxBufOut + 1) = n by omega, List.cons_append]

/-! ## Runs of the ring -/

/-- What can happen to the ring: the UART interrupt hands in a byte, the main
loop takes one. -/
inductive RingAct
  | input (value : UInt8)
  | take

/-- A take is made only when `with_data_rxbuff()` is nonzero, so the
uninitialised `value` of an empty ring is never read. -/
def RingAct.Allowed (r : RxRing) : RingAct → Prop
  | .input _ => True
  | .take => withDataRxbuff r = true

def ringStep (r : RxRing) : RingAct → Option RxRing
  | .input value => uartReceiveInput r value
  | .take => if withDataRxbuff r then (takeByteRxbuff 0 r).map (·.2) else none

/-- The byte a call of `uart_receive_input` stores. -/
def stored (r : RxRing) : RingAct → List UInt8
  | .input value => if r.full then [] else [value]
  | .take => []

/-- The byte a call of `take_byte_rxbuff` returns. -/
def taken (r : RxRing) : RingAct → List UInt8
  | .input _ => []
  | .take => ((takeByteRxbuff 0 r).map (·.1)).toList

theorem ringStep_ok (r : RxRing) (a : RingAct) (r' : RxRing) (hr : r.Ok) (hs : ringStep r a = some r') : r'.Ok := by
  cases a with
  | input v => exact uartReceiveInput_ok hr hs
  | take =>
    simp only [ringStep] at hs
    split at hs
    · next hd =>
      obtain ⟨v, q, hq, hok, -⟩ := takeByteRxbuff_spec hr hd 0
      rw [hq, Option.map_some, Option.some.injEq] at hs
      exact hs ▸ hok
    · cases hs

/-- Every allowed call dereferences its pointer inside the buffer. -/
theorem ringStep_isSome {r : RxRing} {a : RingAct} (hr : r.Ok) (ha : a.Allowed r) : (ringStep r a).isSome := by
  cases a with
  | input v => exact uartReceiveInput_isSome hr v
  | take =>
    obtain ⟨v, q, hq, -⟩ := takeByteRxbuff_spec hr ha 0
    simp only [RingAct.Allowed] at ha
    simp [ringStep, ha, hq]

/-- One step outside the wrapping state keeps the balance: what was in the ring
and what is stored is what is taken and what is left. -/
theorem ringStep_balance {r r' : RxRing} {a : RingAct} (hr : r.Ok)
    (hw : ∀ v, a = .input v → ¬ r.Wraps) (hs : ringStep r a = some r') :
    r.contents ++ stored r a = taken r a ++ r'.contents := by
  cases a with
  | input v =>
    simp only [ringStep] at hs
    cases hf : r.full with
    | true =>
      rw [uartReceiveInput_full hf, Option.some.injEq] at hs
      subst hs
      simp [stored, taken, hf]
    | false => simp [stored, taken, hf, uartReceiveInput_append hr hf (hw v rfl) hs]
  | take =>
    simp only [ringStep] at hs
    split at hs
    · next hd =>
      obtain ⟨v, q, hq, -, hc⟩ := takeByteRxbuff_spec hr hd 0
      rw [hq, Option.map_some, Option.some.injEq] at hs
      simp [stored, taken, hq, hc, ← hs]
    · cases hs

/-- No byte is handed in while the in pointer rests at the end and the out
pointer is at offset 1. -/
def NoWrap (r : RxRing) (a : RingAct) : Prop := ∀ v, a = .input v → ¬ r.Wraps

/-- A call as a bounded FIFO has it: a byte is dropped, alone and from a full
ring only, or appended; a take returns the oldest byte and removes it. -/
def CallOk (r : RxRing) (a : RingAct) : Prop :=
  ∀ r', ringStep r a = some r' →
    match a with
    | .input v => (r' = r ∧ 22 ≤ r.contents.length) ∨ r'.contents = r.contents ++ [v]
    | .take => ∃ v, taken r .take = [v] ∧ r.contents = v :: r'.contents

theorem callOk_iff {r : RxRing} (hr : r.Ok) (a : RingAct) : CallOk r a ↔ NoWrap r a := by
  constructor
  · intro h v ha hw
    subst ha
    obtain ⟨r', hx⟩ := Option.isSome_iff_exists.1 (uartReceiveInput_isSome hr v)
    obtain ⟨hlen, hf, hnil⟩ := uartReceiveInput_lost hw hx
    rcases h r' hx with ⟨rfl, -⟩ | happ
    · simp [hnil] at hlen
    · simp [hnil] at happ
  · intro hw r' hs
    cases a with
    | input v =>
      simp only [ringStep] at hs
      cases hf : r.full with
      | true =>
        rw [uartReceiveInput_full hf, Option.some.injEq] at hs
        exact .inl ⟨hs.symm, full_length hr hf⟩
      | false => exact .inr (uartReceiveInput_append hr hf (hw v rfl) hs)
    | take =>
      simp only [ringStep] at hs
      split at hs
      · next hd =>
        obtain ⟨v, q, hq, -, hc⟩ := takeByteRxbuff_spec hr hd 0
        rw [hq, Option.map_some, Option.some.injEq] at hs
        subst hs
        exact ⟨v, by simp [taken, hq], hc⟩
      · cases hs

theorem along_callOk_iff {r : RxRing} (hr : r.Ok) (as : List RingAct) :
    Along ringStep CallOk r as ↔ Along ringStep NoWrap r as :=
  along_iff hr as (fun r a r' hr _ hs => ringStep_ok r a r' hr hs) fun _ a hr => callOk_iff hr a

/-- The run law, from any ring: the contents and the stored bytes are the taken
bytes and the contents left. -/
theorem exec_balance : ∀ {as : List RingAct} {r s : RxRing}, r.Ok → Along ringStep NoWrap r as →
    exec ringStep r as = some s →
    r.contents ++ trace ringStep stored r as = trace ringStep taken r as ++ s.contents
  | [], r, s, _, _, hx => by
    simp only [exec_nil, Option.some.injEq] at hx
    simp [trace, hx]
  | a :: as, r, s, hr, hw, hx => by
    obtain ⟨r', hs, hx⟩ := exec_cons.1 hx
    have hb := ringStep_balance hr hw.1 hs
    have ih := exec_balance (ringStep_ok r a r' hr hs) (hw.2 r' hs) hx
    simp only [trace, hs, Option.elim_some]
    rw [← List.append_assoc, hb, List.append_assoc, ih, List.append_assoc]

/-- What a run from `wifi_protocol_init` to `s` is to be. -/
structure Lossless (buf : Nat → UInt8) (as : List RingAct) (s : RxRing) : Prop where
  calls : Along ringStep CallOk (wifiProtocolInit buf) as
  order : trace ringStep stored (wifiProtocolInit buf) as =
    trace ringStep taken (wifiProtocolInit buf) as ++ s.contents
  inside : ∀ a : RingAct, a.Allowed s → (ringStep s a).isSome

/-- **The ring is a FIFO exactly as long as it never wraps onto the out
pointer**: a run drops or appends each byte alone, gives the stored bytes out
in order and once, and keeps its pointers inside the buffer, if and only if no
byte arrives with the in pointer at the end and the out pointer at offset 1. -/
theorem ring_lossless_iff {buf : Nat → UInt8} {as : List RingAct} {s : RxRing}
    (h : exec ringStep (wifiProtocolInit buf) as = some s) :
    Lossless buf as s ↔ Along ringStep NoWrap (wifiProtocolInit buf) as := by
  have h₀ := init_ok buf
  constructor
  · exact fun hl => (along_callOk_iff h₀ as).1 hl.calls
  · intro hw
    have hb := exec_balance h₀ hw h
    rw [contents_init, List.nil_append] at hb
    exact ⟨(along_callOk_iff h₀ as).2 hw, hb, fun a => ringStep_isSome (exec_inv ringStep_ok h₀ h)⟩

theorem ring_lossless_iff_two :
    Lossless (fun _ => 0) [.input 7, .take] ⟨store (fun _ => 0) 0 7, 1, 1⟩ ↔
      Along ringStep NoWrap (wifiProtocolInit fun _ => 0) [.input 7, .take] :=
  ring_lossless_iff rfl

/-- 23 bytes fill the fresh ring, one is taken, one more arrives. -/
def wrapRun : List RingAct := List.replicate 23 (.input 0x55) ++ [.take, .input 0xaa]

/-- After `wrapRun` the ring reads as empty: 24 bytes were stored, one was taken. -/
theorem ring_loses_bytes :
    ∃ s, exec ringStep (wifiProtocolInit fun _ => 0) wrapRun = some s ∧ withDataRxbuff s = false ∧
      ¬ Lossless (fun _ => 0) wrapRun s := by
  refine ⟨_, rfl, rfl, fun h => ?_⟩
  have hlen := congrArg List.length h.order
  revert hlen
  decide

end Petbox.Wifi
