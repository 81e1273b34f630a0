/-
The parts of `wifi_uart_service` of the Tuya SDK (`tuya/mcu_api.c`): bytes move
from the receive ring into `wifi_data_process_buf`, each pass of the parsing
loop looks at one offset, and what is left is shifted to the front. The service
itself, with the `data_handle` it calls, is in `Petbox.Wifi.Service`.

`rx_value_len` is the 16-bit variable of the source, so it is the declared
length plus 7 modulo 65536.
-/
import Petbox.Wifi.Ring

namespace Petbox.Wifi

open Mem

def protocolHead : Nat := 7
def headFirst : Nat := 0
def headSecond : Nat := 1
def protocolVersion : Nat := 2
def frameType : Nat := 3
def lengthHigh : Nat := 4
def lengthLow : Nat := 5
def dataStart : Nat := 6

def frameFirst : UInt8 := 0x55
def frameSecond : UInt8 := 0xaa
def mcuRxVer : UInt8 := 0x00

/-- `sizeof(wifi_data_process_buf)`: `PROTOCOL_HEAD + WIFI_DATA_PROCESS_LMT`. -/
def processBufSize : Nat := protocolHead + 24

theorem protocolHead_eq : protocolHead = 7 := rfl
theorem processBufSize_eq : processBufSize = 31 := rfl

/-- `wifi_data_process_buf` and the static `rx_in` of `wifi_uart_service`. `buf`
is the memory from the start of the buffer on, what lies behind its 31 bytes
included; `before` is the byte in front of it. -/
structure ProcessBuf where
  buf : Nat → UInt8
  before : UInt8
  rxIn : Nat
  rxIn_le : rxIn ≤ processBufSize

/-- The buffer at power on: `rx_in` is 0. -/
def ProcessBuf.start (buf : Nat → UInt8) (before : UInt8) : ProcessBuf :=
  { buf, before, rxIn := 0, rxIn_le := Nat.zero_le _ }

/-- `wifi_data_process_buf[rx_in ++] = value`. -/
def ProcessBuf.push (w : ProcessBuf) (h : w.rxIn < processBufSize) (value : UInt8) : ProcessBuf :=
  { w with buf := store w.buf w.rxIn value, rxIn := w.rxIn + 1, rxIn_le := h }

/-- The sum `get_check_sum` makes of the `packLen` bytes from `pack` on. -/
def getCheckSum (m : Nat → UInt8) (pack packLen : Nat) : UInt8 := (slice m pack packLen).foldl (· + ·) 0

/-- The declared length: the two length bytes, high byte first. -/
def declaredLen (m : Nat → UInt8) (offset : Nat) : Nat :=
  (m (offset + lengthHigh)).toNat * 0x100 + (m (offset + lengthLow)).toNat

/-- `rx_value_len`, an unsigned short. -/
def rxValueLen (m : Nat → UInt8) (offset : Nat) : Nat := (declaredLen m offset + protocolHead) % 65536

/-- `wifi_data_process_buf[offset + rx_value_len - 1]`: with a length of 0 at
offset 0 this is the byte in front of the buffer. -/
def checkSumByte (w : ProcessBuf) (offset : Nat) : UInt8 :=
  if offset + rxValueLen w.buf offset = 0 then w.before else w.buf (offset + rxValueLen w.buf offset - 1)

/-- The checksum test of the loop. `rx_value_len - 1` is passed as an unsigned short. -/
def checkSumOk (w : ProcessBuf) (offset : Nat) : Bool :=
  getCheckSum w.buf offset ((rxValueLen w.buf offset + 65535) % 65536) == checkSumByte w offset

/-- What one pass of the parsing loop does at `offset`. -/
inductive Pass
  | stop
  | skip (n : Nat)
  | handle (n : Nat)
  deriving DecidableEq, Repr

/-- The body of the parsing loop. -/
def examine (w : ProcessBuf) (offset : Nat) : Pass :=
  if w.buf (offset + headFirst) ≠ frameFirst then .skip 1
  else if w.buf (offset + headSecond) ≠ frameSecond then .skip 1
  else if w.buf (offset + protocolVersion) ≠ mcuRxVer then .skip 2
  else if rxValueLen w.buf offset > processBufSize + protocolHead then .skip 3
  else if w.rxIn - offset < rxValueLen w.buf offset then .stop
  else if !checkSumOk w offset then .skip 3
  else .handle (rxValueLen w.buf offset)

/-- The first branch of `my_memcpy`: `i` counts up. -/
def copyUp (m : Nat → UInt8) (dest src : Nat) : Nat → Nat → UInt8
  | 0 => m
  | n + 1 => store (copyUp m dest src n) (dest + n) (copyUp m dest src n (src + n))

/-- The second branch of `my_memcpy`: `i` counts down. -/
def copyDown (m : Nat → UInt8) (dest src : Nat) : Nat → Nat → UInt8
  | 0 => m
  | n + 1 => copyDown (store m (dest + n) (m (src + n))) dest src n

/-- `my_memcpy` on two places of one memory. -/
def myMemcpy (m : Nat → UInt8) (dest src count : Nat) : Nat → UInt8 :=
  if dest ≤ src ∨ src + count < dest then copyUp m dest src count else copyDown m dest src count

/-- The end of `wifi_uart_service`: the bytes from `offset` on move to the front. -/
def ProcessBuf.shift (w : ProcessBuf) (offset : Nat) : ProcessBuf :=
  { w with
    buf := if 0 < w.rxIn - offset then myMemcpy w.buf 0 offset (w.rxIn - offset) else w.buf
    rxIn := w.rxIn - offset
    rxIn_le := Nat.le_trans (Nat.sub_le _ _) w.rxIn_le }

/-- Where the service takes its bytes from, and where the UART interrupt puts them. -/
structure RxSource (ρ : Type) where
  withData : ρ → Bool
  takeByte : ρ → Option (UInt8 × ρ)
  putByte : ρ → UInt8 → Option ρ

/-- The receive ring of the SDK. -/
def RxSource.ring : RxSource RxRing := ⟨withDataRxbuff, takeByteRxbuff 0, uartReceiveInput⟩

/-- The ring as a queue that does not overflow. -/
def RxSource.fifo : RxSource (List UInt8) :=
  ⟨fun q => !q.isEmpty, fun | [] => none | v :: q => some (v, q), fun q v => some (q ++ [v])⟩

/-- These bytes arrive, one call of `uart_receive_input` each. -/
def takeIn {ρ : Type} (src : RxSource ρ) : ρ → List UInt8 → Option ρ
  | r, [] => some r
  | r, v :: bytes => (src.putByte r v).bind fun r => takeIn src r bytes

/-- The first loop of the service; there is room for `room` more bytes. -/
def receive {ρ : Type} (src : RxSource ρ) : Nat → ProcessBuf → ρ → Option (ProcessBuf × ρ)
  | 0, w, r => some (w, r)
  | room + 1, w, r =>
    if h : w.rxIn < processBufSize ∧ src.withData r then
      (src.takeByte r).bind fun vr => receive src room (w.push h.1 vr.1) vr.2
    else some (w, r)

/-- The bytes of the frame `data_handle(offset)` finds. -/
def frameAt (m : Nat → UInt8) (offset : Nat) : List UInt8 := slice m offset (rxValueLen m offset)

/-! ## The first loop -/

@[simp] theorem fifo_withData (q : List UInt8) : RxSource.fifo.withData q = !q.isEmpty := rfl
@[simp] theorem fifo_takeByte (v : UInt8) (q : List UInt8) : RxSource.fifo.takeByte (v :: q) = some (v, q) := rfl

/-- From a queue the loop takes bytes until the buffer is full or the queue is empty. -/
theorem receive_fifo {w : ProcessBuf} (q : List UInt8) {room : Nat} (h : w.rxIn + room = processBufSize) :
    ∃ w', receive .fifo room w q = some (w', q.drop room) ∧ w'.before = w.before ∧
      w'.rxIn = w.rxIn + min room q.length ∧
      slice w'.buf 0 w'.rxIn = slice w.buf 0 w.rxIn ++ q.take room := by
  induction room generalizing w q with
  | zero => exact ⟨w, rfl, rfl, by simp, by simp⟩
  | succ room ih =>
    cases q with
    | nil => exact ⟨w, by simp [receive], rfl, by simp, by simp⟩
    | cons v q =>
      have hlt : w.rxIn < processBufSize := by omega
      obtain ⟨w', hw, hb, hin, hs⟩ := ih (w := w.push hlt v) q (by simp only [ProcessBuf.push]; omega)
      have hpush := slice_store_end w.buf 0 w.rxIn v
      rw [Nat.zero_add] at hpush
      refine ⟨w', by simp [receive, hlt, hw], hb, ?_, ?_⟩
      · simp only [hin, ProcessBuf.push, List.length_cons]; omega
      · simp only [hs, ProcessBuf.push, hpush, List.append_assoc, List.take_succ_cons, List.singleton_append]

theorem receive_none {ρ : Type} {src : RxSource ρ} {w : ProcessBuf} {r : ρ} (room : Nat)
    (h : src.withData r = false) : receive src room w r = some (w, r) := by
  cases room <;> simp [receive, h]

/-- The service on the ring is the service on the queue of its bytes. -/
theorem receive_ring {w : ProcessBuf} {r : RxRing} (hr : r.Ok) (room : Nat) :
    ∃ w' r', receive .ring room w r = some (w', r') ∧ r'.Ok ∧
      receive .fifo room w r.contents = some (w', r'.contents) := by
  induction room generalizing w r with
  | zero => exact ⟨w, r, rfl, hr, rfl⟩
  | succ room ih =>
    by_cases h : w.rxIn < processBufSize
    · cases hd : withDataRxbuff r with
      | false =>
        have hc : r.contents = [] := by
          simp only [withDataRxbuff, bne_eq_false_iff_eq] at hd
          simp [RxRing.contents, hd]
        exact ⟨w, r, by simp [receive, RxSource.ring, hd], hr, by simp [receive, hc]⟩
      | true =>
        obtain ⟨v, r', ht, hok, hc⟩ := takeByteRxbuff_spec hr hd 0
        obtain ⟨w', r'', hw, hok', hf⟩ := ih (w := w.push h v) hok
        exact ⟨w', r'', by simp only [receive, RxSource.ring, hd, h, and_self, dite_true, ht]; exact hw, hok',
          by simp [receive, hc, h, hf]⟩
    · exact ⟨w, r, by simp [receive, h], hr, by simp [receive, h]⟩

theorem takeIn_fifo (q bytes : List UInt8) : takeIn .fifo q bytes = some (q ++ bytes) := by
  induction bytes generalizing q with
  | nil => rw [takeIn, List.append_nil]
  | cons v bytes ih => rw [takeIn, List.append_cons]; exact ih (q ++ [v])

/-- As long as the ring holds no more than 22 bytes it takes every byte in. -/
theorem takeIn_ring {r : RxRing} (hr : r.Ok) {bytes : List UInt8} (hroom : r.contents.length + bytes.length ≤ 22) :
    ∃ r', takeIn .ring r bytes = some r' ∧ r'.Ok ∧ r'.contents = r.contents ++ bytes := by
  induction bytes generalizing r with
  | nil => exact ⟨r, rfl, hr, (List.append_nil _).symm⟩
  | cons v bytes ih =>
    rw [List.length_cons] at hroom
    have hf : r.full = false := Bool.eq_false_iff.2 fun hf => by
      have := full_length hr hf
      omega
    obtain ⟨r₁, hr₁⟩ := Option.isSome_iff_exists.1 (uartReceiveInput_isSome hr v)
    have hw : ¬ r.Wraps := fun hw => by
      have := (uartReceiveInput_lost hw hr₁).1
      omega
    have hc := uartReceiveInput_append hr hf hw hr₁
    obtain ⟨r', hx, hok, hc'⟩ := ih (uartReceiveInput_ok hr hr₁)
      (by rw [hc, List.length_append, List.length_singleton]; omega)
    refine ⟨r', Option.bind_eq_some_iff.2 ⟨r₁, hr₁, hx⟩, hok, ?_⟩
    rw [hc', hc, List.append_assoc, List.singleton_append]

/-! ## The shift -/

/-- Counting up is right when the copy moves bytes towards the front. -/
theorem copyUp_eq {m : Nat → UInt8} {dest src : Nat} (h : dest ≤ src) (n i : Nat) :
    copyUp m dest src n i = if dest ≤ i ∧ i < dest + n then m (src + (i - dest)) else m i := by
  induction n generalizing i with
  | zero => rw [copyUp, if_neg (by omega)]
  | succ n ih =>
    simp only [copyUp, store, ih]
    by_cases hi : i = dest + n
    · subst hi
      rw [if_pos rfl, if_neg (by omega), if_pos (by omega), show dest + n - dest = n by omega]
    · rw [if_neg hi]
      by_cases hlt : dest ≤ i ∧ i < dest + n
      · rw [if_pos hlt, if_pos (by omega)]
      · rw [if_neg hlt, if_neg (by omega)]

theorem shift_rxIn (w : ProcessBuf) (offset : Nat) : (w.shift offset).rxIn = w.rxIn - offset := rfl

/-- After the shift the buffer starts with the bytes from `offset` on. -/
theorem slice_shift (w : ProcessBuf) (offset : Nat) :
    slice (w.shift offset).buf 0 (w.shift offset).rxIn = slice w.buf offset (w.rxIn - offset) := by
  simp only [ProcessBuf.shift]
  refine slice_eq_slice fun i hi => ?_
  rw [if_pos (by omega), myMemcpy, if_pos (.inl (Nat.zero_le _)), copyUp_eq (Nat.zero_le _), if_pos (by omega),
    show 0 + i - 0 = i by omega]

theorem shift_zero (w : ProcessBuf) : w.shift 0 = w := by
  have key : myMemcpy w.buf 0 0 w.rxIn = w.buf := by
    funext i
    rw [myMemcpy, if_pos (.inl (Nat.zero_le _)), copyUp_eq (Nat.zero_le _)]
    simp
  simp only [ProcessBuf.shift, Nat.sub_zero, key, ite_self]

end Petbox.Wifi
