/-
The ring between the UART interrupt and the AT client (`utils_ringbuff.c`):
a queue of one byte less than its buffer, whatever the two do.
-/
import Petbox.Lib.Circular
import Petbox.Lib.Run

namespace Petbox.Modem

open Circular Machine

def ringbuffOk : Int := 0
def ringbuffFull : Int := -4
def ringbuffTooShort : Int := -5

/-- `sRingbuff` with a buffer of `size` bytes. -/
structure Ringbuff (size : Nat) where
  buffer : Fin size → UInt8
  readpoint : Fin size
  writepoint : Fin size
  full : Bool

section Code

variable {size : Nat} [NeZero size]

/-- `ring_buff_init`, with its buffer cleared. -/
def ringBuffInit : Ringbuff size := { buffer := fun _ => 0, readpoint := 0, writepoint := 0, full := false }

/-- `ring_buff_flush`. -/
def ringBuffFlush (r : Ringbuff size) : Ringbuff size :=
  { r with readpoint := 0, writepoint := 0, buffer := fun _ => 0, full := false }

/-- The loop of `ring_buff_push_data`, on the bytes that are left. -/
def pushLoop : List UInt8 → Ringbuff size → Int × Ringbuff size
  | [], r => (ringbuffOk, r)
  | b :: pData, r =>
    if r.writepoint + 1 = r.readpoint then (ringbuffFull, { r with full := true })
    else
      let writepoint : Fin size :=
        if h : r.writepoint.val < size - 1 then ⟨r.writepoint + 1, by omega⟩ else 0
      pushLoop pData { r with writepoint, buffer := Function.update r.buffer writepoint b }

/-- `ring_buff_push_data`. -/
def ringBuffPushData (r : Ringbuff size) (pData : List UInt8) : Int × Ringbuff size :=
  if pData.length > size then (ringbuffTooShort, r) else pushLoop pData r

/-- The loop of `ring_buff_pop_data`: the bytes it writes to `pData`. -/
def popLoop : Nat → Ringbuff size → List UInt8 × Ringbuff size
  | 0, r => ([], r)
  | len + 1, r =>
    if r.writepoint = r.readpoint then ([], r)
    else
      let readpoint : Fin size :=
        if h : r.readpoint.val = size - 1 then 0 else ⟨r.readpoint + 1, by omega⟩
      let (pData, r') := popLoop len { r with readpoint }
      (r.buffer readpoint :: pData, r')

/-- `ring_buff_pop_data`: its return value, and what it writes to `pData`. -/
def ringBuffPopData (r : Ringbuff size) (len : Nat) : Int × List UInt8 × Ringbuff size :=
  if len > size then (ringbuffTooShort, [], r)
  else
    let (pData, r) := popLoop len r
    (pData.length, pData, r)

end Code

/-! ## The queue it is -/

/-- A queue of at most `size - 1` bytes, and whether bytes were refused. -/
structure Fifo (size : Nat) where
  bytes : List UInt8
  refused : Bool
  deriving DecidableEq, Repr

namespace Fifo

variable {size : Nat}

def empty : Fifo size := ⟨[], false⟩

def free (q : Fifo size) : Nat := size - 1 - q.bytes.length

/-- Bytes are taken in as long as there is room. -/
def push (q : Fifo size) (data : List UInt8) : Int × Fifo size :=
  if data.length > size then (ringbuffTooShort, q)
  else (if data.length ≤ q.free then ringbuffOk else ringbuffFull,
    ⟨q.bytes ++ data.take q.free, q.refused || decide (q.free < data.length)⟩)

def pop (q : Fifo size) (len : Nat) : Int × List UInt8 × Fifo size :=
  if len > size then (ringbuffTooShort, [], q)
  else ((q.bytes.take len).length, q.bytes.take len, ⟨q.bytes.drop len, q.refused⟩)

end Fifo

section Spec

variable {size : Nat} [NeZero size]

/-- The queue that a ring holds. -/
def Ringbuff.fifo (r : Ringbuff size) : Fifo size := ⟨contents r.buffer r.readpoint r.writepoint, r.full⟩

@[simp] theorem fifo_init : (ringBuffInit : Ringbuff size).fifo = Fifo.empty := by
  simp [Ringbuff.fifo, ringBuffInit, Fifo.empty]

@[simp] theorem fifo_flush (r : Ringbuff size) : (ringBuffFlush r).fifo = Fifo.empty := by
  simp [Ringbuff.fifo, ringBuffFlush, Fifo.empty]

theorem push_index (i : Fin size) : (if h : i.val < size - 1 then (⟨i + 1, by omega⟩ : Fin size) else 0) = i + 1 := by
  have hi := i.isLt
  apply Fin.ext
  by_cases h : i.val < size - 1
  · rw [dif_pos h, Fin.val_add, Fin.val_one', Nat.add_mod_mod, Nat.mod_eq_of_lt (by omega)]
  · rw [dif_neg h, Fin.val_add, Fin.val_one', Nat.add_mod_mod, show i.val + 1 = size by omega, Nat.mod_self,
      Fin.val_zero]

theorem pop_index (i : Fin size) : (if h : i.val = size - 1 then 0 else (⟨i + 1, by omega⟩ : Fin size)) = i + 1 := by
  rw [← push_index]
  by_cases h : i.val = size - 1
  · rw [dif_pos h, dif_neg (by omega)]
  · rw [dif_neg h, dif_pos (by omega)]

theorem fifo_length (r : Ringbuff size) : r.fifo.bytes.length = stored r.readpoint r.writepoint := length_contents _ _ _

/-- One cell stays free. -/
theorem fifo_length_lt (r : Ringbuff size) : r.fifo.bytes.length < size := by
  rw [fifo_length]
  exact stored_lt _ _

theorem free_eq_zero (r : Ringbuff size) : r.fifo.free = 0 ↔ r.writepoint + 1 = r.readpoint := by
  have hlt := fifo_length_lt r
  rw [stored_full, Fifo.free, ← fifo_length]
  omega

theorem pushLoop_spec (pData : List UInt8) (r : Ringbuff size) :
    (pushLoop pData r).1 = (if pData.length ≤ r.fifo.free then ringbuffOk else ringbuffFull) ∧
      (pushLoop pData r).2.fifo =
        ⟨r.fifo.bytes ++ pData.take r.fifo.free, r.full || decide (r.fifo.free < pData.length)⟩ := by
  induction pData generalizing r with
  | nil => simp [pushLoop, Ringbuff.fifo]
  | cons b pData ih =>
    simp only [pushLoop, push_index]
    by_cases hfull : r.writepoint + 1 = r.readpoint
    · have hfree := (free_eq_zero r).2 hfull
      rw [if_pos hfull, hfree]
      simp [Ringbuff.fifo]
    · have hfree : r.fifo.free ≠ 0 := fun h => hfull ((free_eq_zero r).1 h)
      obtain ⟨n, hn⟩ : ∃ n, r.fifo.free = n + 1 := ⟨r.fifo.free - 1, by omega⟩
      obtain ⟨r', hr'⟩ : ∃ r' : Ringbuff size, r' =
          { r with writepoint := r.writepoint + 1, buffer := Function.update r.buffer (r.writepoint + 1) b } := ⟨_, rfl⟩
      have hfifo : r'.fifo = ⟨r.fifo.bytes ++ [b], r.full⟩ := by
        rw [hr']
        exact congrArg (Fifo.mk · r.full) (contents_push hfull b)
      have hroom : r'.fifo.free = n := by
        rw [hfifo, Fifo.free, List.length_append, List.length_singleton]
        unfold Fifo.free at hn
        omega
      obtain ⟨hret, hrest⟩ := ih r'
      rw [hroom] at hret hrest
      rw [if_neg hfull, ← hr', hret, hrest, hn, hfifo, show r'.full = r.full by rw [hr']]
      simp

/-- `ring_buff_push_data` takes in what there is room for, and says so. -/
theorem ringBuffPushData_spec (r : Ringbuff size) (pData : List UInt8) :
    (ringBuffPushData r pData).1 = (r.fifo.push pData).1 ∧
      (ringBuffPushData r pData).2.fifo = (r.fifo.push pData).2 := by
  by_cases hlen : pData.length > size
  · simp [ringBuffPushData, Fifo.push, hlen]
  · rw [ringBuffPushData, Fifo.push, if_neg hlen, if_neg hlen]
    exact pushLoop_spec pData r

theorem popLoop_spec (len : Nat) (r : Ringbuff size) :
    (popLoop len r).1 = r.fifo.bytes.take len ∧ (popLoop len r).2.fifo = ⟨r.fifo.bytes.drop len, r.full⟩ := by
  induction len generalizing r with
  | zero => simp [popLoop, Ringbuff.fifo]
  | succ len ih =>
    simp only [popLoop, pop_index]
    by_cases hempty : r.writepoint = r.readpoint
    · simp [hempty, Ringbuff.fifo]
    · have hpop : r.fifo.bytes =
          r.buffer (r.readpoint + 1) :: contents r.buffer (r.readpoint + 1) r.writepoint := contents_pop hempty
      have hspec := ih { r with readpoint := r.readpoint + 1 }
      rw [if_neg hempty, hpop]
      exact ⟨congrArg _ hspec.1, hspec.2⟩

/-- `ring_buff_pop_data` gives the oldest bytes, as many as there are. -/
theorem ringBuffPopData_spec (r : Ringbuff size) (len : Nat) :
    (ringBuffPopData r len).1 = (r.fifo.pop len).1 ∧ (ringBuffPopData r len).2.1 = (r.fifo.pop len).2.1 ∧
      (ringBuffPopData r len).2.2.fifo = (r.fifo.pop len).2.2 := by
  obtain ⟨hdata, hrest⟩ := popLoop_spec len r
  by_cases hlen : len > size
  · simp [ringBuffPopData, Fifo.pop, hlen]
  · rw [ringBuffPopData, Fifo.pop, if_neg hlen, if_neg hlen]
    exact ⟨congrArg (fun l => (l.length : Int)) hdata, hdata, hrest⟩

end Spec

/-! ## Runs -/

/-- What is done to the ring: the interrupt hands in bytes
(`at_client_uart_rx_isr_cb`), the client takes some or drops all. -/
inductive RingCall
  | rx (pdata : List UInt8)
  | pop (len : Nat)
  | flush
  deriving DecidableEq

section Runs

variable {size : Nat} [NeZero size]

/-- A call on the ring: its return value, the bytes it gives out, the ring behind it. -/
def Ringbuff.call (r : Ringbuff size) : RingCall → Int × List UInt8 × Ringbuff size
  | .rx pdata => let (ret, r') := ringBuffPushData r pdata; (ret, [], r')
  | .pop len => ringBuffPopData r len
  | .flush => (ringbuffOk, [], ringBuffFlush r)

/-- The same call on the queue. -/
def Fifo.call (q : Fifo size) : RingCall → Int × List UInt8 × Fifo size
  | .rx pdata => let (ret, q') := q.push pdata; (ret, [], q')
  | .pop len => q.pop len
  | .flush => (ringbuffOk, [], Fifo.empty)

theorem call_spec (r : Ringbuff size) (c : RingCall) :
    (r.call c).1 = (r.fifo.call c).1 ∧ (r.call c).2.1 = (r.fifo.call c).2.1 ∧
      (r.call c).2.2.fifo = (r.fifo.call c).2.2 := by
  cases c with
  | rx pdata => exact ⟨(ringBuffPushData_spec r pdata).1, rfl, (ringBuffPushData_spec r pdata).2⟩
  | pop len => exact ringBuffPopData_spec r len
  | flush => exact ⟨rfl, rfl, fifo_flush r⟩

def Ringbuff.step (r : Ringbuff size) (c : RingCall) : Option (Ringbuff size) := some (r.call c).2.2
def Fifo.step (q : Fifo size) (c : RingCall) : Option (Fifo size) := some (q.call c).2.2

/-- What the caller sees of a call. -/
def Ringbuff.seen (r : Ringbuff size) (c : RingCall) : List (Int × List UInt8) := [((r.call c).1, (r.call c).2.1)]
def Fifo.seen (q : Fifo size) (c : RingCall) : List (Int × List UInt8) := [((q.call c).1, (q.call c).2.1)]

/-- What a call takes in, and what it gives out or drops. -/
def Fifo.accepted (q : Fifo size) : RingCall → List UInt8
  | .rx pdata => if pdata.length > size then [] else pdata.take q.free
  | .pop _ => []
  | .flush => []

def Fifo.removed (q : Fifo size) : RingCall → List UInt8
  | .rx _ => []
  | .pop len => (q.call (.pop len)).2.1
  | .flush => q.bytes

omit [NeZero size] in
theorem Fifo.balance (q : Fifo size) (c : RingCall) :
    q.bytes ++ q.accepted c = q.removed c ++ (q.call c).2.2.bytes := by
  cases c with
  | rx pdata => by_cases hlen : pdata.length > size <;> simp [accepted, removed, call, push, hlen]
  | pop len => by_cases hlen : len > size <;> simp [accepted, removed, call, pop, hlen]
  | flush => simp [accepted, removed, call, empty]

/-- A run of calls from the ring `r` to `s`: it shows what it shows on the queue
that the ring holds, and the bytes that were there or were taken in are, in
order and once, those given out or dropped and those left. -/
structure Refines (r : Ringbuff size) (cs : List RingCall) (s : Ringbuff size) : Prop where
  run : exec Ringbuff.step r cs = some s
  queue : exec Fifo.step r.fifo cs = some s.fifo
  seen : trace Ringbuff.step Ringbuff.seen r cs = trace Fifo.step Fifo.seen r.fifo cs
  order : r.fifo.bytes ++ trace Fifo.step Fifo.accepted r.fifo cs =
    trace Fifo.step Fifo.removed r.fifo cs ++ s.fifo.bytes

theorem step_seen (r : Ringbuff size) (c : RingCall) (r' : Ringbuff size) (q : Fifo size) (hq : q = r.fifo)
    (hc : Ringbuff.step r c = some r') :
    ∃ q', Fifo.step q c = some q' ∧ q' = r'.fifo ∧ Ringbuff.seen r c = Fifo.seen q c := by
  cases hc
  subst hq
  obtain ⟨hret, hdata, hfifo⟩ := call_spec r c
  exact ⟨_, rfl, hfifo.symm, by rw [Ringbuff.seen, Fifo.seen, hret, hdata]⟩

omit [NeZero size] in
theorem fifo_step_balance (q : Fifo size) (c : RingCall) (q' : Fifo size) (hc : Fifo.step q c = some q') :
    q.bytes ++ q.accepted c = q.removed c ++ q'.bytes := by
  cases hc
  exact q.balance c

theorem ringbuff_total (r : Ringbuff size) (cs : List RingCall) : ∃ s, exec Ringbuff.step r cs = some s := by
  induction cs generalizing r with
  | nil => exact ⟨r, rfl⟩
  | cons c cs ih => exact (ih (r.call c).2.2).imp fun s hs => exec_cons.2 ⟨_, rfl, hs⟩

theorem ringbuff_run (r : Ringbuff size) (cs : List RingCall) : ∃ s, Refines r cs s := by
  obtain ⟨s, hs⟩ := ringbuff_total r cs
  obtain ⟨q, hq, rfl, hseen⟩ := exec_sim_trace step_seen rfl hs
  exact ⟨s, hs, hq, hseen, trace_balance fifo_step_balance hq⟩

/-- **The ring is a queue of `size - 1` bytes**, over every order of interrupts
and calls from `ring_buff_init` on. -/
theorem ringbuff_refines_fifo (size : Nat) [NeZero size] (cs : List RingCall) :
    ∃ s : Ringbuff size, Refines ringBuffInit cs s ∧ s.fifo.bytes.length < size := by
  obtain ⟨s, hs⟩ := ringbuff_run (ringBuffInit : Ringbuff size) cs
  exact ⟨s, hs, fifo_length_lt s⟩

theorem ringbuff_refines_fifo_four : ∃ s : Ringbuff 4,
    Refines ringBuffInit [.rx [1, 2, 3, 4], .pop 2, .rx [5], .flush] s ∧ s.fifo.bytes.length < 4 :=
  ringbuff_refines_fifo 4 [.rx [1, 2, 3, 4], .pop 2, .rx [5], .flush]

end Runs

end Petbox.Modem
