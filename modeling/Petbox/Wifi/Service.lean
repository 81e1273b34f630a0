/-
`wifi_uart_service` of the Tuya SDK (`tuya/mcu_api.c`) with the `data_handle`
it calls: what it hands to `data_handle`, and when it gets on.

A call does not return when its loop hands out a frame of length 0, which does
not move the offset, or when `data_handle` itself does not return (`Spins`).
The loop comes to nothing behind such a frame.
-/
import Petbox.Wifi.Respond

namespace Petbox.Wifi

open Machine Mem

/-- The parsing loop from `offset` on: the offsets `data_handle` is called with
and, where the loop ends, the SDK and the offset it ends at. A call of
`data_handle` that does not return is the last one. -/
def parseLoop (site : Site) (w : ProcessBuf) : Nat → Nat → Sdk → List Nat × Option (Sdk × Nat)
  | 0, _, _ => ([], none)
  | fuel + 1, offset, s =>
    if protocolHead ≤ w.rxIn - offset then
      match examine w offset with
      | .stop => ([], some (s, offset))
      | .skip n => parseLoop site w fuel (offset + n) s
      | .handle n =>
        match dataHandle site quertFuel w.buf offset s with
        | none => ([offset], none)
        | some s =>
          let r := parseLoop site w fuel (offset + n) s
          (offset :: r.1, r.2)
    else ([], some (s, offset))

/-- A call of `data_handle`: the memory from `wifi_data_process_buf` on, and the offset. -/
structure Handover where
  buf : Nat → UInt8
  offset : Nat

def Handover.frame (h : Handover) : List UInt8 := frameAt h.buf h.offset

def Handover.Spins (h : Handover) : Prop := Petbox.Wifi.Spins h.buf h.offset

/-- The process buffer, the bytes waiting for it, and the SDK. -/
structure Device (ρ : Type) where
  proc : ProcessBuf
  ring : ρ
  sdk : Sdk

/-- The device at power on; its buffers and the byte in front of the receive buffer hold anything. -/
def Device.start {ρ : Type} (txBuf buf : Nat → UInt8) (before : UInt8) (ring : ρ) : Device ρ :=
  ⟨.start buf before, ring, .init txBuf⟩

/-- What happens to the device: bytes arrive, the service is called, the
application calls a function that sends. -/
inductive DeviceAct
  | arrive (bytes : List UInt8)
  | call
  | ask (a : Ask)

/-- More passes than any loop that returns makes (`parseLoop_returns`). -/
def parseFuel : Nat := processBufSize + 1

section Source

variable {ρ : Type} (site : Site) (src : RxSource ρ)

/-- One call: the calls of `data_handle` it makes and the state afterwards.
`none` is a call that does not return. -/
def wifiUartService (fuel : Nat) (d : Device ρ) : List Handover × Option (Device ρ) :=
  match receive src (processBufSize - d.proc.rxIn) d.proc d.ring with
  | none => ([], none)
  | some (w, r) =>
    if w.rxIn < protocolHead then ([], some ⟨w, r, d.sdk⟩)
    else
      let p := parseLoop site w fuel 0 d.sdk
      (p.1.map fun offset => ⟨w.buf, offset⟩, p.2.map fun e => ⟨w.shift e.2, r, e.1⟩)

def deviceStep (d : Device ρ) : DeviceAct → Option (Device ρ)
  | .arrive bytes => (takeIn src d.ring bytes).map fun r => { d with ring := r }
  | .call => (wifiUartService site src parseFuel d).2
  | .ask a => some { d with sdk := d.sdk.ask a }

/-- The calls of `data_handle` that an action makes. -/
def handovers (d : Device ρ) : DeviceAct → List Handover
  | .arrive _ => []
  | .call => (wifiUartService site src parseFuel d).1
  | .ask _ => []

end Source

/-! ## The offsets the loop examines -/

/-- The loop gets on from `offset` by `n`: it skips, or it hands out a frame and
`data_handle` returns. -/
def Goes (w : ProcessBuf) (offset n : Nat) : Prop :=
  examine w offset = .skip n ∨ examine w offset = .handle n ∧ ¬ Spins w.buf offset

/-- The loop, when at offset `a`, comes to examine offset `b`. -/
inductive Reaches (w : ProcessBuf) : Nat → Nat → Prop
  | here {a} : protocolHead ≤ w.rxIn - a → Reaches w a a
  | pass {a b n} : protocolHead ≤ w.rxIn - a → Goes w a n → Reaches w (a + n) b → Reaches w a b

/-- The offsets a call examines. -/
def Examined (w : ProcessBuf) (offset : Nat) : Prop := Reaches w 0 offset

/-- The offsets a call passes to `data_handle`. -/
def Handled (w : ProcessBuf) (offset : Nat) : Prop := Examined w offset ∧ ∃ n, examine w offset = .handle n

section Loop

variable {w : ProcessBuf} {site : Site} {fuel a : Nat} {s s' : Sdk}

theorem parseLoop_end (hroom : ¬ protocolHead ≤ w.rxIn - a) : parseLoop site w (fuel + 1) a s = ([], some (s, a)) := by
  rw [parseLoop, if_neg hroom]

theorem parseLoop_stop (hroom : protocolHead ≤ w.rxIn - a) (he : examine w a = .stop) :
    parseLoop site w (fuel + 1) a s = ([], some (s, a)) := by
  rw [parseLoop, if_pos hroom, he]

theorem parseLoop_skip {n : Nat} (hroom : protocolHead ≤ w.rxIn - a) (he : examine w a = .skip n) :
    parseLoop site w (fuel + 1) a s = parseLoop site w fuel (a + n) s := by
  rw [parseLoop, if_pos hroom, he]

theorem parseLoop_handle {n : Nat} (hroom : protocolHead ≤ w.rxIn - a) (he : examine w a = .handle n)
    (hd : dataHandle site quertFuel w.buf a s = some s') :
    parseLoop site w (fuel + 1) a s =
      (a :: (parseLoop site w fuel (a + n) s').1, (parseLoop site w fuel (a + n) s').2) := by
  rw [parseLoop, if_pos hroom, he]
  simp only [hd]

theorem parseLoop_spins {n : Nat} (hroom : protocolHead ≤ w.rxIn - a) (he : examine w a = .handle n)
    (hspin : Spins w.buf a) : parseLoop site w (fuel + 1) a s = ([a], none) := by
  rw [parseLoop, if_pos hroom, he]
  simp only [(dataHandle_none_iff site w.buf a s).2 hspin]

/-- `data_handle` returns from a frame without a walk that comes back. -/
theorem dataHandle_returns {buf : Nat → UInt8} {offset : Nat} (h : ¬ Spins buf offset) (site : Site) (s : Sdk) :
    ∃ s', dataHandle site quertFuel buf offset s = some s' :=
  Option.ne_none_iff_exists'.1 (mt (dataHandle_none_iff site buf offset s).1 h)

theorem Reaches.room {b : Nat} (h : Reaches w a b) : protocolHead ≤ w.rxIn - b := by
  induction h with
  | here h => exact h
  | pass _ _ _ ih => exact ih

/-- Behind a frame that `data_handle` does not return from, or one of length 0, there is nothing. -/
theorem Reaches.eq_of_stuck {b n : Nat} (h : Reaches w a b) (he : examine w a = .handle n)
    (hstuck : n = 0 ∨ Spins w.buf a) : b = a := by
  induction h with
  | here _ => rfl
  | @pass a b k _ hgoes _ ih =>
    obtain hk | ⟨hk, hreturns⟩ := hgoes
    · rw [he] at hk
      cases hk
    · rw [he, Pass.handle.injEq] at hk
      subst hk
      obtain rfl | hspin := hstuck
      · exact ih he (.inl rfl)
      · exact absurd hspin hreturns

/-- The loop calls `data_handle` with handled offsets only. -/
theorem handled_of_mem {b : Nat} (h : b ∈ (parseLoop site w fuel a s).1) :
    Reaches w a b ∧ ∃ n, examine w b = .handle n := by
  induction fuel generalizing a s with
  | zero => exact absurd h List.not_mem_nil
  | succ fuel ih =>
    by_cases hroom : protocolHead ≤ w.rxIn - a
    case neg =>
      rw [parseLoop_end hroom] at h
      exact absurd h List.not_mem_nil
    cases he : examine w a with
    | stop =>
      rw [parseLoop_stop hroom he] at h
      exact absurd h List.not_mem_nil
    | skip n =>
      rw [parseLoop_skip hroom he] at h
      obtain ⟨hr, hb⟩ := ih h
      exact ⟨.pass hroom (.inl he) hr, hb⟩
    | handle n =>
      by_cases hspin : Spins w.buf a
      · rw [parseLoop_spins hroom he hspin, List.mem_singleton] at h
        subst h
        exact ⟨.here hroom, n, he⟩
      · obtain ⟨s', hd⟩ := dataHandle_returns hspin site s
        rw [parseLoop_handle hroom he hd] at h
        obtain rfl | h := List.mem_cons.1 h
        · exact ⟨.here hroom, n, he⟩
        · obtain ⟨hr, hb⟩ := ih h
          exact ⟨.pass hroom (.inr ⟨he, hspin⟩) hr, hb⟩

/-- The offset the loop is at is in its list when it is handled. -/
theorem mem_parseLoop_here {n : Nat} (hroom : protocolHead ≤ w.rxIn - a) (he : examine w a = .handle n) :
    a ∈ (parseLoop site w (fuel + 1) a s).1 := by
  by_cases hspin : Spins w.buf a
  · rw [parseLoop_spins hroom he hspin]
    exact List.mem_singleton_self a
  · obtain ⟨s', hd⟩ := dataHandle_returns hspin site s
    rw [parseLoop_handle hroom he hd]
    exact List.mem_cons_self ..

/-- With a pass for every byte left, the loop calls `data_handle` with every handled offset. -/
theorem mem_of_handled {b n : Nat} (hr : Reaches w a b) (hb : examine w b = .handle n) (hf : w.rxIn - a < fuel) :
    b ∈ (parseLoop site w fuel a s).1 := by
  induction fuel generalizing a s with
  | zero => exact absurd hf (Nat.not_lt_zero _)
  | succ fuel ih =>
    cases hr with
    | here hroom => exact mem_parseLoop_here hroom hb
    | @pass _ _ k hroom hgoes hr =>
      have h7 := hroom
      rw [protocolHead_eq] at h7
      obtain he | ⟨he, hreturns⟩ := hgoes
      · have hpos := examine_skip he
        rw [parseLoop_skip hroom he]
        exact ih hr (by omega)
      · rcases Nat.eq_zero_or_pos k with rfl | hpos
        · obtain rfl := hr.eq_of_stuck (a := a) he (.inl rfl)
          exact mem_parseLoop_here hroom he
        · obtain ⟨s', hd⟩ := dataHandle_returns hreturns site s
          rw [parseLoop_handle hroom he hd]
          exact List.mem_cons_of_mem _ (ih hr (by omega))

/-- A call of the service calls `data_handle` with the handled offsets of the
buffer it parses, and no others, whether it returns or not. -/
theorem mem_handovers {ρ : Type} {src : RxSource ρ} {d : Device ρ} {w : ProcessBuf} {r : ρ}
    (hrx : receive src (processBufSize - d.proc.rxIn) d.proc d.ring = some (w, r)) (h : Handover) :
    h ∈ handovers site src d .call ↔ ∃ offset, Handled w offset ∧ h = ⟨w.buf, offset⟩ := by
  simp only [handovers, wifiUartService, hrx]
  by_cases h7 : w.rxIn < protocolHead
  · rw [if_pos h7]
    refine ⟨fun h => absurd h List.not_mem_nil, ?_⟩
    intro h
    obtain ⟨offset, ⟨hr, -⟩, -⟩ := h
    have := hr.room
    omega
  · rw [if_neg h7, List.mem_map]
    refine exists_congr fun offset => and_congr ⟨handled_of_mem, ?_⟩ eq_comm
    intro h
    obtain ⟨hr, n, hb⟩ := h
    have hle := w.rxIn_le
    exact mem_of_handled hr hb (by simp only [parseFuel]; omega)

end Loop
/-- **`data_handle` is called on well-formed frames only, exactly when no
header with a wrapping length passes the checksum test.** -/
theorem handled_wellFormed_iff (w : ProcessBuf) :
    (∀ offset, Handled w offset → CompleteFrame w offset) ↔
      ∀ offset, Examined w offset → IsHeader w.buf offset → 0xfff9 ≤ declaredLen w.buf offset →
        checkSumOk w offset = false := by
  constructor
  · intro h offset hx hh hL
    refine Bool.eq_false_iff.2 fun hc => ?_
    obtain ⟨type, data, hlen, hroom, hs⟩ := h offset ⟨hx, _, examine_wrapped hh hL hx.room hc⟩
    have hd := (header_of_frame hlen hs).2
    have hle := w.rxIn_le
    rw [processBufSize_eq] at hle
    omega
  · intro h offset hh
    obtain ⟨hx, n, he⟩ := hh
    obtain ⟨-, hh, -, hc⟩ := examine_handle he
    rcases Nat.lt_or_ge (declaredLen w.buf offset) 0xfff9 with hL | hL
    · exact completeFrame_of_handle he hL
    · exact absurd hc (by simp [h offset hx hh hL])

/-- 55 AA 00, type 0, declared length 0xFFFE: `rx_value_len` is 5, and the sum
of the first four bytes is the fifth. -/
def wrappedHeader : List UInt8 := [0x55, 0xaa, 0x00, 0x00, 0xff, 0xfe, 0x00]

/-- The seven bytes of `wrappedHeader` in a fresh buffer are handed out at
offset 0, as a frame of five bytes; they are no frame. -/
theorem wrapped_length_handled :
    ∃ w, receive .fifo processBufSize (.start (fun _ => 0) 0) wrappedHeader = some (w, []) ∧
      ¬ ∀ offset, Handled w offset → CompleteFrame w offset := by
  refine ⟨_, rfl, fun h => ?_⟩
  obtain ⟨type, data, hlen, hroom, hs⟩ := h 0 ⟨.here (by decide), 5, by decide⟩
  have hd : 0xfffe = data.length := (header_of_frame hlen hs).2
  have hroom : 0 + data.length + 7 ≤ 7 := hroom
  omega

/-! ## Progress -/

section Progress

variable {w : ProcessBuf} {site : Site}

/-- The loop does not get past this offset: the frame has length 0, or
`data_handle` does not return from it. -/
def Sticks (w : ProcessBuf) (offset : Nat) : Prop :=
  ∃ n, examine w offset = .handle n ∧ (n = 0 ∨ Spins w.buf offset)

/-- A loop that comes to such an offset does not return. -/
theorem parseLoop_sticks (site : Site) {a b : Nat} (h : Reaches w a b) (hb : Sticks w b) (fuel : Nat) (s : Sdk) :
    (parseLoop site w fuel a s).2 = none := by
  induction fuel generalizing a s with
  | zero => rfl
  | succ fuel ih =>
    cases h with
    | here hroom =>
      obtain ⟨n, he, hstuck⟩ := hb
      by_cases hspin : Spins w.buf b
      · rw [parseLoop_spins hroom he hspin]
      · obtain ⟨s', hd⟩ := dataHandle_returns hspin site s
        obtain rfl := hstuck.resolve_right hspin
        rw [parseLoop_handle hroom he hd]
        exact ih (.here hroom) s'
    | pass hroom hgoes hr =>
      obtain he | ⟨he, hreturns⟩ := hgoes
      · rw [parseLoop_skip hroom he]
        exact ih hr s
      · obtain ⟨s', hd⟩ := dataHandle_returns hreturns site s
        rw [parseLoop_handle hroom he hd]
        exact ih hr s'

/-- A loop that comes to no such offset returns, within as many passes as bytes
are left, and has moved unless its first pass stopped. -/
theorem parseLoop_returns (site : Site) {a fuel : Nat} (hs : ∀ b, Reaches w a b → ¬ Sticks w b)
    (hf : w.rxIn - a < fuel) (s : Sdk) :
    ∃ s' e, (parseLoop site w fuel a s).2 = some (s', e) ∧ a ≤ e ∧
      (protocolHead ≤ w.rxIn - a → examine w a ≠ .stop → a < e) := by
  induction fuel generalizing a s with
  | zero => exact absurd hf (Nat.not_lt_zero _)
  | succ fuel ih =>
    by_cases hroom : protocolHead ≤ w.rxIn - a
    case neg => exact ⟨s, a, by rw [parseLoop_end hroom], Nat.le_refl a, fun h => absurd h hroom⟩
    have h7 := hroom
    rw [protocolHead_eq] at h7
    cases he : examine w a with
    | stop => exact ⟨s, a, by rw [parseLoop_stop hroom he], Nat.le_refl a, fun _ h => absurd rfl h⟩
    | skip n =>
      have hpos := examine_skip he
      obtain ⟨s', e, hl, hle, -⟩ := ih (a := a + n) (fun b hb => hs b (.pass hroom (.inl he) hb)) (by omega) s
      exact ⟨s', e, by rw [parseLoop_skip hroom he, hl], by omega, fun _ _ => by omega⟩
    | handle n =>
      have hstuck : ¬ Sticks w a := hs a (.here hroom)
      have hpos : n ≠ 0 := fun h0 => hstuck ⟨n, he, .inl h0⟩
      have hreturns : ¬ Spins w.buf a := fun hspin => hstuck ⟨n, he, .inr hspin⟩
      obtain ⟨s₁, hd⟩ := dataHandle_returns hreturns site s
      obtain ⟨s', e, hl, hle, -⟩ := ih (a := a + n)
        (fun b hb => hs b (.pass hroom (.inr ⟨he, hreturns⟩) hb)) (by omega) s₁
      exact ⟨s', e, by rw [parseLoop_handle hroom he hd, hl], by omega, fun _ _ => by omega⟩

/-- Nothing in a full buffer that the loop gets stuck on: a header at the front that
declares more than the buffer can hold and no more than the sanity check
allows, a header whose length is 0 in 16 bits and that the checksum test lets
through, a frame that `data_handle` does not return from. -/
structure CanMove (w : ProcessBuf) : Prop where
  waits : ¬ (IsHeader w.buf 0 ∧ 25 ≤ declaredLen w.buf 0 ∧ declaredLen w.buf 0 ≤ 31)
  spins : ∀ offset, Examined w offset → IsHeader w.buf offset → declaredLen w.buf offset = 0xfff9 →
    checkSumOk w offset = false
  returns : ∀ offset, Handled w offset → ¬ Spins w.buf offset

theorem sticks_iff {a : Nat} (h : Examined w a) :
    Sticks w a ↔ (IsHeader w.buf a ∧ declaredLen w.buf a = 0xfff9 ∧ checkSumOk w a = true) ∨
      Handled w a ∧ Spins w.buf a := by
  rw [← examine_handle_zero h.room]
  constructor
  · intro hs
    obtain ⟨n, he, rfl | hspin⟩ := hs
    · exact .inl he
    · exact .inr ⟨⟨h, n, he⟩, hspin⟩
  · intro hs
    obtain he | ⟨⟨-, n, he⟩, hspin⟩ := hs
    · exact ⟨0, he, .inl rfl⟩
    · exact ⟨n, he, .inr hspin⟩

theorem parseLoop_moves_iff (site : Site) (hfull : w.rxIn = processBufSize) (s : Sdk) :
    (∃ fuel s' e, (parseLoop site w fuel 0 s).2 = some (s', e) ∧ 0 < e) ↔ CanMove w := by
  have hN := processBufSize_eq
  have hroom : protocolHead ≤ w.rxIn - 0 := by rw [hfull]; decide
  have hstop : examine w 0 = .stop ↔ IsHeader w.buf 0 ∧ 25 ≤ declaredLen w.buf 0 ∧ declaredLen w.buf 0 ≤ 31 := by
    rw [examine_stop hroom]
    exact and_congr_right fun _ => by omega
  constructor
  · intro h
    obtain ⟨fuel, s', e, hl, he⟩ := h
    have hfree : ∀ b, Examined w b → ¬ Sticks w b := fun b hb hs => by
      rw [parseLoop_sticks site hb hs] at hl
      cases hl
    refine ⟨fun h => ?_, fun offset hx hh hL => Bool.eq_false_iff.2 fun hc => ?_, fun offset hx hspin => ?_⟩
    · cases fuel with
      | zero => cases hl
      | succ fuel =>
        rw [parseLoop_stop hroom (hstop.2 h), Option.some.injEq, Prod.mk.injEq] at hl
        omega
    · exact hfree offset hx ((sticks_iff hx).2 (.inl ⟨hh, hL, hc⟩))
    · exact hfree offset hx.1 ((sticks_iff hx.1).2 (.inr ⟨hx, hspin⟩))
  · intro h
    obtain ⟨hwait, hzero, hreturns⟩ := h
    have hfree : ∀ b, Reaches w 0 b → ¬ Sticks w b := fun b hb hs => by
      obtain ⟨hh, hL, hc⟩ | ⟨hx, hspin⟩ := (sticks_iff hb).1 hs
      · rw [hzero b hb hh hL] at hc
        cases hc
      · exact hreturns b hx hspin
    obtain ⟨s', e, hl, -, he⟩ := parseLoop_returns site hfree (Nat.lt_succ_self _) s
    exact ⟨_, s', e, hl, he hroom fun h => hwait (hstop.1 h)⟩

/-- **A full buffer is parsed with progress exactly when it holds nothing the
loop gets stuck on**: the call returns and leaves fewer bytes in the buffer. -/
theorem full_buffer_progress_iff {ρ : Type} (site : Site) {src : RxSource ρ} {d : Device ρ} {w₁ : ProcessBuf} {r₁ : ρ}
    (hrx : receive src (processBufSize - d.proc.rxIn) d.proc d.ring = some (w₁, r₁))
    (hfull : w₁.rxIn = processBufSize) :
    (∃ fuel d', (wifiUartService site src fuel d).2 = some d' ∧ d'.proc.rxIn < w₁.rxIn) ↔ CanMove w₁ := by
  have hN := processBufSize_eq
  have hnlt : ¬ w₁.rxIn < protocolHead := by rw [hfull]; decide
  rw [← parseLoop_moves_iff site hfull d.sdk]
  simp only [wifiUartService, hrx, if_neg hnlt]
  constructor
  · intro h
    obtain ⟨fuel, d', h, hlt⟩ := h
    obtain ⟨⟨s', e⟩, hl, rfl⟩ := Option.map_eq_some_iff.1 h
    rw [shift_rxIn] at hlt
    exact ⟨fuel, s', e, hl, by omega⟩
  · intro h
    obtain ⟨fuel, s', e, hl, he⟩ := h
    exact ⟨fuel, _, by rw [hl]; rfl, by rw [shift_rxIn]; omega⟩

/-- The device with these bytes in a queue. -/
def Device.fresh (bytes : List UInt8) : Device (List UInt8) := .start (fun _ => 0) (fun _ => 0) 0 bytes

theorem full_buffer_progress_iff_zeros :
    ∃ w, receive .fifo 31 (.start (fun _ => 0) 0) (List.replicate 31 0) = some (w, []) ∧
      ((∃ fuel d', (wifiUartService .plain .fifo fuel (.fresh (List.replicate 31 0))).2 = some d' ∧
        d'.proc.rxIn < w.rxIn) ↔ CanMove w) :=
  ⟨_, rfl, full_buffer_progress_iff .plain (d := .fresh (List.replicate 31 0))
    (rfl : _ = some (_, ([] : List UInt8))) rfl⟩

/-- 55 AA 00, type 0, declared length 25, and the 25 bytes: with its checksum the
frame would be one byte longer than the buffer. -/
def longFrame : List UInt8 := [0x55, 0xaa, 0x00, 0x00, 0x00, 25] ++ List.replicate 25 0

/-- The bytes of `longFrame` arrive, 16 and then 15 of them: the buffer is full
in the second call, and that call frees nothing. -/
theorem full_buffer_wedges :
    ∃ d w, exec (deviceStep .plain .fifo) (.fresh [])
        [.arrive (longFrame.take 16), .call, .arrive (longFrame.drop 16)] = some d ∧
      receive .fifo (processBufSize - d.proc.rxIn) d.proc d.ring = some (w, []) ∧ w.rxIn = processBufSize ∧
      ¬ ∃ fuel d', (wifiUartService .plain .fifo fuel d).2 = some d' ∧ d'.proc.rxIn < w.rxIn := by
  refine ⟨_, _, rfl, rfl, rfl, ?_⟩
  intro h
  obtain ⟨_ | fuel, d', h, hlt⟩ := h
  · cases h
  · have hw : 31 - 0 = d'.proc.rxIn := congrArg (fun o => o.elim 0 fun d => d.proc.rxIn) h
    have hlt : d'.proc.rxIn < 31 := hlt
    omega

end Progress

end Petbox.Wifi
