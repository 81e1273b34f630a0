/-
What the parsing loop of `wifi_uart_service` reads: the loop once more, with
the index of every byte of `wifi_data_process_buf` that it and `get_check_sum`
look at, and the offset at that time.

One declared length is out of the way: 0xFFF9 makes `rx_value_len` 0, so
`get_check_sum` is called for 65535 bytes, and the byte compared with its sum
is the one in front of the frame. And where `data_handle` does not return the
loop does not get on.
-/
import Petbox.Lib.Access
import Petbox.Wifi.Service

namespace Petbox.Wifi

open Access Machine Mem

/-- `wifi_data_process_buf[i]`. -/
def ProcessBuf.get (w : ProcessBuf) (i : Int) : UInt8 := if i < 0 then w.before else w.buf i.toNat

/-- The loop of `get_check_sum` from `pack` on, with the sum so far. -/
def getCheckSumReads (w : ProcessBuf) (pack : Int) : Nat → UInt8 → Logged Int UInt8
  | 0, checkSum => pure checkSum
  | n + 1, checkSum => do
    let b ← read w.get pack
    getCheckSumReads w (pack + 1) n (checkSum + b)

/-- `rx_value_len`, from the two length bytes. -/
def rxValueLenReads (w : ProcessBuf) (offset : Nat) : Logged Int Nat := do
  let hi ← read w.get (offset + lengthHigh : Nat)
  let lo ← read w.get (offset + lengthLow : Nat)
  return (hi.toNat * 0x100 + lo.toNat + protocolHead) % 65536

/-- The checksum test. -/
def checkSumReads (w : ProcessBuf) (offset rxValueLen : Nat) : Logged Int Bool := do
  let sum ← getCheckSumReads w offset ((rxValueLen + 65535) % 65536) 0
  let b ← read w.get ((offset : Int) + rxValueLen - 1)
  return sum == b

/-- The body of the parsing loop. -/
def examineReads (w : ProcessBuf) (offset : Nat) : Logged Int Pass := do
  let b ← read w.get (offset + headFirst : Nat)
  if b ≠ frameFirst then return .skip 1
  let b ← read w.get (offset + headSecond : Nat)
  if b ≠ frameSecond then return .skip 1
  let b ← read w.get (offset + protocolVersion : Nat)
  if b ≠ mcuRxVer then return .skip 2
  let rxValueLen ← rxValueLenReads w offset
  if rxValueLen > processBufSize + protocolHead then return .skip 3
  if w.rxIn - offset < rxValueLen then return .stop
  let ok ← checkSumReads w offset rxValueLen
  return if !ok then .skip 3 else .handle rxValueLen

/-- The parsing loop: each read with the offset it is made at. What `data_handle`
reads is not in it. -/
def parseLoopReads (site : Site) (w : ProcessBuf) :
    Nat → Nat → Sdk → Logged (Nat × Int) (List Nat × Option (Sdk × Nat))
  | 0, _, _ => pure ([], none)
  | fuel + 1, offset, s =>
    if protocolHead ≤ w.rxIn - offset then do
      match ← (examineReads w offset).rename (offset, ·) with
      | .stop => pure ([], some (s, offset))
      | .skip n => parseLoopReads site w fuel (offset + n) s
      | .handle n =>
        match dataHandle site quertFuel w.buf offset s with
        | none => pure ([offset], none)
        | some s => do
          let r ← parseLoopReads site w fuel (offset + n) s
          pure (offset :: r.1, r.2)
    else pure ([], some (s, offset))

/-- The reads of the shift at the end, when the loop has ended at `offset`. -/
def shiftReads (w : ProcessBuf) (offset : Nat) : List Nat := (List.range (w.rxIn - offset)).map (offset + ·)

/-! ## The reads beside the parser -/

@[simp] theorem get_nat (w : ProcessBuf) (i : Nat) : w.get i = w.buf i := by
  rw [ProcessBuf.get, if_neg (by omega), Int.toNat_natCast]

theorem getCheckSumReads_val (w : ProcessBuf) (pack n : Nat) (checkSum : UInt8) :
    (getCheckSumReads w pack n checkSum).val = (slice w.buf pack n).foldl (· + ·) checkSum := by
  induction n generalizing pack checkSum with
  | zero => rfl
  | succ n ih =>
    simp only [getCheckSumReads, val_bind, val_read, get_nat, slice_succ, List.foldl_cons]
    exact ih (pack + 1) _

theorem getCheckSumReads_within {P : Int → Prop} {w : ProcessBuf} {pack : Int} {n : Nat} {checkSum : UInt8} :
    Within P (getCheckSumReads w pack n checkSum) ↔ ∀ i < n, P (pack + (i : Nat)) := by
  induction n generalizing pack checkSum with
  | zero => simp [getCheckSumReads]
  | succ n ih =>
    have hnext : ∀ i : Nat, pack + 1 + i = pack + (i + 1 : Nat) := fun i => by omega
    simp only [getCheckSumReads, within_bind, within_read, ih, Nat.forall_lt_succ_left, hnext]
    simp

@[simp] theorem rxValueLenReads_val (w : ProcessBuf) (offset : Nat) :
    (rxValueLenReads w offset).val = rxValueLen w.buf offset := by
  simp only [rxValueLenReads, val_bind, val_read, val_pure, get_nat, rxValueLen, declaredLen]

@[simp] theorem rxValueLenReads_within {P : Int → Prop} {w : ProcessBuf} {offset : Nat} :
    Within P (rxValueLenReads w offset) ↔ P (offset + lengthHigh : Nat) ∧ P (offset + lengthLow : Nat) := by
  simp only [rxValueLenReads, within_bind, within_read, within_pure, and_true]

theorem get_checkSumByte (w : ProcessBuf) (offset : Nat) :
    w.get ((offset : Int) + rxValueLen w.buf offset - 1) = checkSumByte w offset := by
  unfold ProcessBuf.get checkSumByte
  by_cases h : offset + rxValueLen w.buf offset = 0
  · rw [if_pos h, if_pos (by omega)]
  · rw [if_neg h, if_neg (by omega)]
    congr 1
    omega

@[simp] theorem checkSumReads_val (w : ProcessBuf) (offset : Nat) :
    (checkSumReads w offset (rxValueLen w.buf offset)).val = checkSumOk w offset := by
  unfold checkSumReads checkSumOk getCheckSum
  rw [val_bind, val_bind, val_pure, val_read, getCheckSumReads_val, get_checkSumByte]

/-- The body with its reads is the body. -/
theorem examineReads_val (w : ProcessBuf) (offset : Nat) : (examineReads w offset).val = examine w offset := by
  unfold examineReads examine
  simp only [val_bind, val_read, val_ite, val_pure, get_nat, rxValueLenReads_val]
  rw [checkSumReads_val]

/-- Everything a pass reads, by how far it gets. -/
theorem examineReads_within {P : Int → Prop} {w : ProcessBuf} {offset : Nat} :
    Within P (examineReads w offset) ↔
      P (offset + headFirst : Nat) ∧ (w.buf (offset + headFirst) = frameFirst → P (offset + headSecond : Nat) ∧
      (w.buf (offset + headSecond) = frameSecond → P (offset + protocolVersion : Nat) ∧
      (w.buf (offset + protocolVersion) = mcuRxVer → (P (offset + lengthHigh : Nat) ∧ P (offset + lengthLow : Nat)) ∧
      (rxValueLen w.buf offset ≤ processBufSize + protocolHead → rxValueLen w.buf offset ≤ w.rxIn - offset →
        (∀ i < (rxValueLen w.buf offset + 65535) % 65536, P ((offset : Int) + (i : Nat))) ∧
        P ((offset : Int) + rxValueLen w.buf offset - 1))))) := by
  simp only [examineReads, checkSumReads, within_bind, within_read, within_ite, within_pure, val_read, get_nat,
    rxValueLenReads_within, rxValueLenReads_val, getCheckSumReads_within, not_not, Nat.not_lt, gt_iff_lt, ne_eq,
    implies_true, true_and, and_true]

/-- The loop with its reads is the loop. -/
theorem parseLoopReads_val (site : Site) (w : ProcessBuf) (fuel offset : Nat) (s : Sdk) :
    (parseLoopReads site w fuel offset s).val = parseLoop site w fuel offset s := by
  induction fuel generalizing offset s with
  | zero => rfl
  | succ fuel ih =>
    by_cases hroom : protocolHead ≤ w.rxIn - offset
    · simp only [parseLoopReads, parseLoop, if_pos hroom, val_bind, val_rename, examineReads_val]
      cases examine w offset with
      | stop => rfl
      | skip n => exact ih (offset + n) s
      | handle n =>
        cases dataHandle site quertFuel w.buf offset s with
        | none => rfl
        | some s' => simp only [val_bind, val_pure, ih]
    · simp only [parseLoopReads, parseLoop, if_neg hroom, val_pure]

/-- The loop's reads are those of the offsets it comes to. -/
theorem parseLoopReads_within {P : Nat × Int → Prop} {site : Site} {w : ProcessBuf} {a : Nat} {s : Sdk} :
    (∀ fuel, Within P (parseLoopReads site w fuel a s)) ↔
      ∀ b, Reaches w a b → Within (fun i => P (b, i)) (examineReads w b) := by
  constructor
  · intro h b hb
    induction hb generalizing s with
    | @here a hroom =>
      have h1 := h 1
      simp only [parseLoopReads, if_pos hroom, within_bind, within_rename] at h1
      exact h1.1
    | @pass a b n hroom hgoes _ ih =>
      obtain he | ⟨he, hreturns⟩ := hgoes
      · refine ih (s := s) fun fuel => ?_
        have h1 := h (fuel + 1)
        simp only [parseLoopReads, if_pos hroom, within_bind, val_rename, examineReads_val, he] at h1
        exact h1.2
      · obtain ⟨s', hd⟩ := dataHandle_returns hreturns site s
        refine ih (s := s') fun fuel => ?_
        have h1 := h (fuel + 1)
        simp only [parseLoopReads, if_pos hroom, within_bind, val_rename, examineReads_val, he, hd] at h1
        exact h1.2.1
  · intro h fuel
    induction fuel generalizing a s with
    | zero => exact within_pure _
    | succ fuel ih =>
      by_cases hroom : protocolHead ≤ w.rxIn - a
      · simp only [parseLoopReads, if_pos hroom, within_bind, within_rename, val_rename, examineReads_val]
        refine ⟨h a (.here hroom), ?_⟩
        cases he : examine w a with
        | stop => exact within_pure _
        | skip n => exact ih fun b hb => h b (.pass hroom (.inl he) hb)
        | handle n =>
          cases hd : dataHandle site quertFuel w.buf a s with
          | none => exact within_pure _
          | some s' =>
            have hreturns : ¬ Spins w.buf a := fun hspin => by
              rw [(dataHandle_none_iff site w.buf a s).2 hspin] at hd
              cases hd
            exact within_bind.2 ⟨ih fun b hb => h b (.pass hroom (.inr ⟨he, hreturns⟩) hb), within_pure _⟩
      · simp only [parseLoopReads, if_neg hroom]
        exact within_pure _

/-! ## Bounds and progress -/

/-- The read, with the offset it is made at, is not in front of the offset and
below `rx_in`. -/
def Inside (w : ProcessBuf) (r : Nat × Int) : Prop := r.1 ≤ r.2 ∧ r.2 < (w.rxIn : Int)

/-- A pass stops or moves on. -/
def Moves (w : ProcessBuf) (offset : Nat) : Prop :=
  examine w offset = .stop ∨ ∃ n, 0 < n ∧ Goes w offset n

/-- Where the declared length does not wrap to 0 a pass reads inside and moves. -/
theorem readsInside_iff {w : ProcessBuf} {offset : Nat} (hroom : protocolHead ≤ w.rxIn - offset) :
    Within (fun i => Inside w (offset, i)) (examineReads w offset) ↔
      (IsHeader w.buf offset → declaredLen w.buf offset ≠ 0xfff9) := by
  have hle := w.rxIn_le
  have hv := rxValueLen_eq w.buf offset
  have hlt := declaredLen_lt w.buf offset
  rw [protocolHead_eq] at hroom
  rw [processBufSize_eq] at hle
  rw [examineReads_within]
  simp only [Inside]
  constructor
  · intro h hh hL
    -- the byte in front of the frame
    rw [hL, if_neg (by omega), Nat.sub_self] at hv
    have hread := ((((h.2 hh.first).2 hh.second).2 hh.version).2 (by rw [hv]; exact Nat.zero_le _)
      (by rw [hv]; exact Nat.zero_le _)).2
    rw [hv] at hread
    omega
  · intro h
    simp only [headFirst, headSecond, protocolVersion, lengthHigh, lengthLow]
    refine ⟨by omega, fun h1 => ⟨by omega, fun h2 => ⟨by omega, fun h3 => ⟨⟨by omega, by omega⟩, ?_⟩⟩⟩⟩
    intro _ hin
    have hne := h ⟨h1, h2, h3⟩
    have hpos : 0 < rxValueLen w.buf offset := by
      rw [hv]
      split <;> omega
    refine ⟨fun i hi => ?_, by omega⟩
    rw [show (rxValueLen w.buf offset + 65535) % 65536 = rxValueLen w.buf offset - 1 by omega] at hi
    omega

theorem moves_of {w : ProcessBuf} {offset : Nat} (h : IsHeader w.buf offset → declaredLen w.buf offset ≠ 0xfff9)
    (hreturns : (∃ n, examine w offset = .handle n) → ¬ Spins w.buf offset) : Moves w offset := by
  have hv := rxValueLen_eq w.buf offset
  have hlt := declaredLen_lt w.buf offset
  obtain ⟨n, he, hn, -⟩ | ⟨he, -⟩ | ⟨he, hh, -⟩ := examine_cases w offset
  · exact .inr ⟨n, hn, .inl he⟩
  · exact .inl he
  · have hne := h hh
    refine .inr ⟨rxValueLen w.buf offset, ?_, .inr ⟨he, hreturns ⟨_, he⟩⟩⟩
    split at hv <;> omega

/-- What the loop of one call is to do: every read lies between the offset at
that time and `rx_in`, every pass stops or moves on, the loop ends within
`rx_in` passes, not behind `rx_in`, and the shift reads what is left. -/
structure ParsesInside (site : Site) (w : ProcessBuf) (s : Sdk) : Prop where
  reads : ∀ fuel, Within (Inside w) (parseLoopReads site w fuel 0 s)
  moves : ∀ offset, Examined w offset → Moves w offset
  ends : ∃ calls s' e, parseLoop site w (w.rxIn + 1) 0 s = (calls, some (s', e)) ∧ e ≤ w.rxIn ∧
    ∀ i ∈ shiftReads w e, e ≤ i ∧ i < w.rxIn

/-- A loop that ends has not passed `rx_in`. -/
theorem parseLoop_le {site : Site} {w : ProcessBuf} {fuel a e : Nat} {s s' : Sdk} (ha : a ≤ w.rxIn)
    (h : (parseLoop site w fuel a s).2 = some (s', e)) : e ≤ w.rxIn := by
  induction fuel generalizing a s with
  | zero => cases h
  | succ fuel ih =>
    by_cases hroom : protocolHead ≤ w.rxIn - a
    case neg =>
      rw [parseLoop_end hroom] at h
      cases h
      exact ha
    have h7 := hroom
    rw [protocolHead_eq] at h7
    obtain ⟨n, he, -, hn⟩ | ⟨he, -⟩ | ⟨he, -, -, hn, -⟩ := examine_cases w a
    · rw [parseLoop_skip hroom he] at h
      exact ih (by omega) h
    · rw [parseLoop_stop hroom he] at h
      cases h
      exact ha
    · by_cases hspin : Spins w.buf a
      · rw [parseLoop_spins hroom he hspin] at h
        cases h
      · obtain ⟨s₁, hd⟩ := dataHandle_returns hspin site s
        rw [parseLoop_handle hroom he hd] at h
        exact ih (by omega) h

theorem mem_shiftReads {w : ProcessBuf} {offset i : Nat} (h : i ∈ shiftReads w offset) :
    offset ≤ i ∧ i < w.rxIn := by
  obtain ⟨k, hk, rfl⟩ := List.mem_map.1 h
  have := List.mem_range.1 hk
  omega

/-- **The parser stays between the offset and `rx_in` and gets on, exactly when
it comes to no header that declares 0xFFF9 bytes**, the one length whose sum
with the seven bytes of the header is 0 in 16 bits, **and hands out no frame that
`data_handle` does not return from.** -/
theorem parses_inside_iff (site : Site) (w : ProcessBuf) (s : Sdk) :
    ParsesInside site w s ↔
      (∀ offset, Examined w offset → IsHeader w.buf offset → declaredLen w.buf offset ≠ 0xfff9) ∧
      ∀ offset, Handled w offset → ¬ Spins w.buf offset := by
  have hreads : (∀ fuel, Within (Inside w) (parseLoopReads site w fuel 0 s)) ↔
      ∀ offset, Examined w offset → IsHeader w.buf offset → declaredLen w.buf offset ≠ 0xfff9 := by
    rw [parseLoopReads_within]
    exact forall₂_congr fun offset hx => readsInside_iff hx.room
  constructor
  · intro h
    refine ⟨hreads.1 h.reads, fun offset hx hspin => ?_⟩
    obtain ⟨hx, n, he⟩ := hx
    obtain ⟨calls, s', e, hl, -⟩ := h.ends
    have hsticks := parseLoop_sticks site hx ⟨n, he, .inr hspin⟩ (w.rxIn + 1) s
    rw [hl] at hsticks
    cases hsticks
  · intro h
    obtain ⟨hlen, hreturns⟩ := h
    have hfree : ∀ b, Reaches w 0 b → ¬ Sticks w b := fun b hb hs => by
      obtain ⟨hh, hL, -⟩ | ⟨hx, hspin⟩ := (sticks_iff hb).1 hs
      · exact hlen b hb hh hL
      · exact hreturns b hx hspin
    obtain ⟨s', e, hl, -⟩ := parseLoop_returns site hfree (Nat.lt_succ_self (w.rxIn - 0)) s
    exact ⟨hreads.2 hlen, fun offset hx => moves_of (hlen offset hx) fun he => hreturns offset ⟨hx, he⟩,
      _, s', e, Prod.ext rfl hl, parseLoop_le (Nat.zero_le _) hl, fun _ => mem_shiftReads⟩

/-- 55 AA 00, type 0, declared length 0xFFF9. -/
def zeroLengthHeader : List UInt8 := [0x55, 0xaa, 0x00, 0x00, 0xff, 0xf9, 0x00]

/-- The seven bytes of `zeroLengthHeader` in a fresh buffer: the first pass reads
65535 bytes from the front of the buffer, and the byte before it. -/
theorem zero_length_reads_outside :
    ∃ w, receive .fifo processBufSize (.start (fun _ => 0) 0) zeroLengthHeader = some (w, []) ∧
      ¬ ParsesInside .plain w (.init fun _ => 0) := by
  refine ⟨_, rfl, fun h => ?_⟩
  have hroom : protocolHead ≤ 7 - 0 := by decide
  have hx := parseLoopReads_within.1 h.reads 0 (.here hroom)
  have hread := ((((examineReads_within.1 hx).2 rfl).2 rfl).2 rfl).2 (by decide) (by decide)
  exact absurd hread.2.1 (by decide)

end Petbox.Wifi
