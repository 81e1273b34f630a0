/-
Frames, and what one pass of the parsing loop makes of the bytes at an offset.

Two kinds of header are trouble. A declared length of 0xFFF9 or more wraps the
16-bit `rx_value_len` to 6 or less, so the tests of the loop are about a frame
that is not there. A declared length from 25 to 31 passes the sanity check
(which allows 38 bytes) and never fits the 31 bytes of the buffer.
-/
import Petbox.Wifi.Parser

namespace Petbox.Wifi

open Machine Mem

/-! ## Frames -/

def byteSum : List UInt8 → Nat
  | [] => 0
  | b :: bytes => b.toNat + byteSum bytes

/-- The sum of the bytes modulo 256. -/
def checkSum (bytes : List UInt8) : UInt8 := UInt8.ofNat (byteSum bytes % 256)

/-- The bytes of a frame in front of its checksum. -/
def frameBody (type : UInt8) (data : List UInt8) : List UInt8 :=
  [0x55, 0xaa, 0x00, type, UInt8.ofNat (data.length / 256), UInt8.ofNat (data.length % 256)] ++ data

/-- A well-formed frame. -/
def mkFrame (type : UInt8) (data : List UInt8) : List UInt8 :=
  frameBody type data ++ [checkSum (frameBody type data)]

/-- The bytes at `offset` are a well-formed frame, wholly received. -/
def CompleteFrame (w : ProcessBuf) (offset : Nat) : Prop :=
  ∃ type data, data.length ≤ 0xffff ∧ offset + data.length + 7 ≤ w.rxIn ∧
    slice w.buf offset (data.length + 7) = mkFrame type data

@[simp] theorem length_frameBody (type : UInt8) (data : List UInt8) :
    (frameBody type data).length = data.length + 6 := by simp [frameBody]

@[simp] theorem length_mkFrame (type : UInt8) (data : List UInt8) :
    (mkFrame type data).length = data.length + 7 := by simp [mkFrame]

theorem foldl_add_eq (bytes : List UInt8) (s : UInt8) :
    bytes.foldl (· + ·) s = UInt8.ofNat ((s.toNat + byteSum bytes) % 256) := by
  induction bytes generalizing s with
  | nil => apply UInt8.toNat.inj; simp [byteSum]
  | cons b bytes ih =>
    rw [List.foldl_cons, ih, UInt8.toNat_add]
    congr 1
    simp only [byteSum]
    omega

/-- The loop of `get_check_sum` computes the sum modulo 256. -/
theorem getCheckSum_eq (m : Nat → UInt8) (pack packLen : Nat) :
    getCheckSum m pack packLen = checkSum (slice m pack packLen) := by
  rw [getCheckSum, foldl_add_eq, checkSum, UInt8.toNat_zero, Nat.zero_add]

theorem declaredLen_lt (m : Nat → UInt8) (offset : Nat) : declaredLen m offset < 65536 := by
  have h1 := (m (offset + lengthHigh)).toNat_lt
  have h2 := (m (offset + lengthLow)).toNat_lt
  simp only [declaredLen]
  omega

/-- The two length bytes of a well-formed frame give its length back. -/
theorem length_bytes {n : Nat} (h : n ≤ 0xffff) :
    (UInt8.ofNat (n / 256)).toNat * 0x100 + (UInt8.ofNat (n % 256)).toNat = n := by
  simp only [UInt8.toNat_ofNat']
  omega

theorem bytes_length (hi lo : UInt8) :
    UInt8.ofNat ((hi.toNat * 0x100 + lo.toNat) / 256) = hi ∧
      UInt8.ofNat ((hi.toNat * 0x100 + lo.toNat) % 256) = lo := by
  have h1 := hi.toNat_lt
  have h2 := lo.toNat_lt
  constructor <;> apply UInt8.toNat.inj <;> simp only [UInt8.toNat_ofNat'] <;> omega

/-! ## One pass of the loop -/

/-- The three fixed bytes of a frame. -/
structure IsHeader (m : Nat → UInt8) (offset : Nat) : Prop where
  first : m (offset + headFirst) = frameFirst
  second : m (offset + headSecond) = frameSecond
  version : m (offset + protocolVersion) = mcuRxVer

theorem rxValueLen_eq (m : Nat → UInt8) (offset : Nat) :
    rxValueLen m offset = if declaredLen m offset < 0xfff9 then declaredLen m offset + 7
      else declaredLen m offset - 0xfff9 := by
  have := declaredLen_lt m offset
  simp only [rxValueLen, protocolHead_eq]
  split <;> omega

/-- Everything a pass can do at `offset`. -/
theorem examine_cases (w : ProcessBuf) (offset : Nat) :
    (∃ n, examine w offset = .skip n ∧ 0 < n ∧ n ≤ 3) ∨
    (examine w offset = .stop ∧ IsHeader w.buf offset ∧ rxValueLen w.buf offset ≤ 38 ∧
      w.rxIn - offset < rxValueLen w.buf offset) ∨
    (examine w offset = .handle (rxValueLen w.buf offset) ∧ IsHeader w.buf offset ∧ rxValueLen w.buf offset ≤ 38 ∧
      rxValueLen w.buf offset ≤ w.rxIn - offset ∧ checkSumOk w offset = true) := by
  unfold examine
  split
  · exact .inl ⟨1, rfl, by omega, by omega⟩
  · next h1 =>
  split
  · exact .inl ⟨1, rfl, by omega, by omega⟩
  · next h2 =>
  split
  · exact .inl ⟨2, rfl, by omega, by omega⟩
  · next h3 =>
  have hh : IsHeader w.buf offset := ⟨not_not.1 h1, not_not.1 h2, not_not.1 h3⟩
  split
  · exact .inl ⟨3, rfl, by omega, by omega⟩
  · next h4 =>
  have h4 : rxValueLen w.buf offset ≤ 38 := Nat.not_lt.1 h4
  split
  · next h5 => exact .inr (.inl ⟨rfl, hh, h4, h5⟩)
  · next h5 =>
  split
  · exact .inl ⟨3, rfl, by omega, by omega⟩
  · next h6 => exact .inr (.inr ⟨rfl, hh, h4, Nat.not_lt.1 h5, by simpa using h6⟩)

/-- On a header the last three tests decide. -/
theorem examine_header {w : ProcessBuf} {offset : Nat} (h : IsHeader w.buf offset) :
    examine w offset = if rxValueLen w.buf offset > 38 then .skip 3
      else if w.rxIn - offset < rxValueLen w.buf offset then .stop
      else if checkSumOk w offset then .handle (rxValueLen w.buf offset) else .skip 3 := by
  simp only [examine, h.first, h.second, h.version, ne_eq, not_true_eq_false, if_false, processBufSize_eq,
    protocolHead_eq]
  cases checkSumOk w offset <;> rfl

theorem examine_handle {w : ProcessBuf} {offset n : Nat} (h : examine w offset = .handle n) :
    n = rxValueLen w.buf offset ∧ IsHeader w.buf offset ∧ n ≤ w.rxIn - offset ∧ checkSumOk w offset = true := by
  obtain ⟨k, he, -⟩ | ⟨he, -⟩ | ⟨he, hh, -, h1, h2⟩ := examine_cases w offset <;> rw [h] at he
  · cases he
  · cases he
  · rw [Pass.handle.injEq] at he
    exact ⟨he, hh, he ▸ h1, h2⟩

theorem examine_skip {w : ProcessBuf} {offset n : Nat} (h : examine w offset = .skip n) : 0 < n := by
  obtain ⟨k, he, hpos, -⟩ | ⟨he, -⟩ | ⟨he, -⟩ := examine_cases w offset <;> rw [h] at he
  · rw [Pass.skip.injEq] at he
    exact he ▸ hpos
  · cases he
  · cases he

/-- A header that declares a length of 0xFFF9 or more passes every test but the checksum's. -/
theorem examine_wrapped {w : ProcessBuf} {offset : Nat} (hh : IsHeader w.buf offset)
    (hL : 0xfff9 ≤ declaredLen w.buf offset) (hr : protocolHead ≤ w.rxIn - offset) (hc : checkSumOk w offset = true) :
    examine w offset = .handle (declaredLen w.buf offset - 0xfff9) := by
  have hlt := declaredLen_lt w.buf offset
  have hv := rxValueLen_eq w.buf offset
  rw [if_neg (by omega)] at hv
  rw [protocolHead_eq] at hr
  rw [examine_header hh, if_neg (by omega), if_neg (by omega), if_pos hc, hv]

/-- The six bytes a header stands in. -/
theorem slice_header {m : Nat → UInt8} {offset : Nat} (h : IsHeader m offset) :
    slice m offset 6 = [0x55, 0xaa, 0x00, m (offset + frameType), UInt8.ofNat (declaredLen m offset / 256),
      UInt8.ofNat (declaredLen m offset % 256)] := by
  obtain ⟨hhi, hlo⟩ := bytes_length (m (offset + lengthHigh)) (m (offset + lengthLow))
  have h1 : m offset = 0x55 := h.first
  have h2 : m (offset + 1) = 0xaa := h.second
  have h3 : m (offset + 1 + 1) = 0x00 := h.version
  rw [declaredLen, hhi, hlo]
  simp only [slice, h1, h2, h3, frameType, lengthHigh, lengthLow, Nat.add_assoc, Nat.reduceAdd]

/-- With a declared length below 0xFFF9 the tests of the loop are those of a well-formed frame. -/
theorem completeFrame_of_handle {w : ProcessBuf} {offset n : Nat} (h : examine w offset = .handle n)
    (hL : declaredLen w.buf offset < 0xfff9) : CompleteFrame w offset := by
  obtain ⟨rfl, hh, hn, hc⟩ := examine_handle h
  obtain ⟨L, hL'⟩ : ∃ L, declaredLen w.buf offset = L := ⟨_, rfl⟩
  have hv : rxValueLen w.buf offset = L + 7 := by rw [rxValueLen_eq, if_pos hL, hL']
  rw [hv] at hn
  rw [hL'] at hL
  have hbody : slice w.buf offset (L + 6) = frameBody (w.buf (offset + frameType)) (slice w.buf (offset + 6) L) := by
    rw [show L + 6 = 6 + L by omega, slice_add, slice_header hh, frameBody, length_slice, hL']
  refine ⟨w.buf (offset + frameType), slice w.buf (offset + 6) L, ?_, ?_, ?_⟩ <;> rw [length_slice]
  · omega
  · omega
  · simp only [checkSumOk, beq_iff_eq, getCheckSum_eq, checkSumByte, hv] at hc
    rw [if_neg (by omega), show (L + 7 + 65535) % 65536 = L + 6 by omega,
      show offset + (L + 7) - 1 = offset + (L + 6) by omega] at hc
    rw [show L + 7 = L + 6 + 1 by omega, slice_snoc, mkFrame, ← hbody, hc]

/-- A frame's first bytes are its header and its length. -/
theorem header_of_frame {m : Nat → UInt8} {offset : Nat} {type : UInt8} {data : List UInt8}
    (hlen : data.length ≤ 0xffff) (h : slice m offset (data.length + 7) = mkFrame type data) :
    IsHeader m offset ∧ declaredLen m offset = data.length := by
  have key : ∀ k, k < 6 → m (offset + k) = (mkFrame type data).getD k 0 := fun k hk => by
    rw [← h, List.getD_eq_getElem?_getD, getElem?_slice (by omega), Option.getD_some]
  have h0 := key 0 (by omega)
  have h1 := key 1 (by omega)
  have h2 := key 2 (by omega)
  have h4 := key 4 (by omega)
  have h5 := key 5 (by omega)
  simp only [mkFrame, frameBody, List.cons_append, List.getD_cons_zero, List.getD_cons_succ] at h0 h1 h2 h4 h5
  exact ⟨⟨h0, h1, h2⟩, by rw [declaredLen, lengthHigh, lengthLow, h4, h5, length_bytes hlen]⟩

/-! ## Passes that do not move -/

/-- The pass that does not move is the one on a frame of length 0. -/
theorem examine_handle_zero {w : ProcessBuf} {offset : Nat} (hr : protocolHead ≤ w.rxIn - offset) :
    examine w offset = .handle 0 ↔
      IsHeader w.buf offset ∧ declaredLen w.buf offset = 0xfff9 ∧ checkSumOk w offset = true := by
  constructor
  · intro h
    obtain ⟨h0, hh, -, hc⟩ := examine_handle h
    refine ⟨hh, ?_, hc⟩
    rw [rxValueLen_eq] at h0
    split at h0 <;> omega
  · intro h
    obtain ⟨hh, hL, hc⟩ := h
    rw [examine_wrapped hh (by omega) hr hc, hL]

/-- The pass that stops is the one on a frame not yet complete. -/
theorem examine_stop {w : ProcessBuf} {offset : Nat} (hr : protocolHead ≤ w.rxIn - offset) :
    examine w offset = .stop ↔ IsHeader w.buf offset ∧ declaredLen w.buf offset ≤ 31 ∧
      w.rxIn < offset + declaredLen w.buf offset + 7 := by
  have hv := rxValueLen_eq w.buf offset
  have hlt := declaredLen_lt w.buf offset
  rw [protocolHead_eq] at hr
  constructor
  · intro h
    obtain ⟨k, he, -⟩ | ⟨-, hh, h1, h2⟩ | ⟨he, -⟩ := examine_cases w offset
    · rw [h] at he; cases he
    · refine ⟨hh, ?_⟩
      split at hv <;> omega
    · rw [h] at he; cases he
  · intro h
    obtain ⟨hh, h1, h2⟩ := h
    rw [if_pos (by omega)] at hv
    rw [examine_header hh, if_neg (by omega), if_pos (by omega)]

end Petbox.Wifi
