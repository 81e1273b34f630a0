/-
The reports of data points: six builders (`tuya/mcu_api.c`) write one record
each into `wifi_uart_tx_buf`, and `wifi_uart_write_frame` (`tuya/system.c`)
makes a frame of it and sends it.

A record is an id, a type, a length of two bytes and the value, the number types
high byte first. A bitmap takes as few bytes as its value fits in.
-/
import Petbox.Lib.Layout
import Petbox.Lib.Pack
import Petbox.Wifi.Frames

namespace Petbox.Wifi

open Mem Pack

def mcuTxVer : UInt8 := 0x03
def stateUploadCmd : UInt8 := 0x07

def dpTypeRaw : UInt8 := 0x00
def dpTypeBool : UInt8 := 0x01
def dpTypeValue : UInt8 := 0x02
def dpTypeString : UInt8 := 0x03
def dpTypeEnum : UInt8 := 0x04
def dpTypeBitmap : UInt8 := 0x05

def success : UInt8 := 1
def enable : UInt8 := 1

/-- `sizeof(wifi_uart_tx_buf)`: `PROTOCOL_HEAD + WIFIR_UART_SEND_BUF_LMT`. -/
def txBufSize : Nat := protocolHead + 48

/-- `wifi_uart_tx_buf` with what lies behind it, `stop_update_flag`, and the
bytes sent so far. -/
structure Uart where
  txBuf : Nat → UInt8
  stopUpdateFlag : UInt8
  sent : List UInt8

/-- An array a caller passes: its bytes from the pointer on, and whether the
addresses are such that `my_memcpy` counts up. -/
structure Source where
  bytes : Nat → UInt8
  up : Bool

/-! ## The writers -/

/-- `set_wifi_uart_byte`. -/
def setWifiUartByte (dest : UInt16) (byte : UInt8) : Emit UInt16 := do
  put (dataStart + dest.toNat) byte
  return dest + 1

/-- The loop of `my_memcpy` that counts up, from an array of its own. -/
def storesUp (dest : Nat) (src : Nat → UInt8) : Nat → Emit Unit
  | 0 => pure ()
  | n + 1 => do
    storesUp dest src n
    put (dest + n) (src n)

/-- The loop that counts down. -/
def storesDown (dest : Nat) (src : Nat → UInt8) : Nat → Emit Unit
  | 0 => pure ()
  | n + 1 => do
    put (dest + n) (src n)
    storesDown dest src n

/-- `my_memcpy` from an array, or from NULL. -/
def copyFrom (dest : Nat) (src : Option Source) (count : Nat) : Emit Unit :=
  match src with
  | none => pure ()
  | some src => if src.up then storesUp dest src.bytes count else storesDown dest src.bytes count

/-- `set_wifi_uart_buffer`. -/
def setWifiUartBuffer (dest : UInt16) (src : Option Source) (len : UInt16) : Emit UInt16 := do
  copyFrom (dataStart + dest.toNat) src len.toNat
  return dest + len

/-- The six bytes `wifi_uart_write_frame` stores in front of the data. -/
def headStores (frType frVer : UInt8) (len : UInt16) : Emit Unit := do
  put headFirst 0x55
  put headSecond 0xaa
  put protocolVersion frVer
  put frameType frType
  put lengthHigh (len >>> 8).toUInt8
  put lengthLow (len &&& 0xff).toUInt8

/-- `wifi_uart_write_data`: the bytes it sends. -/
def wifiUartWriteData (buf : Nat → UInt8) (len : UInt16) : List UInt8 := slice buf 0 len.toNat

/-- `wifi_uart_write_frame`. Where the sum `len + PROTOCOL_HEAD` is 0 the checksum
goes in front of the buffer, to a place the state does not have. -/
def wifiUartWriteFrame (u : Uart) (frType frVer : UInt8) (len : UInt16) : Uart :=
  let buf := afterStores u.txBuf (headStores frType frVer len).stores
  let len := len + UInt16.ofNat protocolHead
  let checkSum := getCheckSum buf 0 (len - 1).toNat
  let buf := if len = 0 then buf else store buf (len - 1).toNat checkSum
  { u with txBuf := buf, sent := u.sent ++ wifiUartWriteData buf len }

/-! ## The builders -/

/-- What every builder does with its record. -/
def reportUpdate (record : Emit UInt16) (u : Uart) : UInt8 × Uart :=
  if u.stopUpdateFlag == enable then (success, u)
  else
    let u := { u with txBuf := afterStores u.txBuf record.stores }
    (success, wifiUartWriteFrame u stateUploadCmd mcuTxVer record.val)

/-- A record of `len` bytes from an array. -/
def bytesRecord (type dpid : UInt8) (value : Option Source) (len : UInt16) : Emit UInt16 := do
  let sendLen ← setWifiUartByte 0 dpid
  let sendLen ← setWifiUartByte sendLen type
  let sendLen ← setWifiUartByte sendLen (len / 0x100).toUInt8
  let sendLen ← setWifiUartByte sendLen (len % 0x100).toUInt8
  setWifiUartBuffer sendLen value len

/-- A record of one byte. -/
def byteRecord (type dpid value : UInt8) : Emit UInt16 := do
  let sendLen ← setWifiUartByte 0 dpid
  let sendLen ← setWifiUartByte sendLen type
  let sendLen ← setWifiUartByte sendLen 0
  let sendLen ← setWifiUartByte sendLen 1
  setWifiUartByte sendLen value

/-- `mcu_dp_raw_update`. -/
def mcuDpRawUpdate (dpid : UInt8) (value : Option Source) (len : UInt16) : Uart → UInt8 × Uart :=
  reportUpdate (bytesRecord dpTypeRaw dpid value len)

/-- `mcu_dp_bool_update`. -/
def mcuDpBoolUpdate (dpid value : UInt8) : Uart → UInt8 × Uart :=
  reportUpdate (byteRecord dpTypeBool dpid (if value == 0 then 0 else 1))

/-- The record of `mcu_dp_value_update`. -/
def valueRecord (dpid : UInt8) (value : UInt32) : Emit UInt16 := do
  let sendLen ← setWifiUartByte 0 dpid
  let sendLen ← setWifiUartByte sendLen dpTypeValue
  let sendLen ← setWifiUartByte sendLen 0
  let sendLen ← setWifiUartByte sendLen 4
  let sendLen ← setWifiUartByte sendLen (value >>> 24).toUInt8
  let sendLen ← setWifiUartByte sendLen (value >>> 16).toUInt8
  let sendLen ← setWifiUartByte sendLen (value >>> 8).toUInt8
  setWifiUartByte sendLen (value &&& 0xff).toUInt8

/-- `mcu_dp_value_update`. -/
def mcuDpValueUpdate (dpid : UInt8) (value : UInt32) : Uart → UInt8 × Uart := reportUpdate (valueRecord dpid value)

/-- `mcu_dp_string_update`. -/
def mcuDpStringUpdate (dpid : UInt8) (value : Option Source) (len : UInt16) : Uart → UInt8 × Uart :=
  reportUpdate (bytesRecord dpTypeString dpid value len)

/-- `mcu_dp_enum_update`. -/
def mcuDpEnumUpdate (dpid value : UInt8) : Uart → UInt8 × Uart := reportUpdate (byteRecord dpTypeEnum dpid value)

/-- The record of `mcu_dp_fault_update`. -/
def faultRecord (dpid : UInt8) (value : UInt32) : Emit UInt16 := do
  let sendLen ← setWifiUartByte 0 dpid
  let sendLen ← setWifiUartByte sendLen dpTypeBitmap
  let sendLen ← setWifiUartByte sendLen 0
  if value ||| 0xff == 0xff then
    let sendLen ← setWifiUartByte sendLen 1
    setWifiUartByte sendLen value.toUInt8
  else if value ||| 0xffff == 0xffff then
    let sendLen ← setWifiUartByte sendLen 2
    let sendLen ← setWifiUartByte sendLen (value >>> 8).toUInt8
    setWifiUartByte sendLen (value &&& 0xff).toUInt8
  else
    let sendLen ← setWifiUartByte sendLen 4
    let sendLen ← setWifiUartByte sendLen (value >>> 24).toUInt8
    let sendLen ← setWifiUartByte sendLen (value >>> 16).toUInt8
    let sendLen ← setWifiUartByte sendLen (value >>> 8).toUInt8
    setWifiUartByte sendLen (value &&& 0xff).toUInt8

/-- `mcu_dp_fault_update`. -/
def mcuDpFaultUpdate (dpid : UInt8) (value : UInt32) : Uart → UInt8 × Uart := reportUpdate (faultRecord dpid value)

/-! ## What a frame says -/

/-- The value of a data point. -/
inductive DpValue
  | raw (bytes : List UInt8)
  | bool (b : Bool)
  | value (n : Nat)
  | string (bytes : List UInt8)
  | enum (n : Nat)
  | bitmap (n : Nat)
  deriving DecidableEq, Repr

/-- The number some bytes denote, high byte first. -/
def beVal (bytes : List UInt8) : Nat := Layout.leVal bytes.reverse

/-- The value that stands in a record of this type. -/
def decodeValue (type : UInt8) (bytes : List UInt8) : Option DpValue :=
  if type = dpTypeRaw then some (.raw bytes)
  else if type = dpTypeString then some (.string bytes)
  else if type = dpTypeBool ∧ bytes.length = 1 then some (.bool (beVal bytes != 0))
  else if type = dpTypeEnum ∧ bytes.length = 1 then some (.enum (beVal bytes))
  else if type = dpTypeValue ∧ bytes.length = 4 then some (.value (beVal bytes))
  else if type = dpTypeBitmap ∧ (bytes.length = 1 ∨ bytes.length = 2 ∨ bytes.length = 4) then
    some (.bitmap (beVal bytes))
  else none

/-- The id and the value a record gives: id, type, length, and that many bytes. -/
def decodeRecord : List UInt8 → Option (UInt8 × DpValue)
  | dpid :: type :: lenHigh :: lenLow :: bytes =>
    if bytes.length = lenHigh.toNat * 0x100 + lenLow.toNat then (decodeValue type bytes).map (dpid, ·) else none
  | _ => none

/-- The bytes of a frame to the module in front of its checksum. -/
def txBody (frType : UInt8) (data : List UInt8) : List UInt8 :=
  [0x55, 0xaa, 0x03, frType, UInt8.ofNat (data.length / 256), UInt8.ofNat (data.length % 256)] ++ data

/-- The frame of this type to the module. -/
def txFrame (frType : UInt8) (data : List UInt8) : List UInt8 :=
  txBody frType data ++ [checkSum (txBody frType data)]

/-- The report frame with this data. -/
def reportFrame (data : List UInt8) : List UInt8 := txFrame stateUploadCmd data

/-- A call of one of the builders. -/
inductive DpReport
  | raw (src : Source) (len : UInt16)
  | bool (v : UInt8)
  | value (v : UInt32)
  | string (src : Source) (len : UInt16)
  | enum (v : UInt8)
  | fault (v : UInt32)

/-- The call, for a data point. -/
def DpReport.call (dpid : UInt8) : DpReport → Uart → UInt8 × Uart
  | .raw src len => mcuDpRawUpdate dpid (some src) len
  | .bool v => mcuDpBoolUpdate dpid v
  | .value v => mcuDpValueUpdate dpid v
  | .string src len => mcuDpStringUpdate dpid (some src) len
  | .enum v => mcuDpEnumUpdate dpid v
  | .fault v => mcuDpFaultUpdate dpid v

/-- The length the caller gives, where the caller gives one. -/
def DpReport.dataLen : DpReport → Nat
  | .raw _ len => len.toNat
  | .string _ len => len.toNat
  | _ => 0

/-- What the call reports. -/
def DpReport.dpValue : DpReport → DpValue
  | .raw src len => .raw (slice src.bytes 0 len.toNat)
  | .bool v => .bool (v != 0)
  | .value v => .value v.toNat
  | .string src len => .string (slice src.bytes 0 len.toNat)
  | .enum v => .enum v.toNat
  | .fault v => .bitmap v.toNat

/-! ## The records -/

/-- A record whose stores put these bytes behind the header, and that counts them. -/
structure Writes (record : Emit UInt16) (data : List UInt8) : Prop where
  fills : Fills record.stores dataStart data
  val : record.val = UInt16.ofNat data.length

theorem storesUp_fills (dest : Nat) (src : Nat → UInt8) (n : Nat) :
    Fills (storesUp dest src n).stores dest (slice src 0 n) := by
  induction n with
  | zero => exact fills_nil dest
  | succ n ih =>
    rw [slice_snoc, Nat.zero_add]
    refine ih.append ?_
    rw [length_slice]
    exact fills_cells (dest + n) [src n]

theorem storesDown_fills (dest : Nat) (src : Nat → UInt8) (n : Nat) :
    Fills (storesDown dest src n).stores dest (slice src 0 n) := by
  induction n with
  | zero => exact fills_nil dest
  | succ n ih =>
    rw [slice_snoc, Nat.zero_add]
    refine ih.append_before ?_
    rw [length_slice]
    exact fills_cells (dest + n) [src n]

/-- `my_memcpy` copies the array, whichever way it counts. -/
theorem copyFrom_fills (dest : Nat) (src : Source) (count : Nat) :
    Fills (copyFrom dest (some src) count).stores dest (slice src.bytes 0 count) := by
  simp only [copyFrom]
  cases src.up with
  | true => exact storesUp_fills dest src.bytes count
  | false => exact storesDown_fills dest src.bytes count

theorem bytesRecord_writes (type dpid : UInt8) (src : Source) (len : UInt16) :
    Writes (bytesRecord type dpid (some src) len)
      ([dpid, type, (len / 0x100).toUInt8, (len % 0x100).toUInt8] ++ slice src.bytes 0 len.toNat) where
  fills := by
    have hstores : (bytesRecord type dpid (some src) len).stores =
        cells dataStart [dpid, type, (len / 0x100).toUInt8, (len % 0x100).toUInt8] ++
          ((copyFrom (dataStart + 4) (some src) len.toNat).stores ++ []) := rfl
    rw [hstores, List.append_nil]
    exact (fills_cells dataStart [dpid, type, _, _]).append (copyFrom_fills (dataStart + 4) src len.toNat)
  val := by
    have hval : (bytesRecord type dpid (some src) len).val = 4 + len := rfl
    rw [hval, List.length_append, length_slice, ← UInt16.toNat_inj, UInt16.toNat_add, UInt16.toNat_ofNat']
    rfl

theorem byteRecord_writes (type dpid v : UInt8) : Writes (byteRecord type dpid v) [dpid, type, 0, 1, v] where
  fills := fills_cells dataStart [dpid, type, 0, 1, v]
  val := rfl

/-- The four bytes of a number, high byte first. -/
def beBytes4 (v : UInt32) : List UInt8 :=
  [(v >>> 24).toUInt8, (v >>> 16).toUInt8, (v >>> 8).toUInt8, (v &&& 0xff).toUInt8]

/-- The bytes of a bitmap. -/
def faultBytes (v : UInt32) : List UInt8 :=
  if v ||| 0xff == 0xff then [v.toUInt8]
  else if v ||| 0xffff == 0xffff then [(v >>> 8).toUInt8, (v &&& 0xff).toUInt8]
  else beBytes4 v

theorem valueRecord_writes (dpid : UInt8) (v : UInt32) :
    Writes (valueRecord dpid v) ([dpid, dpTypeValue, 0, 4] ++ beBytes4 v) where
  fills := fills_cells dataStart ([dpid, dpTypeValue, 0, 4] ++ beBytes4 v)
  val := rfl

theorem faultRecord_writes (dpid : UInt8) (v : UInt32) :
    Writes (faultRecord dpid v)
      ([dpid, dpTypeBitmap, 0, UInt8.ofNat (faultBytes v).length] ++ faultBytes v) := by
  simp only [faultRecord, faultBytes]
  cases v ||| 0xff == 0xff with
  | true => exact ⟨fills_cells dataStart [dpid, dpTypeBitmap, 0, 1, v.toUInt8], rfl⟩
  | false =>
    cases v ||| 0xffff == 0xffff with
    | true =>
      exact ⟨fills_cells dataStart [dpid, dpTypeBitmap, 0, 2, (v >>> 8).toUInt8, (v &&& 0xff).toUInt8], rfl⟩
    | false => exact ⟨fills_cells dataStart ([dpid, dpTypeBitmap, 0, 4] ++ beBytes4 v), rfl⟩

/-! ## Reading a record back -/

@[simp] theorem beVal_one (a : UInt8) : beVal [a] = a.toNat := rfl

theorem toNat_low (v : UInt32) : (v &&& 0xff).toUInt8.toNat = v.toNat % 256 := by
  rw [UInt32.toNat_toUInt8, UInt32.toNat_and]
  exact congrArg (· % 256) (Nat.and_two_pow_sub_one_eq_mod v.toNat 8) |>.trans (Nat.mod_mod ..)

theorem toNat_shift (v k : UInt32) (n : Nat) (hk : k.toNat = n) (hn : n < 32) :
    (v >>> k).toUInt8.toNat = v.toNat / 2 ^ n % 256 := by
  rw [UInt32.toNat_toUInt8, UInt32.toNat_shiftRight, hk, Nat.mod_eq_of_lt hn, Nat.shiftRight_eq_div_pow]

theorem beVal_two (v : UInt32) : beVal [(v >>> 8).toUInt8, (v &&& 0xff).toUInt8] = v.toNat % 65536 := by
  have h8 := toNat_shift v 8 8 rfl (by decide)
  have h0 := toNat_low v
  simp only [beVal, List.reverse_cons, List.reverse_nil, List.nil_append, List.cons_append, Layout.leVal, h8, h0]
  omega

theorem beVal_beBytes4 (v : UInt32) : beVal (beBytes4 v) = v.toNat := by
  have h24 := toNat_shift v 24 24 rfl (by decide)
  have h16 := toNat_shift v 16 16 rfl (by decide)
  have h8 := toNat_shift v 8 8 rfl (by decide)
  have h0 := toNat_low v
  have hv := v.toNat_lt
  simp only [beBytes4, beVal, List.reverse_cons, List.reverse_nil, List.nil_append, List.cons_append, Layout.leVal,
    h24, h16, h8, h0]
  omega

/-- A number that the mask covers is at most the mask. -/
theorem toNat_le_of_or {v mask : UInt32} (h : (v ||| mask == mask) = true) : v.toNat ≤ mask.toNat := by
  have h : v ||| mask = mask := beq_iff_eq.1 h
  calc v.toNat ≤ v.toNat ||| mask.toNat := Nat.left_le_or
    _ = (v ||| mask).toNat := (UInt32.toNat_or ..).symm
    _ = mask.toNat := by rw [h]

/-- The bytes of a bitmap are 1, 2 or 4 and denote it. -/
theorem faultBytes_spec (v : UInt32) :
    ((faultBytes v).length = 1 ∨ (faultBytes v).length = 2 ∨ (faultBytes v).length = 4) ∧
      beVal (faultBytes v) = v.toNat := by
  simp only [faultBytes]
  cases h1 : v ||| 0xff == 0xff with
  | true =>
    refine ⟨.inl rfl, ?_⟩
    have hle : v.toNat ≤ 255 := toNat_le_of_or h1
    rw [if_pos rfl, beVal_one, UInt32.toNat_toUInt8]
    omega
  | false =>
    rw [if_neg Bool.false_ne_true]
    cases h2 : v ||| 0xffff == 0xffff with
    | true =>
      refine ⟨.inr (.inl rfl), ?_⟩
      have hle : v.toNat ≤ 65535 := toNat_le_of_or h2
      rw [if_pos rfl, beVal_two]
      omega
    | false => exact ⟨.inr (.inr rfl), beVal_beBytes4 v⟩

@[simp] theorem length_beBytes4 (v : UInt32) : (beBytes4 v).length = 4 := rfl

theorem decodeValue_value (v : UInt32) : decodeValue dpTypeValue (beBytes4 v) = some (.value v.toNat) := by
  simp [decodeValue, dpTypeRaw, dpTypeBool, dpTypeValue, dpTypeString, dpTypeEnum, beVal_beBytes4]

theorem decodeValue_fault (v : UInt32) : decodeValue dpTypeBitmap (faultBytes v) = some (.bitmap v.toNat) := by
  have h := faultBytes_spec v
  simp [decodeValue, dpTypeRaw, dpTypeBool, dpTypeValue, dpTypeString, dpTypeEnum, dpTypeBitmap, h]

/-- A record that counts its bytes gives the value that stands in it. -/
theorem decodeRecord_eq {dpid type lenHigh lenLow : UInt8} {bytes : List UInt8} {value : DpValue}
    (hlen : bytes.length = lenHigh.toNat * 0x100 + lenLow.toNat) (h : decodeValue type bytes = some value) :
    decodeRecord ([dpid, type, lenHigh, lenLow] ++ bytes) = some (dpid, value) := by
  simp [decodeRecord, hlen, h]

/-- The two length bytes of a record give the length back. -/
theorem length_bytes16 (len : UInt16) :
    len.toNat = (len / 0x100).toUInt8.toNat * 0x100 + (len % 0x100).toUInt8.toNat := by
  have := len.toNat_lt
  simp only [UInt16.toNat_toUInt8, UInt16.toNat_div, UInt16.toNat_mod, UInt16.reduceToNat]
  omega

/-- The data of a call's frame. -/
def DpReport.data (dpid : UInt8) : DpReport → List UInt8
  | .raw src len =>
    [dpid, dpTypeRaw, (len / 0x100).toUInt8, (len % 0x100).toUInt8] ++ slice src.bytes 0 len.toNat
  | .bool v => [dpid, dpTypeBool, 0, 1, if v == 0 then 0 else 1]
  | .value v => [dpid, dpTypeValue, 0, 4] ++ beBytes4 v
  | .string src len =>
    [dpid, dpTypeString, (len / 0x100).toUInt8, (len % 0x100).toUInt8] ++ slice src.bytes 0 len.toNat
  | .enum v => [dpid, dpTypeEnum, 0, 1, v]
  | .fault v => [dpid, dpTypeBitmap, 0, UInt8.ofNat (faultBytes v).length] ++ faultBytes v

theorem decode_data (dpid : UInt8) (r : DpReport) : decodeRecord (r.data dpid) = some (dpid, r.dpValue) := by
  cases r with
  | raw src len => exact decodeRecord_eq (by rw [length_slice, ← length_bytes16]) rfl
  | string src len => exact decodeRecord_eq (by rw [length_slice, ← length_bytes16]) rfl
  | bool v =>
    refine decodeRecord_eq rfl (congrArg (some ∘ DpValue.bool) ?_)
    cases h : v == 0 with
    | true => rw [beq_iff_eq.1 h]; rfl
    | false => simp [bne, h]
  | value v =>
    refine decodeRecord_eq ?_ (decodeValue_value v)
    rw [length_beBytes4]
    rfl
  | enum v => exact decodeRecord_eq rfl rfl
  | fault v =>
    refine decodeRecord_eq ?_ (decodeValue_fault v)
    obtain ⟨h | h | h, -⟩ := faultBytes_spec v <;> rw [h] <;> rfl

theorem length_data_le (dpid : UInt8) (r : DpReport) : (r.data dpid).length ≤ 4 + max r.dataLen 4 := by
  cases r with
  | raw src len => simp [DpReport.data, DpReport.dataLen]; omega
  | string src len => simp [DpReport.data, DpReport.dataLen]; omega
  | bool v => exact Nat.le_succ_of_le (Nat.le_succ_of_le (Nat.le_succ 5))
  | value v => exact Nat.le_of_eq (List.length_append.trans rfl)
  | enum v => exact Nat.le_succ_of_le (Nat.le_succ_of_le (Nat.le_succ 5))
  | fault v =>
    have := faultBytes_spec v
    simp only [DpReport.data, DpReport.dataLen, List.length_append, List.length_cons, List.length_nil]
    omega

/-! ## The frame -/

section WriteFrame

variable {u : Uart} {data : List UInt8} {len : UInt16}

theorem toNat_frameLen (hlen : len.toNat = data.length) (hroom : data.length + 7 < 65536) :
    (len + UInt16.ofNat protocolHead).toNat = data.length + 7 := by
  rw [UInt16.toNat_add, hlen]
  exact Nat.mod_eq_of_lt hroom

/-- The data with the header in front of it. -/
theorem slice_head (frType : UInt8) (hlen : len.toNat = data.length)
    (hdata : slice u.txBuf dataStart data.length = data) :
    slice (afterStores u.txBuf (headStores frType mcuTxVer len).stores) 0 (data.length + 6) = txBody frType data := by
  have hstores : (headStores frType mcuTxVer len).stores =
      cells 0 [0x55, 0xaa, 0x03, frType, (len >>> 8).toUInt8, (len &&& 0xff).toUInt8] := rfl
  have hhigh : (len >>> 8).toUInt8 = UInt8.ofNat (data.length / 256) := by
    rw [← UInt8.toNat_inj, UInt16.toNat_toUInt8, UInt16.toNat_shiftRight, UInt8.toNat_ofNat', ← hlen]
    exact congrArg (· % 256) (Nat.shiftRight_eq_div_pow ..)
  have hlow : (len &&& 0xff).toUInt8 = UInt8.ofNat (data.length % 256) := by
    rw [← UInt8.toNat_inj, UInt16.toNat_toUInt8, UInt16.toNat_and, UInt8.toNat_ofNat', ← hlen]
    exact congrArg (· % 256) (Nat.and_two_pow_sub_one_eq_mod len.toNat 8)
  have hbehind : slice (afterStores u.txBuf (headStores frType mcuTxVer len).stores) 6 data.length = data := by
    rw [slice_afterStores, ← dataStart, hdata]
    intro s hs
    exact .inl (mem_cells (hstores ▸ hs)).2
  rw [Nat.add_comm, slice_add, Nat.zero_add, hbehind, hstores]
  refine congrArg (· ++ data) ((slice_afterStores_cells u.txBuf 0 _).trans ?_)
  rw [hhigh, hlow]

/-- `wifi_uart_write_frame` sends the frame of the data it finds behind the
header, and stores nothing behind the frame. -/
theorem wifiUartWriteFrame_sends (frType : UInt8) (hlen : len.toNat = data.length) (hroom : data.length + 7 < 65536)
    (hdata : slice u.txBuf dataStart data.length = data) :
    (wifiUartWriteFrame u frType mcuTxVer len).sent = u.sent ++ txFrame frType data ∧
      ∀ i, data.length + 7 ≤ i → (wifiUartWriteFrame u frType mcuTxVer len).txBuf i = u.txBuf i := by
  have hn := toNat_frameLen hlen hroom
  have hne : len + UInt16.ofNat protocolHead ≠ 0 := fun h => by
    rw [h] at hn
    exact absurd hn (Nat.succ_ne_zero _).symm
  have hpred : (len + UInt16.ofNat protocolHead - 1).toNat = data.length + 6 := by
    rw [UInt16.toNat_sub_of_le, hn]
    · rfl
    · rw [UInt16.le_iff_toNat_le, hn]
      exact Nat.le_add_left 1 _
  have hend := slice_store_end (afterStores u.txBuf (headStores frType mcuTxVer len).stores) 0
    (data.length + 6)
  rw [Nat.zero_add] at hend
  simp only [wifiUartWriteFrame, if_neg hne, wifiUartWriteData, hn, hpred]
  refine ⟨by rw [hend, getCheckSum_eq, slice_head frType hlen hdata, txFrame], fun i hi => ?_⟩
  rw [store_ne (by omega)]
  refine afterStores_frame fun s hs => ?_
  have hs : s ∈ cells 0 [0x55, 0xaa, mcuTxVer, frType, (len >>> 8).toUInt8, (len &&& 0xff).toUInt8] := hs
  have := (mem_cells hs).2
  simp only [List.length_cons, List.length_nil] at this
  omega

end WriteFrame

@[simp] theorem length_txFrame (frType : UInt8) (data : List UInt8) :
    (txFrame frType data).length = data.length + 7 := by
  simp [txFrame, txBody]

/-- A builder whose record holds these bytes sends them in one frame, and stores
nothing behind it. -/
theorem Writes.reportUpdate {record : Emit UInt16} {data : List UInt8} (h : Writes record data) {u : Uart}
    (hu : u.stopUpdateFlag ≠ enable) (hroom : data.length + 7 < 65536) :
    (reportUpdate record u).2.sent = u.sent ++ reportFrame data ∧
      ∀ i, data.length + 7 ≤ i → (reportUpdate record u).2.txBuf i = u.txBuf i := by
  have hlen : record.val.toNat = data.length := by
    rw [h.val, UInt16.toNat_ofNat']
    exact Nat.mod_eq_of_lt (Nat.lt_of_le_of_lt (Nat.le_add_right _ 7) hroom)
  have hspec := wifiUartWriteFrame_sends (u := { u with txBuf := afterStores u.txBuf record.stores }) stateUploadCmd
    hlen hroom (h.fills.bytes u.txBuf)
  simp only [Petbox.Wifi.reportUpdate, beq_eq_false_iff_ne.2 hu, Bool.false_eq_true, if_false]
  refine ⟨hspec.1, fun i hi => (hspec.2 i hi).trans (afterStores_frame fun s hs => ?_)⟩
  have := h.fills.within s hs
  rw [show dataStart = 6 from rfl] at this
  omega

/-- Every builder writes the data of its call. -/
theorem call_writes (dpid : UInt8) (r : DpReport) :
    ∃ record, r.call dpid = reportUpdate record ∧ Writes record (r.data dpid) := by
  cases r with
  | raw src len => exact ⟨_, rfl, bytesRecord_writes dpTypeRaw dpid src len⟩
  | bool v => exact ⟨_, rfl, byteRecord_writes dpTypeBool dpid (if v == 0 then 0 else 1)⟩
  | value v => exact ⟨_, rfl, valueRecord_writes dpid v⟩
  | string src len => exact ⟨_, rfl, bytesRecord_writes dpTypeString dpid src len⟩
  | enum v => exact ⟨_, rfl, byteRecord_writes dpTypeEnum dpid v⟩
  | fault v => exact ⟨_, rfl, faultRecord_writes dpid v⟩

/-- **A report says what its caller said.** The bytes sent are one frame with
the right length and checksum that fits the transmit buffer, nothing is stored
behind the buffer, and the data decodes to the id, the type and the value given. -/
theorem report_round_trip {u : Uart} (hu : u.stopUpdateFlag ≠ enable) (dpid : UInt8) {r : DpReport}
    (hr : r.dataLen ≤ 44) :
    ∃ data, (r.call dpid u).2.sent = u.sent ++ reportFrame data ∧ (reportFrame data).length ≤ txBufSize ∧
      data.length ≤ 0xffff ∧ (∀ i, txBufSize ≤ i → (r.call dpid u).2.txBuf i = u.txBuf i) ∧
      decodeRecord data = some (dpid, r.dpValue) := by
  obtain ⟨record, hcall, hw⟩ := call_writes dpid r
  have hlen : (r.data dpid).length ≤ 48 := by
    have := length_data_le dpid r
    omega
  have hspec := hw.reportUpdate hu (by omega)
  have hsize : txBufSize = 55 := rfl
  rw [hcall]
  refine ⟨r.data dpid, hspec.1, ?_, by omega, fun i hi => hspec.2 i (by omega), decode_data dpid r⟩
  rw [reportFrame, length_txFrame]
  omega

theorem report_round_trip_fault :
    ∃ data, ((DpReport.fault 0x1234).call 101 ⟨fun _ => 0, 0, []⟩).2.sent = [] ++ reportFrame data ∧
      (reportFrame data).length ≤ txBufSize ∧ data.length ≤ 0xffff ∧
      (∀ i, txBufSize ≤ i → ((DpReport.fault 0x1234).call 101 ⟨fun _ => 0, 0, []⟩).2.txBuf i = 0) ∧
      decodeRecord data = some (101, .bitmap 0x1234) :=
  report_round_trip (u := ⟨fun _ => 0, 0, []⟩) (by decide) 101 (r := .fault 0x1234) (by decide)

end Petbox.Wifi
