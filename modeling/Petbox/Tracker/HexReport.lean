/-
The binary report (`btlink_assem_hex_msg.c`): the packing functions, and where
the message handler puts its fields.

`btlink_hex_pack_verno` and `btlink_hex_pack_cell_info` return the difference of
their pointers the wrong way round, so the position jumps by 254 and by 246.
-/
import Petbox.Lib.Pack
import Petbox.Tracker.Command

namespace Petbox.Tracker

open CStr Mem Pack

/-! ## Numbers -/

/-- The bytes of a union of `k` bytes, the one with the lowest address first. -/
def unionBytes (k num : Nat) : Nat → UInt8 := fun i => (Layout.leBytes k num).getD i 0

/-- `btlink_hex_pack_u8`. -/
def hexPackU8 (buff : Nat) (c : UInt8) : Emit UInt8 := do
  put buff c
  return 1

/-- `btlink_hex_pack_u16`. -/
def hexPackU16 (buff : Nat) (u : UInt16) (byteReverse : Bool) : Emit UInt8 := do
  let c := unionBytes 2 u.toNat
  if byteReverse then
    put buff (c 1)
    put (buff + 1) (c 0)
  else
    put buff (c 0)
    put (buff + 1) (c 1)
  return 2

/-- `btlink_hex_pack_u32`. -/
def hexPackU32 (buff : Nat) (u : UInt32) (byteReverse : Bool) : Emit UInt8 := do
  let c := unionBytes 4 u.toNat
  if byteReverse then
    for i in List.range 4 do put (buff + i) (c (3 - i))
  else
    for i in List.range 4 do put (buff + i) (c i)
  return 4

/-- `btlink_hex_pack_s32`. -/
def hexPackS32 (buff : Nat) (s : Int32) (byteReverse : Bool) : Emit UInt8 := hexPackU32 buff s.toUInt32 byteReverse

/-- `btlink_hex_unpack_u16`. -/
def hexUnpackU16 (m : Nat → UInt8) (buff : Nat) (byteReverse : Bool) : UInt16 :=
  UInt16.ofNat (Layout.leVal (if byteReverse then [m (buff + 1), m buff] else [m buff, m (buff + 1)]))

/-- `btlink_hex_unpack_u32`. -/
def hexUnpackU32 (m : Nat → UInt8) (buff : Nat) (byteReverse : Bool) : UInt32 :=
  UInt32.ofNat (Layout.leVal
    (if byteReverse then [m (buff + 3), m (buff + 2), m (buff + 1), m buff]
    else [m buff, m (buff + 1), m (buff + 2), m (buff + 3)]))

/-- `atoi` of the C library: white space, a sign, digits. -/
def atoiSigned (s : List UInt8) : Int :=
  match s.dropWhile fun c => c == 0x20 || (0x09 ≤ c && c ≤ 0x0d) with
  | 0x2d :: cs => -(min (decimal (cs.takeWhile isDigit)) (intMax + 1) : Nat)
  | 0x2b :: cs => (min (decimal (cs.takeWhile isDigit)) intMax : Nat)
  | cs => (min (decimal (cs.takeWhile isDigit)) intMax : Nat)

/-! ## The fields -/

def hexImeiLen : Nat := 8
def btlinkDeviceType : UInt8 := 0x10
def swMarVer : UInt8 := 1
def swMinVer : UInt8 := 1

/-- `btlink_gps_info_struct`: of each text the bytes from its array on. -/
structure GpsInfo where
  speed : List UInt8
  heading : List UInt8
  altitude : List UInt8
  lng : List UInt8
  lat : List UInt8
  time : List UInt8

/-- `btlink_cell_info_struct`. -/
structure CellInfo where
  mcc : UInt16
  mnc : UInt16
  lac : UInt16
  cellId : UInt32
  csq : UInt8

/-- `btlink_hex_pack_number_of_point`. -/
def hexPackNumberOfPoint (buff : Nat) (number : UInt8) : Emit UInt8 := hexPackU8 buff number

/-- `btlink_hex_pack_gps_accuracy`. -/
def hexPackGpsAccuracy (buff : Nat) (hdop : UInt8) : Emit UInt8 := hexPackU8 buff hdop

/-- `atoi` of what stands behind the first dot, 0 without one. -/
def fractionOf (text : List UInt8) : UInt8 :=
  match afterDot (cstr text) with
  | some s => UInt8.ofInt (atoiSigned s)
  | none => 0

/-- `btlink_hex_pack_speed`. -/
def hexPackSpeed (buff : Nat) (speed : List UInt8) : Emit UInt8 := do
  let integer := UInt16.ofInt (atoiSigned (cstr speed))
  let fraction := fractionOf speed
  let mut pbuff := buff
  pbuff := pbuff + (← hexPackU16 pbuff integer true).toNat
  pbuff := pbuff + (← hexPackU8 pbuff fraction).toNat
  return ptrDiff pbuff buff

/-- `btlink_hex_pack_heading`. -/
def hexPackHeading (buff : Nat) (heading : List UInt8) : Emit UInt8 :=
  hexPackU16 buff (UInt16.ofInt (atoiSigned (cstr heading))) true

/-- The altitude that is packed: the whole part, rounded by a single digit behind the dot. -/
def altitudeInteger (altitude : List UInt8) : UInt16 :=
  let negative := altitude.headD 0 == 0x2d
  let integer := UInt16.ofInt (atoiSigned (cstr altitude))
  let fraction := fractionOf altitude
  if 5 ≤ fraction ∧ fraction ≤ 9 then
    if negative then
      if integer ≠ 0 then integer - 1 else 0xffff
    else integer + 1
  else integer

/-- `btlink_hex_pack_altitude`. -/
def hexPackAltitude (buff : Nat) (altitude : List UInt8) : Emit UInt8 :=
  hexPackU16 buff (altitudeInteger altitude) true

section Report

-- `(int32_t)(atof(text) * BTLINK_HEX_LNGLAT_PRECISION)`
variable (lngLat : List UInt8 → Int32)

/-- `btlink_hex_pack_longitude`. -/
def hexPackLongitude (buff : Nat) (lng : List UInt8) : Emit UInt8 := hexPackS32 buff (lngLat (cstr lng)) true

/-- `btlink_hex_pack_latitude`. -/
def hexPackLatitude (buff : Nat) (lat : List UInt8) : Emit UInt8 := hexPackS32 buff (lngLat (cstr lat)) true

/-- `btlink_hex_pack_time`: `snprintf` takes the first four characters, and then two at a time. -/
def hexPackTime (buff : Nat) (time : List UInt8) : Emit UInt8 := do
  let mut pbuff := buff
  pbuff := pbuff + (← hexPackU16 pbuff (UInt16.ofInt (atoiSigned ((cstr time).take 4))) true).toNat
  for i in List.range 5 do
    let num := (cstr (time.drop (4 + i * 2))).take 2
    pbuff := pbuff + (← hexPackU8 pbuff (UInt8.ofInt (atoiSigned num))).toNat
  return ptrDiff pbuff buff

/-- `btlink_hex_pack_gps_info`. -/
def hexPackGpsInfo (buff : Nat) (gpsPos : GpsInfo) : Emit UInt8 := do
  let pbuff := buff
  let mut buff := buff
  buff := buff + (← hexPackGpsAccuracy buff 0).toNat
  buff := buff + (← hexPackTime buff gpsPos.time).toNat
  buff := buff + (← hexPackLongitude lngLat buff gpsPos.lng).toNat
  buff := buff + (← hexPackLatitude lngLat buff gpsPos.lat).toNat
  buff := buff + (← hexPackSpeed buff gpsPos.speed).toNat
  buff := buff + (← hexPackHeading buff gpsPos.heading).toNat
  buff := buff + (← hexPackAltitude buff gpsPos.altitude).toNat
  return ptrDiff buff pbuff

/-- `btlink_hex_pack_device_type`. -/
def hexPackDeviceType (buff : Nat) (deviceType : UInt8) : Emit UInt8 := hexPackU8 buff deviceType

/-- `btlink_hex_pack_verno`: both bytes go to `buff`. -/
def hexPackVerno (buff : Nat) : Emit UInt8 := do
  let mut pbuff := buff
  pbuff := pbuff + (← hexPackU8 buff swMarVer).toNat
  pbuff := pbuff + (← hexPackU8 buff swMinVer).toNat
  return ptrDiff buff pbuff

/-- `btlink_hex_pack_battery_level`. -/
def hexPackBatteryLevel (buff : Nat) : Emit UInt8 := hexPackU8 buff 100

/-- `btlink_hex_pack_event_type`. -/
def hexPackEventType (buff : Nat) (eventType : UInt16) : Emit UInt8 := hexPackU16 buff eventType true

/-- `btlink_hex_pack_imei`. -/
def hexPackImei (imei : Nat → UInt8) (buff : Nat) : Emit UInt8 := do
  for i in List.range hexImeiLen do put (buff + i) (imei i)
  return hexImeiLen.toUInt8

/-- `btlink_hex_pack_u32_mask_rsp`. -/
def hexPackU32MaskRsp (buff : Nat) (mask : UInt32) : Emit UInt8 := hexPackU32 buff mask true

/-- `btlink_hex_pack_cell_info`. -/
def hexPackCellInfo (buff : Nat) (cellInfo : CellInfo) : Emit UInt8 := do
  let mut pbuff := buff
  pbuff := pbuff + (← hexPackU16 pbuff cellInfo.mnc true).toNat
  pbuff := pbuff + (← hexPackU16 pbuff cellInfo.mcc true).toNat
  pbuff := pbuff + (← hexPackU16 pbuff cellInfo.lac true).toNat
  pbuff := pbuff + (← hexPackU16 pbuff cellInfo.cellId.toUInt16 true).toNat
  pbuff := pbuff + (← hexPackU16 pbuff cellInfo.csq.toUInt16 true).toNat
  return ptrDiff buff pbuff

/-- `btlink_hex_pack_count_number`, with what `btlink_get_report_count` returns. -/
def hexPackCountNumber (reportCount : UInt32) (buff : Nat) : Emit UInt8 := hexPackU16 buff reportCount.toUInt16 true

/-- `btlink_hex_pack_tail`. -/
def hexPackTail (buff : Nat) : Emit UInt8 := hexPackU8 buff chrTail

/-! ## The message -/

/-- What a report is made of: the globals, and the arguments of the handler. -/
structure Report where
  hexImei : Nat → UInt8
  eventType : UInt16
  dataZoneMask : UInt32
  pos : GpsInfo
  cellInfo : CellInfo
  reportCount : UInt32

/-- `btlink_assemm_hex_prt_msg_hdlr`. -/
def assemmHexPrtMsgHdlr (r : Report) (buff : Nat) : Emit Unit := do
  let mut pbuff := buff
  pbuff := pbuff + (← hexPackImei r.hexImei pbuff).toNat
  pbuff := pbuff + (← hexPackDeviceType pbuff btlinkDeviceType).toNat
  pbuff := pbuff + (← hexPackVerno pbuff).toNat
  pbuff := pbuff + (← hexPackEventType pbuff r.eventType).toNat
  pbuff := pbuff + (← hexPackU32MaskRsp pbuff r.dataZoneMask).toNat
  pbuff := pbuff + (← hexPackBatteryLevel pbuff).toNat
  pbuff := pbuff + (← hexPackNumberOfPoint pbuff 1).toNat
  pbuff := pbuff + (← hexPackGpsInfo lngLat pbuff r.pos).toNat
  pbuff := pbuff + (← hexPackCellInfo pbuff r.cellInfo).toNat
  pbuff := pbuff + (← hexPackCountNumber r.reportCount pbuff).toNat
  pbuff := pbuff + (← hexPackTail pbuff).toNat

end Report

/-! ## What the packing functions store -/

/-- The bytes of a 16-bit number, high byte first. -/
def be16 (u : UInt16) : List UInt8 := (Layout.leBytes 2 u.toNat).reverse

/-- The bytes of a 32-bit number, high byte first. -/
def be32 (u : UInt32) : List UInt8 := (Layout.leBytes 4 u.toNat).reverse

@[simp] theorem length_be16 (u : UInt16) : (be16 u).length = 2 := rfl

@[simp] theorem length_be32 (u : UInt32) : (be32 u).length = 4 := rfl

theorem hexPackU8_packs (c : UInt8) : Packs (hexPackU8 · c) [c] where
  stores _ := rfl
  val _ := rfl

theorem hexPackU16_packs (u : UInt16) : Packs (hexPackU16 · u true) (be16 u) where
  stores _ := rfl
  val _ := rfl

theorem hexPackU32_packs (u : UInt32) : Packs (hexPackU32 · u true) (be32 u) where
  stores _ := rfl
  val _ := rfl

theorem hexPackImei_packs (imei : Nat → UInt8) : Packs (hexPackImei imei) (slice imei 0 hexImeiLen) where
  stores _ := rfl
  val _ := rfl

/-- The two digits of `btlink_hex_pack_time` at an index of its loop. -/
def timeNum (time : List UInt8) (i : Nat) : UInt8 :=
  UInt8.ofInt (atoiSigned ((cstr (time.drop (4 + i * 2))).take 2))

/-- What `btlink_hex_pack_time` stores. -/
def timeBytes (time : List UInt8) : List UInt8 :=
  be16 (UInt16.ofInt (atoiSigned ((cstr time).take 4))) ++ (List.range 5).map (timeNum time)

theorem hexPackTime_packs (time : List UInt8) : Packs (hexPackTime · time) (timeBytes time) := by
  have hlays : Lays _ _ := .cons (hexPackU16_packs (UInt16.ofInt (atoiSigned ((cstr time).take 4)))) <|
    .cons (hexPackU8_packs (timeNum time 0)) <| .cons (hexPackU8_packs (timeNum time 1)) <|
    .cons (hexPackU8_packs (timeNum time 2)) <| .cons (hexPackU8_packs (timeNum time 3)) <|
    .cons (hexPackU8_packs (timeNum time 4)) lays_nil
  exact hlays.packs (by simp)

/-- What `btlink_hex_pack_speed` stores. -/
def speedBytes (speed : List UInt8) : List UInt8 :=
  be16 (UInt16.ofInt (atoiSigned (cstr speed))) ++ [fractionOf speed]

theorem hexPackSpeed_packs (speed : List UInt8) : Packs (hexPackSpeed · speed) (speedBytes speed) :=
  (Lays.cons (hexPackU16_packs _) (.cons (hexPackU8_packs _) lays_nil)).packs (by simp)

section Report

variable (lngLat : List UInt8 → Int32)

/-- What `btlink_hex_pack_gps_info` stores: 23 bytes. -/
def gpsBytes (pos : GpsInfo) : List UInt8 :=
  [0] ++ (timeBytes pos.time ++ (be32 (lngLat (cstr pos.lng)).toUInt32 ++ (be32 (lngLat (cstr pos.lat)).toUInt32 ++
    (speedBytes pos.speed ++ (be16 (UInt16.ofInt (atoiSigned (cstr pos.heading))) ++
      (be16 (altitudeInteger pos.altitude) ++ []))))))

theorem length_gpsBytes (pos : GpsInfo) : (gpsBytes lngLat pos).length = 23 := by
  simp [gpsBytes, timeBytes, speedBytes]

theorem hexPackGpsInfo_packs (pos : GpsInfo) : Packs (hexPackGpsInfo lngLat · pos) (gpsBytes lngLat pos) := by
  have hlays : Lays _ (gpsBytes lngLat pos) := .cons (hexPackU8_packs 0) <| .cons (hexPackTime_packs pos.time) <|
    .cons (hexPackU32_packs _) <| .cons (hexPackU32_packs _) <| .cons (hexPackSpeed_packs pos.speed) <|
    .cons (hexPackU16_packs _) <| .cons (hexPackU16_packs _) lays_nil
  exact hlays.packs (by rw [length_gpsBytes]; decide)

/-- What `btlink_hex_pack_cell_info` stores. -/
def cellBytes (c : CellInfo) : List UInt8 :=
  be16 c.mnc ++ (be16 c.mcc ++ (be16 c.lac ++ (be16 c.cellId.toUInt16 ++ (be16 c.csq.toUInt16 ++ []))))

/-- The cell information is stored in 10 bytes, and 246 is returned. -/
theorem hexPackCellInfo_eq (c : CellInfo) (buff : Nat) :
    (hexPackCellInfo buff c).stores = cells buff (cellBytes c) ∧ (hexPackCellInfo buff c).val = 246 :=
  ⟨rfl, ptrDiff_backward buff 10⟩

/-- Both bytes of the version go to the same place, and 254 is returned. -/
theorem hexPackVerno_eq (buff : Nat) :
    (hexPackVerno buff).stores = [(buff, swMarVer), (buff, swMinVer)] ∧ (hexPackVerno buff).val = 254 :=
  ⟨rfl, ptrDiff_backward buff 2⟩

/-! ## Where the message handler stores its fields -/

/-- The fields in front of the version, and those from the event type to the position. -/
def headBytes (r : Report) : List UInt8 := slice r.hexImei 0 hexImeiLen ++ [btlinkDeviceType]

def middleBytes (r : Report) : List UInt8 :=
  be16 r.eventType ++ (be32 r.dataZoneMask ++ ([100] ++ ([1] ++ (gpsBytes lngLat r.pos ++ []))))

def endBytes (r : Report) : List UInt8 := be16 r.reportCount.toUInt16 ++ [chrTail]

/-- The packing functions in the order the handler calls them. -/
def packers (r : Report) : List (Nat → Emit UInt8) :=
  [hexPackImei r.hexImei, (hexPackDeviceType · btlinkDeviceType), hexPackVerno, (hexPackEventType · r.eventType),
    (hexPackU32MaskRsp · r.dataZoneMask), hexPackBatteryLevel, (hexPackNumberOfPoint · 1),
    (hexPackGpsInfo lngLat · r.pos), (hexPackCellInfo · r.cellInfo), hexPackCountNumber r.reportCount, hexPackTail]

theorem lays_head (r : Report) :
    Lays [hexPackImei r.hexImei, (hexPackDeviceType · btlinkDeviceType)] (headBytes r) :=
  .cons (hexPackImei_packs r.hexImei) (.cons (hexPackU8_packs btlinkDeviceType) lays_nil)

theorem lays_middle (r : Report) :
    Lays [(hexPackEventType · r.eventType), (hexPackU32MaskRsp · r.dataZoneMask), hexPackBatteryLevel,
      (hexPackNumberOfPoint · 1), (hexPackGpsInfo lngLat · r.pos)] (middleBytes lngLat r) :=
  .cons (hexPackU16_packs r.eventType) <| .cons (hexPackU32_packs r.dataZoneMask) <| .cons (hexPackU8_packs 100) <|
    .cons (hexPackU8_packs 1) <| .cons (hexPackGpsInfo_packs lngLat r.pos) lays_nil

theorem lays_end (r : Report) : Lays [hexPackCountNumber r.reportCount, hexPackTail] (endBytes r) :=
  .cons (hexPackU16_packs r.reportCount.toUInt16) (.cons (hexPackU8_packs chrTail) lays_nil)

theorem length_middleBytes (r : Report) : (middleBytes lngLat r).length = 31 := by
  simp [middleBytes, length_gpsBytes]

/-- The stores of the handler: only the fields in front of the version and the
first byte of it are in their places. -/
theorem assemmHexPrtMsgHdlr_stores (r : Report) (buff : Nat) :
    (assemmHexPrtMsgHdlr lngLat r buff).stores =
      cells buff (headBytes r) ++ ([(buff + 9, swMarVer), (buff + 9, swMinVer)] ++
        (cells (buff + 263) (middleBytes lngLat r) ++
          (cells (buff + 294) (cellBytes r.cellInfo) ++ cells (buff + 540) (endBytes r)))) := by
  have hhead : (headBytes r).length = 9 := rfl
  have hchain : (assemmHexPrtMsgHdlr lngLat r buff).stores =
      (chain ((packers lngLat r).take 2 ++ (hexPackVerno ::
        (((packers lngLat r).drop 3).take 5 ++ ((hexPackCellInfo · r.cellInfo) :: (packers lngLat r).drop 9))))
        buff).stores := rfl
  have hmiddle : Lays (((packers lngLat r).drop 3).take 5) _ := lays_middle lngLat r
  rw [hchain, chain_append, (show Lays ((packers lngLat r).take 2) _ from lays_head r).stores,
    (show Lays ((packers lngLat r).take 2) _ from lays_head r).val, hhead, stores_chain_cons, (hexPackVerno_eq _).1,
    (hexPackVerno_eq _).2, chain_append, hmiddle.stores, hmiddle.val, length_middleBytes, stores_chain_cons,
    (hexPackCellInfo_eq _ _).1, (hexPackCellInfo_eq _ _).2,
    (show Lays ((packers lngLat r).drop 9) _ from lays_end r).stores]
  rfl

/-- The stores behind the head: twice the place of the version, and places behind the buffer. -/
theorem tailStores_places {r : Report} {buff : Nat} {s : Nat × UInt8}
    (hs : s ∈ [(buff + 9, swMarVer), (buff + 9, swMinVer)] ++ (cells (buff + 263) (middleBytes lngLat r) ++
      (cells (buff + 294) (cellBytes r.cellInfo) ++ cells (buff + 540) (endBytes r)))) :
    s.1 = buff + 9 ∨ buff + 263 ≤ s.1 := by
  simp only [List.mem_append, List.mem_cons, List.not_mem_nil, or_false] at hs
  rcases hs with (rfl | rfl) | hs | hs | hs
  · exact .inl rfl
  · exact .inl rfl
  · exact .inr (mem_cells hs).1
  · have := mem_cells hs
    omega
  · have := mem_cells hs
    omega

theorem reportStores_places (r : Report) (buff : Nat) {s : Nat × UInt8}
    (hs : s ∈ (assemmHexPrtMsgHdlr lngLat r buff).stores) : s.1 ≤ buff + 9 ∨ buff + 263 ≤ s.1 := by
  have hhead : (headBytes r).length = 9 := rfl
  rw [assemmHexPrtMsgHdlr_stores] at hs
  rcases List.mem_append.1 hs with hs | hs
  · have := mem_cells hs
    omega
  · have := tailStores_places lngLat hs
    omega

/-- The IMEI and the device type are where they should be. -/
theorem afterReport_head (r : Report) (buff : Nat) (m : Nat → UInt8) :
    slice (afterStores m (assemmHexPrtMsgHdlr lngLat r buff).stores) buff 9 = headBytes r := by
  rw [assemmHexPrtMsgHdlr_stores, afterStores_append]
  refine (slice_congr fun i _ hi => afterStores_frame fun s hs => ?_).trans
    (slice_afterStores_cells m buff (headBytes r))
  have := tailStores_places lngLat hs
  omega

/-- Of the caller's buffer the first ten bytes are written and no others. -/
theorem afterReport_frame (r : Report) (buff : Nat) (m : Nat → UInt8) {i : Nat} (hi : 10 ≤ i) (hi' : i < 256) :
    afterStores m (assemmHexPrtMsgHdlr lngLat r buff).stores (buff + i) = m (buff + i) :=
  afterStores_frame fun s hs heq => by
    have := reportStores_places lngLat r buff hs
    omega

/-! ## The layout of a report -/

/-- The fields stand one behind the other from the buffer on, in these sizes. -/
def Consecutive (r : Report) (buff : Nat) : Prop :=
  ∃ cellLen, ∃ fields : List (List UInt8), fields.map List.length = [8, 1, 2, 2, 4, 1, 1, 23, cellLen, 2, 1] ∧
    (assemmHexPrtMsgHdlr lngLat r buff).stores = cells buff fields.flatten

/-- The stores stay in the buffer of the caller. -/
def InBuffer (r : Report) (buff : Nat) : Prop :=
  ∀ s ∈ (assemmHexPrtMsgHdlr lngLat r buff).stores, buff ≤ s.1 ∧ s.1 < buff + 256

/-- The numbers of a report can be read in memory, each at its place. -/
structure ReadsBack (m : Nat → UInt8) (buff : Nat) (r : Report) : Prop where
  marVer : m (buff + 9) = swMarVer
  minVer : m (buff + 10) = swMinVer
  eventType : hexUnpackU16 m (buff + 11) true = r.eventType
  dataZoneMask : hexUnpackU32 m (buff + 13) true = r.dataZoneMask
  mnc : hexUnpackU16 m (buff + 42) true = r.cellInfo.mnc
  mcc : hexUnpackU16 m (buff + 44) true = r.cellInfo.mcc
  lac : hexUnpackU16 m (buff + 46) true = r.cellInfo.lac
  cellId : (hexUnpackU16 m (buff + 48) true).toUInt32 = r.cellInfo.cellId
  csq : (hexUnpackU16 m (buff + 50) true) = r.cellInfo.csq.toUInt16
  reportCount : (hexUnpackU16 m (buff + 52) true).toUInt32 = r.reportCount

/-- All packing functions but two return the number of bytes they store. -/
theorem packers_returnsWritten (r : Report) {f : Nat → Emit UInt8} (hf : f ∈ packers lngLat r) :
    ReturnsWritten f ∨ f = hexPackVerno ∨ f = (hexPackCellInfo · r.cellInfo) := by
  simp only [packers, List.mem_cons, List.not_mem_nil, or_false] at hf
  rcases hf with rfl | rfl | rfl | rfl | rfl | rfl | rfl | rfl | rfl | rfl | rfl
  · exact .inl (hexPackImei_packs _).returnsWritten
  · exact .inl (hexPackU8_packs _).returnsWritten
  · exact .inr (.inl rfl)
  · exact .inl (hexPackU16_packs _).returnsWritten
  · exact .inl (hexPackU32_packs _).returnsWritten
  · exact .inl (hexPackU8_packs _).returnsWritten
  · exact .inl (hexPackU8_packs _).returnsWritten
  · exact .inl (hexPackGpsInfo_packs lngLat _).returnsWritten
  · exact .inr (.inr rfl)
  · exact .inl (hexPackU16_packs _).returnsWritten
  · exact .inl (hexPackU8_packs _).returnsWritten

/-- **No report is laid out as it should be**, whatever its fields are: not every
packing function returns the number of bytes it stored, the fields do not stand
one behind the other, they leave the buffer, and the numbers cannot be read back
from a buffer that was cleared. -/
theorem report_misplaced (r : Report) (buff : Nat) :
    ¬ (∀ f ∈ packers lngLat r, ReturnsWritten f) ∧ ¬ Consecutive lngLat r buff ∧ ¬ InBuffer lngLat r buff ∧
      ¬ ReadsBack (afterStores (fun _ => 0) (assemmHexPrtMsgHdlr lngLat r buff).stores) buff r := by
  refine ⟨fun h => ?_, fun h => ?_, fun h => ?_, fun h => ?_⟩
  · have hverno := h hexPackVerno (by simp [packers]) 0
    exact absurd hverno (by decide)
  · obtain ⟨cellLen, fields, hsizes, hstores⟩ := h
    have hlen : fields.flatten.length = 45 + cellLen := by
      rw [List.length_flatten, hsizes]
      simp only [List.sum_cons, List.sum_nil]
      omega
    -- nothing is stored at the place of the minor version
    obtain ⟨s, hs, hplace⟩ := exists_mem_cells fields.flatten 10 buff (by omega)
    have := reportStores_places lngLat r buff (hstores ▸ hs)
    omega
  · have hlen := length_middleBytes lngLat r
    obtain ⟨s, hs, hplace⟩ := exists_mem_cells (middleBytes lngLat r) 0 (buff + 263) (by omega)
    have hin := (h s (by rw [assemmHexPrtMsgHdlr_stores]; simp [hs])).2
    omega
  · have hminor := h.minVer
    rw [afterReport_frame lngLat r buff _ (by decide) (by decide)] at hminor
    exact absurd hminor (by decide)

end Report

/-- A report of event 2 without a position. -/
def eventReport : Report where
  hexImei := fun _ => 0
  eventType := 2
  dataZoneMask := 0xffff
  pos := ⟨[], [], [], [], [], []⟩
  cellInfo := ⟨460, 1, 2, 3, 4⟩
  reportCount := 7

/-- The version packs two bytes and returns 254; the event type is stored behind
the buffer, and where it should be stands 0. -/
theorem eventReport_misplaced :
    ¬ ReturnsWritten hexPackVerno ∧ (263, 0) ∈ (assemmHexPrtMsgHdlr (fun _ => 0) eventReport 0).stores ∧
      hexUnpackU16 (afterStores (fun _ => 0) (assemmHexPrtMsgHdlr (fun _ => 0) eventReport 0).stores) 11 true = 0 := by
  refine ⟨fun h => absurd (h 0) (by decide), by decide +kernel, by decide +kernel⟩

end Petbox.Tracker
