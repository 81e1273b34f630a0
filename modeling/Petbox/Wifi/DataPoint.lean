/-
The commands of the app (`DATA_QUERT_CMD`): the loop of `data_handle` over the
data points of a frame, `data_point_handle` (`tuya/system.c`) and the download
handlers (`tuya/protocol.c`), with the bytes and the table entries they read.

Of a data point only its type is checked, and that against the entry behind the
table when the id is not in it. The loop index has 16 bits.
-/
import Mathlib.Data.List.Perm.Subperm
import Petbox.Control.Ack
import Petbox.Lib.Access
import Petbox.Wifi.Report

namespace Petbox.Wifi

open Access Mem
open Petbox.Control (byteToInt dpidFeedNum dpidRealtimeData dpidFeedRemaining)

def dpidFeedWeight : UInt8 := 232
def dpidHistoryData : UInt8 := 233
def dpidFeedVoiceRecord : UInt8 := 234
def dpidWaterNum : UInt8 := 236
def dpidIpcUsageMode : UInt8 := 238

/-- `FALSE`, also `ERROR`. -/
def dpFalse : UInt8 := 0

/-- `DOWNLOAD_CMD_S`. -/
structure DownloadCmd where
  dpId : UInt8
  dpType : UInt8
  deriving DecidableEq, Repr

def downloadCmd : List DownloadCmd :=
  [⟨dpidFeedNum, dpTypeValue⟩, ⟨dpidFeedWeight, dpTypeValue⟩, ⟨dpidHistoryData, dpTypeBool⟩,
    ⟨dpidFeedVoiceRecord, dpTypeEnum⟩, ⟨dpidRealtimeData, dpTypeEnum⟩, ⟨dpidWaterNum, dpTypeBool⟩,
    ⟨dpidFeedRemaining, dpTypeValue⟩, ⟨dpidIpcUsageMode, dpTypeEnum⟩]

/-- What is read: a byte of `wifi_data_process_buf`, one that a handler reads
through its `value`, an entry of `download_cmd`. -/
inductive Place
  | byte (i : Nat)
  | value (i : Nat)
  | table (i : Nat)
  deriving DecidableEq, Repr

/-- What the code does not set itself: the entry it finds behind the table, and
a `ret` without a value. -/
structure Env where
  behind : DownloadCmd
  ret : UInt8

/-- What a handler has the device do. -/
inductive ControlAction
  | feedNum (num : UInt32)
  | history (history : UInt8)
  | record (status : UInt8)
  | feedWater (water : UInt8)
  | setAutoFeed (state : Bool)
  deriving DecidableEq, Repr

/-- What comes of a data point: the action, the report and the result. -/
structure DpOutcome where
  action : Option ControlAction
  report : Option (UInt8 × DpReport)
  ret : UInt8

section Source

variable (env : Env) (buf : Nat → UInt8)

def readByte (i : Nat) : Logged Place UInt8 := (read buf i).rename .byte
def readValue (i : Nat) : Logged Place UInt8 := (read buf i).rename .value
def readCmd (i : Nat) : Logged Place DownloadCmd := (read (fun i => downloadCmd.getD i env.behind) i).rename .table

/-! ## The handlers

Each answers with a report, which succeeds, and none looks at the length. -/

/-- A handler of one byte. -/
def byteHandle (action : UInt8 → ControlAction) (dpid : UInt8) (report : UInt8 → DpReport) (value : Nat) :
    Logged Place DpOutcome := do
  let v ← readValue buf value
  return ⟨some (action v), some (dpid, report v), success⟩

def dpDownloadFeedNumHandle (value : Nat) : Logged Place DpOutcome := do
  let b0 ← readValue buf value
  let b1 ← readValue buf (value + 1)
  let b2 ← readValue buf (value + 2)
  let b3 ← readValue buf (value + 3)
  let feedNum := byteToInt fun k => [b0, b1, b2, b3].getD k 0
  return ⟨some (.feedNum feedNum), some (dpidFeedNum, .value feedNum), success⟩

def dpDownloadHistoryDataHandle : Nat → Logged Place DpOutcome := byteHandle buf .history dpidHistoryData .bool

def dpDownloadFeedVoiceRecordHandle : Nat → Logged Place DpOutcome := byteHandle buf .record dpidFeedVoiceRecord .enum

def dpDownloadWaterNumHandle : Nat → Logged Place DpOutcome := byteHandle buf .feedWater dpidWaterNum .bool

def dpDownloadIpcUsageModeHandle : Nat → Logged Place DpOutcome :=
  byteHandle buf (fun mode => .setAutoFeed (mode != 0)) dpidIpcUsageMode .enum

/-- `dp_download_handle`. -/
def dpDownloadHandle (dpid : UInt8) (value : Nat) : Logged Place DpOutcome :=
  if dpid = dpidFeedNum then dpDownloadFeedNumHandle buf value
  else if dpid = dpidHistoryData then dpDownloadHistoryDataHandle buf value
  else if dpid = dpidFeedVoiceRecord then dpDownloadFeedVoiceRecordHandle buf value
  else if dpid = dpidWaterNum then dpDownloadWaterNumHandle buf value
  else if dpid = dpidIpcUsageMode then dpDownloadIpcUsageModeHandle buf value
  else pure ⟨none, none, env.ret⟩

/-! ## The dispatch -/

/-- The loop of `get_dowmload_dpid_index` from `index` on, over `n` entries. -/
def dpidIndexFrom (dpid : UInt8) : Nat → Nat → Logged Place Nat
  | 0, index => pure index
  | n + 1, index => do
    let cmd ← readCmd env index
    if cmd.dpId = dpid then return index
    dpidIndexFrom dpid n (index + 1)

/-- `get_dowmload_dpid_index`. -/
def getDowmloadDpidIndex (dpid : UInt8) : Logged Place Nat := dpidIndexFrom env dpid downloadCmd.length 0

/-- `data_point_handle`; `value` is where the data point begins. -/
def dataPointHandle (value : Nat) : Logged Place DpOutcome := do
  let dpId ← readByte buf value
  let dpType ← readByte buf (value + 1)
  let _ ← readByte buf (value + 2)
  let _ ← readByte buf (value + 3)
  let index ← getDowmloadDpidIndex env dpId
  let cmd ← readCmd env index
  if dpType ≠ cmd.dpType then return ⟨none, none, dpFalse⟩
  dpDownloadHandle env buf dpId (value + 4)

/-- `total_len`. -/
def totalLen (offset : Nat) : UInt16 :=
  (buf (offset + lengthHigh)).toUInt16 <<< 8 ||| (buf (offset + lengthLow)).toUInt16

/-- Where the data point with index `i` begins. -/
def pointAt (offset : Nat) (i : UInt16) : Nat := offset + dataStart + i.toNat

/-- `dp_len`. -/
def dpLen (value : Nat) : UInt16 := (buf (value + 2)).toUInt16 * 0x100 + (buf (value + 3)).toUInt16

/-- The loop of the `DATA_QUERT_CMD` branch from index `i` on: the indices handed
to `data_point_handle` and what comes of them. Each read goes with the index. -/
def dataQuertFrom (offset : Nat) : Nat → UInt16 → Logged (UInt16 × Place) (Option (List (UInt16 × DpOutcome)))
  | 0, _ => pure none
  | fuel + 1, i =>
    if i < totalLen buf offset then do
      let _ ← (readByte buf (pointAt offset i + 2)).rename (i, ·)
      let _ ← (readByte buf (pointAt offset i + 3)).rename (i, ·)
      let out ← (dataPointHandle env buf (pointAt offset i)).rename (i, ·)
      let rest ← dataQuertFrom offset fuel (i + (dpLen buf (pointAt offset i) + 4))
      return rest.map ((i, out) :: ·)
    else pure (some [])

/-- The `DATA_QUERT_CMD` branch of `data_handle`. -/
def dataQuert (offset fuel : Nat) : Logged (UInt16 × Place) (Option (List (UInt16 × DpOutcome))) :=
  dataQuertFrom env buf offset fuel 0

end Source

/-! ## The data points of a payload -/

/-- A whole data point. -/
structure Point where
  dpId : UInt8
  dpType : UInt8
  value : List UInt8
  length_lt : value.length < 65536

/-- Its bytes. -/
def Point.encode (p : Point) : List UInt8 :=
  [p.dpId, p.dpType, UInt8.ofNat (p.value.length / 256), UInt8.ofNat (p.value.length % 256)] ++ p.value

/-- How many bytes of its value the handler of a data point reads. -/
def handlerReads (dpid : UInt8) : Nat :=
  if dpid = dpidFeedNum then 4
  else if dpid ∈ [dpidHistoryData, dpidFeedVoiceRecord, dpidWaterNum, dpidIpcUsageMode] then 1
  else 0

def InTable (dpid : UInt8) : Prop := ∃ cmd ∈ downloadCmd, cmd.dpId = dpid

/-- The id is in the table, and a value that comes to a handler has the bytes the
handler reads. -/
def Point.Served (p : Point) : Prop :=
  InTable p.dpId ∧ (⟨p.dpId, p.dpType⟩ ∈ downloadCmd → handlerReads p.dpId ≤ p.value.length)

@[simp] theorem length_encode (p : Point) : p.encode.length = p.value.length + 4 := by simp [Point.encode]

section Bytes

variable {buf : Nat → UInt8}

theorem toNat_totalLen (offset : Nat) : (totalLen buf offset).toNat = declaredLen buf offset := by
  have h1 := (buf (offset + lengthHigh)).toNat_lt
  have h2 := (buf (offset + lengthLow)).toNat_lt
  have hor := Nat.shiftLeft_add_eq_or_of_lt h2 (buf (offset + lengthHigh)).toNat
  have hshift : (buf (offset + lengthHigh)).toNat <<< 8 % 2 ^ 16 = (buf (offset + lengthHigh)).toNat <<< 8 := by
    rw [Nat.shiftLeft_eq]
    omega
  rw [totalLen, UInt16.toNat_or, UInt16.toNat_shiftLeft, UInt8.toNat_toUInt16, UInt8.toNat_toUInt16]
  change (buf (offset + lengthHigh)).toNat <<< 8 % 2 ^ 16 ||| (buf (offset + lengthLow)).toNat = _
  rw [hshift, ← hor, Nat.shiftLeft_eq, declaredLen]

theorem toNat_dpLen (v : Nat) : (dpLen buf v).toNat = (buf (v + 2)).toNat * 0x100 + (buf (v + 3)).toNat := by
  have h1 := (buf (v + 2)).toNat_lt
  have h2 := (buf (v + 3)).toNat_lt
  rw [dpLen, UInt16.toNat_add, UInt16.toNat_mul, UInt8.toNat_toUInt16, UInt8.toNat_toUInt16]
  change ((buf (v + 2)).toNat * 256 % 65536 + (buf (v + 3)).toNat) % 65536 = _
  omega

/-- The data point that begins at `v`, by its length. -/
def pointOf (buf : Nat → UInt8) (v : Nat) : Point where
  dpId := buf v
  dpType := buf (v + 1)
  value := slice buf (v + 4) (dpLen buf v).toNat
  length_lt := by rw [length_slice]; exact (dpLen buf v).toNat_lt

@[simp] theorem length_pointOf (v : Nat) : (pointOf buf v).value.length = (dpLen buf v).toNat := length_slice ..

/-- Its bytes stand there. -/
theorem slice_pointOf (v : Nat) : slice buf v (4 + (dpLen buf v).toNat) = (pointOf buf v).encode := by
  have hb := bytes_length (buf (v + 2)) (buf (v + 3))
  rw [slice_add, Point.encode, length_pointOf, toNat_dpLen, hb.1, hb.2, ← toNat_dpLen]
  rfl

/-- Bytes that begin with those of a whole data point. -/
theorem pointOf_eq {v n : Nat} {p : Point} {rest : List UInt8} (h : slice buf v n = p.encode ++ rest) :
    pointOf buf v = p ∧ n = 4 + p.value.length + rest.length ∧
      slice buf (v + (4 + p.value.length)) rest.length = rest := by
  have hn : n = 4 + p.value.length + rest.length := by
    have hlen := congrArg List.length h
    rw [length_slice, List.length_append, length_encode] at hlen
    omega
  subst hn
  rw [slice_add] at h
  obtain ⟨hp, hrest⟩ := List.append_inj h (by rw [length_slice, length_encode]; omega)
  rw [slice_add, Point.encode] at hp
  obtain ⟨hhead, hvalue⟩ := List.append_inj hp (by simp)
  simp only [slice, List.cons.injEq, and_true] at hhead
  obtain ⟨hid, htype, hhi, hlo⟩ := hhead
  have hlen : (dpLen buf v).toNat = p.value.length := by
    rw [toNat_dpLen, hhi, hlo]
    exact length_bytes (Nat.le_of_lt_succ p.length_lt)
  refine ⟨?_, rfl, hrest⟩
  cases p
  simp only [pointOf, Point.mk.injEq]
  exact ⟨hid, htype, by rw [hlen]; exact hvalue⟩

end Bytes

/-! ## What a data point reads -/

section Reads

variable {env : Env} {buf : Nat → UInt8} {P : Place → Prop}

@[simp] theorem within_readByte (i : Nat) : Within P (readByte buf i) ↔ P (.byte i) := by simp [readByte]
@[simp] theorem within_readValue (i : Nat) : Within P (readValue buf i) ↔ P (.value i) := by simp [readValue]
@[simp] theorem within_readCmd (i : Nat) : Within P (readCmd env i) ↔ P (.table i) := by simp [readCmd]
@[simp] theorem val_readByte (i : Nat) : (readByte buf i).val = buf i := rfl

theorem readCmd_val {k : Nat} (hk : k < downloadCmd.length) : (readCmd env k).val = downloadCmd[k] := by
  simp [readCmd, hk]

theorem dpidIndexFrom_val (env : Env) (dpid : UInt8) {n k : Nat} (h : k + n = downloadCmd.length) :
    (dpidIndexFrom env dpid n k).val = k + (downloadCmd.drop k).findIdx (·.dpId == dpid) := by
  induction n generalizing k with
  | zero =>
    rw [List.drop_eq_nil_of_le (by omega)]
    rfl
  | succ n ih =>
    have hk : k < downloadCmd.length := by omega
    have hcmd : (readCmd env k).val = downloadCmd[k] := readCmd_val hk
    rw [List.drop_eq_getElem_cons hk, List.findIdx_cons]
    simp only [dpidIndexFrom, val_bind, val_ite, val_pure, hcmd]
    cases hid : downloadCmd[k].dpId == dpid with
    | true => rw [if_pos (beq_iff_eq.1 hid)]; rfl
    | false =>
      rw [if_neg (beq_eq_false_iff_ne.1 hid), ih (by omega)]
      simp only [cond_false]
      omega

/-- The search reads the entries it passes. -/
theorem dpidIndexFrom_within (env : Env) (dpid : UInt8) (n k : Nat) (h : ∀ j < k + n, P (.table j)) :
    Within P (dpidIndexFrom env dpid n k) := by
  induction n generalizing k with
  | zero => exact within_pure _
  | succ n ih =>
    simp only [dpidIndexFrom, within_bind, within_ite, within_readCmd]
    exact ⟨h k (by omega), fun _ => within_pure _, fun _ => ih (k + 1) fun j hj => h j (by omega)⟩

/-- The search ends at the first entry with the id, or behind the table. -/
@[simp] theorem getDowmloadDpidIndex_val (env : Env) (dpid : UInt8) :
    (getDowmloadDpidIndex env dpid).val = downloadCmd.findIdx (·.dpId == dpid) := by
  rw [getDowmloadDpidIndex, dpidIndexFrom_val env dpid (Nat.zero_add _), Nat.zero_add, List.drop_zero]

theorem findIdx_lt_iff (dpid : UInt8) :
    downloadCmd.findIdx (·.dpId == dpid) < downloadCmd.length ↔ InTable dpid := by
  simp only [List.findIdx_lt_length, beq_iff_eq, InTable]

/-- The entry found has the type if and only if the table has the id with it. -/
theorem type_found_iff {dpid dpType : UInt8} (h : InTable dpid) :
    dpType = (readCmd env (downloadCmd.findIdx (·.dpId == dpid))).val.dpType ↔ ⟨dpid, dpType⟩ ∈ downloadCmd := by
  have hunique : ∀ c ∈ downloadCmd, ∀ d ∈ downloadCmd, c.dpId = d.dpId → c = d := by decide
  have hlt := (findIdx_lt_iff dpid).2 h
  have hid := beq_iff_eq.1 (List.findIdx_getElem (p := fun cmd : DownloadCmd => cmd.dpId == dpid) (w := hlt))
  have hmem := List.getElem_mem hlt
  rw [readCmd_val hlt]
  generalize downloadCmd[downloadCmd.findIdx (·.dpId == dpid)] = cmd at hid hmem
  constructor
  · intro ht
    rw [ht, ← hid]
    exact hmem
  · intro hm
    rw [hunique _ hmem _ hm hid]

/-- A handler reads the bytes `handlerReads` counts. -/
theorem dpDownloadHandle_within {dpid : UInt8} {value : Nat} :
    Within P (dpDownloadHandle env buf dpid value) ↔ ∀ k < handlerReads dpid, P (.value (value + k)) := by
  have hbyte : ∀ action dpid report,
      Within P (byteHandle buf action dpid report value) ↔ ∀ k < 1, P (.value (value + k)) := by
    intro action dpid report
    simp [byteHandle]
  have hfeed : Within P (dpDownloadFeedNumHandle buf value) ↔ ∀ k < 4, P (.value (value + k)) := by
    simp only [dpDownloadFeedNumHandle, within_bind, within_readValue, within_pure, and_true]
    simp only [Nat.forall_lt_succ_left, Nat.add_zero, Nat.zero_add, Nat.not_lt_zero, false_imp_iff, implies_true,
      and_true]
  unfold dpDownloadHandle handlerReads
  by_cases h1 : dpid = dpidFeedNum
  · rw [if_pos h1, if_pos h1, hfeed]
  rw [if_neg h1, if_neg h1]
  by_cases h2 : dpid ∈ [dpidHistoryData, dpidFeedVoiceRecord, dpidWaterNum, dpidIpcUsageMode]
  · rw [if_pos h2]
    simp only [List.mem_cons, List.not_mem_nil, or_false] at h2
    rcases h2 with rfl | rfl | rfl | rfl <;> exact hbyte ..
  · rw [if_neg h2]
    simp only [List.mem_cons, List.not_mem_nil, or_false, not_or] at h2
    rw [if_neg h2.1, if_neg h2.2.1, if_neg h2.2.2.1, if_neg h2.2.2.2]
    simp

/-- Everything `data_point_handle` reads. -/
theorem dataPointHandle_within {v : Nat} :
    Within P (dataPointHandle env buf v) ↔
      (P (.byte v) ∧ P (.byte (v + 1)) ∧ P (.byte (v + 2)) ∧ P (.byte (v + 3))) ∧
      Within P (getDowmloadDpidIndex env (buf v)) ∧ P (.table (downloadCmd.findIdx (·.dpId == buf v))) ∧
      (buf (v + 1) = (readCmd env (downloadCmd.findIdx (·.dpId == buf v))).val.dpType →
        ∀ k < handlerReads (buf v), P (.value (v + 4 + k))) := by
  simp only [dataPointHandle, within_bind, within_readByte, within_readCmd, within_ite, within_pure, implies_true,
    true_and, dpDownloadHandle_within, and_assoc]
  simp only [val_readByte, getDowmloadDpidIndex_val, ne_eq, not_not]

/-- A type that is not the one in the table is refused. -/
theorem dataPointHandle_refused {v : Nat} (h : InTable (buf v)) (ht : ⟨buf v, buf (v + 1)⟩ ∉ downloadCmd) :
    (dataPointHandle env buf v).val = ⟨none, none, dpFalse⟩ := by
  have hne : buf (v + 1) ≠ (readCmd env (downloadCmd.findIdx (·.dpId == buf v))).val.dpType :=
    fun h' => ht ((type_found_iff h).1 h')
  simp only [dataPointHandle, val_bind, val_ite, val_pure]
  rw [getDowmloadDpidIndex_val]
  exact if_pos hne

end Reads

/-! ## The loop -/

section Loop

variable {env : Env} {buf : Nat → UInt8} {offset : Nat}

/-- The index behind the data point with index `i`. -/
def nextIndex (buf : Nat → UInt8) (offset : Nat) (i : UInt16) : UInt16 := i + (dpLen buf (pointAt offset i) + 4)

/-- The loop, when at index `a`, comes to hand out index `b`. -/
inductive Hands (buf : Nat → UInt8) (offset : Nat) : UInt16 → UInt16 → Prop
  | here {a} : a < totalLen buf offset → Hands buf offset a a
  | next {a b} : a < totalLen buf offset → Hands buf offset (nextIndex buf offset a) b → Hands buf offset a b

/-- The indices of a frame that are handed to `data_point_handle`. -/
def Handed (buf : Nat → UInt8) (offset : Nat) (i : UInt16) : Prop := Hands buf offset 0 i

theorem Hands.lt {a b : UInt16} (h : Hands buf offset a b) : b < totalLen buf offset := by
  induction h with
  | here h => exact h
  | next _ _ ih => exact ih

theorem Hands.start_lt {a b : UInt16} (h : Hands buf offset a b) : a < totalLen buf offset := by
  cases h with
  | here h => exact h
  | next h _ => exact h

theorem dataQuertFrom_within {P : UInt16 × Place → Prop} {a : UInt16} :
    (∀ fuel, Within P (dataQuertFrom env buf offset fuel a)) ↔
      ∀ b, Hands buf offset a b → P (b, .byte (pointAt offset b + 2)) ∧ P (b, .byte (pointAt offset b + 3)) ∧
        Within (fun p => P (b, p)) (dataPointHandle env buf (pointAt offset b)) := by
  constructor
  · intro h b hb
    induction hb with
    | @here a ha =>
      have h1 := h 1
      simp only [dataQuertFrom, if_pos ha, within_bind, within_rename, within_readByte] at h1
      exact ⟨h1.1, h1.2.1, h1.2.2.1⟩
    | @next a b ha _ ih =>
      refine ih fun fuel => ?_
      have h1 := h (fuel + 1)
      simp only [dataQuertFrom, if_pos ha, within_bind] at h1
      exact h1.2.2.2.1
  · intro h fuel
    induction fuel generalizing a with
    | zero => exact within_pure _
    | succ fuel ih =>
      by_cases ha : a < totalLen buf offset
      · simp only [dataQuertFrom, if_pos ha, within_bind, within_rename, within_readByte, within_pure, and_true]
        have hread := h a (.here ha)
        exact ⟨hread.1, hread.2.1, hread.2.2, ih fun b hb => h b (.next ha hb)⟩
      · simp only [dataQuertFrom, if_neg ha]
        exact within_pure _

/-- A loop that ends has handed out these indices and no others. -/
theorem dataQuertFrom_hands {fuel : Nat} {a : UInt16} {l : List (UInt16 × DpOutcome)}
    (h : (dataQuertFrom env buf offset fuel a).val = some l) (b : UInt16) :
    b ∈ l.map Prod.fst ↔ Hands buf offset a b := by
  induction fuel generalizing a l with
  | zero => cases h
  | succ fuel ih =>
    by_cases ha : a < totalLen buf offset
    · simp only [dataQuertFrom, if_pos ha, val_bind, val_pure] at h
      obtain ⟨rest, hrest, rfl⟩ := Option.map_eq_some_iff.1 h
      rw [List.map_cons, List.mem_cons, ih hrest]
      constructor
      · intro h
        rcases h with rfl | h
        · exact .here ha
        · exact .next ha h
      · intro h
        cases h with
        | here _ => exact .inl rfl
        | next _ h => exact .inr h
    · simp only [dataQuertFrom, if_neg ha, val_pure, Option.some.injEq] at h
      subst h
      refine ⟨fun h => absurd h List.not_mem_nil, fun h => ?_⟩
      cases h with
      | here ha' => exact absurd ha' ha
      | next ha' _ => exact absurd ha' ha

end Loop

/-! ## Containment -/

section Containment

variable {env : Env} {buf : Nat → UInt8} {offset : Nat}

/-- The read belongs to the data point it is made for: one of its four header
bytes, for a handler one of its value bytes, or an entry of the table. -/
def Own (buf : Nat → UInt8) (offset : Nat) (r : UInt16 × Place) : Prop :=
  match r.2 with
  | .byte j => pointAt offset r.1 ≤ j ∧ j < pointAt offset r.1 + 4
  | .value j => pointAt offset r.1 + 4 ≤ j ∧ j < pointAt offset r.1 + 4 + (dpLen buf (pointAt offset r.1)).toNat
  | .table k => k < downloadCmd.length

/-- What the dispatch of a frame is to do: every data point handed out lies in
the payload, every read is its own, and a data point that is not in the table
with its type is refused. -/
structure Contained (env : Env) (buf : Nat → UInt8) (offset : Nat) : Prop where
  inside : ∀ i, Handed buf offset i →
    i.toNat + 4 + (dpLen buf (pointAt offset i)).toNat ≤ (totalLen buf offset).toNat
  reads : ∀ fuel, Within (Own buf offset) (dataQuert env buf offset fuel)
  refused : ∀ i, Handed buf offset i → ⟨buf (pointAt offset i), buf (pointAt offset i + 1)⟩ ∉ downloadCmd →
    (dataPointHandle env buf (pointAt offset i)).val.action = none ∧
      (dataPointHandle env buf (pointAt offset i)).val.ret = dpFalse

/-- The reads made for a data point are its own if and only if it is served. -/
theorem own_iff (i : UInt16) :
    Within (fun p => Own buf offset (i, p)) (dataPointHandle env buf (pointAt offset i)) ↔
      (pointOf buf (pointAt offset i)).Served := by
  rw [dataPointHandle_within]
  simp only [Own, Point.Served, length_pointOf]
  constructor
  · intro h
    obtain ⟨-, -, htable, hvalue⟩ := h
    have hin := (findIdx_lt_iff _).1 htable
    refine ⟨hin, fun hmem => Nat.le_of_not_lt fun hlt => ?_⟩
    -- the first byte behind the value
    have hread := hvalue ((type_found_iff hin).2 hmem) _ hlt
    omega
  · intro h
    obtain ⟨hin, hserved⟩ := h
    refine ⟨by omega, dpidIndexFrom_within _ _ _ _ fun j hj => ?_, (findIdx_lt_iff _).2 hin, fun ht k hk => ?_⟩
    · rwa [Nat.zero_add] at hj
    · have := hserved ((type_found_iff hin).1 ht)
      have hk : k < handlerReads (pointOf buf (pointAt offset i)).dpId := hk
      omega

/-- From the end of a data point in the payload the index is that of the next. -/
theorem toNat_nextIndex {i : UInt16}
    (h : i.toNat + 4 + (dpLen buf (pointAt offset i)).toNat ≤ (totalLen buf offset).toNat) :
    (nextIndex buf offset i).toNat = i.toNat + 4 + (dpLen buf (pointAt offset i)).toNat := by
  have := (totalLen buf offset).toNat_lt
  rw [nextIndex, UInt16.toNat_add, UInt16.toNat_add]
  change (i.toNat + ((dpLen buf (pointAt offset i)).toNat + 4) % 65536) % 65536 = _
  omega

/-- The payload from index `a` on. -/
def payloadFrom (buf : Nat → UInt8) (offset : Nat) (a : UInt16) : List UInt8 :=
  slice buf (pointAt offset a) ((totalLen buf offset).toNat - a.toNat)

/-- Data points that all lie inside and are served make up the payload. -/
theorem payload_of_inside {a : UInt16} (ha : a.toNat ≤ (totalLen buf offset).toNat)
    (h : ∀ i, Hands buf offset a i → i.toNat + 4 + (dpLen buf (pointAt offset i)).toNat ≤ (totalLen buf offset).toNat ∧
      (pointOf buf (pointAt offset i)).Served) :
    ∃ points : List Point, payloadFrom buf offset a = points.flatMap Point.encode ∧ ∀ p ∈ points, p.Served := by
  induction hn : (totalLen buf offset).toNat - a.toNat using Nat.strongRecOn generalizing a with
  | _ n ih =>
    by_cases hlt : a < totalLen buf offset
    · obtain ⟨hinside, hserved⟩ := h a (.here hlt)
      have hnext := toNat_nextIndex hinside
      obtain ⟨points, hpoints, hall⟩ := ih _ (by omega) (a := nextIndex buf offset a) (by omega)
        (fun i hi => h i (.next hlt hi)) rfl
      refine ⟨pointOf buf (pointAt offset a) :: points, ?_, List.forall_mem_cons.2 ⟨hserved, hall⟩⟩
      rw [List.flatMap_cons, ← hpoints, ← slice_pointOf, payloadFrom, payloadFrom, pointAt, pointAt, hnext,
        show (totalLen buf offset).toNat - a.toNat = 4 + (dpLen buf (pointAt offset a)).toNat +
          ((totalLen buf offset).toNat - (a.toNat + 4 + (dpLen buf (pointAt offset a)).toNat)) by omega, slice_add]
      congr 2
      rw [pointAt]
      omega
    · refine ⟨[], ?_, fun _ h => absurd h List.not_mem_nil⟩
      have hge : (totalLen buf offset).toNat ≤ a.toNat := UInt16.le_iff_toNat_le.1 (UInt16.not_lt.1 hlt)
      rw [payloadFrom, Nat.sub_eq_zero_of_le hge]
      rfl

/-- In a payload of whole data points every index handed out is that of one of them. -/
theorem hands_of_payload {a b : UInt16} {points : List Point} (hb : Hands buf offset a b)
    (h : payloadFrom buf offset a = points.flatMap Point.encode) :
    b.toNat + 4 + (dpLen buf (pointAt offset b)).toNat ≤ (totalLen buf offset).toNat ∧
      pointOf buf (pointAt offset b) ∈ points := by
  -- how a payload with something left begins
  have hcons : ∀ {a : UInt16} {points : List Point}, a < totalLen buf offset →
      payloadFrom buf offset a = points.flatMap Point.encode → ∃ rest, points = pointOf buf (pointAt offset a) :: rest ∧
        a.toNat + 4 + (dpLen buf (pointAt offset a)).toNat ≤ (totalLen buf offset).toNat ∧
        payloadFrom buf offset (nextIndex buf offset a) = rest.flatMap Point.encode := by
    intro a points hlt h
    have hlt : a.toNat < (totalLen buf offset).toNat := hlt
    cases points with
    | nil =>
      have hlen := congrArg List.length h
      rw [payloadFrom, length_slice] at hlen
      exact absurd hlen (by simp; omega)
    | cons p rest =>
      rw [payloadFrom, List.flatMap_cons] at h
      obtain ⟨hp, hn, hrest⟩ := pointOf_eq h
      have hlen : (dpLen buf (pointAt offset a)).toNat = p.value.length := by rw [← hp, length_pointOf]
      have hinside : a.toNat + 4 + (dpLen buf (pointAt offset a)).toNat ≤ (totalLen buf offset).toNat := by omega
      refine ⟨rest, by rw [hp], hinside, ?_⟩
      have hleft : (totalLen buf offset).toNat - (a.toNat + 4 + p.value.length) =
          (rest.flatMap Point.encode).length := by omega
      rw [payloadFrom, pointAt, toNat_nextIndex hinside, hlen, hleft,
        show offset + dataStart + (a.toNat + 4 + p.value.length) = pointAt offset a + (4 + p.value.length) by
          rw [pointAt]; omega]
      exact hrest
  induction hb generalizing points with
  | @here a hlt =>
    obtain ⟨rest, rfl, hinside, -⟩ := hcons hlt h
    exact ⟨hinside, List.mem_cons_self ..⟩
  | @next a b hlt _ ih =>
    obtain ⟨rest, rfl, -, hrest⟩ := hcons hlt h
    exact ⟨(ih hrest).1, List.mem_cons_of_mem _ (ih hrest).2⟩

/-- **The dispatch of a frame stays within the frame and the table, exactly when
the payload is a sequence of whole data points, each with an id of the table
and, if its type is right, at least as many bytes as its handler reads.** -/
theorem dataQuert_contained_iff (env : Env) (buf : Nat → UInt8) (offset : Nat) :
    Contained env buf offset ↔
      ∃ points : List Point, slice buf (offset + dataStart) (declaredLen buf offset) = points.flatMap Point.encode ∧
        ∀ p ∈ points, p.Served := by
  have hpayload : payloadFrom buf offset 0 = slice buf (offset + dataStart) (declaredLen buf offset) := by
    rw [payloadFrom, toNat_totalLen]
    rfl
  rw [← hpayload]
  constructor
  · intro h
    refine payload_of_inside (Nat.zero_le _) fun i hi => ⟨h.inside i hi, ?_⟩
    exact own_iff i |>.1 (dataQuertFrom_within.1 h.reads i hi).2.2
  · intro h
    obtain ⟨points, hpoints, hserved⟩ := h
    have hall : ∀ i, Handed buf offset i → (pointOf buf (pointAt offset i)).Served :=
      fun i hi => hserved _ (hands_of_payload hi hpoints).2
    refine ⟨fun i hi => (hands_of_payload hi hpoints).1, dataQuertFrom_within.2 fun i hi => ?_, fun i hi ht => ?_⟩
    · refine ⟨?_, ?_, (own_iff i).2 (hall i hi)⟩ <;> simp only [Own] <;> omega
    · rw [dataPointHandle_refused (hall i hi).1 ht]
      exact ⟨rfl, rfl⟩

/-- A buffer that begins with these bytes. -/
def bufOf (bytes : List UInt8) : Nat → UInt8 := fun i => bytes.getD i 0

/-- A `DATA_QUERT` frame whose only data point asks for a feed and has no value. -/
def emptyFeed : List UInt8 := [0x55, 0xaa, 0x00, 0x06, 0x00, 0x04, 231, 2, 0, 0, 0xf2]

/-- The handler takes the number of parts from the four bytes behind the payload. -/
theorem empty_feed_reads_outside : ¬ Contained ⟨⟨0, 0⟩, 0⟩ (bufOf emptyFeed) 0 := by
  intro h
  have hread := (own_iff 0).1 (dataQuertFrom_within.1 h.reads 0 (.here (by decide))).2.2
  exact absurd (hread.2 (by decide)) (by decide)

end Containment

/-! ## Termination -/

section Termination

variable {env : Env} {buf : Nat → UInt8} {offset : Nat}

/-- The index behind the data point does not come back into the payload. -/
def GoesOn (buf : Nat → UInt8) (offset : Nat) (i : UInt16) : Prop :=
  i.toNat + (dpLen buf (pointAt offset i)).toNat + 4 < 65536 ∨ totalLen buf offset ≤ nextIndex buf offset i

theorem dataQuertFrom_ends {fuel : Nat} {a : UInt16} (h : ∀ i, Hands buf offset a i → GoesOn buf offset i)
    (hfuel : (totalLen buf offset).toNat - a.toNat ≤ 4 * fuel) :
    ∃ l, (dataQuertFrom env buf offset (fuel + 1) a).val = some l ∧
      l.length ≤ ((totalLen buf offset).toNat - a.toNat + 3) / 4 := by
  have hstop : ∀ {fuel : Nat} {a : UInt16}, ¬ a < totalLen buf offset →
      (dataQuertFrom env buf offset (fuel + 1) a).val = some [] := by
    intro fuel a hge
    rw [dataQuertFrom, if_neg hge, val_pure]
  induction fuel generalizing a with
  | zero =>
    refine ⟨[], hstop fun hlt => ?_, Nat.zero_le _⟩
    have hlt : a.toNat < (totalLen buf offset).toNat := hlt
    omega
  | succ fuel ih =>
    by_cases hlt : a < totalLen buf offset
    · have hlt' : a.toNat < (totalLen buf offset).toNat := hlt
      have hnext : (nextIndex buf offset a).toNat = (a.toNat + (dpLen buf (pointAt offset a)).toNat + 4) % 65536 := by
        rw [nextIndex, UInt16.toNat_add, UInt16.toNat_add]
        change (a.toNat + ((dpLen buf (pointAt offset a)).toNat + 4) % 65536) % 65536 = _
        omega
      have hgoes := h a (.here hlt)
      simp only [GoesOn, UInt16.le_iff_toNat_le, hnext] at hgoes
      obtain ⟨l, hl, hlen⟩ := ih (a := nextIndex buf offset a) (fun i hi => h i (.next hlt hi)) (by omega)
      refine ⟨(a, (dataPointHandle env buf (pointAt offset a)).val) :: l, ?_, ?_⟩
      · rw [dataQuertFrom, if_pos hlt]
        exact congrArg (Option.map _) hl
      · rw [List.length_cons]
        omega
    · exact ⟨[], hstop hlt, Nat.zero_le _⟩

/-- **The loop of a frame ends, with no more data points than a quarter of the
payload, as long as no index comes back into the payload.** -/
theorem dataQuert_ends (env : Env) (h : ∀ i, Handed buf offset i → GoesOn buf offset i) :
    ∃ fuel l, (dataQuert env buf offset fuel).val = some l ∧ l.length ≤ (declaredLen buf offset + 3) / 4 := by
  have hfuel : (totalLen buf offset).toNat - (0 : UInt16).toNat ≤ 4 * (totalLen buf offset).toNat := by omega
  obtain ⟨l, hl, hlen⟩ := @dataQuertFrom_ends env _ _ _ _ h hfuel
  rw [toNat_totalLen] at hlen
  exact ⟨_, l, hl, hlen⟩

theorem dataQuert_ends_water :
    ∃ fuel l,
      (dataQuert ⟨⟨0, 0⟩, 0⟩ (bufOf [0x55, 0xaa, 0x00, 0x06, 0x00, 0x05, 236, 1, 0, 1, 1]) 0 fuel).val = some l ∧
      l.length ≤ (5 + 3) / 4 := by
  refine dataQuert_ends ⟨⟨0, 0⟩, 0⟩ fun i hi => ?_
  cases hi with
  | here _ => exact .inl (by decide)
  | next _ h => exact absurd (h.start_lt) (by decide)

/-- A walk that returns to an index it has left does not end. -/
theorem dataQuertFrom_spins {a i : UInt16} (hi : Hands buf offset a i)
    (hret : Hands buf offset (nextIndex buf offset i) i) (fuel : Nat) :
    (dataQuertFrom env buf offset fuel a).val = none := by
  induction fuel generalizing a with
  | zero => rfl
  | succ fuel ih =>
    cases hi with
    | here hlt =>
      rw [dataQuertFrom, if_pos hlt]
      exact congrArg (Option.map _) (ih hret)
    | next hlt h =>
      rw [dataQuertFrom, if_pos hlt]
      exact congrArg (Option.map _) (ih h)

/-- There are no more indices than 65536. -/
theorem length_le_of_nodup {seen : List UInt16} (h : seen.Nodup) : seen.length ≤ 65536 := by
  have hmap : (seen.map UInt16.toNat).Nodup :=
    List.Pairwise.map _ (fun _ _ hne heq => hne (UInt16.toNat_inj.1 heq)) h
  have hsub : seen.map UInt16.toNat ⊆ List.range 65536 := fun n hn => by
    obtain ⟨s, -, rfl⟩ := List.mem_map.1 hn
    exact List.mem_range.2 s.toNat_lt
  have hle := (List.subperm_of_subset hmap hsub).length_le
  rwa [List.length_map, List.length_range] at hle

/-- A walk that has left the indices `seen` and comes back to none ends. -/
theorem dataQuertFrom_ends_of_seen (seen : List UInt16) (fuel : Nat) {a : UInt16} (hseen : seen.Nodup)
    (hback : ∀ s ∈ seen, ¬ Hands buf offset a s)
    (h : ∀ i, Hands buf offset a i → ¬ Hands buf offset (nextIndex buf offset i) i)
    (hfuel : 65536 ≤ seen.length + fuel) :
    ∃ l, (dataQuertFrom env buf offset (fuel + 1) a).val = some l := by
  by_cases hlt : a < totalLen buf offset
  · have hnodup : (a :: seen).Nodup := List.nodup_cons.2 ⟨fun hmem => hback a hmem (.here hlt), hseen⟩
    cases fuel with
    | zero =>
      have := length_le_of_nodup hnodup
      rw [List.length_cons] at this
      omega
    | succ fuel =>
      obtain ⟨l, hl⟩ := dataQuertFrom_ends_of_seen (a :: seen) fuel (a := nextIndex buf offset a) hnodup
        (List.forall_mem_cons.2 ⟨h a (.here hlt), fun s hs hret => hback s hs (.next hlt hret)⟩)
        (fun i hi => h i (.next hlt hi)) (by rw [List.length_cons]; omega)
      rw [dataQuertFrom, if_pos hlt]
      exact ⟨_, congrArg (Option.map _) hl⟩
  · rw [dataQuertFrom, if_neg hlt]
    exact ⟨[], rfl⟩

/-- The loop returns to an index it has left. -/
def ComesBack (buf : Nat → UInt8) (offset : Nat) : Prop :=
  ∃ i, Handed buf offset i ∧ Hands buf offset (nextIndex buf offset i) i

theorem ComesBack.spins (h : ComesBack buf offset) (env : Env) (fuel : Nat) :
    (dataQuert env buf offset fuel).val = none := by
  obtain ⟨i, hi, hret⟩ := h
  exact dataQuertFrom_spins hi hret fuel

/-- More rounds than any loop that ends makes. -/
def quertFuel : Nat := 65537

theorem dataQuert_returns (h : ¬ ComesBack buf offset) (env : Env) :
    ∃ l, (dataQuert env buf offset quertFuel).val = some l :=
  dataQuertFrom_ends_of_seen [] 65536 List.nodup_nil (fun _ h => absurd h List.not_mem_nil)
    (fun i hi hret => h ⟨i, hi, hret⟩) (Nat.le_add_left ..)

/-- The loop ends if and only if it returns to no index it has left. -/
theorem dataQuert_ends_iff (env : Env) (buf : Nat → UInt8) (offset : Nat) :
    (∃ fuel l, (dataQuert env buf offset fuel).val = some l) ↔ ¬ ComesBack buf offset := by
  constructor
  · intro h hback
    obtain ⟨fuel, l, hl⟩ := h
    rw [hback.spins] at hl
    cases hl
  · exact fun h => ⟨quertFuel, dataQuert_returns h env⟩

theorem dataQuert_none_iff (env : Env) (buf : Nat → UInt8) (offset : Nat) :
    (dataQuert env buf offset quertFuel).val = none ↔ ComesBack buf offset := by
  constructor
  · intro h
    by_contra hback
    obtain ⟨l, hl⟩ := dataQuert_returns hback env
    rw [h] at hl
    cases hl
  · exact fun h => h.spins env quertFuel

/-- A `DATA_QUERT` frame whose data point declares 0xFFFC bytes. -/
def fullLength : List UInt8 := [0x55, 0xaa, 0x00, 0x06, 0x00, 0x04, 231, 2, 0xff, 0xfc, 0xed]

/-- The index stays at 0: the feed request is carried out again and again. -/
theorem full_length_spins :
    ¬ ∃ fuel l, (dataQuert ⟨⟨0, 0⟩, 0⟩ (bufOf fullLength) 0 fuel).val = some l ∧
      l.length ≤ (declaredLen (bufOf fullLength) 0 + 3) / 4 := by
  intro h
  obtain ⟨fuel, l, hl, -⟩ := h
  have hlt : (0 : UInt16) < totalLen (bufOf fullLength) 0 := by decide
  have hstay : nextIndex (bufOf fullLength) 0 0 = 0 := by decide
  rw [dataQuert, dataQuertFrom_spins (.here hlt) (by rw [hstay]; exact .here hlt)] at hl
  cases hl

end Termination

end Petbox.Wifi
