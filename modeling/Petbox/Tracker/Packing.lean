/-
The digits of a binary report (`btlink_assem_hex_msg.c`): the identity of the device
and the time stand in it as the numbers of pieces of their texts, and the texts
can be read back from the bytes.
-/
import Petbox.Lib.Digits
import Petbox.Tracker.GpsText

namespace Petbox.Tracker

open CStr Mem Pack Print

/-- `btlink_hex_get_imei_digit`: `g_hex_imei` behind it. -/
def hexGetImeiDigit (imei : List UInt8) (gHexImei : Nat → UInt8) : Nat → UInt8 :=
  (List.range hexImeiLen).foldl
    (fun g i => store g i (UInt8.ofInt (atoiSigned ((cstr (imei.drop (i * 2))).take 2)))) gHexImei

/-! ## Windows of a text of digits -/

/-- What `snprintf` and `atoi` make of a window of a text of digits. -/
theorem atoiSigned_window {text : List UInt8} (hds : ∀ c ∈ text, isDigit c = true) (behind : List UInt8) {i width : Nat}
    (hi : i < text.length) (hwidth : 0 < width ∧ width ≤ 9) :
    atoiSigned ((cstr ((text ++ 0 :: behind).drop i)).take width) = (decimal ((text.drop i).take width) : Nat) := by
  have htext : Text (text.drop i) := fun c hc => ne_of_isDigit (hds c (List.mem_of_mem_drop hc)) (by decide)
  rw [List.drop_append_of_le_length (Nat.le_of_lt hi), cstr_append_zero htext]
  have hne : (text.drop i).take width ≠ [] := by
    apply List.ne_nil_of_length_pos
    rw [List.length_take, List.length_drop]
    omega
  have hat := @atoiSigned_digits ((text.drop i).take width) [] hne
    (fun c hc => hds c (List.mem_of_mem_drop (List.mem_of_mem_take hc)))
    (Nat.le_trans (List.length_take_le ..) hwidth.2) (.inl rfl)
  rwa [List.append_nil] at hat

theorem uint8_ofInt_natCast (n : Nat) : UInt8.ofInt (n : Int) = n.toUInt8 := by
  rw [UInt8.ofInt, Nat.toUInt8, ← UInt8.toNat_inj, UInt8.toNat_ofNat', UInt8.toNat_ofNat']
  omega

/-! ## The identity -/

/-- Two digits a byte, and one in the last. -/
def imeiWidths : List Nat := [2, 2, 2, 2, 2, 2, 2, 1]

/-- The text of an identity, from its bytes. -/
def imeiText (bytes : List UInt8) : List UInt8 := ungroup imeiWidths (bytes.map UInt8.toNat)

theorem slice_hexGetImeiDigit (imei : DigitText 15) (behind : List UInt8) (g : Nat → UInt8) :
    slice (hexGetImeiDigit (imei.text ++ 0 :: behind) g) 0 hexImeiLen =
      (groups imeiWidths imei.text).map Nat.toUInt8 := by
  have hstores : slice (hexGetImeiDigit (imei.text ++ 0 :: behind) g) 0 hexImeiLen =
      (List.range hexImeiLen).map fun i =>
        UInt8.ofInt (atoiSigned ((cstr ((imei.text ++ 0 :: behind).drop (i * 2))).take 2)) := rfl
  have hlen := imei.length
  have hwindow : ∀ i < hexImeiLen, UInt8.ofInt (atoiSigned ((cstr ((imei.text ++ 0 :: behind).drop (i * 2))).take 2)) =
      (decimal ((imei.text.drop (i * 2)).take 2)).toUInt8 := by
    intro i hi
    change i < 8 at hi
    rw [atoiSigned_window imei.digits behind (by omega) (by decide), uint8_ofInt_natCast]
  have hlast : (imei.text.drop 14).take 1 = (imei.text.drop 14).take 2 := by
    rw [List.take_of_length_le (by simp [hlen]), List.take_of_length_le (by simp [hlen])]
  rw [hstores, List.map_congr_left fun i hi => hwindow i (List.mem_range.1 hi)]
  simp [groups, imeiWidths, hexImeiLen, List.range_succ, List.drop_drop, hlast]

theorem imeiText_groups (imei : DigitText 15) :
    imeiText ((groups imeiWidths imei.text).map Nat.toUInt8) = imei.text := by
  have hlen : imei.text.length = imeiWidths.sum := imei.length
  have hlt : ∀ n ∈ groups imeiWidths imei.text, n < 256 := fun n hn =>
    Nat.lt_trans (@groups_lt _ _ 2 imei.digits (by decide) n hn) (by decide)
  rw [imeiText, map_toNat_toUInt8 hlt, ungroup_groups imei.digits hlen]

/-! ## The time -/

/-- Four digits for the year, and two for each of the other numbers. -/
def timeWidths : List Nat := [4, 2, 2, 2, 2, 2]

/-- The text of a time, from its bytes. -/
def timeText : List UInt8 → List UInt8
  | high :: low :: bytes => ungroup timeWidths (Layout.leVal [low, high] :: bytes.map UInt8.toNat)
  | _ => []

/-- The year with its high byte first, and a byte for each of the five numbers behind it. -/
def yearAndPairs (time : List UInt8) : List UInt8 :=
  be16 (decimal (time.take 4)).toUInt16 ++ (groups [2, 2, 2, 2, 2] (time.drop 4)).map Nat.toUInt8

theorem timeBytes_eq (time : DigitText 14) (behind : List UInt8) :
    timeBytes (time.text ++ 0 :: behind) = yearAndPairs time.text := by
  have hlen := time.length
  have hyear : UInt16.ofInt (atoiSigned ((cstr (time.text ++ 0 :: behind)).take 4)) =
      (decimal (time.text.take 4)).toUInt16 := by
    have hat := @atoiSigned_window _ time.digits behind 0 4 (by omega) (by decide)
    rw [List.drop_zero, List.drop_zero] at hat
    rw [hat, Nat.toUInt16, ← UInt16.toNat_inj, UInt16.ofInt, UInt16.toNat_ofNat', UInt16.toNat_ofNat']
    omega
  have hpair : ∀ i < 5, timeNum (time.text ++ 0 :: behind) i =
      (decimal ((time.text.drop (4 + i * 2)).take 2)).toUInt8 := by
    intro i hi
    rw [timeNum, atoiSigned_window time.digits behind (by omega) (by decide), uint8_ofInt_natCast]
  rw [timeBytes, yearAndPairs, hyear, List.map_congr_left fun i hi => hpair i (List.mem_range.1 hi)]
  simp [groups, List.range_succ, List.drop_drop]

theorem timeText_yearAndPairs (time : DigitText 14) : timeText (yearAndPairs time.text) = time.text := by
  have hlen : time.text.length = timeWidths.sum := time.length
  have hyear : decimal (time.text.take 4) < 10 ^ 4 :=
    @groups_lt timeWidths _ 4 time.digits (by decide) _ (List.mem_cons_self ..)
  have hpairs : ∀ n ∈ groups [2, 2, 2, 2, 2] (time.text.drop 4), n < 256 := fun n hn =>
    Nat.lt_trans (@groups_lt _ _ 2 (fun c hc => time.digits c (List.mem_of_mem_drop hc)) (by decide) n hn) (by decide)
  have hnum : (decimal (time.text.take 4)).toUInt16.toNat = decimal (time.text.take 4) := by
    rw [Nat.toUInt16, UInt16.toNat_ofNat']
    omega
  have hle : Layout.leVal (Layout.leBytes 2 (decimal (time.text.take 4))) = decimal (time.text.take 4) := by
    rw [Layout.leVal_leBytes]
    omega
  change ungroup timeWidths (Layout.leVal (Layout.leBytes 2 (decimal (time.text.take 4)).toUInt16.toNat) ::
    ((groups [2, 2, 2, 2, 2] (time.text.drop 4)).map Nat.toUInt8).map UInt8.toNat) = time.text
  rw [hnum, hle, map_toNat_toUInt8 hpairs]
  exact ungroup_groups time.digits hlen

/-! ## The bytes of a message -/

/-- What a message has from `buff` on of the identity that `btlink_hex_get_imei_digit` was given. -/
def imeiInMsg (gHexImei m : Nat → UInt8) (buff : Nat) (imei : List UInt8) : List UInt8 :=
  slice (afterStores m (hexPackImei (hexGetImeiDigit imei gHexImei) buff).stores) buff 8

/-- What a message has of the time. -/
def timeInMsg (m : Nat → UInt8) (buff : Nat) (time : List UInt8) : List UInt8 :=
  slice (afterStores m (hexPackTime buff time).stores) buff 7

theorem imeiInMsg_eq (imei : DigitText 15) (behind : List UInt8) (gHexImei m : Nat → UInt8) (buff : Nat) :
    imeiInMsg gHexImei m buff (imei.text ++ 0 :: behind) = (groups imeiWidths imei.text).map Nat.toUInt8 := by
  have hslice := slice_afterStores_cells m buff
    (slice (hexGetImeiDigit (imei.text ++ 0 :: behind) gHexImei) 0 hexImeiLen)
  rw [imeiInMsg, (hexPackImei_packs _).stores buff, ← slice_hexGetImeiDigit imei behind gHexImei]
  rwa [length_slice] at hslice

theorem timeInMsg_eq (time : DigitText 14) (behind : List UInt8) (m : Nat → UInt8) (buff : Nat) :
    timeInMsg m buff (time.text ++ 0 :: behind) = yearAndPairs time.text := by
  have hslice := slice_afterStores_cells m buff (timeBytes (time.text ++ 0 :: behind))
  rw [timeInMsg, (hexPackTime_packs _).stores buff, ← timeBytes_eq time behind]
  exact hslice

/-- **The packing loses nothing**: the texts can be read back from the bytes, and the bytes of a
time are its year and its five pairs. -/
theorem packing_readBack :
    (∀ (imei : DigitText 15) (behind : List UInt8) (gHexImei m : Nat → UInt8) (buff : Nat),
      imeiText (imeiInMsg gHexImei m buff (imei.text ++ 0 :: behind)) = imei.text) ∧
    ∀ (time : DigitText 14) (behind : List UInt8) (m : Nat → UInt8) (buff : Nat),
      timeInMsg m buff (time.text ++ 0 :: behind) = yearAndPairs time.text ∧
      timeText (timeInMsg m buff (time.text ++ 0 :: behind)) = time.text := by
  refine ⟨fun imei behind gHexImei m buff => ?_, fun time behind m buff => ?_⟩
  · rw [imeiInMsg_eq, imeiText_groups]
  · rw [timeInMsg_eq]
    exact ⟨rfl, timeText_yearAndPairs time⟩

end Petbox.Tracker
