/-
The tracker's NV items: `nv_item_read` and `nv_item_write` (`nv.c`) over the
EasyFlash store, and `btlink_pro_nv_init` (`btlink_nv.c`), which fills
`g_btlink_config` from the four items and writes the factory values of those
that are missing.

The store is a map from keys to blobs: writes succeed, and a read returns the
last blob written, cut to the size asked for.
-/
import Petbox.Tracker.Config

namespace Petbox.Tracker

/-- What EasyFlash holds under each key. -/
abbrev EnvStore := String → Option (List UInt8)

def efStrEnvValueMaxSize : Nat := 256

/-- `ef_get_env_blob`: the bytes put into the buffer, none when there is no such key. -/
def efGetEnvBlob (nv : EnvStore) (key : String) (bufLen : Nat) : List UInt8 := ((nv key).getD []).take bufLen

/-- `ef_set_env_blob`. -/
def efSetEnvBlob (nv : EnvStore) (key : String) (value : List UInt8) : EnvStore :=
  fun k => if k = key then some value else nv k

/-- `nv_item_read`: the bytes copied to `value`, through a buffer of
`EF_STR_ENV_VALUE_MAX_SIZE` bytes. The function returns how many they are. -/
def nvItemRead (nv : EnvStore) (key : String) (valueLen : Nat) : List UInt8 :=
  (efGetEnvBlob nv key efStrEnvValueMaxSize).take valueLen

/-- `nv_item_write`. -/
def nvItemWrite (nv : EnvStore) (key : String) (value : List UInt8) : EnvStore := efSetEnvBlob nv key value

def nvBtIps : String := "nv_bt_ips"
def nvBtApn : String := "nv_bt_apn"
def nvBtScs : String := "nv_bt_scs"
def nvBtLss : String := "nv_bt_lss"

/-- What `btlink_pro_nv_init` does for each item: read it over the section, and
when nothing was read write the factory value and read again. -/
def nvInitItem {α : Type} (L : Layout α) (key : String) (dflt cur : α) (nv : EnvStore) : α × EnvStore :=
  if nvItemRead nv key L.size ≠ [] then (L.overlay cur (nvItemRead nv key L.size), nv)
  else
    (L.overlay cur (nvItemRead (nvItemWrite nv key (L.encode dflt)) key L.size),
      nvItemWrite nv key (L.encode dflt))

/-- `btlink_pro_nv_init`. -/
def btlinkProNvInit (cfg : Config) (nv : EnvStore) : Config × EnvStore :=
  let ips := nvInitItem Layouts.ips nvBtIps nvDefaultIps cfg.ips nv
  let apn := nvInitItem Layouts.apn nvBtApn nvDefaultApn cfg.apn ips.2
  let scs := nvInitItem Layouts.scs nvBtScs nvDefaultScs cfg.scs apn.2
  let lss := nvInitItem Layouts.lss nvBtLss nvDefaultLss cfg.lss scs.2
  ({ ips := ips.1, apn := apn.1, scs := scs.1, lss := lss.1 }, lss.2)

/-- `btlink_pro_nv_ips_write`. -/
def btlinkProNvIpsWrite (cfg : Config) (nv : EnvStore) : EnvStore :=
  nvItemWrite nv nvBtIps (Layouts.ips.encode cfg.ips)

/-- `btlink_pro_nv_apn_write`. -/
def btlinkProNvApnWrite (cfg : Config) (nv : EnvStore) : EnvStore :=
  nvItemWrite nv nvBtApn (Layouts.apn.encode cfg.apn)

/-- `btlink_pro_nv_scs_write`. -/
def btlinkProNvScsWrite (cfg : Config) (nv : EnvStore) : EnvStore :=
  nvItemWrite nv nvBtScs (Layouts.scs.encode cfg.scs)

/-- `btlink_pro_nv_lss_write`. -/
def btlinkProNvLssWrite (cfg : Config) (nv : EnvStore) : EnvStore :=
  nvItemWrite nv nvBtLss (Layouts.lss.encode cfg.lss)

/-! ## One item -/

@[simp] theorem nvItemWrite_self (nv : EnvStore) (key : String) (v : List UInt8) :
    nvItemWrite nv key v key = some v := if_pos rfl

theorem nvItemWrite_ne {nv : EnvStore} {key k : String} {v : List UInt8} (h : k ≠ key) :
    nvItemWrite nv key v k = nv k := if_neg h

/-- An item that was never written, or holds the image of a value of its section. -/
def Saved {α : Type} (L : Layout α) (key : String) (nv : EnvStore) : Prop :=
  nv key = none ∨ ∃ a, nv key = some (L.encode a)

section Item

variable {α : Type} {L : Layout α} {key : String} {nv : EnvStore} {dflt cur : α}

/-- A stored image passes through the buffer of `nv_item_read` whole. -/
theorem nvItemRead_image {a : α} (h : nv key = some (L.encode a)) (hsize : L.size ≤ efStrEnvValueMaxSize) :
    nvItemRead nv key L.size = L.encode a := by
  have hlen := L.length_encode a
  unfold nvItemRead efGetEnvBlob
  rw [h, Option.getD_some, List.take_take, List.take_of_length_le (by omega)]

theorem encode_ne_nil (hpos : 0 < L.size) (a : α) : L.encode a ≠ [] := by
  intro h
  have := L.length_encode a
  rw [h] at this
  exact absurd this (by simpa using Nat.ne_of_lt hpos)

/-- An item that holds an image is read back and stays as it is. -/
theorem nvInitItem_image {a : α} (h : nv key = some (L.encode a)) (hpos : 0 < L.size)
    (hsize : L.size ≤ efStrEnvValueMaxSize) : nvInitItem L key dflt cur nv = (a, nv) := by
  unfold nvInitItem
  rw [nvItemRead_image h hsize, if_pos (encode_ne_nil hpos a), L.overlay_encode]

/-- After the initialisation of an item the store holds the image of the section. -/
theorem nvInitItem_holds (h : Saved L key nv) (hpos : 0 < L.size) (hsize : L.size ≤ efStrEnvValueMaxSize) :
    (nvInitItem L key dflt cur nv).2 key = some (L.encode (nvInitItem L key dflt cur nv).1) := by
  rcases h with h | ⟨a, ha⟩
  · have hnil : nvItemRead nv key L.size = [] := by simp [nvItemRead, efGetEnvBlob, h]
    have hread := nvItemRead_image (nvItemWrite_self nv key (L.encode dflt)) hsize
    unfold nvInitItem
    rw [if_neg (by simp [hnil]), hread, L.overlay_encode]
    exact nvItemWrite_self ..
  · rw [nvInitItem_image ha hpos hsize]
    exact ha

/-- The other items are not touched. -/
theorem nvInitItem_ne {k : String} (h : k ≠ key) : (nvInitItem L key dflt cur nv).2 k = nv k := by
  unfold nvInitItem
  split
  · rfl
  · exact nvItemWrite_ne h

end Item

/-! ## The four items -/

/-- The four items hold exactly the bytes of the four sections. -/
structure Holds (cfg : Config) (nv : EnvStore) : Prop where
  ips : nv nvBtIps = some (Layouts.ips.encode cfg.ips)
  apn : nv nvBtApn = some (Layouts.apn.encode cfg.apn)
  scs : nv nvBtScs = some (Layouts.scs.encode cfg.scs)
  lss : nv nvBtLss = some (Layouts.lss.encode cfg.lss)

/-- The store before the first initialisation: each of the four items is
missing or was saved by this firmware. -/
structure SavedItems (nv : EnvStore) : Prop where
  ips : Saved Layouts.ips nvBtIps nv
  apn : Saved Layouts.apn nvBtApn nv
  scs : Saved Layouts.scs nvBtScs nv
  lss : Saved Layouts.lss nvBtLss nv

theorem Saved.of_eq {α : Type} {L : Layout α} {key : String} {nv nv' : EnvStore} (h : Saved L key nv)
    (heq : nv' key = nv key) : Saved L key nv' := by
  unfold Saved
  rw [heq]
  exact h

/-- After `btlink_pro_nv_init` the items hold the configuration. -/
theorem btlinkProNvInit_holds {nv : EnvStore} (h : SavedItems nv) (cfg : Config) :
    Holds (btlinkProNvInit cfg nv).1 (btlinkProNvInit cfg nv).2 := by
  refine ⟨?_, ?_, ?_, ?_⟩
  · simp only [btlinkProNvInit]
    rw [nvInitItem_ne (by decide), nvInitItem_ne (by decide), nvInitItem_ne (by decide)]
    exact nvInitItem_holds h.ips (by decide) (by decide)
  · simp only [btlinkProNvInit]
    rw [nvInitItem_ne (by decide), nvInitItem_ne (by decide)]
    exact nvInitItem_holds (h.apn.of_eq (nvInitItem_ne (by decide))) (by decide) (by decide)
  · simp only [btlinkProNvInit]
    rw [nvInitItem_ne (by decide)]
    refine nvInitItem_holds (h.scs.of_eq ?_) (by decide) (by decide)
    rw [nvInitItem_ne (by decide), nvInitItem_ne (by decide)]
  · simp only [btlinkProNvInit]
    refine nvInitItem_holds (h.lss.of_eq ?_) (by decide) (by decide)
    rw [nvInitItem_ne (by decide), nvInitItem_ne (by decide), nvInitItem_ne (by decide)]

/-- From a store that holds a configuration, `btlink_pro_nv_init` restores just
this configuration, whatever was in memory, and writes nothing. -/
theorem btlinkProNvInit_restores {cfg : Config} {nv : EnvStore} (h : Holds cfg nv) (cfg' : Config) :
    btlinkProNvInit cfg' nv = (cfg, nv) := by
  simp only [btlinkProNvInit]
  rw [nvInitItem_image h.ips (by decide) (by decide), nvInitItem_image h.apn (by decide) (by decide),
    nvInitItem_image h.scs (by decide) (by decide), nvInitItem_image h.lss (by decide) (by decide)]

/-! ## Writing a section back -/

section Write

variable {cfg : Config} {nv : EnvStore}

theorem Holds.ips_write (h : Holds cfg nv) (ips : ConfigIps) :
    Holds { cfg with ips } (btlinkProNvIpsWrite { cfg with ips } nv) where
  ips := nvItemWrite_self ..
  apn := by rw [btlinkProNvIpsWrite, nvItemWrite_ne (by decide), h.apn]
  scs := by rw [btlinkProNvIpsWrite, nvItemWrite_ne (by decide), h.scs]
  lss := by rw [btlinkProNvIpsWrite, nvItemWrite_ne (by decide), h.lss]

theorem Holds.apn_write (h : Holds cfg nv) (apn : ConfigApn) :
    Holds { cfg with apn } (btlinkProNvApnWrite { cfg with apn } nv) where
  ips := by rw [btlinkProNvApnWrite, nvItemWrite_ne (by decide), h.ips]
  apn := nvItemWrite_self ..
  scs := by rw [btlinkProNvApnWrite, nvItemWrite_ne (by decide), h.scs]
  lss := by rw [btlinkProNvApnWrite, nvItemWrite_ne (by decide), h.lss]

theorem Holds.scs_write (h : Holds cfg nv) (scs : ConfigScs) :
    Holds { cfg with scs } (btlinkProNvScsWrite { cfg with scs } nv) where
  ips := by rw [btlinkProNvScsWrite, nvItemWrite_ne (by decide), h.ips]
  apn := by rw [btlinkProNvScsWrite, nvItemWrite_ne (by decide), h.apn]
  scs := nvItemWrite_self ..
  lss := by rw [btlinkProNvScsWrite, nvItemWrite_ne (by decide), h.lss]

theorem Holds.lss_write (h : Holds cfg nv) (lss : ConfigLss) :
    Holds { cfg with lss } (btlinkProNvLssWrite { cfg with lss } nv) where
  ips := by rw [btlinkProNvLssWrite, nvItemWrite_ne (by decide), h.ips]
  apn := by rw [btlinkProNvLssWrite, nvItemWrite_ne (by decide), h.apn]
  scs := by rw [btlinkProNvLssWrite, nvItemWrite_ne (by decide), h.scs]
  lss := nvItemWrite_self ..

end Write

end Petbox.Tracker
