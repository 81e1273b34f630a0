/-
What an executed frame changes (`btlink_cmd_exec`): in the section of its type
the numbers become the arguments, and so do the strings that are not empty; an
empty string leaves its array as it is. The APN records from the new quantity on
are not looked at. Nothing else changes.

The password of `AT@SCS` goes from an array of 32 bytes to one of 20: it fits
because the parser takes no longer one.
-/
import Petbox.Tracker.WellFormed

namespace Petbox.Tracker

open CStr Mem Update
open Reader hiding chain_nil chain_cons

/-! ## What a section becomes -/

/-- An array after a string argument. -/
def StringSet {m n : Nat} (arg : CharArray m) (old new : CharArray n) : Prop :=
  if arg.str = [] then new = old else new.str = arg.str

/-- The arrays at one index. -/
structure RecordSet (arg old new : ApnRecord) : Prop where
  mccMnc : StringSet arg.mccMnc old.mccMnc new.mccMnc
  apnName : StringSet arg.apnName old.apnName new.apnName
  apnUserName : StringSet arg.apnUserName old.apnUserName new.apnUserName
  apnPassword : StringSet arg.apnPassword old.apnPassword new.apnPassword

/-- The arrays after the passes of the loop for the indices below `k`. -/
structure RecordsSet (arg old new : ConfigApn) (k : Nat) : Prop where
  first : if 0 < k then RecordSet arg.first old.first new.first else new.first = old.first
  second : if 1 < k then RecordSet arg.second old.second new.second else new.second = old.second

/-- The section of `AT@APN`. -/
structure ApnSet (arg : ArgApn) (old new : ConfigApn) : Prop where
  apnQuantity : new.apnQuantity = arg.apnQuantity
  records : RecordsSet arg old new arg.apnQuantity.toNat

/-- The section of `AT@SCS`. -/
structure ScsSet (arg : ArgScs) (old new : ConfigScs) : Prop where
  devPassword : StringSet arg.devPassword old.devPassword new.devPassword
  dataZoneMask : new.dataZoneMask = arg.dataZoneMask

/-- The section of `AT@LSS`, which has one string. -/
structure LssSet (arg : ArgLss) (old new : ConfigLss) : Prop where
  specTimeOfDay : StringSet arg.specTimeOfDay old.specTimeOfDay new.specTimeOfDay
  numbers : new = { arg with specTimeOfDay := new.specTimeOfDay }

/-- The configuration after a frame with these arguments: one section is set, and
the other three are what they were. -/
inductive FrameSet : DnlnkArg → Config → Config → Prop
  | ips (arg : ArgIps) (old : Config) (ips : ConfigIps) : FrameSet (.ips arg) old { old with ips }
  | apn {arg : ArgApn} {old : Config} {apn : ConfigApn} : ApnSet arg old.apn apn →
      FrameSet (.apn arg) old { old with apn }
  | scs {arg : ArgScs} {old : Config} {scs : ConfigScs} : ScsSet arg old.scs scs →
      FrameSet (.scs arg) old { old with scs }
  | lss {arg : ArgLss} {old : Config} {lss : ConfigLss} : LssSet arg old.lss lss →
      FrameSet (.lss arg) old { old with lss }
  | rth (subCommand : UInt8) (old : Config) : FrameSet (.rth subCommand) old old

/-! ## Strings -/

/-- The change test and the copy, when the argument fits the array. -/
theorem stringSet_assign {m n : Nat} {arg : CharArray m} (hfits : arg.str.length ≤ n) (s : CharArray n × Bool) :
    StringSet arg s.1 (assignString arg.bytes n s).1 := by
  have hstr : (assignString arg.bytes n s).1.str = if arg.str = [] then s.1.str else cstr (arg.bytes.take n) :=
    str_assignString arg.bytes s
  unfold StringSet
  by_cases hnil : arg.str = []
  · rw [if_pos hnil]
    unfold assignString
    rw [if_neg fun h => h.1 hnil]
  · rw [if_neg hnil]
    rw [if_neg hnil, cstr_take] at hstr
    exact hstr.trans (List.take_of_length_le hfits)

/-- Between arrays of one size every argument fits. -/
theorem stringSet_same {n : Nat} (arg : CharArray n) (s : CharArray n × Bool) :
    StringSet arg s.1 (assignString arg.bytes n s).1 :=
  stringSet_assign (Nat.le_trans (length_cstr_le _) (Nat.le_of_eq arg.size)) s

/-! ## Sections -/

theorem recordSet_exec (arg : ApnRecord) (s : ApnRecord × Bool) : RecordSet arg s.1 (execApnRecord arg s).1 where
  mccMnc := stringSet_same arg.mccMnc _
  apnName := stringSet_same arg.apnName _
  apnUserName := stringSet_same arg.apnUserName _
  apnPassword := stringSet_same arg.apnPassword _

/-- One more pass. -/
theorem RecordsSet.pass {arg old : ConfigApn} {k : Nat} {s : ConfigApn × Bool} (h : RecordsSet arg old s.1 k) :
    RecordsSet arg old (execApnIdx arg k s).1 (k + 1) ∧ (execApnIdx arg k s).1.apnQuantity = s.1.apnQuantity := by
  cases k with
  | zero =>
    have hfirst : s.1.first = old.first := h.first
    have hset : RecordSet arg.first s.1.first (execApnIdx arg 0 s).1.first := recordSet_exec arg.first (s.1.first, s.2)
    rw [hfirst] at hset
    exact ⟨⟨hset, h.second⟩, rfl⟩
  | succ k =>
    have hfirst : RecordSet arg.first old.first s.1.first := h.first
    cases k with
    | zero =>
      have hsecond : s.1.second = old.second := h.second
      have hset : RecordSet arg.second s.1.second (execApnIdx arg 1 s).1.second :=
        recordSet_exec arg.second (s.1.second, s.2)
      rw [hsecond] at hset
      exact ⟨⟨hfirst, hset⟩, rfl⟩
    | succ k =>
      -- the arrays have two rows
      have hsecond : RecordSet arg.second old.second s.1.second := by
        have h1 := h.second
        rwa [if_pos (by omega)] at h1
      have hnew : RecordsSet arg old s.1 (k + 3) := by
        constructor
        · rwa [if_pos (by omega)]
        · rwa [if_pos (by omega)]
      exact ⟨hnew, rfl⟩

theorem RecordsSet.passes {arg old : ConfigApn} {s : ConfigApn × Bool} (h : RecordsSet arg old s.1 0) (k : Nat) :
    RecordsSet arg old (chain ((List.range k).map (execApnIdx arg)) s).1 k ∧
      (chain ((List.range k).map (execApnIdx arg)) s).1.apnQuantity = s.1.apnQuantity := by
  induction k with
  | zero => exact ⟨h, rfl⟩
  | succ k ih =>
    rw [List.range_succ, List.map_append, List.map_singleton, chain_snoc]
    have hpass := ih.1.pass
    exact ⟨hpass.1, hpass.2.trans ih.2⟩

theorem apnSet_exec (arg : ArgApn) (old : ConfigApn) : ApnSet arg old (execApn arg (old, false)).1 := by
  unfold execApn
  simp only
  have hquantity : (assign (fun c : ConfigApn => c.apnQuantity) (fun c apnQuantity => { c with apnQuantity })
      arg.apnQuantity (old, false)).1 = { old with apnQuantity := arg.apnQuantity } := assign_fst (fun _ => rfl) _ _
  generalize assign (fun c : ConfigApn => c.apnQuantity) (fun c apnQuantity => { c with apnQuantity }) arg.apnQuantity
    (old, false) = s at hquantity ⊢
  have hstart : RecordsSet arg old s.1 0 := by
    rw [hquantity]
    exact ⟨rfl, rfl⟩
  have hcount : s.1.apnQuantity = arg.apnQuantity := by rw [hquantity]
  obtain ⟨hrecords, hkeep⟩ := hstart.passes s.1.apnQuantity.toNat
  refine ⟨hkeep.trans hcount, ?_⟩
  rwa [← hcount]

theorem scsSet_exec {arg : ArgScs} (hfits : arg.devPassword.str.length ≤ lenScsPassword) (old : ConfigScs) :
    ScsSet arg old (execScs arg (old, false)).1 := by
  rw [execScs_fst]
  exact ⟨stringSet_assign hfits (old.devPassword, false), rfl⟩

theorem lssSet_exec (arg : ArgLss) (old : ConfigLss) : LssSet arg old (execLss arg (old, false)).1 := by
  rw [execLss_fst]
  exact ⟨stringSet_same arg.specTimeOfDay (old.specTimeOfDay, false), rfl⟩

/-! ## Frames -/

/-- The parser takes no new password that is longer than the array. -/
theorem newPassword_fits : Lang.Ensures FieldText (fieldLang lenScsPassword checkNewPassword) fun a =>
    a.str.length ≤ lenScsPassword := by
  refine .one fun f a hf h => ?_
  have hlen : f.length ≤ lenScsPassword := h.1.resolve_left (by decide)
  have hstr := str_strncpy_zero (n := maxApnPasswordLen) hf.text hlen (by decide)
  have ha : a = (CharArray.zero maxApnPasswordLen).strncpy f lenScsPassword := by
    have hv := h.2
    simp only [checkNewPassword] at hv
    split at hv
    · split at hv
      · exact (Option.some.inj hv).symm
      · cases hv
    · split at hv
      · cases hv
      · exact (Option.some.inj hv).symm
  rwa [ha, hstr]

theorem scs_fits (cfg : ConfigScs) :
    Lang.Ensures FieldText (scsLang cfg) fun r => r.2.devPassword.str.length ≤ lenScsPassword := by
  refine Lang.Ensures.of_bind fun _ => ?_
  refine newPassword_fits.bind fun _ hpassword => ?_
  refine Lang.Ensures.of_bind fun _ => ?_
  exact Lang.Ensures.of_bind fun _ => .pure hpassword

section Frames

variable {τ : Type} {os : OsTimer τ} {t : Device τ}

/-- **The effect of a frame.** Whatever the configuration, and whatever frame was
parsed, its execution sets the section of its type, and nothing else. -/
theorem frame_effect {cfg : Config} {content : List UInt8} {len : Nat} {past : Nat → UInt8} {frame : ParsedFrame}
    (h : parseDnlnkFrame cfg (rawDnlnkFrame content len past) = some frame) :
    FrameSet frame.arg t.config (cmdExec os t frame.arg).config := by
  have hraw : (rawDnlnkFrame content len past).length < 256 := Nat.mod_lt _ (by decide)
  obtain ⟨-, -, type, -, fs, q, r, hfs, hlang, -⟩ := (parseDnlnkFrame_iff hraw).1 h
  generalize frame.arg = arg at hlang ⊢
  cases arg with
  | ips arg => exact .ips arg t.config _
  | apn arg => exact .apn (apnSet_exec arg t.config.apn)
  | scs arg =>
    have hfits : arg.devPassword.str.length ≤ lenScsPassword := by
      cases type with
      | scs =>
        obtain ⟨r, gs, _, rfl, hgs, rfl, hv⟩ := hlang
        obtain ⟨-, harg⟩ := Prod.mk.inj hv
        cases harg
        rw [List.append_nil] at hfs
        exact scs_fits cfg.scs gs r (fields_text hfs) hgs
      | ips | apn | lss | rth =>
        obtain ⟨_, _, _, rfl, -, arg, gs, _, rfl, hgs, rfl, hv⟩ := hlang
        cases (Prod.mk.inj hv).2
    exact .scs (scsSet_exec hfits t.config.scs)
  | lss arg => exact .lss (lssSet_exec arg t.config.lss)
  | rth subCommand => exact .rth subCommand t.config

end Frames

/-- An APN record for a new device. -/
theorem frame_effect_apn :
    ∃ frame, parseDnlnkFrame (powerOn plainTimer fun _ => none).config
        (rawDnlnkFrame (ascii "AT@APN=btl100,1,46000,cmnet,,,,,,,0001#") 39 fun _ => 0) = some frame ∧
      FrameSet frame.arg (powerOn plainTimer fun _ => none).config
        (cmdExec plainTimer (powerOn plainTimer fun _ => none) frame.arg).config := by
  obtain ⟨frame, hframe⟩ : ∃ frame, parseDnlnkFrame (powerOn plainTimer fun _ => none).config
      (rawDnlnkFrame (ascii "AT@APN=btl100,1,46000,cmnet,,,,,,,0001#") 39 fun _ => 0) = some frame :=
    Option.isSome_iff_exists.1 (by decide +kernel)
  exact ⟨frame, hframe, frame_effect hframe⟩

end Petbox.Tracker
