/-
The command table, which is searched twice for every line: `rmmi_is_btlink_cmd`
compares each name from its first character on, `parseCommandBuffer` from where
the name before it failed.
-/
import Petbox.Lib.Lookup
import Petbox.Tracker.Persist

namespace Petbox.Tracker

open CStr Lookup

/-- An entry of `g_btlink_at_cmd_table`. -/
abbrev CmdEntry := List UInt8 × CmdFunc

/-- The length of the name. -/
def CmdEntry.size (e : CmdEntry) : Nat := e.1.length

/-- A character of the name and one of the line, two places behind, without
regard to case. -/
def agrees (character : Nat → UInt8) (e : CmdEntry) (i : Nat) : Bool :=
  decide (toUpper (e.1.getD i 0) = toUpper (character (i + 2)))

/-- The name follows the two characters of the prefix. -/
abbrev Names (character : Nat → UInt8) (e : CmdEntry) : Prop := Whole CmdEntry.size (agrees character) e

section Call

variable {τ : Type} (os : OsTimer τ) (t : Device τ) (line : List UInt8) (past : Nat → UInt8)

/-- The call of an entry's function. -/
def callEntry (e : CmdEntry) : CmdParseResult × Device τ × List Output :=
  match e.2 with
  | .vgDebug => vgDebug t line e.1.length
  | .rmmiProtocolCmdEntry => rmmiProtocolCmdEntry os t line e.1.length past

/-- Both searches find the first entry whose name is there, and nothing when
there is none; its function is called. -/
structure LookupAgrees : Prop where
  entry : lookupCmd (charAt line) 0 btlinkAtCmdTable = btlinkAtCmdTable.find? (Names (charAt line) ·)
  call : parseCommandBuffer os t line past =
    ((btlinkAtCmdTable.find? (Names (charAt line) ·)).map (callEntry os t line past)).getD (.cmdNotSupport, t, [])
  accepted : rmmiIsBtlinkCmd (charAt line) = true ↔ (lookupCmd (charAt line) 0 btlinkAtCmdTable).isSome

end Call

/-! ## The searches -/

variable {character : Nat → UInt8}

theorem scanName_eq (e : CmdEntry) (n i : Nat) : scanName e.1 character n i = scan (agrees character e) n i := by
  induction n generalizing i with
  | zero => rfl
  | succ n ih =>
    unfold scanName scan agrees
    by_cases h : toUpper (e.1.getD i 0) = toUpper (character (i + 2))
    · rw [if_neg (not_not.2 h), if_pos (decide_eq_true h)]
      exact ih (i + 1)
    · rw [if_pos h, if_neg (by rw [decide_eq_false h]; exact Bool.false_ne_true)]

theorem lookupCmd_eq (i : Nat) (table : List CmdEntry) :
    lookupCmd character i table = carry CmdEntry.size (agrees character) i table := by
  induction table generalizing i with
  | nil => rfl
  | cons e es ih =>
    rw [lookupCmd, carry, scanName_eq, ih]
    rfl

/-- `rmmi_is_btlink_cmd` finds the names. -/
theorem rmmiIsBtlinkCmd_iff : rmmiIsBtlinkCmd character = true ↔ ∃ e ∈ btlinkAtCmdTable, Names character e := by
  rw [rmmiIsBtlinkCmd, List.any_eq_true]
  refine exists_congr fun e => and_congr_right fun _ => ?_
  rw [scanName_eq, scan_iff]
  constructor
  · exact fun h k hk => h k (Nat.zero_le k) (by rw [Nat.zero_add]; exact hk)
  · exact fun h k _ hk => h k (by rw [Nat.zero_add] at hk; exact hk)

/-- The letters behind the `@` are all different. -/
theorem table_letters : btlinkAtCmdTable.Pairwise fun d e =>
    1 < d.1.length ∧ 1 < e.1.length ∧ toUpper (d.1.getD 1 0) ≠ toUpper (e.1.getD 1 0) := by decide

/-- In front of a name that is there, all names fail at their letter. -/
theorem earlier_fails {pre post : List CmdEntry} {e : CmdEntry} (htable : btlinkAtCmdTable = pre ++ e :: post)
    (h : Names character e) : ∀ d ∈ pre, 1 < d.size ∧ agrees character d 1 = false := by
  intro d hd
  have hpair := table_letters
  rw [htable, List.pairwise_append] at hpair
  obtain ⟨hlen, hlen', hne⟩ := hpair.2.2 d hd e (List.mem_cons_self ..)
  refine ⟨hlen, decide_eq_false fun heq => hne ?_⟩
  rw [heq]
  exact (of_decide_eq_true (h 1 hlen')).symm

/-- A name that is there is found by both. -/
theorem lookup_named {e : CmdEntry} (he : e ∈ btlinkAtCmdTable) (h : Names character e) :
    lookupCmd character 0 btlinkAtCmdTable = some e ∧
      btlinkAtCmdTable.find? (Names character ·) = some e := by
  obtain ⟨pre, post, htable⟩ := List.append_of_mem he
  have hpre := earlier_fails htable h
  refine ⟨?_, ?_⟩
  · rw [lookupCmd_eq, htable]
    exact carry_whole h hpre (Nat.zero_le 1)
  · rw [htable]
    refine List.find?_eq_some_iff_append.2 ⟨decide_eq_true h, pre, post, rfl, fun d hd => ?_⟩
    obtain ⟨hlen, hfail⟩ := hpre d hd
    rw [Bool.not_eq_true', decide_eq_false_iff_not]
    intro hnames
    rw [hnames 1 hlen] at hfail
    exact nomatch hfail

section Agreement

variable {τ : Type} {os : OsTimer τ} {t : Device τ} {line : List UInt8} {past : Nat → UInt8}

theorem parseCommandBuffer_eq : parseCommandBuffer os t line past =
    ((lookupCmd (charAt line) 0 btlinkAtCmdTable).map (callEntry os t line past)).getD (.cmdNotSupport, t, []) := by
  unfold parseCommandBuffer
  by_cases hlen : 0 < line.length
  · rw [if_pos hlen]
    cases lookupCmd (charAt line) 0 btlinkAtCmdTable with
    | none => rfl
    | some e =>
      obtain ⟨name, f⟩ := e
      cases f with
      | vgDebug => rfl
      | rmmiProtocolCmdEntry => rfl
  · obtain rfl := List.eq_nil_of_length_eq_zero (Nat.le_zero.1 (Nat.not_lt.1 hlen))
    have hnone : lookupCmd (charAt []) 0 btlinkAtCmdTable = none := by decide
    rw [if_neg hlen, hnone]
    rfl

/-- **The two searches agree exactly when a name is there, or not even one pieced
together from several.** -/
theorem lookupAgrees_iff (os : OsTimer τ) (t : Device τ) (line : List UInt8) (past : Nat → UInt8) :
    LookupAgrees os t line past ↔ (∃ e ∈ btlinkAtCmdTable, Names (charAt line) e) ∨
      ¬ Pieced CmdEntry.size (agrees (charAt line)) 0 btlinkAtCmdTable := by
  rw [← carry_isSome_iff, ← lookupCmd_eq]
  by_cases hnamed : ∃ e ∈ btlinkAtCmdTable, Names (charAt line) e
  · obtain ⟨e, he, h⟩ := hnamed
    obtain ⟨hlookup, hfind⟩ := lookup_named he h
    refine iff_of_true ⟨?_, ?_, ?_⟩ (.inl ⟨e, he, h⟩)
    · rw [hlookup, hfind]
    · rw [parseCommandBuffer_eq, hlookup, hfind]
    · rw [hlookup]
      exact iff_of_true (rmmiIsBtlinkCmd_iff.2 ⟨e, he, h⟩) rfl
  · have hfind : btlinkAtCmdTable.find? (Names (charAt line) ·) = none := by
      refine List.find?_eq_none.2 fun e he h => hnamed ⟨e, he, of_decide_eq_true h⟩
    rw [or_iff_right hnamed]
    constructor
    · intro h hsome
      rw [h.entry, hfind] at hsome
      exact nomatch hsome
    · intro hnone
      rw [Option.not_isSome_iff_eq_none] at hnone
      refine ⟨?_, ?_, ?_⟩
      · rw [hnone, hfind]
      · rw [parseCommandBuffer_eq, hnone, hfind]
      · rw [hnone, rmmiIsBtlinkCmd_iff]
        exact iff_of_false hnamed Bool.false_ne_true

end Agreement

/-- `AT@DPS` goes to the entry of `@IPS`: the `@` and the `D` are the debug
command's, and only the rest is compared with `@IPS`. -/
theorem dps_dispatched :
    ¬ LookupAgrees plainTimer (powerOn plainTimer fun _ => none) (ascii "AT@DPS?\"gnss\"") fun _ => 0 := by
  intro h
  exact absurd h.entry (by decide +kernel)

end Petbox.Tracker
