/-
Persistence of the tracker's configuration: no member of a section changes
without `need_save`, so after `btlink_pro_nv_init` the four NV items hold the
bytes of the four sections after every step, and a reset restores them.
-/
import Petbox.Tracker.Command

namespace Petbox.Tracker

open CStr Update

/-! ## Change tests -/

theorem honest_execHost (arg : ArgServer) : Honest (execHost arg) := by
  intro s h
  unfold execHost at h ⊢
  by_cases hmode : arg.mode ≠ s.1.mode
  · -- a new mode always raises the flag
    simp only [if_pos hmode] at h
    split at h
    · exact absurd h (by simp)
    · split at h <;> exact absurd h (by simp)
  · simp only [if_neg hmode] at h ⊢
    by_cases hip : arg.mode = ipsPriIp
    · simp only [if_pos hip] at h ⊢
      split at h
      · next hall => rw [if_pos hall]
      · exact absurd h (by simp)
    · simp only [if_neg hip] at h ⊢
      by_cases hdn : arg.mode = ipsPriDn
      · simp only [if_pos hdn] at h ⊢
        split at h
        · next heq => rw [if_pos heq]
        · exact absurd h (by simp)
      · rw [if_neg hdn]

theorem honest_execPort (arg : ArgServer) : Honest (execPort arg) := honest_assign _ _ _

theorem honest_onPri {u : Update ConfigServer} (hu : Honest u) : Honest (onPri u) :=
  honest_focus hu fun _ => rfl

theorem honest_onSec {u : Update ConfigServer} (hu : Honest u) : Honest (onSec u) :=
  honest_focus hu fun _ => rfl

theorem honest_assignString {n : Nat} (arg : List UInt8) (len : Nat) :
    Honest (assignString arg len : Update (CharArray n)) := by
  intro s h
  unfold assignString at h ⊢
  split at h
  · exact absurd h (by simp)
  · next hc => rw [if_neg hc]

theorem honest_execIps (arg : ArgIps) : Honest (execIps arg) := by
  apply honest_chain
  simp only [List.forall_mem_cons]
  exact ⟨honest_assign _ _ _, honest_assign _ _ _, honest_onPri (honest_execHost _),
    honest_onPri (honest_execPort _), honest_onSec (honest_execHost _), honest_onSec (honest_execPort _),
    List.forall_mem_nil _⟩

theorem honest_execApnRecord (arg : ApnRecord) : Honest (execApnRecord arg) := by
  apply honest_chain
  simp only [List.forall_mem_cons]
  exact ⟨honest_focus (honest_assignString _ _) fun _ => rfl,
    honest_focus (honest_assignString _ _) fun _ => rfl, honest_focus (honest_assignString _ _) fun _ => rfl,
    honest_focus (honest_assignString _ _) fun _ => rfl, List.forall_mem_nil _⟩

theorem honest_execApnIdx (arg : ArgApn) (idx : Nat) : Honest (execApnIdx arg idx) := by
  match idx with
  | 0 => exact honest_focus (honest_execApnRecord _) fun _ => rfl
  | 1 => exact honest_focus (honest_execApnRecord _) fun _ => rfl
  | _ + 2 => exact fun _ _ => rfl

theorem honest_execApn (arg : ArgApn) : Honest (execApn arg) := by
  intro s h
  simp only [execApn] at h ⊢
  have hloop : Honest (chain ((List.range (assign (·.apnQuantity)
      (fun c apnQuantity => { c with apnQuantity }) arg.apnQuantity s).1.apnQuantity.toNat).map
        (execApnIdx arg))) := by
    apply honest_chain
    intro u hu
    obtain ⟨idx, -, rfl⟩ := List.mem_map.1 hu
    exact honest_execApnIdx arg idx
  have hrest := hloop _ h
  rw [hrest] at h ⊢
  exact honest_assign _ _ _ s h

theorem honest_execScs (arg : ArgScs) : Honest (execScs arg) := by
  apply honest_chain
  simp only [List.forall_mem_cons]
  exact ⟨honest_focus (honest_assignString _ _) fun _ => rfl, honest_assign _ _ _, List.forall_mem_nil _⟩

theorem honest_execLss (arg : ArgLss) : Honest (execLss arg) := by
  apply honest_chain
  simp only [List.forall_mem_cons]
  exact ⟨honest_assign _ _ _, honest_assign _ _ _, honest_assign _ _ _,
    honest_focus (honest_assignString _ _) fun _ => rfl, honest_assign _ _ _, honest_assign _ _ _,
    honest_assign _ _ _, honest_assign _ _ _, honest_assign _ _ _, honest_assign _ _ _, honest_assign _ _ _,
    honest_assign _ _ _, honest_assign _ _ _, List.forall_mem_nil _⟩

/-! ## One step -/

section Step

variable {τ : Type} {os : OsTimer τ} {t : Device τ}

/-- The NV items hold the configuration. -/
def Persistent (t : Device τ) : Prop := Holds t.config t.nv

theorem Persistent.cmdExecIps (h : Persistent t) (arg : ArgIps) : Persistent (cmdExecIps arg t) := by
  simp only [Persistent, Tracker.cmdExecIps]
  cases hsave : (execIps arg (t.config.ips, false)).2 with
  | true => exact h.ips_write _
  | false =>
    rw [(honest_execIps arg).fst hsave]
    exact h

theorem Persistent.cmdExecApn (h : Persistent t) (arg : ArgApn) : Persistent (cmdExecApn arg t) := by
  simp only [Persistent, Tracker.cmdExecApn]
  cases hsave : (execApn arg (t.config.apn, false)).2 with
  | true => exact h.apn_write _
  | false =>
    rw [(honest_execApn arg).fst hsave]
    exact h

theorem Persistent.cmdExecScs (h : Persistent t) (arg : ArgScs) : Persistent (cmdExecScs arg t) := by
  simp only [Persistent, Tracker.cmdExecScs]
  cases hsave : (execScs arg (t.config.scs, false)).2 with
  | true => exact h.scs_write _
  | false =>
    rw [(honest_execScs arg).fst hsave]
    exact h

theorem Persistent.cmdExecLss (h : Persistent t) (arg : ArgLss) : Persistent (cmdExecLss os arg t) := by
  simp only [Persistent, Tracker.cmdExecLss]
  cases hsave : (execLss arg (t.config.lss, false)).2 with
  | true => exact h.lss_write _
  | false =>
    rw [(honest_execLss arg).fst hsave]
    exact h

theorem Persistent.cmdExec (h : Persistent t) (arg : DnlnkArg) : Persistent (cmdExec os t arg) := by
  cases arg with
  | ips arg => exact h.cmdExecIps arg
  | apn arg => exact h.cmdExecApn arg
  | scs arg => exact h.cmdExecScs arg
  | lss arg => exact h.cmdExecLss arg
  | rth subCommand => exact h

/-- A reset restores the very configuration. -/
theorem Persistent.powerOn_config (h : Persistent t) : (powerOn os t.nv).config = t.config :=
  congrArg Prod.fst (btlinkProNvInit_restores h zeroConfig)

/-- Every step keeps the items equal to the configuration. -/
theorem Persistent.step (h : Persistent t) {a : Action} {t' : Device τ} (hs : step os t a = some t') :
    Persistent t' := by
  cases happens_of_step os hs with
  | mode => exact h
  | frame => exact h.cmdExec _
  | expiration => exact h
  | reset =>
    unfold Persistent powerOn
    rw [btlinkProNvInit_restores h]
    exact h

end Step

/-! ## Whole runs -/

variable {τ : Type} (os : OsTimer τ)

/-- **The configuration survives a reset at any time.** Whatever the items held
when the device was first switched on, as long as it was saved by this
firmware: after any sequence of lines, timer expirations and resets the four
items are the bytes of the four sections, and a reset now leads back to the
same configuration. -/
theorem configuration_persists {nv : EnvStore} (hnv : SavedItems nv) {actions : List Action} {t : Device τ}
    (hrun : Machine.exec (step os) (powerOn os nv) actions = some t) :
    t.nv nvBtIps = some (Layouts.ips.encode t.config.ips) ∧
    t.nv nvBtApn = some (Layouts.apn.encode t.config.apn) ∧
    t.nv nvBtScs = some (Layouts.scs.encode t.config.scs) ∧
    t.nv nvBtLss = some (Layouts.lss.encode t.config.lss) ∧
    (powerOn os t.nv).config = t.config ∧ (powerOn os t.nv).nv = t.nv := by
  have start : Persistent (powerOn os nv) := btlinkProNvInit_holds hnv zeroConfig
  have h : Persistent t := Machine.exec_inv (fun _ _ _ h hs => h.step hs) start hrun
  exact ⟨h.ips, h.apn, h.scs, h.lss, h.powerOn_config, congrArg Prod.snd (btlinkProNvInit_restores h zeroConfig)⟩

/-- A timer that is started and stopped whenever it is asked to. -/
def plainTimer : OsTimer Bool where
  idle := false
  start _ := (true, true)
  stop _ := (true, false)
  expire running := if running then some false else none

/-- A line in memory, followed by zeros. -/
def lineAction (s : String) : Action :=
  .line (fun i => (ascii s).getD i 0) s.length fun _ => 0

/-- A new device whose password is changed, and which is then reset. -/
theorem configuration_persists_password :
    ∃ t, Machine.exec (step plainTimer) (powerOn plainTimer fun _ => none)
        [lineAction "AT@SCS=btl100,secret,,,,,,0001#", .reboot] = some t ∧
      t.nv nvBtScs = some (Layouts.scs.encode t.config.scs) ∧ (powerOn plainTimer t.nv).config = t.config := by
  obtain ⟨t, ht⟩ : ∃ t, Machine.exec (step plainTimer) (powerOn plainTimer fun _ => none)
      [lineAction "AT@SCS=btl100,secret,,,,,,0001#", .reboot] = some t := ⟨_, rfl⟩
  have h := configuration_persists plainTimer ⟨.inl rfl, .inl rfl, .inl rfl, .inl rfl⟩ ht
  exact ⟨t, ht, h.2.2.1, h.2.2.2.2.1⟩

end Petbox.Tracker
