/-
The minute timer (`btlink_timer.c`): it should run just when a send interval is
set. The change handler of the interval takes what `btlink_stop_min_timer`
returns for true when the timer was stopped, but it is 0 then, so a timer that
was to be started again stays stopped.
-/
import Petbox.Tracker.FrameText

namespace Petbox.Tracker

open CStr Mem Update Reader Machine

/-! ## Runs -/

/-- An operating system whose starts and stops succeed, and whose one-shot timers
expire only while they run. -/
structure Reliable {τ : Type} (os : OsTimer τ) (running : τ → Prop) : Prop where
  start : ∀ x, (os.start x).1 = true ∧ running (os.start x).2
  stop : ∀ x, (os.stop x).1 = true ∧ ¬ running (os.stop x).2
  expire : ∀ x y, os.expire x = some y → running x ∧ ¬ running y

/-- What can happen: an `AT@LSS` frame is accepted, or the timer expires. -/
inductive TimerAction
  | lss (content : List UInt8) (len : Nat) (past : Nat → UInt8)
  | minTimer

section Run

variable {τ : Type} (os : OsTimer τ)

/-- One step of such a run. -/
def timerStep (t : Device τ) : TimerAction → Option (Device τ)
  | .lss content len past =>
    if slice (rawDnlnkFrame content len past).data 3 lenHeader = FrameHeader.lss.str ∧
        (checkAndExecProtocol os t content len past).1 = true then
      some (checkAndExecProtocol os t content len past).2
    else none
  | .minTimer => (os.expire t.minTimer).map fun minTimer => minTimerCallback os { t with minTimer }

variable (running : τ → Prop)

/-- The timer runs just when there is a send interval. -/
def TimerMatches (t : Device τ) : Prop := running t.minTimer ↔ t.config.lss.continueSendInterval ≠ 0

/-- It does after the step. -/
def MatchesAfter (t : Device τ) (a : TimerAction) : Prop :=
  ∀ t', timerStep os t a = some t' → TimerMatches running t'

end Run

/-- The frame does not change an interval that is set to another one: its third
field is empty, zero, or the interval there is. -/
def IntervalKept {τ : Type} (t : Device τ) : TimerAction → Prop
  | .lss content len past =>
    let field := (fieldsOf (textAt (rawDnlnkFrame content len past) 7)).getD 2 []
    t.config.lss.continueSendInterval = 0 ∨ field = [] ∨ decimal field = 0 ∨
      decimal field = t.config.lss.continueSendInterval.toNat
  | .minTimer => True

/-! ## The interval of a frame -/

/-- The interval of a section. -/
def IntervalIs (v : UInt16) (c : ConfigLss) : Prop := c.continueSendInterval = v

theorem execLss_interval (arg : ArgLss) (s : ConfigLss × Bool) :
    IntervalIs arg.continueSendInterval (execLss arg s).1 := by
  rw [execLss_fst]
  rfl

/-- The third field of an accepted `AT@LSS` frame names the interval. -/
theorem lss_interval_named {cfg : Config} {raw : RawFrame} (hraw : raw.length < 256) {frame : ParsedFrame}
    (h : parseDnlnkFrame cfg raw = some frame) (htype : slice raw.data 3 lenHeader = FrameHeader.lss.str) :
    ∃ arg, frame.arg = .lss arg ∧ NumberNamed ((fieldsOf (textAt raw 7)).getD 2 [])
      cfg.lss.continueSendInterval.toNat arg.continueSendInterval.toNat := by
  obtain ⟨-, -, type, htype', fs, q, r, hfs, hlang, -⟩ := (parseDnlnkFrame_iff hraw).1 h
  obtain rfl : type = .lss := by
    have heq := htype'.symm.trans htype
    cases type with
    | lss => rfl
    | ips | apn | scs | rth => exact absurd heq (by decide)
  obtain ⟨_, _, _, rfl, ⟨password, rfl, -⟩, arg, gs, _, rfl, hgs, rfl, hv⟩ := hlang
  obtain ⟨mode, _, _, rfl, ⟨g, rfl, -⟩, interval, _, rest, rfl, ⟨f, rfl, hfits, hnum⟩, hrest⟩ := hgs
  refine ⟨arg, (Prod.mk.inj hv).2, ?_⟩
  have harg : IntervalIs interval arg := by
    refine Lang.Ensures.of_bind (T := fun _ => True) (fun _ => ?_) rest arg (fun _ _ => trivial) hrest
    refine .of_bind fun _ => .of_bind fun _ => .of_bind fun _ => .of_bind fun _ => .of_bind fun _ => ?_
    refine .of_bind fun _ => .of_bind fun _ => .of_bind fun _ => .of_bind fun _ => .of_bind fun _ => ?_
    exact .of_bind fun _ => .of_bind fun _ => .pure rfl
  have hfield := hfs.eq_fieldsOf (k := 2) (by simp)
  rw [← hfield, show arg.continueSendInterval = interval from harg]
  have hlen : f.length ≤ 4 := hfits.resolve_left (by decide)
  have hnamed : NumberNamed f cfg.lss.continueSendInterval.toNat interval.toNat :=
    hnum.named UInt16.toNat (toNat_ofInt_decimal hlen)
  exact hnamed

/-! ## One step -/

section Step

variable {τ : Type} {os : OsTimer τ} {running : τ → Prop} {t : Device τ}

/-- What the change handler leaves of the timer. -/
theorem handler_matches (hos : Reliable os running) {old : UInt16} (new : UInt16) :
    running (conSendIntervalChangeHdlr os old new t).minTimer ↔ old = 0 := by
  have hstart := (hos.start t.minTimer).2
  have hstop := hos.stop t.minTimer
  simp only [conSendIntervalChangeHdlr]
  by_cases hold : old = 0
  · rw [if_pos hold]
    exact iff_of_true hstart hold
  · rw [if_neg hold]
    refine iff_of_false ?_ hold
    split
    · exact hstop.2
    · -- the timer was stopped, and the handler takes 0 for a failure
      have hzero : (stopMinTimer os t.minTimer).1 = 0 := if_pos hstop.1
      rw [if_neg (not_not.2 hzero)]
      exact hstop.2

theorem cmdExecLss_interval (arg : ArgLss) :
    IntervalIs arg.continueSendInterval (cmdExecLss os arg t).config.lss := by
  have h := execLss_interval arg (t.config.lss, false)
  unfold cmdExecLss
  generalize execLss arg (t.config.lss, false) = r at h
  exact h

theorem cmdExecLss_matches (hos : Reliable os running) (ht : TimerMatches running t) (arg : ArgLss) :
    TimerMatches running (cmdExecLss os arg t) ↔ t.config.lss.continueSendInterval = 0 ∨
      arg.continueSendInterval = 0 ∨ arg.continueSendInterval = t.config.lss.continueSendInterval := by
  have hnew : IntervalIs arg.continueSendInterval (cmdExecLss os arg t).config.lss := cmdExecLss_interval arg
  unfold TimerMatches at ht ⊢
  unfold IntervalIs at hnew
  rw [hnew]
  by_cases hsame : t.config.lss.continueSendInterval = arg.continueSendInterval
  · have htimer : (cmdExecLss os arg t).minTimer = t.minTimer := by
      simp only [cmdExecLss]
      rw [if_neg (not_not.2 hsame)]
    rw [htimer, ht, hsame]
    simp
  · have htimer : (cmdExecLss os arg t).minTimer =
        (conSendIntervalChangeHdlr os t.config.lss.continueSendInterval arg.continueSendInterval t).minTimer := by
      simp only [cmdExecLss]
      rw [if_pos hsame]
    rw [htimer, handler_matches hos]
    constructor
    · intro h
      by_cases hold : t.config.lss.continueSendInterval = 0
      · exact .inl hold
      · exact .inr (.inl (not_not.1 fun hne => hold (h.2 hne)))
    · intro h
      rcases h with h | h | h
      · exact iff_of_true h fun hz => hsame (h.trans hz.symm)
      · exact iff_of_false (fun hz => hsame (hz.trans h.symm)) (not_not.2 h)
      · exact absurd h.symm hsame

theorem matchesAfter_iff (hos : Reliable os running) {a : TimerAction} {t' : Device τ} (ht : TimerMatches running t)
    (hstep : timerStep os t a = some t') : MatchesAfter os running t a ↔ IntervalKept t a := by
  have hafter : MatchesAfter os running t a ↔ TimerMatches running t' :=
    ⟨fun h => h t' hstep, fun h u hu => Option.some.inj (hstep.symm.trans hu) ▸ h⟩
  rw [hafter]
  cases a with
  | lss content len past =>
    simp only [timerStep] at hstep
    split at hstep
    · next hacc =>
      obtain ⟨frame, hparse, hstate⟩ := checkAndExecProtocol_true os hacc.2
      have hraw : (rawDnlnkFrame content len past).length < 256 := Nat.mod_lt _ (by decide)
      obtain ⟨arg, harg, hnamed⟩ := lss_interval_named hraw hparse hacc.1
      rw [hstate, harg, Option.some.injEq] at hstep
      rw [← hstep]
      refine (cmdExecLss_matches hos ht arg).trans ?_
      unfold NumberNamed at hnamed
      simp only [IntervalKept, ← UInt16.toNat_inj, UInt16.reduceToNat]
      split at hnamed
      · next hnil => exact iff_of_true (.inr (.inr hnamed)) (.inr (.inl hnil))
      · next hnil =>
        rw [hnamed]
        simp only [hnil, false_or]
    · exact absurd hstep (by simp)
  | minTimer =>
    simp only [timerStep, Option.map_eq_some_iff] at hstep
    obtain ⟨timer, hexp, rfl⟩ := hstep
    refine iff_of_true ?_ trivial
    -- it ran, so there is an interval, and the callback starts it again
    have hset := ht.1 (hos.expire _ _ hexp).1
    exact iff_of_true (hos.start timer).2 hset

/-- **When the minute timer runs just while there is a send interval**: in a run
of accepted `AT@LSS` frames and expirations that starts so, it does after every
step if and only if no frame changes an interval that is set to another one
that is not zero. -/
theorem minTimer_matches_iff (hos : Reliable os running) (ht : TimerMatches running t) {as : List TimerAction}
    {t' : Device τ} (hrun : exec (timerStep os) t as = some t') :
    Along (timerStep os) (MatchesAfter os running) t as ↔ Along (timerStep os) IntervalKept t as := by
  refine exec_along_iff ht hrun (fun s a s' hs hc hstep => ?_) fun s a s' hs hstep => matchesAfter_iff hos hs hstep
  exact (matchesAfter_iff hos hs hstep).2 hc s' hstep

end Step

theorem plainTimer_reliable : Reliable plainTimer (· = true) where
  start _ := ⟨rfl, rfl⟩
  stop _ := ⟨rfl, Bool.false_ne_true⟩
  expire x y h := by
    cases x with
    | false => exact absurd h (by simp [plainTimer])
    | true => exact ⟨rfl, by simpa [plainTimer] using h.symm⟩

/-- A new device whose minute timer was started. -/
def timed : Device Bool := { powerOn plainTimer fun _ => none with minTimer := true }

theorem timed_matches : TimerMatches (· = true) timed := by
  have hset : timed.config.lss.continueSendInterval ≠ 0 := by decide +kernel
  exact iff_of_true rfl hset

/-- A frame that sets the interval. -/
def intervalFrame (interval : String) : TimerAction :=
  .lss (ascii ("AT@LSS=btl100,," ++ interval ++ ",,,,,,,,,,,,,,,,,,,,0001#"))
    ("AT@LSS=btl100,," ++ interval ++ ",,,,,,,,,,,,,,,,,,,,0001#").length fun _ => 0

theorem minTimer_matches_iff_zero :
    Along (timerStep plainTimer) (MatchesAfter plainTimer (· = true)) timed [intervalFrame "0"] := by
  have hrun : (exec (timerStep plainTimer) timed [intervalFrame "0"]).isSome = true := by decide +kernel
  obtain ⟨t', ht'⟩ := Option.isSome_iff_exists.1 hrun
  refine (minTimer_matches_iff plainTimer_reliable timed_matches ht').2 ⟨.inr (.inr (.inl ?_)), fun _ _ => trivial⟩
  decide +kernel

/-- The interval is changed from 5 to 10 minutes, and the timer stays stopped. -/
theorem minTimer_stays_stopped : TimerMatches (· = true) timed ∧
    ∃ t', timerStep plainTimer timed (intervalFrame "10") = some t' ∧
      t'.config.lss.continueSendInterval = 10 ∧ t'.minTimer = false := by
  have hstep : (timerStep plainTimer timed (intervalFrame "10")).any
      (fun t' => t'.config.lss.continueSendInterval == 10 && !t'.minTimer) = true := by decide +kernel
  obtain ⟨t', ht', hvals⟩ := (Option.any_eq_true _ _).1 hstep
  simp only [Bool.and_eq_true, beq_iff_eq, Bool.not_eq_true'] at hvals
  exact ⟨timed_matches, t', ht', hvals⟩

end Petbox.Tracker
