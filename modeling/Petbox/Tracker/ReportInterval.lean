/-
The periodic report (`btlink_min_timer_callback`): the callback counts the
minutes up to the send interval, and has a branch for the minute in which it is
reached. The branch holds the comment "assemble continue send message"; the call
that assembles one stands behind it.

So the test is right in every run, and the reports are not.
-/
import Petbox.Tracker.MinTimer
import Mathlib.Data.List.Iterate

namespace Petbox.Tracker

open Machine

/-! ## The callback and its report -/

/-- What an expiration does besides: whether the interval was reached, and the
count number of the report that was assembled. -/
structure Expiration where
  due : Bool
  report : Option UInt32

/-- `continue_send_interval`. -/
def intervalOf {τ : Type} (t : Device τ) : UInt16 := t.config.lss.continueSendInterval

section Callback

variable {τ : Type} (os : OsTimer τ)

/-- `btlink_min_timer_callback`, statement by statement. -/
def minTimerCallbackReport (t : Device τ) : Device τ × Expiration :=
  let t := { t with conSendMinCnt := t.conSendMinCnt + 1 }
  let due := decide (t.conSendMinCnt ≥ t.config.lss.continueSendInterval)
  let t := if due then { t with conSendMinCnt := 0 } else t
  -- btlink_get_report_count, called for the report
  let count := t.sendCnt
  let t := { t with sendCnt := nextReportCount t.sendCnt }
  ({ t with minTimer := (startMinTimer os t.minTimer).2 }, ⟨due, some count⟩)

theorem minTimerCallbackReport_fst (t : Device τ) : (minTimerCallbackReport os t).1 = minTimerCallback os t := by
  unfold minTimerCallbackReport minTimerCallback
  by_cases hdue : t.conSendMinCnt + 1 ≥ t.config.lss.continueSendInterval
  · simp only [hdue, decide_true, if_true]
  · simp only [hdue, decide_false, Bool.false_eq_true, if_false]

/-- The report takes the count number there is. -/
theorem minTimerCallbackReport_report (t : Device τ) : (minTimerCallbackReport os t).2.report = some t.sendCnt := by
  unfold minTimerCallbackReport
  by_cases hdue : t.conSendMinCnt + 1 ≥ t.config.lss.continueSendInterval
  · simp only [hdue, decide_true, if_true]
  · simp only [hdue, decide_false, Bool.false_eq_true, if_false]

/-- The expirations a step of the tracker makes. -/
def expirations (t : Device τ) : Action → List Expiration
  | .minTimer => [(minTimerCallbackReport os t).2]
  | .line .. => []
  | .reboot => []

/-- The step is no reset, and the interval is the given one behind it. -/
def StaysAt (n : UInt16) (t : Device τ) (a : Action) : Prop :=
  match a with
  | .reboot => False
  | a => ∀ t', step os t a = some t' → intervalOf t' = n

end Callback

/-- The action is an expiration of the timer. -/
def Action.isExpiration : Action → Bool
  | .minTimer => true
  | .line .. => false
  | .reboot => false

/-! ## Reports at every `n`-th expiration -/

/-- The reports of some expirations, of which `passed` minutes were counted
before the first: there is one at every `n`-th, and their count numbers follow
each other. -/
structure Periodic (n passed : Nat) (count : UInt32) (reports : List (Option UInt32)) : Prop where
  everyNth : ∀ i (hi : i < reports.length), reports[i].isSome = true ↔ n ∣ passed + i + 1
  consecutive : reports.filterMap id = List.iterate nextReportCount count (reports.filterMap id).length

/-- A report at every expiration. -/
theorem periodic_all_iff {n passed : Nat} (hpassed : passed < n) (count : UInt32) (k : Nat) :
    Periodic n passed count ((List.iterate nextReportCount count k).map some) ↔
      n = 1 ∨ k = 0 ∨ (k = 1 ∧ passed + 1 = n) := by
  have hlen : ((List.iterate nextReportCount count k).map some).length = k := by
    rw [List.length_map, List.length_iterate]
  have hsome (i : Nat) (hi : i < ((List.iterate nextReportCount count k).map some).length) :
      ((List.iterate nextReportCount count k).map some)[i].isSome = true := by
    rw [List.getElem_map]
    rfl
  have hcounts : ((List.iterate nextReportCount count k).map some).filterMap id
      = List.iterate nextReportCount count k := by
    rw [List.filterMap_map]
    exact List.filterMap_some
  constructor
  · intro h
    have hdvd (i : Nat) (hi : i < k) : n ∣ passed + i + 1 := by
      have hi : i < ((List.iterate nextReportCount count k).map some).length := by rwa [hlen]
      exact (h.everyNth i hi).1 (hsome i hi)
    cases k with
    | zero => exact .inr (.inl rfl)
    | succ k =>
      have hfirst : n ∣ passed + 0 + 1 := hdvd 0 (Nat.succ_pos k)
      cases k with
      | zero => exact .inr (.inr ⟨rfl, Nat.le_antisymm hpassed (Nat.le_of_dvd (Nat.succ_pos _) hfirst)⟩)
      | succ k =>
        have hsecond : n ∣ passed + 1 + 1 := hdvd 1 (by omega)
        have hone : n ∣ 1 := (Nat.dvd_add_right hfirst).1 hsecond
        exact .inl (Nat.dvd_one.1 hone)
  · intro h
    have hdvd (i : Nat) (hi : i < k) : n ∣ passed + i + 1 := by
      rcases h with rfl | rfl | ⟨rfl, rfl⟩
      · exact Nat.one_dvd _
      · exact absurd hi (Nat.not_lt_zero i)
      · obtain rfl : i = 0 := Nat.lt_one_iff.1 hi
        exact Nat.dvd_refl _
    refine ⟨fun i hi => iff_of_true (hsome i hi) (hdvd i (by rwa [hlen] at hi)), ?_⟩
    rw [hcounts, List.length_iterate]

/-! ## The counter -/

section Counter

variable {τ : Type} {os : OsTimer τ} {t t' : Device τ}

/-- Where an interval is set, the minutes counted are below it. -/
def CounterOk (t : Device τ) : Prop := intervalOf t ≠ 0 → t.conSendMinCnt < intervalOf t

/-- What an executed frame does to the counters: the minutes start again when the
interval changes. -/
structure CountsKept (t t' : Device τ) : Prop where
  report : t'.sendCnt = t.sendCnt
  minutes : (intervalOf t' = intervalOf t ∧ t'.conSendMinCnt = t.conSendMinCnt) ∨
    (intervalOf t' ≠ intervalOf t ∧ t'.conSendMinCnt = 0)

theorem CountsKept.refl (t : Device τ) : CountsKept t t := ⟨rfl, .inl ⟨rfl, rfl⟩⟩

theorem cmdExecLss_counts (arg : ArgLss) : CountsKept t (cmdExecLss os arg t) := by
  have hinterval : intervalOf (cmdExecLss os arg t) = arg.continueSendInterval := cmdExecLss_interval arg
  by_cases hsame : t.config.lss.continueSendInterval = arg.continueSendInterval
  · refine ⟨?_, .inl ⟨hinterval.trans hsame.symm, ?_⟩⟩
    · simp only [cmdExecLss]
      rw [if_neg (not_not.2 hsame)]
    · simp only [cmdExecLss]
      rw [if_neg (not_not.2 hsame)]
  · refine ⟨?_, .inr ⟨fun h => hsame (h.symm.trans hinterval), ?_⟩⟩
    · simp only [cmdExecLss]
      rw [if_pos hsame]
      rfl
    · simp only [cmdExecLss]
      rw [if_pos hsame]
      rfl

theorem cmdExec_counts (arg : DnlnkArg) : CountsKept t (cmdExec os t arg) := by
  cases arg with
  | ips arg => exact ⟨rfl, .inl ⟨rfl, rfl⟩⟩
  | apn arg => exact ⟨rfl, .inl ⟨rfl, rfl⟩⟩
  | scs arg => exact ⟨rfl, .inl ⟨rfl, rfl⟩⟩
  | lss arg => exact cmdExecLss_counts arg
  | rth subCommand => exact .refl t

/-- A line counts no minute and no report. -/
theorem line_counts {cmd : Nat → UInt8} {cmdLen : Nat} {past : Nat → UInt8}
    (hs : step os t (.line cmd cmdLen past) = some t') : CountsKept t t' := by
  cases happens_of_step os hs with
  | mode => exact ⟨rfl, .inl ⟨rfl, rfl⟩⟩
  | frame => exact cmdExec_counts _

theorem CountsKept.counterOk (h : CountsKept t t') (ht : CounterOk t) : CounterOk t' := by
  intro hne
  rcases h.minutes with ⟨hinterval, hcnt⟩ | ⟨-, hcnt⟩
  · rw [hinterval] at hne ⊢
    rw [hcnt]
    exact ht hne
  · rw [hcnt]
    exact UInt16.pos_iff_ne_zero.2 hne

theorem counterOk_step {a : Action} (h : CounterOk t) (hs : step os t a = some t') : CounterOk t' := by
  cases happens_of_step os hs with
  | mode => exact (line_counts hs).counterOk h
  | frame => exact (line_counts hs).counterOk h
  | expiration =>
    intro hne
    simp only [minTimerCallback]
    split
    · exact UInt16.pos_iff_ne_zero.2 hne
    · next hlt => exact UInt16.not_le.1 hlt
  | reset => exact fun hne => UInt16.pos_iff_ne_zero.2 hne

theorem counterOk_of_reachable {nv : EnvStore} (ht : Reachable (step os) (powerOn os nv) t) : CounterOk t :=
  ht.inv (fun hne => UInt16.pos_iff_ne_zero.2 hne) fun _ _ _ h hs => counterOk_step h hs

end Counter

/-! ## Whole runs -/

/-- The expirations of a run: the branch is entered at every `n`-th, and there is
a report at every one. -/
structure RunExpirations (n passed : Nat) (count : UInt32) (es : List Expiration) : Prop where
  due : ∀ i (hi : i < es.length), es[i].due = true ↔ n ∣ passed + i + 1
  reports : es.map (·.report) = (List.iterate nextReportCount count es.length).map some

theorem RunExpirations.nil {n passed : Nat} {count : UInt32} : RunExpirations n passed count [] :=
  ⟨fun _ hi => absurd hi (Nat.not_lt_zero _), rfl⟩

/-- One expiration more, in front of the others. -/
theorem RunExpirations.cons {n passed : Nat} {count : UInt32} {due : Bool} {es : List Expiration}
    (hdue : due = true ↔ n ∣ passed + 1) (h : RunExpirations n ((passed + 1) % n) (nextReportCount count) es) :
    RunExpirations n passed count (⟨due, some count⟩ :: es) where
  due i hi := by
    cases i with
    | zero => exact hdue
    | succ i =>
      have hi : i < es.length := Nat.lt_of_succ_lt_succ hi
      have htail : es[i].due = true ↔ n ∣ (passed + 1) % n + i + 1 := h.due i hi
      have hsum : passed + (i + 1) + 1 = (passed + 1) % n + i + 1 + n * ((passed + 1) / n) := by
        have := Nat.mod_add_div (passed + 1) n
        omega
      rw [hsum, Nat.dvd_add_left (Nat.dvd_mul_right n _)]
      exact htail
  reports := by
    rw [List.map_cons, h.reports, List.length_cons, List.iterate, List.map_cons]

section Run

variable {τ : Type} {os : OsTimer τ} {t t' : Device τ} {n : UInt16}

/-- The minutes behind an expiration, and when the branch is entered. -/
theorem minTimerCallbackReport_minutes (hn : intervalOf t = n) (hlt : t.conSendMinCnt < n) :
    ((minTimerCallbackReport os t).2.due = true ↔ n.toNat ∣ t.conSendMinCnt.toNat + 1) ∧
      (minTimerCallbackReport os t).1.conSendMinCnt.toNat = (t.conSendMinCnt.toNat + 1) % n.toNat := by
  have hlt : t.conSendMinCnt.toNat < n.toNat := UInt16.lt_iff_toNat_lt.1 hlt
  have hmax := n.toNat_lt
  have hsucc : (t.conSendMinCnt + 1).toNat = t.conSendMinCnt.toNat + 1 := by
    rw [UInt16.toNat_add]
    exact Nat.mod_eq_of_lt (show t.conSendMinCnt.toNat + 1 < 65536 by omega)
  have hcnt : (minTimerCallbackReport os t).1.conSendMinCnt =
      if t.conSendMinCnt + 1 ≥ n then 0 else t.conSendMinCnt + 1 := by
    rw [minTimerCallbackReport_fst, ← hn]
    rfl
  have hdue : (minTimerCallbackReport os t).2.due = decide (t.conSendMinCnt + 1 ≥ n) := by
    rw [← hn]
    rfl
  have hge : t.conSendMinCnt + 1 ≥ n ↔ n.toNat ≤ t.conSendMinCnt.toNat + 1 := by
    rw [ge_iff_le, UInt16.le_iff_toNat_le, hsucc]
  rw [hcnt, hdue, decide_eq_true_iff]
  by_cases hfull : n.toNat ≤ t.conSendMinCnt.toNat + 1
  · have heq : t.conSendMinCnt.toNat + 1 = n.toNat := by omega
    rw [if_pos (hge.2 hfull), heq, Nat.mod_self]
    exact ⟨iff_of_true (hge.2 hfull) (Nat.dvd_refl _), rfl⟩
  · rw [if_neg fun h => hfull (hge.1 h), hsucc, Nat.mod_eq_of_lt (Nat.not_le.1 hfull)]
    exact ⟨iff_of_false (fun h => hfull (hge.1 h)) fun h => hfull (Nat.le_of_dvd (Nat.succ_pos _) h), rfl⟩

/-- **The test is right**: in a run in which the interval stays, the callback
enters its branch at every `n`-th expiration. But it assembles a report at every
one. -/
theorem run_expirations (hne : n ≠ 0) {as : List Action} (hn : intervalOf t = n) (hok : CounterOk t)
    (hstay : Along (step os) (StaysAt os n) t as) (hrun : exec (step os) t as = some t') :
    RunExpirations n.toNat t.conSendMinCnt.toNat t.sendCnt (trace (step os) (expirations os) t as) ∧
      (trace (step os) (expirations os) t as).length = as.countP Action.isExpiration := by
  induction as generalizing t with
  | nil => exact ⟨.nil, rfl⟩
  | cons a as ih =>
    obtain ⟨u, hu, hrest⟩ := exec_cons.1 hrun
    have hnext : Along (step os) (StaysAt os n) u as := hstay.2 u hu
    have hok' : CounterOk u := counterOk_step hok hu
    simp only [trace, hu, Option.elim_some]
    cases a with
    | line cmd cmdLen past =>
      have hn' : intervalOf u = n := hstay.1 u hu
      have hrest := ih hn' hok' hnext hrest
      have hkept : CountsKept t u := line_counts hu
      have hminutes : u.conSendMinCnt = t.conSendMinCnt := by
        rcases hkept.minutes with ⟨-, hcnt⟩ | ⟨hchange, -⟩
        · exact hcnt
        · exact absurd (hn'.trans hn.symm) hchange
      rw [hminutes, hkept.report] at hrest
      exact hrest
    | minTimer =>
      obtain ⟨timer, -, hcallback⟩ := Option.map_eq_some_iff.1 hu
      have hn' : intervalOf u = n := hstay.1 u hu
      have hrest := ih hn' hok' hnext hrest
      have hlt : t.conSendMinCnt < n := hn ▸ hok (hn ▸ hne)
      obtain ⟨hdue, hcnt⟩ := @minTimerCallbackReport_minutes _ os t n hn hlt
      have hminutes : u.conSendMinCnt = (minTimerCallbackReport os t).1.conSendMinCnt := by
        rw [← hcallback, minTimerCallbackReport_fst]
        rfl
      have hcount : u.sendCnt = nextReportCount t.sendCnt := by
        rw [← hcallback]
        rfl
      rw [hminutes, hcnt, hcount] at hrest
      have hone : expirations os t .minTimer = [⟨(minTimerCallbackReport os t).2.due, some t.sendCnt⟩] := by
        rw [← minTimerCallbackReport_report os t]
        rfl
      rw [hone, List.singleton_append, List.length_cons, hrest.2, List.countP_cons]
      exact ⟨hrest.1.cons hdue, rfl⟩
    | reboot => exact hstay.1.elim

/-- **When the reports are periodic**: in a run from a reachable state in which
the interval stays at `n`, if and only if it is 1, or nothing expires, or the
only expiration is the one the counter has come to. -/
theorem reports_periodic_iff {nv : EnvStore} (ht : Reachable (step os) (powerOn os nv) t) (hne : n ≠ 0)
    (hn : intervalOf t = n) {as : List Action} (hstay : Along (step os) (StaysAt os n) t as)
    (hrun : exec (step os) t as = some t') :
    Periodic n.toNat t.conSendMinCnt.toNat t.sendCnt ((trace (step os) (expirations os) t as).map (·.report)) ↔
      n = 1 ∨ as.countP Action.isExpiration = 0 ∨
        (as.countP Action.isExpiration = 1 ∧ t.conSendMinCnt.toNat + 1 = n.toNat) := by
  have hok := counterOk_of_reachable ht
  obtain ⟨hes, hlen⟩ := run_expirations hne hn hok hstay hrun
  have hlt : t.conSendMinCnt.toNat < n.toNat := UInt16.lt_iff_toNat_lt.1 (hn ▸ hok (hn ▸ hne))
  rw [hes.reports, hlen, periodic_all_iff hlt, ← UInt16.toNat_inj]
  rfl

end Run

/-- A frame that sets the interval. -/
def intervalLine (interval : String) : Action :=
  lineAction ("AT@LSS=btl100,," ++ interval ++ ",,,,,,,,,,,,,,,,,,,,0001#")

/-- A new device whose interval was set to 0, which stops the timer, and then to
another value, which starts it. -/
def intervalSet (interval : String) : Option (Device Bool) :=
  exec (step plainTimer) (powerOn plainTimer fun _ => none) [intervalLine "0", intervalLine interval]

/-- Two minutes at an interval of one. -/
theorem reports_periodic_iff_one : ∃ t, intervalSet "1" = some t ∧
    Periodic 1 0 0 ((trace (step plainTimer) (expirations plainTimer) t [.minTimer, .minTimer]).map (·.report)) := by
  have hset : (intervalSet "1").any (fun t => intervalOf t == 1 && t.minTimer && t.conSendMinCnt == 0 && t.sendCnt == 0)
      = true := by decide +kernel
  obtain ⟨t, ht, hvals⟩ := (Option.any_eq_true _ _).1 hset
  simp only [Bool.and_eq_true, beq_iff_eq] at hvals
  obtain ⟨⟨⟨hinterval, htimer⟩, hminutes⟩, hcount⟩ := hvals
  have hstep (u : Device Bool) (hu : u.minTimer = true) :
      step plainTimer u .minTimer = some (minTimerCallback plainTimer { u with minTimer := false }) := by
    simp only [step, plainTimer, hu, if_true, Option.map_some]
  have hfirst := hstep t htimer
  have hsecond := hstep (minTimerCallback plainTimer { t with minTimer := false }) rfl
  have hrun := exec_cons.2 ⟨_, hfirst, exec_cons.2 ⟨_, hsecond, exec_nil _⟩⟩
  have hstay : Along (step plainTimer) (StaysAt plainTimer 1) t [.minTimer, .minTimer] := by
    refine ⟨fun u hu => ?_, fun u hu => ⟨fun v hv => ?_, fun v hv => trivial⟩⟩
    · rw [← Option.some.inj (hfirst.symm.trans hu)]
      exact hinterval
    · rw [← Option.some.inj (hfirst.symm.trans hu)] at hv
      rw [← Option.some.inj (hsecond.symm.trans hv)]
      exact hinterval
  have h := (reports_periodic_iff ⟨_, ht⟩ (by decide) hinterval hstay hrun).2 (.inl rfl)
  rw [hminutes, hcount] at h
  exact ⟨t, ht, h⟩

/-- The first minute of an interval of five has a report. -/
theorem report_in_first_minute : ∃ t t', intervalSet "5" = some t ∧ intervalOf t = 5 ∧
    t.conSendMinCnt = 0 ∧ step plainTimer t .minTimer = some t' ∧ intervalOf t' = 5 ∧
    ¬ Periodic 5 0 t.sendCnt ((trace (step plainTimer) (expirations plainTimer) t [.minTimer]).map (·.report)) := by
  have hset : (intervalSet "5").any (fun t => intervalOf t == 5 && t.minTimer && t.conSendMinCnt == 0) = true := by
    decide +kernel
  obtain ⟨t, ht, hvals⟩ := (Option.any_eq_true _ _).1 hset
  simp only [Bool.and_eq_true, beq_iff_eq] at hvals
  obtain ⟨⟨hinterval, htimer⟩, hminutes⟩ := hvals
  have hstep : step plainTimer t .minTimer = some (minTimerCallback plainTimer { t with minTimer := false }) := by
    simp only [step, plainTimer, htimer, if_true, Option.map_some]
  refine ⟨t, _, ht, hinterval, hminutes, hstep, hinterval, fun h => ?_⟩
  have htrace : (trace (step plainTimer) (expirations plainTimer) t [.minTimer]).map (·.report) = [some t.sendCnt] := by
    simp only [trace, hstep, Option.elim_some, expirations, List.append_nil, List.map_cons, List.map_nil,
      minTimerCallbackReport_report]
  rw [htrace] at h
  exact absurd ((h.everyNth 0 Nat.one_pos).1 rfl) (by decide)

end Petbox.Tracker
