/-
The device in session with the module: bytes arrive, the service is called, and
in between the application calls the functions that send.

Whatever arrives, what goes out is whole frames that fit the transmit buffer
(`device_sends_frames`), and a flag tells which of its two events was last
(`flags_tell_last`). Where the bytes come from does not matter: the receive
ring of the SDK, lossy or not, or a queue.
-/
import Petbox.Wifi.Service

namespace Petbox.Wifi

open Machine Mem

/-- What the frame handed over asks for. -/
def Handover.demand (site : Site) (h : Handover) : Option Demand := handled site quertFuel h.buf h.offset

section Source

variable {ρ : Type} (site : Site) (src : RxSource ρ)

/-- What an action is to the session. -/
def events (d : Device ρ) : DeviceAct → List Event
  | .arrive _ => []
  | .call => ((handovers site src d .call).filterMap (Handover.demand site)).map .frame
  | .ask a => [.ask a]

/-- The events of a run. -/
def history (d : Device ρ) (as : List DeviceAct) : List Event := trace (deviceStep site src) (events site src) d as

end Source

/-- What the frames handled asked for. -/
def demandsOf (E : List Event) : List Demand := E.filterMap fun | .frame d => some d | .ask _ => none

/-- The calls of the application. -/
def asksOf (E : List Event) : List Ask := E.filterMap fun | .frame _ => none | .ask a => some a

/-- The calls of the application in a run. -/
def asks (as : List DeviceAct) : List Ask := as.filterMap fun | .ask a => some a | _ => none

/-! ## Every run goes through a session -/

section Runs

variable {ρ : Type} {site : Site} {src : RxSource ρ} {r₀ : ρ} {rest : Nat → UInt8} {txBuf buf : Nat → UInt8}
variable {before : UInt8}

/-- A loop that ends does to the SDK what its frames ask of the session. -/
theorem Shows.parseLoop {w : ProcessBuf} {fuel a e : Nat} {s s' : Sdk} {S : Session} (h : Shows rest s S)
    (hl : (parseLoop site w fuel a s).2 = some (s', e)) :
    Shows rest s'
      (((parseLoop site w fuel a s).1.filterMap (handled site quertFuel w.buf)).foldl Session.handle S) := by
  induction fuel generalizing a s S with
  | zero => cases hl
  | succ fuel ih =>
    by_cases hroom : protocolHead ≤ w.rxIn - a
    case neg =>
      rw [parseLoop_end hroom] at hl ⊢
      cases hl
      exact h
    cases he : examine w a with
    | stop =>
      rw [parseLoop_stop hroom he] at hl ⊢
      cases hl
      exact h
    | skip n =>
      rw [parseLoop_skip hroom he] at hl ⊢
      exact ih h hl
    | handle n =>
      rcases h.dataHandle site quertFuel w.buf a with ⟨hnone, -⟩ | ⟨t, d, ht, hd, -, hshows⟩
      · rw [parseLoop_spins hroom he ((dataHandle_none_iff site w.buf a s).1 hnone)] at hl
        cases hl
      · rw [parseLoop_handle hroom he ht] at hl ⊢
        rw [List.filterMap_cons_some hd, List.foldl_cons]
        exact ih hshows hl

theorem Shows.step {S : Session} {d d' : Device ρ} (h : Shows rest d.sdk S) {a : DeviceAct}
    (ha : ∀ b ∈ asks [a], b.Short) (hs : deviceStep site src d a = some d') :
    Shows rest d'.sdk ((events site src d a).foldl Session.run S) := by
  cases a with
  | arrive bytes =>
    obtain ⟨r, -, rfl⟩ := Option.map_eq_some_iff.1 hs
    exact h
  | ask b =>
    obtain rfl := Option.some.inj hs
    exact h.ask (ha b (List.mem_singleton_self b))
  | call =>
    simp only [events, List.foldl_map, handovers]
    simp only [deviceStep, wifiUartService] at hs ⊢
    cases hrx : receive src (processBufSize - d.proc.rxIn) d.proc d.ring with
    | none =>
      rw [hrx] at hs
      cases hs
    | some wr =>
      obtain ⟨w, r⟩ := wr
      rw [hrx] at hs
      by_cases h7 : w.rxIn < protocolHead
      · simp only [if_pos h7] at hs ⊢
        obtain rfl := Option.some.inj hs
        exact h
      · simp only [if_neg h7] at hs ⊢
        obtain ⟨⟨s', e⟩, hl, rfl⟩ := Option.map_eq_some_iff.1 hs
        rw [List.filterMap_map]
        exact h.parseLoop hl

theorem mem_asks {a : DeviceAct} {as : List DeviceAct} (h : a ∈ as) {b : Ask} (hb : b ∈ asks [a]) : b ∈ asks as := by
  obtain ⟨c, hc, heq⟩ := List.mem_filterMap.1 hb
  obtain rfl := List.mem_singleton.1 hc
  exact List.mem_filterMap.2 ⟨c, h, heq⟩

/-- A run leaves the SDK in the state the session of its events comes to. -/
theorem shows_history {as : List DeviceAct} {d : Device ρ} (hasks : ∀ b ∈ asks as, b.Short)
    (hx : exec (deviceStep site src) (.start txBuf buf before r₀) as = some d) :
    Shows txBuf d.sdk ((history site src (.start txBuf buf before r₀) as).foldl Session.run .start) := by
  refine exec_fold (C := fun _ a => ∀ b ∈ asks [a], b.Short) (R := fun d S => Shows txBuf d.sdk S)
    (fun d a d' S h ha hs => h.step ha hs) (shows_init txBuf)
    (along_of_forall fun pre a post u heq _ b hb => hasks b ?_) hx
  exact mem_asks (heq ▸ List.mem_append_right pre (List.mem_cons_self ..)) hb

/-! ## What goes out -/

/-- The data of the answers to the module's heartbeats. -/
def beats (frames : List (UInt8 × List UInt8)) : List (List UInt8) :=
  (frames.filter (·.1 == heatBeatCmd)).map Prod.snd

def Event.isBeat : Event → Bool
  | .frame .heatBeat => true
  | _ => false

/-- The session has answered `n` heartbeats, the first one with 0 and the others with 1. -/
structure Beaten (n : Nat) (S : Session) : Prop where
  answers : beats S.frames = (List.range n).map fun i => [if i = 0 then 0 else 1]
  beaten : S.beaten = decide (0 < n)

section Beats

variable {S : Session} {n : Nat}

theorem Beaten.send (h : Beaten n S) {frType : UInt8} (hne : (frType == heatBeatCmd) = false) (data : List UInt8) :
    Beaten n (S.send frType data) where
  answers := by
    rw [← h.answers]
    simp [beats, Session.send, hne]
  beaten := h.beaten

theorem Beaten.carryOut (h : Beaten n S) (a : ControlAction) : Beaten n (S.carryOut a) := by
  cases a with
  | record status =>
    refine h.send ?_ []
    by_cases hs : status ≠ 0
    · rw [if_pos hs]
      rfl
    · rw [if_neg hs]
      rfl
  | _ => exact ⟨h.answers, h.beaten⟩

theorem Beaten.perform (h : Beaten n S) (out : DpOutcome) : Beaten n (S.perform out) := by
  have hact : Beaten n (out.action.elim S S.carryOut) := by
    cases out.action with
    | none => exact h
    | some a => exact h.carryOut a
  rw [Session.perform]
  cases out.report with
  | none => exact hact
  | some r => exact hact.send rfl _

theorem Beaten.performAll (h : Beaten n S) (outs : List DpOutcome) : Beaten n (outs.foldl Session.perform S) := by
  induction outs generalizing S with
  | nil => exact h
  | cons out outs ih => exact ih (h.perform out)

/-- Only a heartbeat adds an answer to a heartbeat. -/
theorem Beaten.run (h : Beaten n S) (e : Event) : Beaten (n + if e.isBeat then 1 else 0) (S.run e) := by
  cases e with
  | ask a =>
    cases a with
    | resetWifi => exact ⟨(h.send rfl _).answers, h.beaten⟩
    | setWifiMode mode => exact ⟨(h.send rfl _).answers, h.beaten⟩
    | startWifitest => exact h.send rfl _
    | playVoice num => exact h.send rfl _
    | report dpid r => exact h.send rfl _
  | frame d =>
    cases d with
    | heatBeat =>
      refine ⟨?_, (decide_eq_true (Nat.succ_pos n)).symm⟩
      have hbeats : beats (S.handle .heatBeat).frames = beats S.frames ++ [[if S.beaten then 1 else 0]] := by
        simp [beats, Session.handle, Session.send]
      rw [Session.run, hbeats, h.answers, h.beaten]
      simp only [Event.isBeat, if_true, List.range_succ, List.map_append, List.map_singleton]
      cases n <;> rfl
    | productInfo => exact h.send rfl _
    | workMode => exact h.send rfl _
    | wifiState state => exact ⟨(h.send rfl _).answers, h.beaten⟩
    | wifiReset => exact ⟨h.answers, h.beaten⟩
    | wifiMode => exact ⟨h.answers, h.beaten⟩
    | dataQuert outs => exact h.performAll outs
    | nothing => exact h

theorem beaten_foldl (h : Beaten n S) (E : List Event) :
    Beaten (n + E.countP Event.isBeat) (E.foldl Session.run S) := by
  induction E generalizing S n with
  | nil => exact h
  | cons e E ih =>
    have hnext := ih (h.run e)
    rw [List.countP_cons]
    rwa [Nat.add_assoc, Nat.add_comm (if e.isBeat then 1 else 0)] at hnext

end Beats

/-- **Whatever the module sends, only whole frames go out.** After any run of the
device the bytes sent are frames, each of them fits the transmit buffer, nothing
is stored behind the buffer, and the heartbeats handled were answered one by
one: the first with 0, which tells the module that the device has started, the
others with 1. -/
theorem device_sends_frames {as : List DeviceAct} {d : Device ρ} (hasks : ∀ b ∈ asks as, b.Short)
    (hx : exec (deviceStep site src) (.start txBuf buf before r₀) as = some d) :
    ∃ frames : List (UInt8 × List UInt8),
      d.sdk.uart.sent = frames.flatMap (fun f => txFrame f.1 f.2) ∧
      (∀ f ∈ frames, (txFrame f.1 f.2).length ≤ txBufSize) ∧
      (∀ i, txBufSize ≤ i → d.sdk.uart.txBuf i = txBuf i) ∧
      beats frames = (List.range ((history site src (.start txBuf buf before r₀) as).countP Event.isBeat)).map
        fun i => [if i = 0 then 0 else 1] := by
  have hshows := shows_history hasks hx
  have hbeaten := beaten_foldl (n := 0) (S := .start) ⟨rfl, rfl⟩ (history site src (.start txBuf buf before r₀) as)
  rw [Nat.zero_add] at hbeaten
  exact ⟨_, hshows.uart.sent, hshows.uart.fits, hshows.uart.behind, hbeaten.answers⟩

/-- The device on its ring, with zeros in all memory. -/
def Device.powerOn : Device RxRing := .start (fun _ => 0) (fun _ => 0) 0 (wifiProtocolInit fun _ => 0)

/-- A run with the module's heartbeat and a reset of the module. -/
def resetRun : List DeviceAct := [.arrive [9, 0x55, 0xaa, 0, 0, 0, 0, 0xff], .call, .ask .resetWifi]

theorem resetRun_short : ∀ b ∈ asks resetRun, b.Short := fun _ hb => List.mem_singleton.1 hb ▸ trivial

theorem exists_resetRun :
    ∃ d, exec (deviceStep .plain .ring) .powerOn resetRun = some d :=
  Option.isSome_iff_exists.1 (by decide)

theorem device_sends_frames_reset :
    ∃ d frames, exec (deviceStep .plain .ring) .powerOn resetRun = some d ∧
      d.sdk.uart.sent = frames.flatMap (fun f : UInt8 × List UInt8 => txFrame f.1 f.2) ∧
      beats frames = [[0]] := by
  obtain ⟨d, hd⟩ := exists_resetRun
  obtain ⟨frames, hsent, -, -, hbeats⟩ := device_sends_frames resetRun_short hd
  exact ⟨d, frames, hd, hsent, hbeats.trans (by decide)⟩

/-! ## The flags -/

/-- The request to reset the module clears the flag, the module's answer sets it. -/
def Event.setsReset : Event → Option Bool
  | .frame .wifiReset => some true
  | .ask .resetWifi => some false
  | _ => none

/-- The same for the request to choose the mode. -/
def Event.setsMode : Event → Option Bool
  | .frame .wifiMode => some true
  | .ask (.setWifiMode _) => some false
  | _ => none

def Event.setsState : Event → Option UInt8
  | .frame (.wifiState state) => some state
  | _ => none

section Registers

/-- A register that data points leave alone. -/
theorem performAll_keeps {ν : Type} {get : Session → ν} (hsend : ∀ S frType data, get (S.send frType data) = get S)
    (hact : ∀ (S : Session) a, get (S.carryOut a) = get S) (S : Session) (outs : List DpOutcome) :
    get (outs.foldl Session.perform S) = get S := by
  induction outs generalizing S with
  | nil => rfl
  | cons out outs ih =>
    have hS : get (out.action.elim S S.carryOut) = get S := by
      cases out.action with
      | none => rfl
      | some a => exact hact S a
    rw [List.foldl_cons, ih, Session.perform]
    cases out.report with
    | none => exact hS
    | some r => exact (hsend _ _ _).trans hS

theorem carryOut_registers (S : Session) (a : ControlAction) :
    (S.carryOut a).resetDone = S.resetDone ∧ (S.carryOut a).modeDone = S.modeDone ∧
      (S.carryOut a).workState = S.workState := by
  cases a <;> exact ⟨rfl, rfl, rfl⟩

theorem run_registers (S : Session) (e : Event) :
    (S.run e).resetDone = e.setsReset.getD S.resetDone ∧ (S.run e).modeDone = e.setsMode.getD S.modeDone ∧
      (S.run e).workState = e.setsState.getD S.workState := by
  cases e with
  | ask a => cases a <;> exact ⟨rfl, rfl, rfl⟩
  | frame d =>
    cases d with
    | dataQuert outs =>
      exact ⟨performAll_keeps (fun _ _ _ => rfl) (fun S a => (carryOut_registers S a).1) S outs,
        performAll_keeps (fun _ _ _ => rfl) (fun S a => (carryOut_registers S a).2.1) S outs,
        performAll_keeps (fun _ _ _ => rfl) (fun S a => (carryOut_registers S a).2.2) S outs⟩
    | _ => exact ⟨rfl, rfl, rfl⟩

end Registers

/-- **The flags tell what happened last.** After any run `mcu_get_reset_wifi_flag`
and `mcu_get_wifimode_flag` read 1 exactly when the module has answered since
the last request, whatever else was received and sent in between, and
`mcu_get_wifi_work_state` reads the state the module reported last. -/
theorem flags_tell_last {as : List DeviceAct} {d : Device ρ} (hasks : ∀ b ∈ asks as, b.Short)
    (hx : exec (deviceStep site src) (.start txBuf buf before r₀) as = some d) :
    d.sdk.resetWifiFlag =
        flagByte (((history site src (.start txBuf buf before r₀) as).filterMap Event.setsReset).getLast?.getD false) ∧
      d.sdk.setWifimodeFlag =
        flagByte (((history site src (.start txBuf buf before r₀) as).filterMap Event.setsMode).getLast?.getD false) ∧
      d.sdk.wifiWorkState =
        ((history site src (.start txBuf buf before r₀) as).filterMap Event.setsState).getLast?.getD
          wifiSateUnknow := by
  have hshows := shows_history hasks hx
  rw [hshows.resetDone, hshows.modeDone, hshows.workState]
  refine ⟨congrArg flagByte ?_, congrArg flagByte ?_, ?_⟩
  · exact foldl_register (g := Session.resetDone) (fun S e => (run_registers S e).1) _ .start
  · exact foldl_register (g := Session.modeDone) (fun S e => (run_registers S e).2.1) _ .start
  · exact foldl_register (g := Session.workState) (fun S e => (run_registers S e).2.2) _ .start

theorem flags_tell_last_reset :
    ∃ d, exec (deviceStep .plain .ring) .powerOn resetRun = some d ∧
      d.sdk.resetWifiFlag = 0 ∧ d.sdk.wifiWorkState = 0xff := by
  obtain ⟨d, hd⟩ := exists_resetRun
  obtain ⟨hreset, -, hstate⟩ := flags_tell_last resetRun_short hd
  exact ⟨d, hd, hreset.trans (by decide), hstate.trans (by decide)⟩

end Runs

end Petbox.Wifi
