/-
What the device makes of a stream of requests. A request is a frame the module
protocol allows: a state report carries the state, and a command is a sequence
of whole data points that the table of the device serves.

Each request is answered once and in order, however the stream is cut, whenever
the service is called, and whatever the application sends in between, as long
as the receive ring is not overrun.
-/
import Petbox.Wifi.Sessions
import Petbox.Wifi.Stream

namespace Petbox.Wifi

open Access Machine Mem Framing
open Petbox.Control (byteToInt dpidFeedNum)

/-! ## Data points -/

/-- What comes of a data point: its handler looks at nothing but its value. -/
def Point.outcome (env : Env) (p : Point) : DpOutcome :=
  if ⟨p.dpId, p.dpType⟩ ∈ downloadCmd then (dpDownloadHandle env (bufOf p.value) p.dpId 0).val
  else ⟨none, none, dpFalse⟩

section Points

variable {env : Env} {buf : Nat → UInt8} {offset : Nat}

/-- A handler that finds the same bytes does the same. -/
theorem dpDownloadHandle_congr {buf' : Nat → UInt8} {dpid : UInt8} {value value' : Nat}
    (h : ∀ k < handlerReads dpid, buf (value + k) = buf' (value' + k)) :
    (dpDownloadHandle env buf dpid value).val = (dpDownloadHandle env buf' dpid value').val := by
  have hbyte : handlerReads dpid = 1 → ∀ action id report,
      (byteHandle buf action id report value).val = (byteHandle buf' action id report value').val := by
    intro h1 action id report
    have hv : buf value = buf' value' := h 0 (by omega)
    simp only [byteHandle, val_bind, val_pure, readValue, val_rename, val_read, hv]
  unfold dpDownloadHandle
  split_ifs with h1 h2 h3 h4 h5
  · have hr : handlerReads dpid = 4 := by rw [h1]; rfl
    have h0 : buf value = buf' value' := h 0 (by omega)
    have hb1 := h 1 (by omega)
    have hb2 := h 2 (by omega)
    have hb3 := h 3 (by omega)
    simp only [dpDownloadFeedNumHandle, val_bind, val_pure, readValue, val_rename, val_read, h0, hb1, hb2, hb3]
  · exact hbyte (by rw [h2]; rfl) ..
  · exact hbyte (by rw [h3]; rfl) ..
  · exact hbyte (by rw [h4]; rfl) ..
  · exact hbyte (by rw [h5]; rfl) ..
  · rfl

/-- A served data point comes to its outcome. -/
theorem dataPointHandle_outcome {v : Nat} (h : (pointOf buf v).Served) :
    (dataPointHandle env buf v).val = (pointOf buf v).outcome env := by
  obtain ⟨hin, hreads⟩ := h
  rw [Point.outcome]
  by_cases hm : (⟨(pointOf buf v).dpId, (pointOf buf v).dpType⟩ : DownloadCmd) ∈ downloadCmd
  · have htype : ¬ buf (v + 1) ≠ (readCmd env (downloadCmd.findIdx (·.dpId == buf v))).val.dpType :=
      not_not.2 ((type_found_iff hin).2 hm)
    have hsame : ∀ k < handlerReads (buf v), bufOf (pointOf buf v).value (0 + k) = buf (v + 4 + k) := by
      intro k hk
      have hlen := Nat.lt_of_lt_of_le hk (hreads hm)
      rw [length_pointOf] at hlen
      rw [Nat.zero_add, bufOf, pointOf, List.getD_eq_getElem?_getD, getElem?_slice hlen, Option.getD_some]
    have hout : (dataPointHandle env buf v).val = (dpDownloadHandle env buf (buf v) (v + 4)).val := by
      simp only [dataPointHandle, val_bind, val_ite, val_pure]
      rw [getDowmloadDpidIndex_val]
      exact if_neg htype
    rw [if_pos hm, hout]
    exact (dpDownloadHandle_congr hsame).symm
  · rw [if_neg hm]
    exact dataPointHandle_refused hin hm

/-- The loop goes through the data points one by one. -/
theorem dataQuertFrom_points {points : List Point} {a : UInt16} {fuel : Nat}
    (h : payloadFrom buf offset a = points.flatMap Point.encode) (hs : ∀ p ∈ points, p.Served)
    (hf : points.length < fuel) :
    ∃ outs, (dataQuertFrom env buf offset fuel a).val = some outs ∧
      outs.map Prod.snd = points.map (Point.outcome env) := by
  induction points generalizing a fuel with
  | nil =>
    obtain ⟨fuel, rfl⟩ := Nat.exists_eq_add_one_of_ne_zero (Nat.ne_zero_of_lt hf)
    have hge : ¬ a < totalLen buf offset := by
      have hlen := congrArg List.length h
      rw [payloadFrom, length_slice, List.flatMap_nil, List.length_nil] at hlen
      exact fun hlt => absurd (UInt16.lt_iff_toNat_lt.1 hlt) (by omega)
    exact ⟨[], by rw [dataQuertFrom, if_neg hge]; rfl, rfl⟩
  | cons p points ih =>
    obtain ⟨fuel, rfl⟩ := Nat.exists_eq_add_one_of_ne_zero (Nat.ne_zero_of_lt hf)
    obtain ⟨hp, htail⟩ := List.forall_mem_cons.1 hs
    rw [payloadFrom, List.flatMap_cons] at h
    obtain ⟨rfl, hn, hrest⟩ := pointOf_eq h
    rw [length_pointOf] at hn hrest
    have hlt : a < totalLen buf offset := UInt16.lt_iff_toNat_lt.2 (by omega)
    have hinside : a.toNat + 4 + (dpLen buf (pointAt offset a)).toNat ≤ (totalLen buf offset).toNat := by omega
    have hnext := toNat_nextIndex hinside
    have hleft : payloadFrom buf offset (nextIndex buf offset a) = points.flatMap Point.encode := by
      rw [payloadFrom, hnext, ← hrest, pointAt, hnext]
      congr 1
      · rw [pointAt]
        omega
      · omega
    obtain ⟨outs, houts, hmap⟩ := ih hleft htail (Nat.lt_of_succ_lt_succ hf)
    refine ⟨(a, (dataPointHandle env buf (pointAt offset a)).val) :: outs, ?_, ?_⟩
    · rw [dataQuertFrom, if_pos hlt]
      exact congrArg (Option.map _) houts
    · rw [List.map_cons, List.map_cons, hmap, dataPointHandle_outcome hp]

end Points

/-! ## Requests -/

/-- What the module asks for, or reports. -/
inductive Request
  | heatBeat
  | productInfo
  | workMode
  | wifiState (state : UInt8)
  | wifiReset
  | wifiMode
  | dataQuert (points : List Point)
  | stateQuery
  | wifiTest (result rssi : UInt8)
  | other (type : UInt8) (data : List UInt8)

def Request.type : Request → UInt8
  | .heatBeat => heatBeatCmd
  | .productInfo => productInfoCmd
  | .workMode => workModeCmd
  | .wifiState _ => wifiStateCmd
  | .wifiReset => wifiResetCmd
  | .wifiMode => wifiModeCmd
  | .dataQuert _ => dataQuertCmd
  | .stateQuery => stateQueryCmd
  | .wifiTest _ _ => wifiTestCmd
  | .other type _ => type

def Request.data : Request → List UInt8
  | .wifiState state => [state]
  | .dataQuert points => points.flatMap Point.encode
  | .wifiTest result rssi => [result, rssi]
  | .other _ data => data
  | _ => []

/-- The types `data_handle` has a case for. -/
def handledTypes : List UInt8 :=
  [heatBeatCmd, productInfoCmd, workModeCmd, wifiStateCmd, wifiResetCmd, wifiModeCmd, dataQuertCmd, stateQueryCmd,
    wifiTestCmd]

/-- The frame fits the process buffer, the device serves the data points, and any
other frame is of a type without a case. -/
structure Request.Ok (r : Request) : Prop where
  fits : r.data.length ≤ 24
  served : ∀ points, r = .dataQuert points → ∀ p ∈ points, p.Served
  others : ∀ type data, r = .other type data → type ∉ handledTypes

def Request.frame (r : Request) : List UInt8 := mkFrame r.type r.data

def Request.demand (env : Env) : Request → Demand
  | .heatBeat => .heatBeat
  | .productInfo => .productInfo
  | .workMode => .workMode
  | .wifiState state => .wifiState state
  | .wifiReset => .wifiReset
  | .wifiMode => .wifiMode
  | .dataQuert points => .dataQuert (points.map (Point.outcome env))
  | _ => .nothing

/-- A frame in the buffer: its type, and its data behind the header. -/
theorem frame_parts {m : Nat → UInt8} {offset : Nat} {type : UInt8} {data : List UInt8} (hlen : data.length ≤ 0xffff)
    (h : slice m offset (data.length + 7) = mkFrame type data) :
    m (offset + frameType) = type ∧ declaredLen m offset = data.length ∧
      slice m (offset + dataStart) data.length = data := by
  have hdecl := (header_of_frame hlen h).2
  rw [show data.length + 7 = 6 + (data.length + 1) by omega, slice_add, mkFrame, frameBody, List.append_assoc] at h
  obtain ⟨hhead, hrest⟩ := List.append_inj h (by rw [length_slice]; rfl)
  rw [slice_snoc] at hrest
  have htype : (slice m offset 6)[3]? = some type := by rw [hhead]; rfl
  rw [getElem?_slice (by decide)] at htype
  exact ⟨Option.some.inj htype, hdecl, (List.append_inj hrest (length_slice ..)).1⟩

theorem length_le_flatMap_encode (points : List Point) : points.length ≤ (points.flatMap Point.encode).length := by
  induction points with
  | nil => exact Nat.le_refl 0
  | cons p points ih =>
    rw [List.flatMap_cons, List.length_append, List.length_cons, length_encode]
    omega

/-- A frame of a type without a case asks for nothing. -/
theorem handled_other {site : Site} {buf : Nat → UInt8} {offset fuel : Nat}
    (h : buf (offset + frameType) ∉ handledTypes) : handled site fuel buf offset = some .nothing := by
  simp only [handledTypes, List.mem_cons, List.not_mem_nil, or_false, not_or] at h
  obtain ⟨h0, h1, h2, h3, h4, h5, h6, -, -⟩ := h
  unfold handled
  dsimp only
  rw [if_neg h0, if_neg h1, if_neg h2, if_neg h3, if_neg h4, if_neg h5, if_neg h6]

/-- A request that stands at `offset` is handled as the request it is. -/
theorem handled_request (site : Site) {buf : Nat → UInt8} {offset : Nat} {r : Request} (hr : r.Ok)
    (h : slice buf offset (r.data.length + 7) = r.frame) :
    handled site quertFuel buf offset = some (r.demand site.toEnv) := by
  have hfits := hr.fits
  obtain ⟨htype, hdecl, hdata⟩ := frame_parts (by omega) h
  cases r with
  | wifiState state =>
    have hstate : buf (offset + dataStart) = state := by
      have hhead := congrArg List.head? hdata
      exact Option.some.inj hhead
    unfold handled
    simp only [htype]
    exact congrArg (some ∘ Demand.wifiState) hstate
  | dataQuert points =>
    have hpayload : payloadFrom buf offset 0 = points.flatMap Point.encode := by
      rw [payloadFrom, toNat_totalLen, hdecl]
      exact hdata
    have hcount := length_le_flatMap_encode points
    have hfuel : points.length < quertFuel := Nat.lt_of_le_of_lt (Nat.le_trans hcount hfits) (by decide)
    obtain ⟨outs, houts, hmap⟩ := @dataQuertFrom_points site.toEnv _ _ _ _ _ hpayload (hr.served points rfl) hfuel
    unfold handled
    simp only [htype, dataQuert, houts]
    exact congrArg (some ∘ Demand.dataQuert) hmap
  | other type data => exact handled_other (htype ▸ hr.others type data rfl)
  | _ =>
    unfold handled
    simp only [htype]
    rfl

/-! ## A stream of requests -/

/-- A request as it comes: behind some bytes that begin no frame. -/
structure Incoming where
  gap : List UInt8
  request : Request
  noHead : 0x55 ∉ gap
  ok : request.Ok

def Incoming.segment (i : Incoming) : Segment := ⟨i.gap, i.request.type, i.request.data, i.noHead, i.ok.fits⟩

section Stream

variable {site : Site} {d : Device (List UInt8)} {as : List DeviceAct}

/-- What a whole request that is handed over asks for. -/
theorem demand_request (site : Site) {h : Handover} {r : Request} (hr : r.Ok) (hf : h.frame = r.frame) :
    h.demand site = some (r.demand site.toEnv) := by
  refine handled_request site hr ?_
  have hlen := congrArg List.length hf
  rw [Handover.frame, frameAt, length_slice, Request.frame, length_mkFrame] at hlen
  rw [← hlen]
  exact hf

theorem demands_requests (site : Site) {H : List Handover} {reqs : List Request} (hok : ∀ r ∈ reqs, r.Ok)
    (hf : H.map Handover.frame = reqs.map Request.frame) :
    H.filterMap (Handover.demand site) = reqs.map (Request.demand site.toEnv) := by
  induction H generalizing reqs with
  | nil =>
    obtain rfl : reqs = [] := by simpa using hf.symm
    rfl
  | cons h H ih =>
    cases reqs with
    | nil => cases hf
    | cons r reqs =>
      obtain ⟨hframe, hf⟩ := List.cons.inj hf
      obtain ⟨hr, hok⟩ := List.forall_mem_cons.1 hok
      rw [List.filterMap_cons_some (demand_request site hr hframe), ih hok hf, List.map_cons]

/-- `data_handle` returns from every request. -/
theorem not_spins_request {h : Handover} {r : Request} (hr : r.Ok) (hf : h.frame = r.frame) : ¬ h.Spins := by
  intro hspin
  have hnone : h.demand .plain = none := (handled_none_iff .plain h.buf h.offset).2 hspin
  rw [demand_request .plain hr hf] at hnone
  cases hnone

@[simp] theorem demandsOf_append (E E' : List Event) : demandsOf (E ++ E') = demandsOf E ++ demandsOf E' :=
  List.filterMap_append

@[simp] theorem asksOf_append (E E' : List Event) : asksOf (E ++ E') = asksOf E ++ asksOf E' := List.filterMap_append

@[simp] theorem demandsOf_frames (ds : List Demand) : demandsOf (ds.map .frame) = ds := by
  simp [demandsOf, List.filterMap_map]

@[simp] theorem asksOf_frames (ds : List Demand) : asksOf (ds.map .frame) = [] := by
  simp [asksOf, List.filterMap_map]

/-- The demands of a run are those of its handovers. -/
theorem demandsOf_history (site : Site) (d : Device (List UInt8)) (as : List DeviceAct) :
    demandsOf (history site .fifo d as) = (handedOver site d as).filterMap (Handover.demand site) := by
  induction as generalizing d with
  | nil => rfl
  | cons a as ih =>
    have hone : demandsOf (events site .fifo d a) = (handovers site .fifo d a).filterMap (Handover.demand site) := by
      cases a with
      | call => rw [events, demandsOf_frames]
      | _ => rfl
    rw [history, handedOver, trace, trace, demandsOf_append, hone, List.filterMap_append]
    cases hs : deviceStep site .fifo d a with
    | none => rfl
    | some d' => exact congrArg (_ ++ ·) (ih d')

/-- The calls of the application in a run that returns are all carried out. -/
theorem asksOf_history {d' : Device (List UInt8)} (hx : exec (deviceStep site .fifo) d as = some d') :
    asksOf (history site .fifo d as) = asks as := by
  induction as generalizing d with
  | nil => rfl
  | cons a as ih =>
    obtain ⟨d₁, hs, hx⟩ := exec_cons.1 hx
    have hone : asksOf (events site .fifo d a) = asks [a] := by
      cases a with
      | call => rw [events, asksOf_frames]; rfl
      | _ => rfl
    have htail : asksOf (trace (deviceStep site .fifo) (events site .fifo) d₁ as) = asks as := ih hx
    rw [history, trace, hs, Option.elim_some, asksOf_append, hone, htail]
    exact (List.filterMap_append (l := [a])).symm

end Stream

/-! ## The ring -/

/-- What arrives fits in what the ring is sure to hold. -/
def Roomy (d : Device RxRing) (a : DeviceAct) : Prop :=
  ∀ bytes, a = .arrive bytes → d.ring.contents.length + bytes.length ≤ 22

/-- The device with the bytes of its ring in a queue. -/
def Device.queued (d : Device RxRing) : Device (List UInt8) := ⟨d.proc, d.ring.contents, d.sdk⟩

section Ring

variable {site : Site} {d : Device RxRing}

/-- A call on the ring is a call on the queue of its bytes. -/
theorem service_ring (site : Site) (hd : d.ring.Ok) (fuel : Nat) :
    (∀ d', (wifiUartService site .ring fuel d).2 = some d' → d'.ring.Ok) ∧
      wifiUartService site .fifo fuel d.queued =
        ((wifiUartService site .ring fuel d).1, (wifiUartService site .ring fuel d).2.map Device.queued) := by
  obtain ⟨w, r, hring, hok, hfifo⟩ := receive_ring (w := d.proc) hd (processBufSize - d.proc.rxIn)
  have hfifo : receive .fifo (processBufSize - d.queued.proc.rxIn) d.queued.proc d.queued.ring = some (w, r.contents) :=
    hfifo
  simp only [wifiUartService, hring, hfifo]
  by_cases h7 : w.rxIn < protocolHead
  · simp only [if_pos h7]
    exact ⟨fun d' hd' => Option.some.inj hd' ▸ hok, rfl⟩
  · simp only [if_neg h7]
    refine ⟨fun d' hd' => ?_, ?_⟩
    · obtain ⟨e, -, rfl⟩ := Option.map_eq_some_iff.1 hd'
      exact hok
    · rw [Option.map_map]
      rfl

/-- A step on the ring, as long as it has room, is one on the queue. -/
theorem step_ring (hd : d.ring.Ok) {a : DeviceAct} (hroom : Roomy d a) :
    (∀ d', deviceStep site .ring d a = some d' → d'.ring.Ok) ∧
      deviceStep site .fifo d.queued a = (deviceStep site .ring d a).map Device.queued ∧
      events site .fifo d.queued a = events site .ring d a := by
  cases a with
  | arrive bytes =>
    obtain ⟨r, hr, hok, hc⟩ := takeIn_ring hd (hroom bytes rfl)
    have hq : takeIn .fifo d.queued.ring bytes = some r.contents := by rw [takeIn_fifo, hc]; rfl
    refine ⟨fun d' hd' => ?_, ?_, rfl⟩
    · rw [deviceStep, hr] at hd'
      exact Option.some.inj hd' ▸ hok
    · rw [deviceStep, deviceStep, hr, hq]
      rfl
  | ask b => exact ⟨fun d' hd' => Option.some.inj hd' ▸ hd, rfl, rfl⟩
  | call =>
    obtain ⟨hok, hserv⟩ := service_ring site hd parseFuel
    exact ⟨hok, by rw [deviceStep, deviceStep, hserv], by rw [events, events, handovers, handovers, hserv]⟩

/-- A run on the ring that has room is a run on the queue, with the same events. -/
theorem run_ring {as : List DeviceAct} (hd : d.ring.Ok) (hroom : Along (deviceStep site .ring) Roomy d as) :
    exec (deviceStep site .fifo) d.queued as = (exec (deviceStep site .ring) d as).map Device.queued ∧
      history site .fifo d.queued as = history site .ring d as :=
  exec_view (J := fun d => d.ring.Ok) (fun _ _ _ hd hr hs => (step_ring hd hr).1 _ hs)
    (fun _ _ hd hr => (step_ring hd hr).2) hd hroom

theorem roomy_calls (d : Device RxRing) (n : Nat) : Along (deviceStep site .ring) Roomy d (List.replicate n .call) := by
  induction n generalizing d with
  | zero => trivial
  | succ n ih => exact ⟨fun _ h => DeviceAct.noConfusion h, fun d' _ => ih d'⟩

end Ring

/-- **Every request is answered once and in order.** Of a stream of requests,
however it is cut, whenever the service is called and whatever the application
sends in between, as long as the ring has room for what arrives, the device
handles each one, and nothing else; the SDK ends in the state that the session of
these requests and calls comes to, in the order they were handled in. -/
theorem device_serves (site : Site) {incoming : List Incoming} {t : Tail} {as : List DeviceAct}
    (h : arrivals as = streamOf (incoming.map Incoming.segment) t) (hasks : ∀ b ∈ asks as, b.Short)
    (txBuf buf rxBuf : Nat → UInt8) (before : UInt8)
    (hroom : Along (deviceStep site .ring) Roomy (.start txBuf buf before (wifiProtocolInit rxBuf)) as) :
    ∃ n d E, exec (deviceStep site .ring) (.start txBuf buf before (wifiProtocolInit rxBuf))
        (as ++ List.replicate n .call) = some d ∧
      history site .ring (.start txBuf buf before (wifiProtocolInit rxBuf)) (as ++ List.replicate n .call) = E ∧
      demandsOf E = incoming.map (·.request.demand site.toEnv) ∧ asksOf E = asks as ∧
      Shows txBuf d.sdk (E.foldl Session.run .start) := by
  have hqueued : (Device.start txBuf buf before (wifiProtocolInit rxBuf)).queued = .start txBuf buf before [] := by
    rw [Device.queued, Device.start, contents_init]
    rfl
  have hok : ∀ r ∈ incoming.map (·.request), r.Ok := by
    intro r hr
    obtain ⟨i, -, rfl⟩ := List.mem_map.1 hr
    exact i.ok
  have hframes : (incoming.map Incoming.segment).map Segment.frame =
      (incoming.map (·.request)).map Request.frame := by
    rw [List.map_map, List.map_map]
    rfl
  obtain ⟨r, hset⟩ := settles_streamOf (incoming.map Incoming.segment) t
  rw [← h, hframes] at hset
  obtain ⟨n, -, ⟨d', hp, hF⟩ | hp⟩ := comes_to_rest site (d := .start txBuf buf before []) hset
  case inr =>
    -- the last frame handed over would be a request
    obtain ⟨H, g, hH, hspin, -⟩ := hp.last
    have hg : g.frame ∈ (incoming.map (·.request)).map Request.frame := by
      refine hp.frames.subset ?_
      rw [hH, List.map_append]
      exact List.mem_append_right _ (List.mem_singleton_self _)
    obtain ⟨req, hreq, hf⟩ := List.mem_map.1 hg
    exact absurd hspin (not_spins_request (hok req hreq) hf.symm)
  have hcalls : asks (as ++ List.replicate n .call) = asks as := by
    simp [asks, List.filterMap_append]
  obtain ⟨hx, hhist⟩ := run_ring (init_ok rxBuf) (hroom.then fun u _ => roomy_calls u n)
  rw [hqueued] at hx hhist
  obtain ⟨d, hd, -⟩ := Option.map_eq_some_iff.1 (hx.symm.trans hp.run)
  rw [← hcalls] at hasks
  refine ⟨n, d, _, hd, rfl, ?_, ?_, shows_history hasks hd⟩
  · rw [← hhist, demandsOf_history]
    exact (demands_requests site hok hF).trans (List.map_map ..)
  · rw [← hhist, asksOf_history hp.run, hcalls]

theorem heatBeat_ok : Request.heatBeat.Ok := ⟨Nat.zero_le 24, fun _ h => (nomatch h), fun _ _ h => (nomatch h)⟩

/-- The command to give water. -/
def waterRequest : Request := .dataQuert [⟨236, 1, [1], by decide⟩]

theorem waterRequest_ok : waterRequest.Ok := by
  refine ⟨by decide, fun points h p hp => ?_, fun _ _ h => (nomatch h)⟩
  obtain rfl := Request.dataQuert.inj h
  obtain rfl := List.mem_singleton.1 hp
  exact ⟨⟨⟨236, 1⟩, by decide, rfl⟩, fun _ => by decide⟩

/-- A heartbeat in two pieces, a reset of the module in between, and the command. -/
def waterRun : List DeviceAct :=
  [.arrive [9, 0x55, 0xaa], .call, .ask .resetWifi,
    .arrive [0, 0, 0, 0, 0xff, 0x55, 0xaa, 0, 6, 0, 5, 236, 1, 0, 1, 1, 0xf9]]

theorem waterRun_roomy : Along (deviceStep .plain .ring) Roomy .powerOn waterRun := by
  refine .cons rfl (fun bytes hb => ?_) <| .cons rfl (fun bytes hb => ?_) <| .cons rfl (fun bytes hb => ?_) <|
    .cons rfl (fun bytes hb => ?_) trivial
  · exact DeviceAct.arrive.inj hb ▸ by decide
  · cases hb
  · cases hb
  · exact DeviceAct.arrive.inj hb ▸ by decide

theorem device_serves_water :
    ∃ n d E, exec (deviceStep .plain .ring) .powerOn (waterRun ++ List.replicate n .call) = some d ∧
      history .plain .ring .powerOn (waterRun ++ List.replicate n .call) = E ∧
      demandsOf E = [.heatBeat, .dataQuert [⟨some (.feedWater 1), some (236, .bool 1), 1⟩]] ∧
      asksOf E = [.resetWifi] ∧ Shows (fun _ => 0) d.sdk (E.foldl Session.run .start) := by
  have harrivals : arrivals waterRun =
      streamOf ([⟨[9], .heatBeat, by decide, heatBeat_ok⟩, ⟨[], waterRequest, by decide, waterRequest_ok⟩].map
        Incoming.segment) ⟨[], [], 0, [], by decide, by decide, by decide, by decide⟩ := by decide
  exact device_serves .plain harrivals (fun b hb => List.mem_singleton.1 hb ▸ trivial) _ _ _ _ waterRun_roomy

end Petbox.Wifi
