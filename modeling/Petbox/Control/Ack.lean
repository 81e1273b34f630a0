/-
The acknowledgement of a feed request (`dp_download_feed_num_handle` in
`tuya/protocol.c`): the request goes through the control queue to the feeder,
the report to the app is made at once.

The report says nothing about what the feeder does: the result of the send is
not looked at, and a busy feeder ignores a request. To say what the feeder
does for one request, the messages carry the number of their request in a copy
of the machine (`Tagged`) that behaves as the source's does (`erase_step`) and
counts, for each request, the times the feed timer is started for it: each
start is one part.
-/
import Petbox.Control.Feeder
import Petbox.Lib.Fair

namespace Petbox.Control

open Machine

/-! ## The source's machine -/

def success : UInt8 := 1
def error : UInt8 := 0

/-- `MAX_NUMBER_OF_IO_MESSAGE`. -/
def maxNumberOfIoMessage : Nat := 0x20

/-- `os_msg_send`: the queue afterwards and whether the message is in it. -/
def osMsgSend {β : Type} (q : List β) (m : β) : List β × Bool :=
  if q.length < maxNumberOfIoMessage then (q ++ [m], true) else (q, false)

/-- The control task with its queue, and `stop_update_flag` of the Tuya SDK. -/
structure Device where
  control : ControlState
  queue : List IoMsg
  stopUpdate : Bool

def Device.start : Device := { control := .start, queue := [], stopUpdate := false }

/-- `byte_to_int`, on the four bytes `value` points at. -/
def byteToInt (value : Nat → UInt8) : UInt32 :=
  let number := (value 0).toUInt32
  let number := number <<< 8
  let number := number ||| (value 1).toUInt32
  let number := number <<< 8
  let number := number ||| (value 2).toUInt32
  let number := number <<< 8
  number ||| (value 3).toUInt32

/-- `mcu_dp_value_update`: stopped uploads succeed as well. -/
def mcuDpValueUpdate (dpid : UInt8) (value : UInt32) (d : Device) : UInt8 × List Upload :=
  if d.stopUpdate then (success, []) else (success, [.valueUpdate dpid value])

/-- The message `control_feed_num` sends second. -/
def playVoice : IoMsg := ⟨customMsgControl, controlMsgPlayVoice, 1⟩

/-- The results of the two sends are dropped. -/
def controlFeedNum (num : UInt32) (d : Device) : UInt32 × Device :=
  let queue := (osMsgSend d.queue (feedfoodStart num)).1
  (num, { d with queue := (osMsgSend queue playVoice).1 })

def dpDownloadFeedNumHandle (value : Nat → UInt8) (d : Device) : UInt8 × Device × List Upload :=
  let feedNum := byteToInt value
  let (feedNum, d) := controlFeedNum feedNum d
  let (ret, uploads) := mcuDpValueUpdate dpidFeedNum feedNum d
  if ret = success then (success, d, uploads) else (error, d, uploads)

/-- One round of `control_main_task`. -/
def controlMainTask (d : Device) : Device :=
  match d.queue with
  | [] => d
  | m :: queue =>
    if m.type = customMsgControl then { d with control := (controlHandleIoMsg m d.control).1, queue }
    else { d with queue }

inductive DeviceAct
  | download (value : Nat → UInt8)
  | controlTask
  | feedTimer

def deviceStep (d : Device) : DeviceAct → Option Device
  | .download value => some (dpDownloadFeedNumHandle value d).2.1
  | .controlTask => some (controlMainTask d)
  | .feedTimer => (feedStep d.control .expire).map fun control => { d with control }

/-! ## The machine with request numbers -/

/-- The device with the request number on each queued message, the request the
feeder works for, the requested counts so far, and the parts started for each request. -/
structure Tagged where
  control : ControlState
  queue : List (IoMsg × Nat)
  stopUpdate : Bool
  owner : Nat
  values : List UInt32
  started : Nat → Nat

def Tagged.start : Tagged :=
  { control := .start, queue := [], stopUpdate := false, owner := 0, values := [], started := fun _ => 0 }

def Tagged.erase (t : Tagged) : Device :=
  { control := t.control, queue := t.queue.map (·.1), stopUpdate := t.stopUpdate }

/-- One more part for request `r`. -/
def startPart (started : Nat → Nat) (r : Nat) : Nat → Nat := fun k => if k = r then started k + 1 else started k

/-- A START message for the control task. -/
def IoMsg.isStart (m : IoMsg) : Bool := m.type == customMsgControl && m.subtype == controlMsgFeedfoodStart

/-- The control task takes the message `m` of request `r`; a START message from an
idle feeder starts the first part of the request. -/
def Tagged.handle (t : Tagged) (m : IoMsg) (r : Nat) (queue : List (IoMsg × Nat)) : Tagged :=
  { t with
    control := if m.type = customMsgControl then (controlHandleIoMsg m t.control).1 else t.control
    queue
    owner := if m.isStart ∧ t.control.feeder.feedFoodNum = 0 then r else t.owner
    started := if m.isStart ∧ t.control.feeder.feedFoodNum = 0 then startPart t.started r else t.started }

def taggedStep (t : Tagged) : DeviceAct → Option Tagged
  | .download value =>
    let r := t.values.length
    let queue := (osMsgSend t.queue (feedfoodStart (byteToInt value), r)).1
    some { t with queue := (osMsgSend queue (playVoice, r)).1, values := t.values ++ [byteToInt value] }
  | .controlTask =>
    match t.queue with
    | [] => some t
    | (m, r) :: queue => some (t.handle m r queue)
  | .feedTimer => (feedStep t.control .expire).map fun control =>
      { t with control, started := if control.feeder.timer then startPart t.started t.owner else t.started }

theorem map_osMsgSend {β γ : Type} (f : β → γ) (q : List β) (m : β) :
    (osMsgSend q m).1.map f = (osMsgSend (q.map f) (f m)).1 := by
  simp only [osMsgSend, List.length_map]
  split <;> simp

/-- The request numbers change nothing the device does. -/
theorem erase_step (t : Tagged) (a : DeviceAct) : (taggedStep t a).map Tagged.erase = deviceStep t.erase a := by
  cases a with
  | download value =>
    have hd : (dpDownloadFeedNumHandle value t.erase).2.1 = (controlFeedNum (byteToInt value) t.erase).2 := by
      simp only [dpDownloadFeedNumHandle]
      split <;> rfl
    simp only [taggedStep, deviceStep, hd, Option.map_some]
    simp only [Tagged.erase, controlFeedNum, map_osMsgSend]
  | controlTask =>
    obtain ⟨control, queue, stopUpdate, owner, values, started⟩ := t
    cases queue with
    | nil => rfl
    | cons p queue =>
      obtain ⟨m, r⟩ := p
      simp only [taggedStep, deviceStep, Option.map_some, Tagged.erase, controlMainTask, List.map_cons, Tagged.handle]
      split <;> rfl
  | feedTimer =>
    simp only [taggedStep, deviceStep, Option.map_map]
    rfl

/-- The value a download reports to the app, when the handler returns SUCCESS. -/
def reported (value : Nat → UInt8) (d : Device) : Option UInt32 :=
  match dpDownloadFeedNumHandle value d with
  | (ret, _, [.valueUpdate dpid n]) => if ret = success ∧ dpid = dpidFeedNum then some n else none
  | _ => none

theorem reported_eq (value : Nat → UInt8) (d : Device) :
    reported value d = if d.stopUpdate then none else some (byteToInt value) := by
  unfold reported dpDownloadFeedNumHandle mcuDpValueUpdate controlFeedNum
  cases d.stopUpdate <;> rfl

/-! ## What is to hold, and when it does -/

/-- The control task and the feed timer both keep going. -/
structure Fair (ρ : InfRun taggedStep .start) : Prop where
  controlTask : ∀ i, ∃ j, i ≤ j ∧ ρ.act j = .controlTask
  feedTimer : ∀ i, (ρ.state i).control.feeder.timer = true → ∃ j, i ≤ j ∧ ρ.act j = .feedTimer

/-- From some time on, exactly `n` parts have been started for request `r`. -/
def Starts (ρ : InfRun taggedStep .start) (r n : Nat) : Prop := ∃ i, ∀ j, i ≤ j → (ρ.state j).started r = n

/-- Every value reported to the app is the number of parts started for its request. -/
def Truthful (ρ : InfRun taggedStep .start) : Prop :=
  ∀ i value n, ρ.act i = .download value → reported value (ρ.state i).erase = some n →
    Starts ρ (ρ.state i).values.length n.toNat

/-- A request for parts finds room in the queue, and its START message finds the
feeder at rest and asks for 1 to 256 parts; a request for no parts is dropped, by
the full queue or by the busy feeder. -/
def Served (t : Tagged) : DeviceAct → Prop
  | .download value => t.queue.length < maxNumberOfIoMessage ∨ byteToInt value = 0
  | .controlTask => ∀ m r queue, t.queue = (m, r) :: queue → m.isStart = true →
      (t.control.feeder.timer = false ∧ 1 ≤ m.param.toNat ∧ m.param.toNat ≤ 256) ∨
      (t.control.feeder.feedFoodNum ≠ 0 ∧ m.param = 0)
  | .feedTimer => True

/-! ## The account of every run -/

/-- The parts a request still has coming, the one under way not counted. -/
def Feeder.rest (f : Feeder) : Nat := (f.feedFoodNum.toNat + 255) % 256

/-- The parts started for a request for `n` that nothing disturbs. -/
def portion (n : UInt32) : Nat := (n.toNat + 255) % 256 + 1

/-- What holds in every state: a queued START message is the only one of its
request, carries its count and has started nothing; the running timer works for
a request that is not queued, and what was started and what is to come make up
its portion. -/
structure Tagged.Ok (t : Tagged) : Prop where
  queued : ∀ m r, (m, r) ∈ t.queue → m.isStart = true →
    t.values[r]? = some m.param ∧ t.started r = 0 ∧ (t.control.feeder.timer = true → t.owner ≠ r)
  order : t.queue.Pairwise fun x y => x.1.isStart = true → y.1.isStart = true → x.2 < y.2
  fresh : ∀ r, t.values.length ≤ r → t.started r = 0
  busy : t.control.feeder.feedFoodNum ≠ 0 → t.control.feeder.timer = true
  account : t.control.feeder.timer = true → ∃ n, t.values[t.owner]? = some n ∧ 1 ≤ t.started t.owner ∧
    t.started t.owner + t.control.feeder.rest = portion n
  bound : ∀ r, t.started r ≤ 256

theorem portion_le (n : UInt32) : portion n ≤ 256 := by unfold portion; omega

theorem portion_eq {n : UInt32} (h1 : 1 ≤ n.toNat) (h2 : n.toNat ≤ 256) : portion n = n.toNat := by
  unfold portion
  omega

theorem start_ok : Tagged.start.Ok :=
  ⟨fun _ _ h => (List.not_mem_nil h).elim, List.Pairwise.nil, fun _ _ => rfl, fun h => absurd rfl h,
    fun h => Bool.noConfusion h, fun _ => Nat.zero_le _⟩

theorem Tagged.Ok.lt {t : Tagged} (h : t.Ok) {m : IoMsg} {r : Nat} (hm : (m, r) ∈ t.queue) (hs : m.isStart = true) :
    r < t.values.length := (List.getElem?_eq_some_iff.1 (h.queued m r hm hs).1).1

theorem Tagged.Ok.owner_lt {t : Tagged} (h : t.Ok) (ht : t.control.feeder.timer = true) :
    t.owner < t.values.length := by
  obtain ⟨n, hn, -⟩ := h.account ht
  exact (List.getElem?_eq_some_iff.1 hn).1

theorem startPart_self (started : Nat → Nat) (r : Nat) : startPart started r r = started r + 1 := if_pos rfl

theorem startPart_ne {started : Nat → Nat} {r k : Nat} (h : k ≠ r) : startPart started r k = started k := if_neg h

/-- A send appends the message or leaves the queue as it is. -/
theorem osMsgSend_eq {β : Type} (q : List β) (m : β) :
    (q.length < maxNumberOfIoMessage ∧ (osMsgSend q m).1 = q ++ [m]) ∨
    (maxNumberOfIoMessage ≤ q.length ∧ (osMsgSend q m).1 = q) := by
  unfold osMsgSend
  split
  · next h => exact .inl ⟨h, rfl⟩
  · next h => exact .inr ⟨Nat.not_lt.1 h, rfl⟩

theorem isStart_playVoice : playVoice.isStart = false := by decide

/-- Everything a download can do: it adds to the queue the START message of the
new request when there is room, and no START message else. -/
theorem download_cases {t t' : Tagged} {value : Nat → UInt8} (h : taggedStep t (.download value) = some t') :
    ∃ added, t' = { t with queue := t.queue ++ added, values := t.values ++ [byteToInt value] } ∧
      ((∃ rest, added = (feedfoodStart (byteToInt value), t.values.length) :: rest ∧
          t.queue.length < maxNumberOfIoMessage ∧ ∀ x ∈ rest, x.1.isStart = false) ∨
        (added = [] ∧ maxNumberOfIoMessage ≤ t.queue.length)) := by
  simp only [taggedStep, Option.some.injEq] at h
  rw [← h]
  rcases osMsgSend_eq t.queue (feedfoodStart (byteToInt value), t.values.length) with ⟨hlt, hq⟩ | ⟨hge, hq⟩
  · rw [hq]
    rcases osMsgSend_eq (t.queue ++ [(feedfoodStart (byteToInt value), t.values.length)])
        (playVoice, t.values.length) with ⟨-, hq'⟩ | ⟨-, hq'⟩
    · refine ⟨[_, _], by rw [hq', List.append_assoc]; rfl, .inl ⟨_, rfl, hlt, fun x hx => ?_⟩⟩
      rw [List.mem_singleton] at hx
      rw [hx]
      exact isStart_playVoice
    · exact ⟨[_], by rw [hq'], .inl ⟨[], rfl, hlt, fun x hx => (List.not_mem_nil hx).elim⟩⟩
  · rw [hq]
    rcases osMsgSend_eq t.queue (playVoice, t.values.length) with ⟨hlt, -⟩ | ⟨-, hq'⟩
    · omega
    · exact ⟨[], by rw [hq', List.append_nil], .inr ⟨rfl, hge⟩⟩

/-- A message that is no START message leaves the feeder alone. -/
theorem handle_feeder {m : IoMsg} (h : ¬ m.isStart = true) (c : ControlState) (ht : m.type = customMsgControl) :
    (controlHandleIoMsg m c).1.feeder = c.feeder := by
  have hs : m.subtype ≠ controlMsgFeedfoodStart := fun hs => h (by simp [IoMsg.isStart, ht, hs])
  unfold controlHandleIoMsg
  rw [if_neg hs]
  repeat' split
  all_goals first | rfl | (unfold controlInit; split <;> rfl)

/-- Everything taking a message can do. -/
theorem handle_cases (t : Tagged) (m : IoMsg) (r : Nat) (queue : List (IoMsg × Nat)) :
    (m.isStart = true ∧ t.control.feeder.feedFoodNum = 0 ∧ (t.handle m r queue).owner = r ∧
      (t.handle m r queue).started = startPart t.started r ∧
      (t.handle m r queue).control.feeder = { feedFoodNum := m.param.toUInt8, moto := feedMoto true, timer := true }) ∨
    (¬ (m.isStart = true ∧ t.control.feeder.feedFoodNum = 0) ∧ (t.handle m r queue).owner = t.owner ∧
      (t.handle m r queue).started = t.started ∧ (t.handle m r queue).control.feeder = t.control.feeder) := by
  have hfeed : m.isStart = true → (t.handle m r queue).control.feeder = feedFood m.param.toUInt8 t.control.feeder := by
    intro hs
    simp only [IoMsg.isStart, Bool.and_eq_true, beq_iff_eq] at hs
    have hstart : m = feedfoodStart m.param := by rw [feedfoodStart, ← hs.1, ← hs.2]
    simp only [Tagged.handle, hs.1, if_true]
    rw [hstart, handle_feedfoodStart]
    rfl
  by_cases h : m.isStart = true ∧ t.control.feeder.feedFoodNum = 0
  · exact .inl ⟨h.1, h.2, if_pos h, if_pos h, by rw [hfeed h.1, feedFood_idle h.2]⟩
  · refine .inr ⟨h, if_neg h, if_neg h, ?_⟩
    by_cases hs : m.isStart = true
    · rw [hfeed hs, feedFood_busy fun h0 => h ⟨hs, h0⟩]
    · simp only [Tagged.handle]
      split
      · next ht => exact handle_feeder hs t.control ht
      · rfl

/-- Everything a round of the control task can do. -/
theorem controlTask_cases {t t' : Tagged} (h : taggedStep t .controlTask = some t') :
    (t.queue = [] ∧ t' = t) ∨ ∃ m r queue, t.queue = (m, r) :: queue ∧ t' = t.handle m r queue := by
  simp only [taggedStep] at h
  split at h
  · next hq => exact .inl ⟨hq, (Option.some.inj h).symm⟩
  · next m r queue hq => exact .inr ⟨m, r, queue, hq, (Option.some.inj h).symm⟩

@[simp] theorem handle_values (t : Tagged) (m : IoMsg) (r : Nat) (queue : List (IoMsg × Nat)) :
    (t.handle m r queue).values = t.values := rfl

/-- Everything an expiration can do: stop the feeder with the last part, or start one more. -/
theorem feedTimer_cases {t t' : Tagged} (h : taggedStep t .feedTimer = some t') :
    t.control.feeder.timer = true ∧ t'.queue = t.queue ∧ t'.values = t.values ∧ t'.owner = t.owner ∧
    t'.stopUpdate = t.stopUpdate ∧ t'.control.feeder.feedFoodNum = t.control.feeder.feedFoodNum - 1 ∧
    ((t.control.feeder.feedFoodNum = 1 ∧ t'.control.feeder.timer = false ∧ t'.started = t.started) ∨
      (t.control.feeder.feedFoodNum ≠ 1 ∧ t'.control.feeder.timer = true ∧
        t'.started = startPart t.started t.owner)) := by
  simp only [taggedStep, feedStep] at h
  split at h
  · next ht =>
    by_cases h1 : t.control.feeder.feedFoodNum = 1
    · rw [timerCallback_last (by exact h1), Option.map_some, Option.some.injEq] at h
      subst h
      exact ⟨ht, rfl, rfl, rfl, rfl, by rw [h1]; rfl, .inl ⟨h1, rfl, rfl⟩⟩
    · rw [timerCallback_more (by exact h1), Option.map_some, Option.some.injEq] at h
      subst h
      exact ⟨ht, rfl, rfl, rfl, rfl, rfl, .inr ⟨h1, rfl, rfl⟩⟩
  · cases h

/-- Any message at the front, and no START message behind it. -/
theorem order_cons {x : IoMsg × Nat} {rest : List (IoMsg × Nat)} (h : ∀ y ∈ rest, y.1.isStart = false) :
    (x :: rest).Pairwise fun x y => x.1.isStart = true → y.1.isStart = true → x.2 < y.2 := by
  have quiet : ∀ y ∈ rest, ¬ y.1.isStart = true := fun y hy => by simp [h y hy]
  refine List.Pairwise.cons (fun y hy _ hs => absurd hs (quiet y hy)) ?_
  exact List.pairwise_of_forall_mem_list fun y hy z _ hs => absurd hs (quiet y hy)

theorem Tagged.Ok.download {t t' : Tagged} (h : t.Ok) {value : Nat → UInt8}
    (hs : taggedStep t (.download value) = some t') : t'.Ok := by
  obtain ⟨added, rfl, hadd⟩ := download_cases hs
  have keep : ∀ {r n}, t.values[r]? = some n → (t.values ++ [byteToInt value])[r]? = some n := fun hr => by
    rw [List.getElem?_append_left (List.getElem?_eq_some_iff.1 hr).1]
    exact hr
  have hnew : ∀ x ∈ added, x.1.isStart = true → x = (feedfoodStart (byteToInt value), t.values.length) := by
    rcases hadd with ⟨rest, rfl, -, hrest⟩ | ⟨rfl, -⟩
    · intro x hx hst
      rcases List.mem_cons.1 hx with rfl | hx
      · rfl
      · rw [hrest x hx] at hst
        cases hst
    · exact fun x hx => (List.not_mem_nil hx).elim
  refine ⟨?_, ?_, ?_, h.busy, ?_, h.bound⟩
  · intro m r hm hst
    rcases List.mem_append.1 hm with hm | hm
    · obtain ⟨hv, h0, ho⟩ := h.queued m r hm hst
      exact ⟨keep hv, h0, ho⟩
    · have heq := hnew _ hm hst
      simp only [Prod.mk.injEq] at heq
      obtain ⟨rfl, rfl⟩ := heq
      exact ⟨by simp [feedfoodStart], h.fresh _ (Nat.le_refl _), fun ht => Nat.ne_of_lt (h.owner_lt ht)⟩
  · refine List.pairwise_append.2 ⟨h.order, ?_, fun x hx y hy hsx hsy => ?_⟩
    · rcases hadd with ⟨rest, rfl, -, hrest⟩ | ⟨rfl, -⟩
      · exact order_cons hrest
      · exact List.Pairwise.nil
    · rw [hnew y hy hsy]
      exact h.lt hx hsx
  · intro r hr
    exact h.fresh r (by simp at hr; omega)
  · intro ht
    obtain ⟨n, hn, hacc⟩ := h.account ht
    exact ⟨n, keep hn, hacc⟩

theorem Tagged.Ok.handle {t : Tagged} (h : t.Ok) {m : IoMsg} {r : Nat} {queue : List (IoMsg × Nat)}
    (hq : t.queue = (m, r) :: queue) : (t.handle m r queue).Ok := by
  have hmem : ∀ {x}, x ∈ queue → x ∈ t.queue := fun hx => hq ▸ List.mem_cons_of_mem _ hx
  have hhead : (m, r) ∈ t.queue := by simp [hq]
  have horder := h.order
  rw [hq, List.pairwise_cons] at horder
  rcases handle_cases t m r queue with ⟨hs, hidle, ho, hst, hf⟩ | ⟨-, ho, hst, hf⟩
  · obtain ⟨hv, h0, -⟩ := h.queued m r hhead hs
    have hlt := h.lt hhead hs
    refine ⟨?_, horder.2, ?_, ?_, ?_, ?_⟩
    · intro m' r' hm' hs'
      obtain ⟨hv', h0', -⟩ := h.queued m' r' (hmem hm') hs'
      have hne : r < r' := horder.1 _ hm' hs hs'
      rw [hst, startPart_ne (by omega), ho]
      exact ⟨hv', h0', fun _ => by omega⟩
    · intro k hk
      rw [handle_values] at hk
      rw [hst, startPart_ne (by omega)]
      exact h.fresh k hk
    · rw [hf]
      exact fun _ => rfl
    · intro _
      refine ⟨m.param, by rw [ho]; exact hv, ?_⟩
      rw [ho, hst, startPart_self, h0, hf]
      simp only [Feeder.rest, portion, UInt32.toNat_toUInt8]
      omega
    · intro k
      rw [hst]
      by_cases hk : k = r
      · rw [hk, startPart_self, h0]
        omega
      · rw [startPart_ne hk]
        exact h.bound k
  · refine ⟨?_, horder.2, ?_, ?_, ?_, ?_⟩
    · intro m' r' hm' hs'
      rw [hst, ho, hf]
      exact h.queued m' r' (hmem hm') hs'
    · rw [hst]
      exact h.fresh
    · rw [hf]
      exact h.busy
    · rw [ho, hst, hf]
      exact h.account
    · rw [hst]
      exact h.bound

theorem rest_sub_one {n : UInt8} (h : n ≠ 1) : ((n - 1).toNat + 255) % 256 + 1 = (n.toNat + 255) % 256 := by
  have hne : n.toNat ≠ 1 := fun h1 => h (UInt8.toNat.inj h1)
  have hlt := n.toNat_lt
  simp only [UInt8.toNat_sub, UInt8.toNat_one]
  omega

theorem Tagged.Ok.feedTimer {t t' : Tagged} (h : t.Ok) (hs : taggedStep t .feedTimer = some t') : t'.Ok := by
  obtain ⟨ht, hq, hv, ho, -, hnum, hcase⟩ := feedTimer_cases hs
  rcases hcase with ⟨h1, ht', hst⟩ | ⟨h1, ht', hst⟩
  · refine ⟨?_, by rw [hq]; exact h.order, by rw [hv, hst]; exact h.fresh, ?_, fun ht'' => ?_,
      by rw [hst]; exact h.bound⟩
    · intro m r hm hsm
      rw [hq] at hm
      obtain ⟨hvr, h0, -⟩ := h.queued m r hm hsm
      rw [hv, hst, ht']
      exact ⟨hvr, h0, fun h => Bool.noConfusion h⟩
    · rw [hnum, h1]
      exact fun h => absurd rfl h
    · rw [ht'] at ht''
      cases ht''
  · obtain ⟨n, hn, hpos, hacc⟩ := h.account ht
    have hrest := rest_sub_one h1
    have hle := portion_le n
    simp only [Feeder.rest] at hacc
    refine ⟨?_, by rw [hq]; exact h.order, ?_, fun _ => ht', fun _ => ⟨n, by rw [hv, ho]; exact hn, ?_⟩, ?_⟩
    · intro m r hm hsm
      rw [hq] at hm
      obtain ⟨hvr, h0, hne⟩ := h.queued m r hm hsm
      rw [hv, hst, ho, startPart_ne (hne ht).symm]
      exact ⟨hvr, h0, fun _ => hne ht⟩
    · intro k hk
      rw [hv] at hk
      have := h.owner_lt ht
      rw [hst, startPart_ne (by omega)]
      exact h.fresh k hk
    · rw [ho, hst, startPart_self]
      simp only [Feeder.rest, hnum]
      omega
    · intro k
      rw [hst]
      by_cases hk : k = t.owner
      · rw [hk, startPart_self]
        omega
      · rw [startPart_ne hk]
        exact h.bound k

theorem taggedStep_ok (t : Tagged) (a : DeviceAct) (t' : Tagged) (h : t.Ok) (hs : taggedStep t a = some t') :
    t'.Ok := by
  cases a with
  | download value => exact h.download hs
  | controlTask =>
    obtain ⟨-, rfl⟩ | ⟨m, r, queue, hq, rfl⟩ := controlTask_cases hs
    · exact h
    · exact h.handle hq
  | feedTimer => exact h.feedTimer hs

/-! ## Requests that are over -/

/-- A part once started stays started. -/
theorem started_mono {t t' : Tagged} {a : DeviceAct} (hs : taggedStep t a = some t') (r : Nat) :
    t.started r ≤ t'.started r := by
  have hpart : ∀ k, t.started r ≤ startPart t.started k r := fun k => by
    unfold startPart
    split <;> omega
  cases a with
  | download value =>
    obtain ⟨added, rfl, -⟩ := download_cases hs
    exact Nat.le_refl _
  | controlTask =>
    obtain ⟨-, rfl⟩ | ⟨m, k, queue, -, rfl⟩ := controlTask_cases hs
    · exact Nat.le_refl _
    · obtain ⟨-, -, -, hst, -⟩ | ⟨-, -, hst, -⟩ := handle_cases t m k queue
      · rw [hst]
        exact hpart k
      · exact Nat.le_of_eq (congrFun hst r).symm
  | feedTimer =>
    obtain ⟨-, -, -, -, -, -, ⟨-, -, hst⟩ | ⟨-, -, hst⟩⟩ := feedTimer_cases hs
    · exact Nat.le_of_eq (congrFun hst r).symm
    · rw [hst]
      exact hpart t.owner

/-- Request `r` started `k` parts and will start no more. -/
structure Done (r k : Nat) (t : Tagged) : Prop where
  ok : t.Ok
  known : r < t.values.length
  started : t.started r = k
  unqueued : ∀ m, (m, r) ∈ t.queue → m.isStart = false
  released : t.control.feeder.timer = true → t.owner ≠ r

theorem Done.step {r k : Nat} (t : Tagged) (a : DeviceAct) (t' : Tagged) (h : Done r k t)
    (hs : taggedStep t a = some t') : Done r k t' := by
  have hok := taggedStep_ok t a t' h.ok hs
  cases a with
  | download value =>
    obtain ⟨added, rfl, hadd⟩ := download_cases hs
    have hknown := h.known
    refine ⟨hok, by simp; omega, h.started, ?_, h.released⟩
    intro m hm
    rcases List.mem_append.1 hm with hm | hm
    · exact h.unqueued m hm
    · rcases hadd with ⟨rest, rfl, -, hrest⟩ | ⟨rfl, -⟩
      · rcases List.mem_cons.1 hm with heq | hm
        · simp only [Prod.mk.injEq] at heq
          omega
        · exact hrest _ hm
      · exact (List.not_mem_nil hm).elim
  | controlTask =>
    obtain ⟨-, rfl⟩ | ⟨m, r', queue, hq, rfl⟩ := controlTask_cases hs
    · exact h
    · have hmem : ∀ {x}, x ∈ queue → x ∈ t.queue := fun hx => hq ▸ List.mem_cons_of_mem _ hx
      rcases handle_cases t m r' queue with ⟨hst, -, ho, hstart, -⟩ | ⟨-, ho, hstart, hf⟩
      · have hne : r ≠ r' := by
          intro heq
          have := h.unqueued m (by simp [hq, heq])
          rw [hst] at this
          cases this
        refine ⟨hok, h.known, by rw [hstart, startPart_ne hne, h.started], fun m hm => h.unqueued m (hmem hm),
          fun _ => ?_⟩
        rw [ho]
        exact hne.symm
      · refine ⟨hok, h.known, by rw [hstart, h.started], fun m hm => h.unqueued m (hmem hm), ?_⟩
        rw [ho, hf]
        exact h.released
  | feedTimer =>
    obtain ⟨ht, hq, hv, ho, -, -, hcase⟩ := feedTimer_cases hs
    have hne := h.released ht
    refine ⟨hok, by rw [hv]; exact h.known, ?_, by rw [hq]; exact h.unqueued, fun _ => by rw [ho]; exact hne⟩
    rcases hcase with ⟨-, -, hst⟩ | ⟨-, -, hst⟩
    · rw [hst, h.started]
    · rw [hst, startPart_ne hne.symm, h.started]

/-- A request whose START message is dropped starts nothing. -/
theorem done_of_full {t t' : Tagged} (h : t.Ok) {value : Nat → UInt8} (hfull : maxNumberOfIoMessage ≤ t.queue.length)
    (hs : taggedStep t (.download value) = some t') : Done t.values.length 0 t' := by
  have hok := h.download hs
  obtain ⟨added, rfl, ⟨rest, -, hlt, -⟩ | ⟨rfl, -⟩⟩ := download_cases hs
  · omega
  · refine ⟨hok, by simp, h.fresh _ (Nat.le_refl _), fun m hm => ?_, fun ht => Nat.ne_of_lt (h.owner_lt ht)⟩
    rw [List.append_nil] at hm
    refine Bool.eq_false_iff.2 fun hst => ?_
    exact Nat.lt_irrefl _ (h.lt hm hst)

/-- The other START messages are of other requests. -/
theorem Tagged.Ok.head_only {t : Tagged} (h : t.Ok) {m : IoMsg} {r : Nat} {queue : List (IoMsg × Nat)}
    (hq : t.queue = (m, r) :: queue) (hs : m.isStart = true) {m' : IoMsg} (hm : (m', r) ∈ queue) :
    m'.isStart = false := by
  have horder := h.order
  rw [hq, List.pairwise_cons] at horder
  exact Bool.eq_false_iff.2 fun hst => Nat.lt_irrefl _ (horder.1 (m', r) hm hs hst)

/-- A request that finds the feeder busy starts nothing. -/
theorem done_of_busy {t : Tagged} (h : t.Ok) {m : IoMsg} {r : Nat} {queue : List (IoMsg × Nat)}
    (hq : t.queue = (m, r) :: queue) (hs : m.isStart = true) (hbusy : t.control.feeder.feedFoodNum ≠ 0) :
    Done r 0 (t.handle m r queue) := by
  have hhead : (m, r) ∈ t.queue := by simp [hq]
  obtain ⟨-, h0, hne⟩ := h.queued m r hhead hs
  obtain ⟨-, hidle, -⟩ | ⟨-, ho, hst, hf⟩ := handle_cases t m r queue
  · exact absurd hidle hbusy
  · refine ⟨h.handle hq, h.lt hhead hs, by rw [hst, h0], fun m' hm => h.head_only hq hs hm, ?_⟩
    rw [ho, hf]
    exact hne

/-- A request accepted while the timer still runs for another, of 256 parts or
none, cuts that one off at its first part. -/
theorem done_of_cut {t : Tagged} (h : t.Ok) {m : IoMsg} {r : Nat} {queue : List (IoMsg × Nat)}
    (hq : t.queue = (m, r) :: queue) (hs : m.isStart = true) (hidle : t.control.feeder.feedFoodNum = 0)
    (ht : t.control.feeder.timer = true) :
    Done t.owner 1 (t.handle m r queue) ∧ ∃ n, t.values[t.owner]? = some n ∧ n.toNat ≠ 1 := by
  have hhead : (m, r) ∈ t.queue := by simp [hq]
  obtain ⟨n, hn, hpos, hacc⟩ := h.account ht
  have hle := portion_le n
  have hne : t.owner ≠ r := (h.queued m r hhead hs).2.2 ht
  simp only [Feeder.rest, hidle, UInt8.toNat_zero] at hacc
  obtain ⟨-, -, ho, hst, -⟩ | ⟨hnot, -⟩ := handle_cases t m r queue
  · refine ⟨⟨h.handle hq, h.owner_lt ht, by rw [hst, startPart_ne hne]; omega, fun m' hm => ?_, fun _ => ?_⟩, n, hn, ?_⟩
    · refine Bool.eq_false_iff.2 fun hst' => ?_
      exact (h.queued m' _ (by rw [hq]; exact List.mem_cons_of_mem _ hm) hst').2.2 ht rfl
    · rw [ho]
      exact hne.symm
    · unfold portion at hacc
      omega
  · exact absurd ⟨hs, hidle⟩ hnot

/-- The last part of a request for 1 to 256 ends it. -/
theorem done_of_last {t t' : Tagged} (h : t.Ok) {n : UInt32} (h1 : 1 ≤ n.toNat) (h2 : n.toNat ≤ 256)
    (hv : t.values[t.owner]? = some n) (hone : t.control.feeder.feedFoodNum = 1)
    (hs : taggedStep t .feedTimer = some t') : Done t.owner n.toNat t' := by
  obtain ⟨ht, hq, hv', -, -, -, ⟨-, ht', hst⟩ | ⟨hne, -⟩⟩ := feedTimer_cases hs
  · obtain ⟨n', hn', -, hacc⟩ := h.account ht
    rw [hv, Option.some.injEq] at hn'
    subst hn'
    have hrest : t.control.feeder.rest = 0 := by rw [Feeder.rest, hone]; rfl
    rw [hrest, portion_eq h1 h2] at hacc
    refine ⟨h.feedTimer hs, ?_, by rw [hst]; omega, fun m hm => ?_, fun h => ?_⟩
    · rw [hv']
      exact (List.getElem?_eq_some_iff.1 hv).1
    · rw [hq] at hm
      exact Bool.eq_false_iff.2 fun hsm => (h.queued m t.owner hm hsm).2.2 ht rfl
    · rw [ht'] at h
      cases h
  · exact absurd hone hne

/-! ## Fair runs -/

variable {ρ : InfRun taggedStep .start}

theorem run_ok (ρ : InfRun taggedStep .start) (i : Nat) : (ρ.state i).Ok := ρ.inv start_ok taggedStep_ok i

theorem run_stopUpdate (ρ : InfRun taggedStep .start) (i : Nat) : (ρ.state i).stopUpdate = false := by
  refine ρ.inv (I := fun t => t.stopUpdate = false) rfl (fun t a t' h hs => ?_) i
  cases a with
  | download value =>
    obtain ⟨added, rfl, -⟩ := download_cases hs
    exact h
  | controlTask =>
    obtain ⟨-, rfl⟩ | ⟨m, r, queue, -, rfl⟩ := controlTask_cases hs <;> exact h
  | feedTimer =>
    obtain ⟨-, -, -, -, hu, -⟩ := feedTimer_cases hs
    rw [hu]
    exact h

theorem starts_of_done {r k i : Nat} (h : Done r k (ρ.state i)) : Starts ρ r k :=
  ⟨i, fun _ hj => (ρ.inv_from Done.step h hj).started⟩

/-- The number of parts a request comes to is one number. -/
theorem Starts.unique {r n k : Nat} (h : Starts ρ r n) (h' : Starts ρ r k) : n = k := by
  obtain ⟨i, hi⟩ := h
  obtain ⟨j, hj⟩ := h'
  rw [← hi (max i j) (Nat.le_max_left i j), hj (max i j) (Nat.le_max_right i j)]

/-- A known count was requested by some download. -/
theorem download_of_value {i r : Nat} {n : UInt32} (h : (ρ.state i).values[r]? = some n) :
    ∃ d value, ρ.act d = .download value ∧ (ρ.state d).values.length = r ∧ byteToInt value = n := by
  induction i with
  | zero => simp [ρ.start, Tagged.start] at h
  | succ i ih =>
    have hs := ρ.next i
    cases ha : ρ.act i with
    | download value =>
      rw [ha] at hs
      obtain ⟨added, hx, -⟩ := download_cases hs
      rw [hx] at h
      simp only at h
      rcases Nat.lt_or_ge r (ρ.state i).values.length with hlt | hge
      · rw [List.getElem?_append_left hlt] at h
        exact ih h
      · have hr : r = (ρ.state i).values.length := by
          have := (List.getElem?_eq_some_iff.1 h).1
          simp only [List.length_append, List.length_singleton] at this
          omega
        subst hr
        simp only [List.getElem?_concat_length, Option.some.injEq] at h
        exact ⟨i, value, ha, rfl, h⟩
    | controlTask =>
      refine ih ?_
      rw [ha] at hs
      obtain ⟨-, hx⟩ | ⟨m, k, queue, -, hx⟩ := controlTask_cases hs <;> rw [hx] at h <;> exact h
    | feedTimer =>
      refine ih ?_
      rw [ha] at hs
      obtain ⟨-, -, hv, -⟩ := feedTimer_cases hs
      rw [hv] at h
      exact h

/-- In a truthful run every known count comes true. -/
theorem Truthful.starts (h : Truthful ρ) {i r : Nat} {n : UInt32} (hv : (ρ.state i).values[r]? = some n) :
    Starts ρ r n.toNat := by
  obtain ⟨d, value, ha, rfl, rfl⟩ := download_of_value hv
  refine h d value _ ha ?_
  rw [reported_eq]
  simp [Tagged.erase, run_stopUpdate]

/-- The message `m` of the request `r` waits in the queue behind `k` others. -/
def Queued (m : IoMsg) (r : Nat) (t : Tagged) (k : Nat) : Prop :=
  ∃ pre post, t.queue = pre ++ (m, r) :: post ∧ pre.length = k

/-- One step: the control task takes the head of the queue, and nothing else moves it. -/
theorem Queued.step {m : IoMsg} {r k : Nat} {t t' : Tagged} {a : DeviceAct} (h : Queued m r t k)
    (hs : taggedStep t a = some t') :
    (a = .controlTask ∧ ∃ queue, t.queue = (m, r) :: queue) ∨ (a ≠ .controlTask ∧ Queued m r t' k) ∨
      ∃ k', k' < k ∧ Queued m r t' k' := by
  obtain ⟨pre, post, hq, rfl⟩ := h
  cases a with
  | download value =>
    right; left
    obtain ⟨added, hx, -⟩ := download_cases hs
    exact ⟨by simp, pre, post ++ added, by rw [hx]; simp [hq], rfl⟩
  | controlTask =>
    cases pre with
    | nil => exact .inl ⟨rfl, post, hq⟩
    | cons x pre =>
      right; right
      simp only [taggedStep, hq, List.cons_append, Option.some.injEq] at hs
      exact ⟨pre.length, by simp, pre, post, by rw [← hs]; rfl, rfl⟩
  | feedTimer =>
    right; left
    obtain ⟨-, hq', -⟩ := feedTimer_cases hs
    exact ⟨by simp, pre, post, by rw [hq', hq], rfl⟩

/-- A queued START message comes to the head of the queue and is taken. -/
theorem eventually_taken (hfair : Fair ρ) {i r : Nat} {m : IoMsg} (h : (m, r) ∈ (ρ.state i).queue) :
    ∃ j queue, i ≤ j ∧ ρ.act j = .controlTask ∧ (ρ.state j).queue = (m, r) :: queue := by
  obtain ⟨pre, post, hq⟩ := List.append_of_mem h
  have htaken := eventually (P := fun j k => Queued m r (ρ.state j) k)
    (R := fun j => ρ.act j = .controlTask ∧ ∃ queue, (ρ.state j).queue = (m, r) :: queue)
    (H := fun j => ρ.act j = .controlTask) (fun j _ _ => hfair.controlTask j) (fun j _ h => h.step (ρ.next j))
    pre.length i ⟨pre, post, hq, rfl⟩
  obtain ⟨j, hj, ha, queue, hq⟩ := htaken
  exact ⟨j, queue, hj, ha, hq⟩

/-- The request `r` for `n` parts is the one at work, with `k` parts to come. -/
structure Serving (r : Nat) (n : UInt32) (t : Tagged) (k : Nat) : Prop where
  timer : t.control.feeder.timer = true
  owner : t.owner = r
  value : t.values[r]? = some n
  rest : t.control.feeder.rest = k

/-- Its last part is under way. -/
def LastPart (r : Nat) (n : UInt32) (t : Tagged) : Prop :=
  t.control.feeder.feedFoodNum = 1 ∧ t.owner = r ∧ t.values[r]? = some n

/-- One step: the timer ends a part, and nothing else disturbs the request. -/
theorem Serving.step {r k : Nat} {n : UInt32} {t t' : Tagged} {a : DeviceAct} (h : Serving r n t k)
    (hserved : Served t a) (hs : taggedStep t a = some t') :
    (a = .feedTimer ∧ LastPart r n t) ∨ (a ≠ .feedTimer ∧ Serving r n t' k) ∨ ∃ k', k' < k ∧ Serving r n t' k' := by
  obtain ⟨ht, ho, hv, rfl⟩ := h
  cases a with
  | download value =>
    right; left
    obtain ⟨added, hx, -⟩ := download_cases hs
    rw [hx]
    refine ⟨by simp, ht, ho, ?_, rfl⟩
    simp only
    rw [List.getElem?_append_left (List.getElem?_eq_some_iff.1 hv).1]
    exact hv
  | controlTask =>
    right; left
    obtain ⟨-, hx⟩ | ⟨m, r', queue, hq, hx⟩ := controlTask_cases hs
    · rw [hx]
      exact ⟨by simp, ht, ho, hv, rfl⟩
    · rw [hx]
      obtain ⟨hsm, hidle, -⟩ | ⟨-, ho', -, hf⟩ := handle_cases t m r' queue
      · -- No request is accepted while the timer runs.
        rcases hserved m r' queue hq hsm with ⟨hoff, -⟩ | ⟨hbusy, -⟩
        · rw [ht] at hoff
          cases hoff
        · exact absurd hidle hbusy
      · exact ⟨by simp, by rw [hf]; exact ht, by rw [ho']; exact ho, hv, by rw [hf]⟩
  | feedTimer =>
    obtain ⟨-, -, hv', ho', -, hnum, ⟨h1, -⟩ | ⟨hne, ht', -⟩⟩ := feedTimer_cases hs
    · exact .inl ⟨rfl, h1, ho, hv⟩
    · right; right
      have hrest := rest_sub_one hne
      refine ⟨_, ?_, ht', by rw [ho']; exact ho, by rw [hv']; exact hv, rfl⟩
      simp only [Feeder.rest, hnum]
      omega

/-- An accepted request for 1 to 256 parts that is not cut off comes to its end. -/
theorem eventually_served (hfair : Fair ρ) (hserved : ∀ i, Served (ρ.state i) (ρ.act i)) {i : Nat} {n : UInt32}
    {r : Nat} (h1 : 1 ≤ n.toNat) (h2 : n.toNat ≤ 256) (ht : (ρ.state i).control.feeder.timer = true)
    (ho : (ρ.state i).owner = r) (hv : (ρ.state i).values[r]? = some n) : Starts ρ r n.toNat := by
  have hend := eventually
    (P := fun j k => Serving r n (ρ.state j) k) (R := fun j => ρ.act j = .feedTimer ∧ LastPart r n (ρ.state j))
    (H := fun j => ρ.act j = .feedTimer) (fun j _ h => hfair.feedTimer j h.timer)
    (fun j _ h => h.step (hserved j) (ρ.next j)) _ i ⟨ht, ho, hv, rfl⟩
  obtain ⟨j, -, ha, hone, ho, hv⟩ := hend
  have hs := ρ.next j
  rw [ha] at hs
  subst ho
  exact starts_of_done (done_of_last (run_ok ρ j) h1 h2 hv hone hs)

/-- In a truthful run a request for parts finds room in the queue. -/
theorem Truthful.download_served (h : Truthful ρ) {i : Nat} {value : Nat → UInt8}
    (ha : ρ.act i = .download value) : Served (ρ.state i) (.download value) := by
  refine or_iff_not_imp_left.2 fun hfull => ?_
  have hs := ρ.next i
  rw [ha] at hs
  have hd := starts_of_done (done_of_full (run_ok ρ i) (Nat.not_lt.1 hfull) hs)
  have ht := h i value _ ha (by rw [reported_eq]; simp only [Tagged.erase, run_stopUpdate]; rfl)
  exact UInt32.toNat.inj (ht.unique hd)

/-- In a truthful run a START message finds the feeder at rest and asks for 1 to
256 parts, or is for none and ignored. -/
theorem Truthful.controlTask_served (h : Truthful ρ) {i : Nat} (ha : ρ.act i = .controlTask) :
    Served (ρ.state i) .controlTask := by
  intro m r queue hq hsm
  have hok := run_ok ρ i
  have hs := ρ.next i
  rw [ha] at hs
  simp only [taggedStep, hq, Option.some.injEq] at hs
  have ht := h.starts (hok.queued m r (by simp [hq]) hsm).1
  by_cases hidle : (ρ.state i).control.feeder.feedFoodNum = 0
  · left
    have hoff : (ρ.state i).control.feeder.timer = false := Bool.eq_false_iff.2 fun hon => by
      obtain ⟨hd, n, hn, hne⟩ := done_of_cut hok hq hsm hidle hon
      rw [hs] at hd
      exact hne ((h.starts hn).unique (starts_of_done hd))
    refine ⟨hoff, ?_⟩
    -- The request is accepted: it starts at least one part and at most 256.
    obtain ⟨j, hj⟩ := ht
    have hacc : 1 ≤ (ρ.state (i + 1)).started r := by
      obtain ⟨-, -, -, hst, -⟩ | ⟨hnot, -⟩ := handle_cases (ρ.state i) m r queue
      · rw [← hs, hst, startPart_self]
        omega
      · exact absurd ⟨hsm, hidle⟩ hnot
    have hmono := ρ.inv_from (I := fun t => 1 ≤ t.started r)
      (fun t a t' h hs => Nat.le_trans h (started_mono hs r)) hacc (Nat.le_max_right j (i + 1))
    have hle := (run_ok ρ (max j (i + 1))).bound r
    rw [hj _ (Nat.le_max_left j (i + 1))] at hmono hle
    exact ⟨hmono, hle⟩
  · right
    have hd := done_of_busy hok hq hsm hidle
    rw [hs] at hd
    exact ⟨hidle, UInt32.toNat.inj (ht.unique (starts_of_done hd))⟩

/-- A queued START message that is served when it is taken starts its parts. -/
theorem starts_of_served (hfair : Fair ρ) (hserved : ∀ i, Served (ρ.state i) (ρ.act i)) {i r : Nat} {m : IoMsg}
    (hmem : (m, r) ∈ (ρ.state i).queue) (hsm : m.isStart = true) : Starts ρ r m.param.toNat := by
  obtain ⟨j, queue, -, ha, hq⟩ := eventually_taken hfair hmem
  have hok := run_ok ρ j
  have hs := ρ.next j
  have hsv := hserved j
  rw [ha] at hs hsv
  simp only [taggedStep, hq, Option.some.injEq] at hs
  rcases hsv m r queue hq hsm with ⟨hoff, h1, h2⟩ | ⟨hbusy, h0⟩
  · have hidle : (ρ.state j).control.feeder.feedFoodNum = 0 := by
      by_contra hne
      rw [hok.busy hne] at hoff
      cases hoff
    obtain ⟨-, -, ho, -, hf⟩ | ⟨hnot, -⟩ := handle_cases (ρ.state j) m r queue
    · refine eventually_served (i := j + 1) hfair hserved h1 h2 ?_ ?_ ?_
      · rw [← hs, hf]
      · rw [← hs, ho]
      · rw [← hs]
        exact (hok.queued _ _ (by rw [hq]; exact List.mem_cons_self) hsm).1
    · exact absurd ⟨hsm, hidle⟩ hnot
  · have hd := done_of_busy hok hq hsm hbusy
    rw [hs] at hd
    rw [h0]
    exact starts_of_done hd

/-- **Acknowledgements are truthful exactly on runs in which every step serves
its request**: over a fair run, each value reported to the app is the number of
parts the feeder comes to start for it, if and only if no request for parts meets
a full queue or a feeder at work, and each that starts asks for 1 to 256. -/
theorem acknowledgements_truthful_iff (hfair : Fair ρ) : Truthful ρ ↔ ∀ i, Served (ρ.state i) (ρ.act i) := by
  constructor
  · intro h i
    cases ha : ρ.act i with
    | download value => exact h.download_served ha
    | controlTask => exact h.controlTask_served ha
    | feedTimer => exact trivial
  · intro hserved i value n ha hrep
    rw [reported_eq] at hrep
    simp only [Tagged.erase, run_stopUpdate, Bool.false_eq_true, if_false, Option.some.injEq] at hrep
    subst hrep
    have hs := ρ.next i
    have hsv := hserved i
    rw [ha] at hs hsv
    obtain ⟨added, hx, ⟨rest, rfl, -⟩ | ⟨rfl, hfull⟩⟩ := download_cases hs
    · have hmem : (feedfoodStart (byteToInt value), (ρ.state i).values.length) ∈ (ρ.state (i + 1)).queue := by
        rw [hx]
        simp
      exact starts_of_served hfair hserved hmem rfl
    · rcases hsv with hroom | h0
      · omega
      · rw [h0]
        exact starts_of_done (done_of_full (run_ok ρ i) hfull hs)

/-- The four bytes of a small count, as the app sends them. -/
def valueBytes (n : UInt8) : Nat → UInt8 := fun i => if i = 3 then n else 0

/-- A request for two parts, and the control task for ever after. -/
def servedActs : List DeviceAct :=
  [.download (valueBytes 2), .controlTask, .controlTask, .feedTimer, .feedTimer]

/-- Two requests for one part; the second comes to the feeder while it is at work. -/
def busyActs : List DeviceAct :=
  [.download (valueBytes 1), .download (valueBytes 1), .controlTask, .controlTask, .controlTask, .controlTask,
    .feedTimer]

/-- The run that goes on with the control task alone, from a state with nothing to do. -/
def idleRun (as : List DeviceAct) (t : Tagged) (h : exec taggedStep .start as = some t) (hq : t.queue = []) :
    InfRun taggedStep .start :=
  InfRun.stutter h (a := .controlTask) (by simp [taggedStep, hq])

theorem idleRun_state {as : List DeviceAct} {t : Tagged} (h : exec taggedStep .start as = some t) (hq : t.queue = [])
    {i : Nat} (hi : as.length ≤ i) : (idleRun as t h hq).state i = t := InfRun.stutter_state _ _ hi

/-- Such a run is fair when the timer is off at its end and each time it was on it expired. -/
theorem idleRun_fair {as : List DeviceAct} {t : Tagged} (h : exec taggedStep .start as = some t) (hq : t.queue = [])
    (ht : t.control.feeder.timer = false)
    (hexp : ∀ i, i < as.length → ∀ u, exec taggedStep .start (as.take i) = some u → u.control.feeder.timer = true →
      ∃ j, i ≤ j ∧ as[j]? = some .feedTimer) : Fair (idleRun as t h hq) := by
  refine ⟨fun i => ⟨max i as.length, Nat.le_max_left _ _, InfRun.stutter_act _ _ (Nat.le_max_right _ _)⟩,
    fun i hi => ?_⟩
  rcases Nat.lt_or_ge i as.length with hlt | hge
  · cases hu : exec taggedStep .start (as.take i) with
    | none =>
      have hsplit := h
      rw [← List.take_append_drop i as, exec_append] at hsplit
      obtain ⟨u, hu', -⟩ := hsplit
      rw [hu] at hu'
      cases hu'
    | some u =>
      have hst : (idleRun as t h hq).state i = u := by simp only [idleRun, InfRun.stutter, hu, Option.getD_some]
      rw [hst] at hi
      obtain ⟨j, hj, ha⟩ := hexp i hlt u hu hi
      exact ⟨j, hj, by simp only [idleRun, InfRun.stutter, ha, Option.getD_some]⟩
  · rw [idleRun_state h hq hge, ht] at hi
    cases hi

theorem acknowledgements_truthful_iff_two :
    ∃ ρ : InfRun taggedStep .start, ρ.act 0 = .download (valueBytes 2) ∧
      (Truthful ρ ↔ ∀ i, Served (ρ.state i) (ρ.act i)) := by
  obtain ⟨t, h, hq, ht⟩ : ∃ t, exec taggedStep .start servedActs = some t ∧ t.queue = [] ∧
      t.control.feeder.timer = false := ⟨_, rfl, rfl, rfl⟩
  have hfair : Fair (idleRun servedActs t h hq) :=
    idleRun_fair h hq ht fun _ hi _ _ _ => ⟨4, Nat.le_of_lt_succ hi, rfl⟩
  exact ⟨_, rfl, acknowledgements_truthful_iff hfair⟩

/-- The second request of `busyActs` is reported and starts nothing. -/
theorem acknowledgement_untrue : ¬ ∀ ρ : InfRun taggedStep .start, Fair ρ → Truthful ρ := by
  intro htrue
  obtain ⟨t, h, hq, ht, hnone⟩ : ∃ t, exec taggedStep .start busyActs = some t ∧ t.queue = [] ∧
      t.control.feeder.timer = false ∧ t.started 1 = 0 := ⟨_, rfl, rfl, rfl, rfl⟩
  have hfair : Fair (idleRun busyActs t h hq) :=
    idleRun_fair h hq ht fun _ hi _ _ _ => ⟨6, Nat.le_of_lt_succ hi, rfl⟩
  obtain ⟨i, hi⟩ := htrue _ hfair 1 (valueBytes 1) 1 rfl rfl
  have hone : ((idleRun busyActs t h hq).state (max i 7)).started 1 = 1 := hi _ (Nat.le_max_left i 7)
  rw [idleRun_state h hq (show busyActs.length ≤ max i 7 from Nat.le_max_right i 7), hnone] at hone
  cases hone

end Petbox.Control
