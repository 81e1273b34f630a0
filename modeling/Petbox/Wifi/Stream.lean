/-
The frame parser over a whole stream. `verdict` is the parsing loop's pass as
a function of the unread bytes, of those in the buffer and of those still in
the ring; a call of the service does what the verdicts say as far as they go
(`call_parses`), so the frames passed to `data_handle` are those of the
stream, whatever part of it each call found, up to the first that
`data_handle` does not return from.

The ring is a queue here. Headers that declare 0xFFF9 bytes or more are the
`stuck` verdict: the checksum the code then makes is over memory that is not
the stream.
-/
import Petbox.Lib.Framing
import Petbox.Wifi.Service

namespace Petbox.Wifi

open Machine Mem Framing

/-- The declared length of the header at the front. -/
def streamLen (p : List UInt8) : Nat := (p.getD 4 0).toNat * 0x100 + (p.getD 5 0).toNat

/-- The parser on the unread bytes. A frame of more than 24 data bytes is waited
for and never complete: the buffer does not hold it. -/
def verdict (p : List UInt8) : Verdict :=
  if p.length < 7 then .wait
  else if p.getD 0 0 ≠ 0x55 then .skip 1
  else if p.getD 1 0 ≠ 0xaa then .skip 1
  else if p.getD 2 0 ≠ 0x00 then .skip 2
  else if 0xfff9 ≤ streamLen p then .stuck
  else if 31 < streamLen p then .skip 3
  else if p.length < streamLen p + 7 ∨ 24 < streamLen p then .wait
  else if checkSum (p.take (streamLen p + 6)) ≠ p.getD (streamLen p + 6) 0 then .skip 3
  else .frame (streamLen p + 7)

/-- What the unread bytes are like, verdict by verdict. -/
inductive Judged (p : List UInt8) : Verdict → Prop
  | short (h7 : p.length < 7) : Judged p .wait
  | skip {n : Nat} (h7 : 7 ≤ p.length) (hpos : 0 < n) (hle : n ≤ 3) : Judged p (.skip n)
  | stuck (h7 : 7 ≤ p.length) (first : p.getD 0 0 = 0x55) (second : p.getD 1 0 = 0xaa) (version : p.getD 2 0 = 0x00)
      (hlen : 0xfff9 ≤ streamLen p) : Judged p .stuck
  | unfinished (first : p.getD 0 0 = 0x55) (second : p.getD 1 0 = 0xaa) (version : p.getD 2 0 = 0x00)
      (h31 : streamLen p ≤ 31) (hlen : p.length < streamLen p + 7 ∨ 24 < streamLen p) : Judged p .wait
  | frame (hlen : streamLen p + 7 ≤ p.length) : Judged p (.frame (streamLen p + 7))

theorem judged (p : List UInt8) : Judged p (verdict p) := by
  unfold verdict
  by_cases h7 : p.length < 7
  · rw [if_pos h7]
    exact .short h7
  have h7' := Nat.not_lt.1 h7
  rw [if_neg h7]
  by_cases h0 : p.getD 0 0 = 0x55
  case neg =>
    rw [if_pos h0]
    exact .skip h7' (by decide) (by decide)
  by_cases h1 : p.getD 1 0 = 0xaa
  case neg =>
    rw [if_neg (not_not.2 h0), if_pos h1]
    exact .skip h7' (by decide) (by decide)
  by_cases h2 : p.getD 2 0 = 0x00
  case neg =>
    rw [if_neg (not_not.2 h0), if_neg (not_not.2 h1), if_pos h2]
    exact .skip h7' (by decide) (by decide)
  rw [if_neg (not_not.2 h0), if_neg (not_not.2 h1), if_neg (not_not.2 h2)]
  by_cases hwrap : 0xfff9 ≤ streamLen p
  · rw [if_pos hwrap]
    exact .stuck h7' h0 h1 h2 hwrap
  rw [if_neg hwrap]
  by_cases hbig : 31 < streamLen p
  · rw [if_pos hbig]
    exact .skip h7' (by decide) (by decide)
  rw [if_neg hbig]
  by_cases hmore : p.length < streamLen p + 7 ∨ 24 < streamLen p
  · rw [if_pos hmore]
    exact .unfinished h0 h1 h2 (Nat.not_lt.1 hbig) hmore
  rw [if_neg hmore]
  by_cases hsum : checkSum (p.take (streamLen p + 6)) = p.getD (streamLen p + 6) 0
  · rw [if_neg (not_not.2 hsum)]
    exact .frame (by omega)
  · rw [if_pos hsum]
    exact .skip h7' (by decide) (by decide)

theorem getD_append {p : List UInt8} (q : List UInt8) {i : Nat} (h : i < p.length) :
    (p ++ q).getD i 0 = p.getD i 0 := by
  simp [List.getD_eq_getElem?_getD, List.getElem?_append_left h]

theorem streamLen_append {p : List UInt8} (q : List UInt8) (h : 7 ≤ p.length) :
    streamLen (p ++ q) = streamLen p := by
  simp only [streamLen, getD_append q (show 4 < p.length by omega), getD_append q (show 5 < p.length by omega)]

theorem verdict_stable : Stable verdict := by
  refine ⟨fun {p} q h => ?_, fun {p n} h => ?_, fun {p n} h => ?_⟩
  · have h7 : ¬ p.length < 7 := fun h7 => h (by simp [verdict, h7])
    have hlen : (p ++ q).length = p.length + q.length := List.length_append
    have hc : 24 < streamLen p ∨ p.length < streamLen p + 7 ∨
        checkSum ((p ++ q).take (streamLen p + 6)) = checkSum (p.take (streamLen p + 6)) ∧
        (p ++ q).getD (streamLen p + 6) 0 = p.getD (streamLen p + 6) 0 := by
      by_cases hlt : p.length < streamLen p + 7
      · exact .inr (.inl hlt)
      · exact .inr (.inr ⟨by rw [List.take_append_of_le_length (by omega)], getD_append q (by omega)⟩)
    simp only [verdict, streamLen_append q (Nat.not_lt.1 h7), getD_append q (show 0 < p.length by omega),
      getD_append q (show 1 < p.length by omega), getD_append q (show 2 < p.length by omega)] at h ⊢
    rw [if_neg (by omega), if_neg h7]
    rw [if_neg h7] at h
    iterate 5 (refine ite_congr rfl (fun _ => rfl) fun hn => ?_; rw [if_neg hn] at h)
    rcases hc with hc | hc | ⟨hc, hg⟩
    · simp [hc] at h
    · simp [hc] at h
    · rw [hc, hg]
      by_cases hw : p.length < streamLen p + 7 ∨ 24 < streamLen p
      · simp [hw] at h
      · rw [if_neg hw, if_neg (by omega)]
  · cases h ▸ judged p with
    | skip h7 hpos hle => exact ⟨hpos, by omega⟩
  · cases h ▸ judged p with
    | frame hlen => exact ⟨Nat.succ_pos _, hlen⟩

/-- A full buffer that waits goes on waiting, whatever comes. -/
theorem verdict_full {p : List UInt8} (h : verdict p = .wait) (hp : 31 ≤ p.length) (q : List UInt8) :
    verdict (p ++ q) = .wait := by
  have h7 : ¬ p.length < 7 := by omega
  have hlen : (p ++ q).length = p.length + q.length := List.length_append
  simp only [verdict, streamLen_append q (Nat.not_lt.1 h7), getD_append q (show 0 < p.length by omega),
    getD_append q (show 1 < p.length by omega), getD_append q (show 2 < p.length by omega)]
  cases h ▸ judged p with
  | short h7 => omega
  | unfinished first second version h31 hlen' =>
    rw [if_neg (by omega), if_neg (not_not.2 first), if_neg (not_not.2 second), if_neg (not_not.2 version),
      if_neg (by omega), if_neg (by omega), if_pos (.inr (by omega))]

/-! ## The verdicts are the passes of the loop -/

/-- What the buffer shows from `offset` on. -/
def ProcessBuf.unread (w : ProcessBuf) (offset : Nat) : List UInt8 := slice w.buf offset (w.rxIn - offset)

@[simp] theorem length_unread (w : ProcessBuf) (offset : Nat) : (w.unread offset).length = w.rxIn - offset :=
  length_slice _ _ _

theorem drop_unread (w : ProcessBuf) (offset n : Nat) : (w.unread offset).drop n = w.unread (offset + n) := by
  rw [ProcessBuf.unread, drop_slice, ProcessBuf.unread, Nat.sub_add_eq]

theorem unread_getD {w : ProcessBuf} {offset i : Nat} (h : i < w.rxIn - offset) :
    (w.unread offset).getD i 0 = w.buf (offset + i) := by
  rw [ProcessBuf.unread, List.getD_eq_getElem?_getD, getElem?_slice h, Option.getD_some]

/-- The pass a verdict stands for. -/
def passOf : Verdict → Pass
  | .wait => .stop
  | .skip n => .skip n
  | .frame n => .handle n
  | .stuck => .stop

/-- The check sum of a frame that the buffer shows whole. -/
theorem checkSumOk_iff {w : ProcessBuf} {offset : Nat} (h : declaredLen w.buf offset + 7 ≤ w.rxIn - offset) :
    checkSumOk w offset = true ↔ checkSum ((w.unread offset).take (declaredLen w.buf offset + 6)) =
      (w.unread offset).getD (declaredLen w.buf offset + 6) 0 := by
  have hle := w.rxIn_le
  rw [processBufSize_eq] at hle
  have hv := rxValueLen_eq w.buf offset
  rw [if_pos (by omega)] at hv
  rw [unread_getD (by omega), ProcessBuf.unread, take_slice, Nat.min_eq_left (by omega)]
  simp only [checkSumOk, beq_iff_eq, getCheckSum_eq, checkSumByte, hv]
  rw [if_neg (by omega), show (declaredLen w.buf offset + 7 + 65535) % 65536 = declaredLen w.buf offset + 6 by omega]
  rfl

theorem examine_eq {w : ProcessBuf} {offset : Nat} (hr : protocolHead ≤ w.rxIn - offset)
    (hs : verdict (w.unread offset) ≠ .stuck) : examine w offset = passOf (verdict (w.unread offset)) := by
  have hle := w.rxIn_le
  rw [protocolHead_eq] at hr
  rw [processBufSize_eq] at hle
  have hlen : streamLen (w.unread offset) = declaredLen w.buf offset := by
    simp only [streamLen, unread_getD (show 4 < w.rxIn - offset by omega),
      unread_getD (show 5 < w.rxIn - offset by omega)]
    rfl
  have hv := rxValueLen_eq w.buf offset
  simp only [verdict, length_unread, hlen, unread_getD (show 0 < w.rxIn - offset by omega),
    unread_getD (show 1 < w.rxIn - offset by omega), unread_getD (show 2 < w.rxIn - offset by omega)] at hs ⊢
  rw [if_neg (by omega)] at hs ⊢
  -- Without a header both skip what the first wrong byte tells.
  by_cases h1 : w.buf (offset + 0) = 0x55
  case neg => rw [if_pos h1, passOf, examine, if_pos (show w.buf (offset + headFirst) ≠ frameFirst from h1)]
  by_cases h2 : w.buf (offset + 1) = 0xaa
  case neg =>
    rw [if_neg (not_not.2 h1), if_pos h2, passOf, examine,
      if_neg (not_not.2 (show w.buf (offset + headFirst) = frameFirst from h1)),
      if_pos (show w.buf (offset + headSecond) ≠ frameSecond from h2)]
  by_cases h3 : w.buf (offset + 2) = 0x00
  case neg =>
    rw [if_neg (not_not.2 h1), if_neg (not_not.2 h2), if_pos h3, passOf, examine,
      if_neg (not_not.2 (show w.buf (offset + headFirst) = frameFirst from h1)),
      if_neg (not_not.2 (show w.buf (offset + headSecond) = frameSecond from h2)),
      if_pos (show w.buf (offset + protocolVersion) ≠ mcuRxVer from h3)]
  rw [if_neg (not_not.2 h1), if_neg (not_not.2 h2), if_neg (not_not.2 h3)] at hs ⊢
  have hL : ¬ 0xfff9 ≤ declaredLen w.buf offset := fun h => hs (if_pos h)
  rw [if_pos (by omega)] at hv
  rw [examine_header ⟨h1, h2, h3⟩, hv, if_neg hL]
  by_cases h4 : 31 < declaredLen w.buf offset
  · rw [if_pos (by omega), if_pos h4, passOf]
  · rw [if_neg (by omega), if_neg h4]
    by_cases h5 : w.rxIn - offset < declaredLen w.buf offset + 7
    · rw [if_pos h5, if_pos (.inl h5), passOf]
    · have h24 : ¬ (w.rxIn - offset < declaredLen w.buf offset + 7 ∨ 24 < declaredLen w.buf offset) := by omega
      rw [if_neg h5, if_neg h24]
      have hc := checkSumOk_iff (show declaredLen w.buf offset + 7 ≤ w.rxIn - offset by omega)
      by_cases h6 : checkSumOk w offset = true
      · rw [if_pos h6, if_neg (not_not.2 (hc.1 h6)), passOf]
      · rw [if_neg h6, if_pos (fun h => h6 (hc.2 h)), passOf]

theorem verdict_of_short {p : List UInt8} (h : p.length < 7) : verdict p = .wait := if_pos h

/-! ## Calls -/

/-- The bytes that have arrived and are not parsed. -/
def Device.pending (d : Device (List UInt8)) : List UInt8 := d.proc.unread 0 ++ d.ring

/-- The bytes of a run, whatever else is done in between. -/
def arrivals : List DeviceAct → List UInt8
  | [] => []
  | .arrive bytes :: as => bytes ++ arrivals as
  | .call :: as => arrivals as
  | .ask _ :: as => arrivals as

/-- `data_handle` returns from all of these calls. -/
def AllReturn (H : List Handover) : Prop := ∀ h ∈ H, ¬ h.Spins

/-- It does not return from the last of them, and from all before. -/
def LastSpins (H : List Handover) : Prop := ∃ H' h, H = H' ++ [h] ∧ h.Spins ∧ AllReturn H'

theorem LastSpins.append {H H' : List Handover} (h : LastSpins H') (hH : AllReturn H) : LastSpins (H ++ H') := by
  obtain ⟨H₀, g, rfl, hg, hreturn⟩ := h
  exact ⟨H ++ H₀, g, (List.append_assoc ..).symm, hg, List.forall_mem_append.2 ⟨hH, hreturn⟩⟩

theorem AllReturn.append {H H' : List Handover} (h : AllReturn H) (h' : AllReturn H') : AllReturn (H ++ H') :=
  List.forall_mem_append.2 ⟨h, h'⟩

section Calls

variable {site : Site}

/-- The calls of `data_handle` a loop makes. -/
def callsAt (w : ProcessBuf) (offsets : List Nat) : List Handover := offsets.map fun offset => ⟨w.buf, offset⟩

/-- What the loop does on a stream without a stuck header, when `data_handle`
returns from everything: it parses what the buffer shows. -/
structure LoopParses (site : Site) (w : ProcessBuf) (fuel a : Nat) (s : Sdk) (calls : List Nat) (s' : Sdk) (e : Nat) :
    Prop where
  run : parseLoop site w fuel a s = (calls, some (s', e))
  parses : Parses verdict (w.unread a) ((callsAt w calls).map Handover.frame) (w.unread e)
  wait : verdict (w.unread e) = .wait
  return_all : AllReturn (callsAt w calls)
  le : a ≤ e
  still : e = a → s' = s

/-- Or it hands out frames of the stream up to one that `data_handle` does not return from. -/
structure LoopSpins (site : Site) (w : ProcessBuf) (fuel a : Nat) (s : Sdk) (F : List (List UInt8)) (calls : List Nat) :
    Prop where
  run : parseLoop site w fuel a s = (calls, none)
  last : LastSpins (callsAt w calls)
  frames : (callsAt w calls).map Handover.frame <+: F

section Loop

variable {w : ProcessBuf} {F : List (List UInt8)} {fuel a e n : Nat} {s s₁ s' : Sdk} {calls : List Nat}

/-- The loop ends where it is. -/
theorem LoopParses.here (hrun : parseLoop site w fuel a s = ([], some (s, a))) (hv : verdict (w.unread a) = .wait) :
    LoopParses site w fuel a s [] s a :=
  ⟨hrun, .refl _, hv, fun _ h => absurd h List.not_mem_nil, Nat.le_refl a, fun _ => rfl⟩

theorem LoopParses.skip (hroom : protocolHead ≤ w.rxIn - a) (he : examine w a = .skip n)
    (hv : verdict (w.unread a) = .skip n) (h : LoopParses site w fuel (a + n) s calls s' e) :
    LoopParses site w (fuel + 1) a s calls s' e := by
  have hpos := (verdict_stable.skip hv).1
  have hle := h.le
  exact ⟨(parseLoop_skip hroom he).trans h.run, .skip hv (by rw [drop_unread]; exact h.parses), h.wait, h.return_all,
    by omega, fun _ => by omega⟩

/-- What is handed out is the frame at the front of the bytes left. -/
theorem frameAt_unread (he : examine w a = .handle n) (hle : n ≤ (w.unread a).length) :
    frameAt w.buf a = (w.unread a).take n := by
  rw [length_unread] at hle
  rw [frameAt, ← (examine_handle he).1, ProcessBuf.unread, take_slice, Nat.min_eq_left hle]

theorem LoopParses.handle (hroom : protocolHead ≤ w.rxIn - a) (he : examine w a = .handle n)
    (hv : verdict (w.unread a) = .frame n) (hspin : ¬ Spins w.buf a)
    (hd : dataHandle site quertFuel w.buf a s = some s₁) (h : LoopParses site w fuel (a + n) s₁ calls s' e) :
    LoopParses site w (fuel + 1) a s (a :: calls) s' e := by
  obtain ⟨hpos, hlen⟩ := verdict_stable.frame hv
  have hle := h.le
  have hone : AllReturn [⟨w.buf, a⟩] := fun h hm => List.mem_singleton.1 hm ▸ hspin
  refine ⟨by rw [parseLoop_handle hroom he hd, h.run], ?_, h.wait, hone.append h.return_all, by omega,
    fun _ => by omega⟩
  rw [callsAt, List.map_cons, List.map_cons, Handover.frame, frameAt_unread he hlen]
  exact .frame hv (by rw [drop_unread]; exact h.parses)

theorem LoopSpins.handle (hroom : protocolHead ≤ w.rxIn - a) (he : examine w a = .handle n) (hspin : ¬ Spins w.buf a)
    (hd : dataHandle site quertFuel w.buf a s = some s₁) (h : LoopSpins site w fuel (a + n) s₁ F calls) :
    LoopSpins site w (fuel + 1) a s (frameAt w.buf a :: F) (a :: calls) := by
  have hone : AllReturn [⟨w.buf, a⟩] := fun h hm => List.mem_singleton.1 hm ▸ hspin
  refine ⟨by rw [parseLoop_handle hroom he hd, h.run], h.last.append hone, ?_⟩
  obtain ⟨t, ht⟩ := h.frames
  exact ⟨t, congrArg (frameAt w.buf a :: ·) ht⟩

theorem LoopSpins.here (hroom : protocolHead ≤ w.rxIn - a) (he : examine w a = .handle n) (hspin : Spins w.buf a) :
    LoopSpins site w (fuel + 1) a s (frameAt w.buf a :: F) [a] :=
  ⟨parseLoop_spins hroom he hspin, ⟨[], _, rfl, hspin, fun _ h => absurd h List.not_mem_nil⟩, ⟨F, rfl⟩⟩

end Loop

theorem parseLoop_parses (site : Site) {w : ProcessBuf} {q r : List UInt8} {F : List (List UInt8)} {fuel a : Nat}
    {s : Sdk} (h : Settles verdict (w.unread a ++ q) F r) (hf : w.rxIn - a < fuel) :
    (∃ calls s' e, LoopParses site w fuel a s calls s' e) ∨ ∃ calls, LoopSpins site w fuel a s F calls := by
  induction fuel generalizing a s F with
  | zero => exact absurd hf (Nat.not_lt_zero _)
  | succ fuel ih =>
    by_cases hroom : protocolHead ≤ w.rxIn - a
    case neg =>
      refine .inl ⟨[], s, a, .here (parseLoop_end hroom) (verdict_of_short ?_)⟩
      rw [length_unread, ← protocolHead_eq]
      omega
    have happ := verdict_stable.append (p := w.unread a) q
    have hns : verdict (w.unread a) ≠ .stuck := fun hst => by
      rw [hst] at happ
      exact h.not_stuck (happ (by simp))
    have he := examine_eq hroom hns
    rw [protocolHead_eq] at hroom
    cases hv : verdict (w.unread a) with
    | stuck => exact absurd hv hns
    | wait =>
      rw [hv, passOf] at he
      exact .inl ⟨[], s, a, .here (parseLoop_stop hroom he) hv⟩
    | skip n =>
      obtain ⟨hpos, hle⟩ := verdict_stable.skip hv
      rw [hv] at happ he
      obtain ⟨G, rfl, hG⟩ := (Parses.skip (happ (by simp)) (.refl _)).rest h
      rw [List.drop_append_of_le_length hle, drop_unread] at hG
      rcases ih (s := s) hG (by omega) with ⟨calls, s', e, hp⟩ | ⟨calls, hp⟩
      · exact .inl ⟨calls, s', e, hp.skip hroom he hv⟩
      · exact .inr ⟨calls, (parseLoop_skip hroom he).trans hp.run, hp.last, hp.frames⟩
    | frame n =>
      obtain ⟨hpos, hle⟩ := verdict_stable.frame hv
      rw [hv] at happ he
      obtain ⟨G, rfl, hG⟩ := (Parses.frame (happ (by simp)) (.refl _)).rest h
      rw [List.drop_append_of_le_length hle, drop_unread] at hG
      rw [List.take_append_of_le_length hle, ← frameAt_unread he hle, List.singleton_append]
      by_cases hspin : Spins w.buf a
      · exact .inr ⟨[a], .here hroom he hspin⟩
      obtain ⟨s₁, hd⟩ := dataHandle_returns hspin site s
      rcases ih (s := s₁) hG (by omega) with ⟨calls, s', e, hp⟩ | ⟨calls, hp⟩
      · exact .inl ⟨a :: calls, s', e, hp.handle hroom he hv hspin hd⟩
      · exact .inr ⟨a :: calls, hp.handle hroom he hspin hd⟩

/-- What a call has left to do: it falls with every call that does something. -/
def Device.work (d : Device (List UInt8)) : Nat := d.pending.length + d.ring.length

/-- What the receiving loop of a call leaves: no byte is lost, and where it took
none the buffer was full or the ring empty. -/
structure Received (d : Device (List UInt8)) (w : ProcessBuf) (q : List UInt8) : Prop where
  run : receive .fifo (processBufSize - d.proc.rxIn) d.proc d.ring = some (w, q)
  pending : w.unread 0 ++ q = d.pending
  took : q.length < d.ring.length ∨ w = d.proc ∧ q = d.ring ∧ (w.rxIn = processBufSize ∨ q = [])

theorem exists_received (d : Device (List UInt8)) : ∃ w q, Received d w q := by
  obtain ⟨w, q, s⟩ := d
  have hle := w.rxIn_le
  obtain ⟨room, hroom⟩ : ∃ room, processBufSize - w.rxIn = room := ⟨_, rfl⟩
  obtain ⟨w', hw, -, hin, hs⟩ := receive_fifo q (show w.rxIn + room = processBufSize by omega)
  refine ⟨w', q.drop room, by rw [hroom]; exact hw, ?_, ?_⟩
  · rw [show w'.unread 0 = w.unread 0 ++ q.take room from hs, List.append_assoc, List.take_append_drop]
    rfl
  · rcases Nat.eq_zero_or_pos (min room q.length) with h0 | hpos
    · have hx : receive .fifo room w q = some (w, q) := by
        rcases Nat.eq_zero_or_pos room with h0 | hpos
        · rw [h0]; rfl
        · exact receive_none room (by rw [List.eq_nil_of_length_eq_zero (by omega : q.length = 0)]; rfl)
      rw [hw, Option.some.injEq, Prod.mk.injEq] at hx
      obtain ⟨rfl, hq⟩ := hx
      refine .inr ⟨rfl, hq, ?_⟩
      rcases Nat.eq_zero_or_pos room with hr | hr
      · exact .inl (by omega)
      · exact .inr (List.eq_nil_of_length_eq_zero (by rw [List.length_drop]; omega))
    · exact .inl (by rw [List.length_drop]; dsimp only; omega)

/-- A call that returns: it parses the pending bytes, and either has less to do
afterwards or changed nothing and waits. -/
structure CallParses (site : Site) (d d' : Device (List UInt8)) : Prop where
  step : deviceStep site .fifo d .call = some d'
  parses : Parses verdict d.pending ((handovers site .fifo d .call).map Handover.frame) d'.pending
  return_all : AllReturn (handovers site .fifo d .call)
  rests : d'.work < d.work ∨ d' = d ∧ verdict d.pending = .wait

/-- A call that does not return: it has handed out frames of the stream up to
one that `data_handle` does not return from. -/
structure CallSpins (site : Site) (d : Device (List UInt8)) (F : List (List UInt8)) : Prop where
  step : deviceStep site .fifo d .call = none
  last : LastSpins (handovers site .fifo d .call)
  frames : (handovers site .fifo d .call).map Handover.frame <+: F

section Call

variable {d : Device (List UInt8)} {w : ProcessBuf} {q : List UInt8}

/-- With fewer bytes than a header has the call ends behind the receiving loop. -/
theorem Received.short (h : Received d w q) (h7 : w.rxIn < protocolHead) (site : Site) :
    CallParses site d ⟨w, q, d.sdk⟩ := by
  have hserv : wifiUartService site .fifo parseFuel d = ([], some ⟨w, q, d.sdk⟩) := by
    simp only [wifiUartService, h.run, if_pos h7]
  refine ⟨by rw [deviceStep, hserv], ?_, ?_, ?_⟩
  · rw [handovers, hserv, ← h.pending]
    exact .refl _
  · rw [handovers, hserv]
    exact fun _ h => absurd h List.not_mem_nil
  · rcases h.took with hlt | ⟨rfl, rfl, hfull | hnil⟩
    · left
      rw [Device.work, Device.work, ← h.pending]
      exact Nat.add_lt_add_left hlt _
    · rw [hfull] at h7
      exact absurd h7 (by decide)
    · rw [protocolHead_eq] at h7
      refine .inr ⟨rfl, verdict_of_short ?_⟩
      rw [Device.pending, hnil, List.append_nil, length_unread]
      omega

/-- Else the parsing loop runs over the bytes in the buffer. -/
theorem Received.loop {site : Site} {calls : List Nat} {s' : Sdk} {e : Nat} (h : Received d w q)
    (h7 : ¬ w.rxIn < protocolHead) (hp : LoopParses site w parseFuel 0 d.sdk calls s' e) :
    CallParses site d ⟨w.shift e, q, s'⟩ := by
  have hserv : wifiUartService site .fifo parseFuel d = (callsAt w calls, some ⟨w.shift e, q, s'⟩) := by
    simp only [wifiUartService, h.run, if_neg h7, hp.run]
    rfl
  have hshift : (w.shift e).unread 0 = w.unread e := slice_shift w e
  refine ⟨by rw [deviceStep, hserv], ?_, ?_, ?_⟩
  · rw [handovers, hserv, ← h.pending, Device.pending, hshift]
    exact hp.parses.append verdict_stable _
  · rw [handovers, hserv]
    exact hp.return_all
  · have hwork : d.work = w.rxIn + q.length + d.ring.length := by
      rw [Device.work, ← h.pending, List.length_append, length_unread, Nat.sub_zero]
    have hwork' : Device.work ⟨w.shift e, q, s'⟩ = w.rxIn - e + q.length + q.length := by
      rw [Device.work, Device.pending, List.length_append, hshift, length_unread]
    rw [protocolHead_eq] at h7
    have hring : q.length ≤ d.ring.length := by
      rcases h.took with hlt | ⟨-, rfl, -⟩
      · exact Nat.le_of_lt hlt
      · exact Nat.le_refl _
    rcases Nat.eq_zero_or_pos e with rfl | hpos
    · rcases h.took with hlt | ⟨rfl, rfl, hfull⟩
      · exact .inl (by omega)
      · refine .inr ⟨by rw [shift_zero, hp.still rfl], ?_⟩
        rcases hfull with hfull | hnil
        · have hN := processBufSize_eq
          exact verdict_full hp.wait (by rw [length_unread]; omega) _
        · rw [Device.pending, hnil, List.append_nil]
          exact hp.wait
    · exact .inl (by omega)

theorem Received.spins {site : Site} {F : List (List UInt8)} {calls : List Nat} (h : Received d w q)
    (h7 : ¬ w.rxIn < protocolHead) (hp : LoopSpins site w parseFuel 0 d.sdk F calls) : CallSpins site d F := by
  have hserv : wifiUartService site .fifo parseFuel d = (callsAt w calls, none) := by
    simp only [wifiUartService, h.run, if_neg h7, hp.run]
    rfl
  refine ⟨by rw [deviceStep, hserv], ?_, ?_⟩ <;> rw [handovers, hserv]
  · exact hp.last
  · exact hp.frames

end Call

theorem call_parses (site : Site) {d : Device (List UInt8)} {B r : List UInt8} {F : List (List UInt8)}
    (h : Settles verdict (d.pending ++ B) F r) : (∃ d', CallParses site d d') ∨ CallSpins site d F := by
  obtain ⟨w, q, hrx⟩ := exists_received d
  by_cases h7 : w.rxIn < protocolHead
  · exact .inl ⟨_, hrx.short h7 site⟩
  · have hset : Settles verdict (w.unread 0 ++ (q ++ B)) F r := by
      rw [← List.append_assoc, hrx.pending]
      exact h
    have hfuel : w.rxIn - 0 < parseFuel := by
      have := w.rxIn_le
      simp only [parseFuel]
      omega
    rcases parseLoop_parses site (s := d.sdk) hset hfuel with ⟨calls, s', e, hp⟩ | ⟨calls, hp⟩
    · exact .inl ⟨_, hrx.loop h7 hp⟩
    · exact .inr (hrx.spins h7 hp)

/-! ## Runs -/

/-- The calls of `data_handle` that a run makes. -/
def handedOver (site : Site) (d : Device (List UInt8)) (as : List DeviceAct) : List Handover :=
  trace (deviceStep site .fifo) (handovers site .fifo) d as

/-- A run that returns has parsed what has arrived. -/
structure RunParses (site : Site) (d : Device (List UInt8)) (as : List DeviceAct) (d' : Device (List UInt8)) : Prop where
  run : exec (deviceStep site .fifo) d as = some d'
  parses : Parses verdict (d.pending ++ arrivals as) ((handedOver site d as).map Handover.frame) d'.pending
  return_all : AllReturn (handedOver site d as)

/-- A run that does not has handed out the frames of the stream up to one that
`data_handle` does not return from. -/
structure RunSpins (site : Site) (d : Device (List UInt8)) (as : List DeviceAct) (F : List (List UInt8)) : Prop where
  run : exec (deviceStep site .fifo) d as = none
  last : LastSpins (handedOver site d as)
  frames : (handedOver site d as).map Handover.frame <+: F

/-- An action that calls no `data_handle` adds what has arrived. -/
theorem run_quiet {d d₁ : Device (List UInt8)} {a : DeviceAct} {as : List DeviceAct} {F : List (List UInt8)}
    (hs : deviceStep site .fifo d a = some d₁) (hh : handovers site .fifo d a = [])
    (hp : d.pending ++ arrivals (a :: as) = d₁.pending ++ arrivals as)
    (h : (∃ d', RunParses site d₁ as d') ∨ RunSpins site d₁ as F) :
    (∃ d', RunParses site d (a :: as) d') ∨ RunSpins site d (a :: as) F := by
  have hx : exec (deviceStep site .fifo) d (a :: as) = exec (deviceStep site .fifo) d₁ as := by
    rw [exec, hs, Option.bind_some]
  have ht : handedOver site d (a :: as) = handedOver site d₁ as := by
    rw [handedOver, trace, hh, hs, Option.elim_some, List.nil_append, handedOver]
  obtain ⟨d', h⟩ | h := h
  · exact .inl ⟨d', hx.trans h.run, by rw [ht, hp]; exact h.parses, by rw [ht]; exact h.return_all⟩
  · exact .inr ⟨hx.trans h.run, by rw [ht]; exact h.last, by rw [ht]; exact h.frames⟩

/-- **A run parses what has arrived**, as long as the stream it is a part of has
no stuck header, or ends in a call that does not return. -/
theorem exec_parses (site : Site) {as : List DeviceAct} {d : Device (List UInt8)} {B r : List UInt8}
    {F : List (List UInt8)}
    (h : Settles verdict (d.pending ++ arrivals as ++ B) F r) :
    (∃ d', RunParses site d as d') ∨ RunSpins site d as F := by
  induction as generalizing d F with
  | nil =>
    refine .inl ⟨d, rfl, ?_, fun _ h => absurd h List.not_mem_nil⟩
    rw [arrivals, List.append_nil]
    exact .refl _
  | cons a as ih =>
    cases a with
    | arrive bytes =>
      have hp : d.pending ++ arrivals (.arrive bytes :: as) = d.pending ++ bytes ++ arrivals as :=
        (List.append_assoc ..).symm
      have hs : deviceStep site .fifo d (.arrive bytes) = some { d with ring := d.ring ++ bytes } := by
        rw [deviceStep, takeIn_fifo, Option.map_some]
      have hpend : Device.pending { d with ring := d.ring ++ bytes } = d.pending ++ bytes :=
        (List.append_assoc ..).symm
      refine run_quiet hs rfl (by rw [hp, hpend]) (ih ?_)
      rwa [hpend, ← hp]
    | ask b =>
      have hs : deviceStep site .fifo d (.ask b) = some { d with sdk := d.sdk.ask b } := rfl
      exact run_quiet hs rfl rfl (ih h)
    | call =>
      have hset : Settles verdict (d.pending ++ (arrivals as ++ B)) F r := by
        rw [← List.append_assoc]
        exact h
      obtain ⟨d₁, hc⟩ | hc := call_parses site hset
      case inr =>
        have ht : handedOver site d (.call :: as) = handovers site .fifo d .call := by
          rw [handedOver, trace, hc.step, Option.elim_none, List.append_nil]
        refine .inr ⟨by rw [exec, hc.step, Option.bind_none], ?_, ?_⟩ <;> rw [ht]
        · exact hc.last
        · exact hc.frames
      obtain ⟨G, rfl, hG⟩ := (hc.parses.append verdict_stable _).rest hset
      rw [← List.append_assoc] at hG
      have hx : exec (deviceStep site .fifo) d (.call :: as) = exec (deviceStep site .fifo) d₁ as := by
        rw [exec, hc.step, Option.bind_some]
      have ht : handedOver site d (.call :: as) = handovers site .fifo d .call ++ handedOver site d₁ as := by
        rw [handedOver, trace, hc.step, Option.elim_some, handedOver]
      obtain ⟨d', hr⟩ | hr := ih hG
      · refine .inl ⟨d', hx.trans hr.run, ?_, ?_⟩ <;> rw [ht]
        · rw [List.map_append]
          exact (hc.parses.append verdict_stable _).trans hr.parses
        · exact hc.return_all.append hr.return_all
      · refine .inr ⟨hx.trans hr.run, ?_, ?_⟩ <;> rw [ht]
        · exact hr.last.append hc.return_all
        · rw [List.map_append]
          exact List.prefix_append_right_inj _ |>.2 hr.frames

@[simp] theorem arrivals_append (as bs : List DeviceAct) : arrivals (as ++ bs) = arrivals as ++ arrivals bs := by
  induction as with
  | nil => rfl
  | cons a as ih => cases a <;> simp [arrivals, ih]

@[simp] theorem arrivals_calls (n : Nat) : arrivals (List.replicate n .call) = [] := by
  induction n with
  | zero => rfl
  | succ n ih => simp [List.replicate_succ, arrivals, ih]

/-- A call changes nothing. -/
def Quiescent (site : Site) (d : Device (List UInt8)) : Prop := deviceStep site .fifo d .call = some d

/-- The run has come to a state that a call does not change, or to a call that does not return. -/
def AtRest (site : Site) (d : Device (List UInt8)) (as : List DeviceAct) : Prop :=
  exec (deviceStep site .fifo) d as = none ∨ ∃ d', exec (deviceStep site .fifo) d as = some d' ∧ Quiescent site d'

/-- A device that a call does not change waits. -/
theorem Quiescent.wait {d : Device (List UInt8)} {r : List UInt8} {F : List (List UInt8)} (hq : Quiescent site d)
    (h : Settles verdict d.pending F r) : verdict d.pending = .wait ∧ handovers site .fifo d .call = [] := by
  obtain ⟨d', hc⟩ | hc := call_parses site (B := []) (by rwa [List.append_nil])
  · obtain rfl := Option.some.inj (hq.symm.trans hc.step)
    have hwait := hc.rests.elim (fun hlt => absurd hlt (Nat.lt_irrefl _)) (·.2)
    have hnil := (Settles.eq_of_wait ⟨hc.parses, hwait⟩ hwait).1
    exact ⟨hwait, List.map_eq_nil_iff.1 hnil⟩
  · exact absurd (hq.symm.trans hc.step) (Option.some_ne_none _)

/-- Repeating the call comes to rest. -/
theorem exists_atRest (site : Site) {d : Device (List UInt8)} {r : List UInt8} {F : List (List UInt8)}
    (h : Settles verdict d.pending F r) : ∃ n, AtRest site d (List.replicate n .call) := by
  obtain ⟨k, hk⟩ : ∃ k, d.work < k := ⟨_, Nat.lt_succ_self _⟩
  induction k generalizing d F with
  | zero => exact absurd hk (Nat.not_lt_zero _)
  | succ k ih =>
    obtain ⟨d', hc⟩ | hc := call_parses site (B := []) (by rwa [List.append_nil])
    · obtain hlt | ⟨rfl, -⟩ := hc.rests
      · obtain ⟨G, -, hG⟩ := hc.parses.rest h
        obtain ⟨n, hn⟩ := ih hG (by omega)
        refine ⟨n + 1, ?_⟩
        rwa [AtRest, List.replicate_succ, exec, hc.step, Option.bind_some]
      · exact ⟨0, .inr ⟨d', rfl, hc.step⟩⟩
    · exact ⟨1, .inl (by rw [List.replicate_one, exec, hc.step, Option.bind_none])⟩

end Calls

/-! ## What is delivered -/

section Delivers

variable (site : Site) (d : Device (List UInt8)) (as : List DeviceAct)

/-- The calls of `data_handle` that the run makes with `n` more calls of the service at its end. -/
def handedOverBy (n : Nat) : List Handover := handedOver site d (as ++ List.replicate n .call)

/-- The run, and then calls of the service until one changes nothing (or does not
return), pass these frames to `data_handle`. -/
def Delivers (G : List (List UInt8)) : Prop :=
  ∃ n, AtRest site d (as ++ List.replicate n .call) ∧ (handedOverBy site d as n).map Handover.frame = G

/-- `data_handle` does not return from frame `k` of those passed to it. -/
def Stops (k : Nat) : Prop := ∃ n h, (handedOverBy site d as n)[k]? = some h ∧ h.Spins

end Delivers

section Delivered

variable {site : Site} {d : Device (List UInt8)} {as : List DeviceAct} {r : List UInt8} {F : List (List UInt8)}

theorem handedOverBy_add (n m : Nat) : handedOverBy site d as (n + m) = handedOverBy site d as n ++
    (exec (deviceStep site .fifo) d (as ++ List.replicate n .call)).elim [] fun d' =>
      handedOver site d' (List.replicate m .call) := by
  rw [handedOverBy, handedOver, List.replicate_add, ← List.append_assoc, trace_append_elim]
  rfl

/-- A run that is at rest stays there. -/
theorem handedOverBy_atRest (h : Settles verdict (d.pending ++ arrivals as) F r) {n : Nat}
    (hn : AtRest site d (as ++ List.replicate n .call)) (m : Nat) :
    handedOverBy site d as (n + m) = handedOverBy site d as n := by
  have hset : Settles verdict (d.pending ++ arrivals (as ++ List.replicate n .call) ++ []) F r := by simpa using h
  rw [handedOverBy_add]
  obtain hx | ⟨d', hx, hq⟩ := hn
  · rw [hx, Option.elim_none, List.append_nil]
  · obtain ⟨d₁, hp⟩ | hp := exec_parses site hset
    · obtain rfl := Option.some.inj (hx.symm.trans hp.run)
      obtain ⟨G, -, hG⟩ := (hp.parses.append verdict_stable _).rest hset
      rw [List.append_nil] at hG
      have hnil : handedOver site d' (List.replicate m .call) = [] := by
        induction m with
        | zero => rfl
        | succ m ih =>
          have hstep : deviceStep site .fifo d' .call = some d' := hq
          rw [handedOver, List.replicate_succ, trace, hstep, (hq.wait hG).2, Option.elim_some, List.nil_append]
          exact ih
      rw [hx, Option.elim_some, hnil, List.append_nil]
    · rw [hp.run] at hx
      cases hx

/-- The run comes to rest, and has then passed the frames of the stream, or those
up to one that `data_handle` does not return from. -/
theorem comes_to_rest (site : Site) (h : Settles verdict (d.pending ++ arrivals as) F r) :
    ∃ n, AtRest site d (as ++ List.replicate n .call) ∧
      ((∃ d', RunParses site d (as ++ List.replicate n .call) d' ∧
        (handedOverBy site d as n).map Handover.frame = F) ∨ RunSpins site d (as ++ List.replicate n .call) F) := by
  have run : ∀ n, (∃ d', RunParses site d (as ++ List.replicate n .call) d') ∨
      RunSpins site d (as ++ List.replicate n .call) F := fun n => exec_parses site (B := []) (by simpa using h)
  obtain ⟨n, hn⟩ : ∃ n, AtRest site d (as ++ List.replicate n .call) := by
    obtain ⟨d', hp⟩ | hp := run 0
    · obtain ⟨G, -, hG⟩ := hp.parses.rest (by simpa using h)
      obtain ⟨n, hn⟩ := exists_atRest site hG
      have hx := hp.run
      rw [List.replicate_zero, List.append_nil] at hx
      have happ : ∀ {o}, exec (deviceStep site .fifo) d' (List.replicate n .call) = o →
          exec (deviceStep site .fifo) d (as ++ List.replicate n .call) = o := fun ho => by
        rw [exec_append_bind, hx, Option.bind_some, ho]
      refine ⟨n, hn.imp happ fun hq => ?_⟩
      obtain ⟨t, ht, hq⟩ := hq
      exact ⟨t, happ ht, hq⟩
    · exact ⟨0, .inl hp.run⟩
  refine ⟨n, hn, ?_⟩
  obtain ⟨d', hp⟩ | hp := run n
  · obtain hx | ⟨t, hx, hq⟩ := hn
    · rw [hp.run] at hx
      cases hx
    · obtain rfl := Option.some.inj (hp.run.symm.trans hx)
      have hset : Settles verdict (d.pending ++ arrivals (as ++ List.replicate n .call)) F r := by simpa using h
      obtain ⟨G, -, hG⟩ := hp.parses.rest hset
      exact .inl ⟨d', hp, (Parses.unique ⟨hp.parses, (hq.wait hG).1⟩ hset).1⟩
  · exact .inr hp

/-- At rest, everything has been handed over that ever is. -/
theorem handedOverBy_prefix (h : Settles verdict (d.pending ++ arrivals as) F r) {n : Nat}
    (hn : AtRest site d (as ++ List.replicate n .call)) (m : Nat) :
    handedOverBy site d as m <+: handedOverBy site d as n := by
  rcases Nat.le_total m n with hle | hle <;> obtain ⟨k, rfl⟩ := Nat.exists_eq_add_of_le hle
  · rw [handedOverBy_add]
    exact List.prefix_append ..
  · have hsame : handedOverBy site d as (n + k) = handedOverBy site d as n := handedOverBy_atRest h hn k
    exact hsame ▸ List.prefix_refl _

/-- What is delivered is what a run at rest has handed over. -/
theorem delivers_atRest (h : Settles verdict (d.pending ++ arrivals as) F r) {n : Nat}
    (hn : AtRest site d (as ++ List.replicate n .call)) (G : List (List UInt8)) :
    Delivers site d as G ↔ G = (handedOverBy site d as n).map Handover.frame := by
  constructor
  · intro hG
    obtain ⟨m, hm, rfl⟩ := hG
    have hp := handedOverBy_prefix h hn m
    have hp' := handedOverBy_prefix h hm n
    rw [hp.eq_of_length_le hp'.length_le]
  · exact fun hG => ⟨n, hn, hG.symm⟩

theorem stops_atRest (h : Settles verdict (d.pending ++ arrivals as) F r) {n : Nat}
    (hn : AtRest site d (as ++ List.replicate n .call)) (k : Nat) :
    Stops site d as k ↔ ∃ g, (handedOverBy site d as n)[k]? = some g ∧ g.Spins := by
  constructor
  · intro hk
    obtain ⟨m, g, hg, hspin⟩ := hk
    obtain ⟨t, ht⟩ := handedOverBy_prefix h hn m
    refine ⟨g, ?_, hspin⟩
    rw [← ht, List.getElem?_append_left (List.getElem?_eq_some_iff.1 hg).1, hg]
  · exact fun hk => ⟨n, hk⟩

/-- The frames up to the one with this number, that one too. -/
def upTo (F : List (List UInt8)) (stop : Option Nat) : List (List UInt8) := F.take (stop.elim F.length (· + 1))

/-- **The frames delivered are those of the stream**, up to the one that
`data_handle` does not return from, if there is one. -/
theorem exists_stop (site : Site) (h : Settles verdict (d.pending ++ arrivals as) F r) :
    ∃ stop : Option Nat, (∀ k, stop = some k → k < F.length) ∧ (∀ k, Stops site d as k ↔ stop = some k) ∧
      ∀ G, Delivers site d as G ↔ G = upTo F stop := by
  obtain ⟨n, hn, ⟨d', hp, hF⟩ | hp⟩ := comes_to_rest site h
  · refine ⟨none, fun k hk => (Option.some_ne_none k hk.symm).elim, fun k => ?_, fun G => ?_⟩
    · refine ⟨fun hk => ?_, fun hk => (Option.some_ne_none k hk.symm).elim⟩
      obtain ⟨g, hg, hspin⟩ := (stops_atRest h hn k).1 hk
      exact absurd hspin (hp.return_all g (List.mem_of_getElem? hg))
    · rw [delivers_atRest h hn, hF, upTo, Option.elim_none, List.take_length]
  · obtain ⟨H, g, hH, hspin, hreturn⟩ := hp.last
    have hH : handedOverBy site d as n = H ++ [g] := hH
    have hframes : (handedOverBy site d as n).map Handover.frame <+: F := hp.frames
    have hlen : ((handedOverBy site d as n).map Handover.frame).length = H.length + 1 := by
      rw [List.length_map, hH, List.length_append, List.length_singleton]
    have hle := hframes.length_le
    rw [hlen] at hle
    refine ⟨some H.length, fun k hk => Option.some.inj hk ▸ hle, fun k => ?_, fun G => ?_⟩
    · rw [stops_atRest h hn, hH, Option.some.injEq]
      constructor
      · intro hk
        obtain ⟨g', hg', hspin'⟩ := hk
        by_contra hne
        rcases Nat.lt_or_gt_of_ne hne with hgt | hlt
        · rw [List.getElem?_eq_none (by rw [List.length_append, List.length_singleton]; omega)] at hg'
          cases hg'
        · rw [List.getElem?_append_left hlt] at hg'
          exact hreturn g' (List.mem_of_getElem? hg') hspin'
      · rintro rfl
        exact ⟨g, by simp, hspin⟩
    · rw [delivers_atRest h hn, List.prefix_iff_eq_take.1 hframes, hlen, upTo, Option.elim_some]

/-- Two cuts give the same frames if and only if they differ behind the last one at most. -/
theorem upTo_eq_iff {stop stop' : Option Nat} (h : ∀ k, stop = some k → k < F.length)
    (h' : ∀ k, stop' = some k → k < F.length) :
    upTo F stop = upTo F stop' ↔ ∀ k, k + 1 < F.length → (stop = some k ↔ stop' = some k) := by
  have hlen : ∀ {stop : Option Nat}, (∀ k, stop = some k → k < F.length) → stop.elim F.length (· + 1) ≤ F.length := by
    intro stop h
    cases stop with
    | none => exact Nat.le_refl _
    | some k => exact h k rfl
  rw [upTo, upTo, List.take_eq_take_iff, Nat.min_eq_left (hlen h), Nat.min_eq_left (hlen h')]
  cases stop with
  | none =>
    cases stop' with
    | none => simp
    | some j =>
      have hj := h' j rfl
      simp only [Option.elim_none, Option.elim_some, reduceCtorEq, Option.some.injEq, false_iff]
      exact ⟨fun heq k hk hjk => by omega, fun hk => Nat.le_antisymm (Nat.not_lt.1 fun hlt => hk j hlt rfl) hj⟩
  | some i =>
    have hi := h i rfl
    cases stop' with
    | none =>
      simp only [Option.elim_none, Option.elim_some, reduceCtorEq, Option.some.injEq, iff_false]
      exact ⟨fun heq k hk hik => by omega, fun hk => Nat.le_antisymm hi (Nat.not_lt.1 fun hlt => hk i hlt rfl)⟩
    | some j =>
      have hj := h' j rfl
      simp only [Option.elim_some, Option.some.injEq]
      constructor
      · exact fun heq k _ => by omega
      · intro hk
        rcases Nat.lt_trichotomy i j with hlt | heq | hgt
        · have := (hk i (by omega)).1 rfl
          omega
        · rw [heq]
        · have := (hk j (by omega)).2 rfl
          omega

end Delivered

/-! ## Chunking -/

/-- No 55 AA 00 in the stream declares a length of 0xFFF9 or more. -/
def NoWrappingLength (p : List UInt8) : Prop :=
  ∀ (i : Nat) (hi lo : UInt8), p[i]? = some 0x55 → p[i + 1]? = some 0xaa → p[i + 2]? = some 0x00 →
    p[i + 4]? = some hi → p[i + 5]? = some lo → hi.toNat * 0x100 + lo.toNat < 0xfff9

/-- It is enough to look at the bytes there are. -/
theorem noWrappingLength_of_bounded {p : List UInt8}
    (h : ∀ i < p.length, p[i]? = some 0x55 → p[i + 1]? = some 0xaa → p[i + 2]? = some 0x00 →
      (p.getD (i + 4) 0).toNat * 0x100 + (p.getD (i + 5) 0).toNat < 0xfff9) : NoWrappingLength p := by
  intro i hi lo h0 h1 h2 h4 h5
  have hlt := h i (List.getElem?_eq_some_iff.1 h0).1 h0 h1 h2
  rwa [List.getD_eq_getElem?_getD, h4, Option.getD_some, List.getD_eq_getElem?_getD, h5, Option.getD_some] at hlt

theorem verdict_stuck {p : List UInt8} (h : verdict p = .stuck) :
    7 ≤ p.length ∧ p.getD 0 0 = 0x55 ∧ p.getD 1 0 = 0xaa ∧ p.getD 2 0 = 0x00 ∧ 0xfff9 ≤ streamLen p := by
  cases h ▸ judged p with
  | stuck h7 first second version hlen => exact ⟨h7, first, second, version, hlen⟩

theorem exists_settles_of_noWrapping {p : List UInt8} (h : NoWrappingLength p) : ∃ F r, Settles verdict p F r := by
  refine exists_settles verdict_stable p fun q hq hst => ?_
  obtain ⟨o, rfl⟩ := hq
  obtain ⟨h7, h0, h1, h2, hL⟩ := verdict_stuck hst
  have at_front : ∀ i, i < 7 → (o ++ q)[o.length + i]? = some (q.getD i 0) := fun i hi => by
    rw [List.getElem?_append_right (by omega), Nat.add_sub_cancel_left, List.getD_eq_getElem?_getD,
      List.getElem?_eq_getElem (by omega), Option.getD_some]
  have := h o.length _ _ (by rw [← h0]; exact at_front 0 (by omega)) (by rw [← h1]; exact at_front 1 (by omega))
    (by rw [← h2]; exact at_front 2 (by omega)) (at_front 4 (by omega)) (at_front 5 (by omega))
  simp only [streamLen] at hL
  omega

/-- **Chunking independence.** Two runs over the same stream, however the stream
is cut, whenever the service is called and whatever memory they start with, pass
the same frames to `data_handle` if and only if it returns in both or in neither
from every frame but the last of the stream. -/
theorem chunking_independent_iff (site : Site) {as bs : List DeviceAct} (h : arrivals as = arrivals bs)
    (hA : NoWrappingLength (arrivals as)) (txBuf txBuf' buf buf' : Nat → UInt8) (before before' : UInt8) :
    ∃ F r, Settles verdict (arrivals as) F r ∧
      ((∃ G, ∀ G', (Delivers site (.start txBuf buf before []) as G' ↔ G' = G) ∧
          (Delivers site (.start txBuf' buf' before' []) bs G' ↔ G' = G)) ↔
        ∀ k, k + 1 < F.length →
          (Stops site (.start txBuf buf before []) as k ↔ Stops site (.start txBuf' buf' before' []) bs k)) := by
  obtain ⟨F, r, hF⟩ := exists_settles_of_noWrapping hA
  obtain ⟨stop, hlt, hstop, hG⟩ := exists_stop site (d := .start txBuf buf before []) hF
  obtain ⟨stop', hlt', hstop', hG'⟩ := exists_stop site (d := .start txBuf' buf' before' []) (h ▸ hF)
  refine ⟨F, r, hF, ?_⟩
  simp only [hG, hG', hstop, hstop']
  rw [← upTo_eq_iff hlt hlt']
  constructor
  · intro hsame
    obtain ⟨G, hsame⟩ := hsame
    exact ((hsame _).1.1 rfl).trans ((hsame _).2.1 rfl).symm
  · exact fun hsame => ⟨_, fun G' => ⟨Iff.rfl, by rw [hsame]⟩⟩

/-- The module's heartbeat, in two pieces with a call in between and in one. -/
theorem chunking_independent_iff_heartbeat :
    ∃ F r, Settles verdict [0x55, 0xaa, 0, 0, 0, 0, 0xff] F r ∧
      ((∃ G, ∀ G', (Delivers .plain (.start (fun _ => 0) (fun _ => 0) 0 [])
            [.arrive [0x55, 0xaa], .call, .arrive [0, 0, 0, 0, 0xff]] G' ↔ G' = G) ∧
          (Delivers .plain (.start (fun _ => 0) (fun _ => 1) 1 []) [.arrive [0x55, 0xaa, 0, 0, 0, 0, 0xff]] G' ↔
            G' = G)) ↔
        ∀ k, k + 1 < F.length →
          (Stops .plain (.start (fun _ => 0) (fun _ => 0) 0 [])
              [.arrive [0x55, 0xaa], .call, .arrive [0, 0, 0, 0, 0xff]] k ↔
            Stops .plain (.start (fun _ => 0) (fun _ => 1) 1 []) [.arrive [0x55, 0xaa, 0, 0, 0, 0, 0xff]] k)) := by
  have hA : NoWrappingLength [0x55, 0xaa, 0, 0, 0, 0, 0xff] := noWrappingLength_of_bounded (by decide)
  exact chunking_independent_iff .plain (show arrivals [.arrive [0x55, 0xaa], .call, .arrive [0, 0, 0, 0, 0xff]] =
    arrivals [.arrive [0x55, 0xaa, 0, 0, 0, 0, 0xff]] from rfl) hA _ _ _ _ _ _

/-- A command whose only data point is cut short after its type. -/
def shortPoint : List UInt8 := [0x55, 0xaa, 0x00, 0x06, 0x00, 0x01, 0xe7, 0xed]

def heartbeat : List UInt8 := [0x55, 0xaa, 0x00, 0x00, 0x00, 0x00, 0xff]

/-- In one piece, and with a first frame that `data_handle` does not return from,
a stream gives that frame alone. -/
theorem delivers_first {site : Site} (stream : List UInt8) {w : ProcessBuf} {q : List UInt8} {n : Nat}
    (hrx : receive .fifo processBufSize (.start (fun _ => 0) 0) stream = some (w, q)) (h7 : protocolHead ≤ w.rxIn)
    (he : examine w 0 = .handle n) (hspin : Spins w.buf 0) :
    Delivers site (.fresh []) [.arrive stream] [frameAt w.buf 0] := by
  have hserv : wifiUartService site .fifo parseFuel (.fresh stream) = ([⟨w.buf, 0⟩], none) := by
    have hloop : parseLoop site w (processBufSize + 1) 0 (.init fun _ => 0) = ([0], none) :=
      parseLoop_spins (by rwa [Nat.sub_zero]) he hspin
    have hrx' : receive .fifo (processBufSize - (Device.fresh stream).proc.rxIn) (Device.fresh stream).proc
      (Device.fresh stream).ring = some (w, q) := hrx
    have hsdk : (Device.fresh stream).sdk = .init fun _ => 0 := rfl
    simp only [wifiUartService, hrx', if_neg (Nat.not_lt.2 h7), parseFuel, hsdk, hloop]
    rfl
  have harrive : deviceStep site .fifo (.fresh []) (.arrive stream) = some (.fresh stream) := by
    rw [deviceStep, show (Device.fresh []).ring = [] from rfl, takeIn_fifo]
    rfl
  have hcall : deviceStep site .fifo (.fresh stream) .call = none := by rw [deviceStep, hserv]
  refine ⟨1, .inl ?_, ?_⟩
  · rw [List.replicate_one, List.singleton_append, exec, harrive, Option.bind_some, exec, hcall, Option.bind_none]
  · rw [handedOverBy, handedOver, List.replicate_one, List.singleton_append, trace, harrive, Option.elim_some, trace,
      hcall, Option.elim_none, List.append_nil, handovers, handovers, List.nil_append, hserv]
    rfl

/-- A first data point whose length of 0xFFFC brings the index back to 0. -/
theorem spins_of_full {buf : Nat → UInt8} {offset : Nat} (htype : buf (offset + frameType) = dataQuertCmd)
    (hlt : 0 < totalLen buf offset) (hback : nextIndex buf offset 0 = 0) : Spins buf offset :=
  ⟨htype, 0, .here hlt, by rw [hback]; exact .here hlt⟩

/-- `shortPoint`, two bytes and a heartbeat in one piece. -/
def whole : List DeviceAct := [.arrive (shortPoint ++ [0xff, 0xfc] ++ heartbeat)]

/-- The same, cut behind `shortPoint`. -/
def cutBehind : List DeviceAct := [.arrive shortPoint, .call, .arrive ([0xff, 0xfc] ++ heartbeat)]

/-- In one piece the length of the data point is in the two bytes behind the
frame, and the walk stays at index 0; cut behind the frame, it is in memory that
holds 0. The heartbeat is passed in one of the runs only. -/
theorem chunking_matters :
    arrivals whole = arrivals cutBehind ∧ NoWrappingLength (arrivals whole) ∧
      Delivers .plain (.fresh []) whole [shortPoint] ∧ Delivers .plain (.fresh []) cutBehind [shortPoint, heartbeat] ∧
      ¬ ∃ G, ∀ G', (Delivers .plain (.fresh []) whole G' ↔ G' = G) ∧
        (Delivers .plain (.fresh []) cutBehind G' ↔ G' = G) := by
  have hwhole : Delivers .plain (.fresh []) whole [shortPoint] := by
    refine delivers_first (shortPoint ++ [0xff, 0xfc] ++ heartbeat) rfl ?_ (n := 8) ?_ (spins_of_full ?_ ?_ ?_) <;>
      decide
  have hcut : Delivers .plain (.fresh []) cutBehind [shortPoint, heartbeat] := ⟨2, .inr ⟨_, rfl, rfl⟩, by decide⟩
  refine ⟨rfl, noWrappingLength_of_bounded (by decide), hwhole, hcut, ?_⟩
  intro hsame
  obtain ⟨G, hsame⟩ := hsame
  have heq := ((hsame _).1.1 hwhole).trans ((hsame _).2.1 hcut).symm
  exact absurd heq (by decide)

/-! ## Streams of frames -/

/-- Bytes between frames, and a frame that fits the buffer. -/
structure Segment where
  gap : List UInt8
  type : UInt8
  data : List UInt8
  noHead : 0x55 ∉ gap
  fits : data.length ≤ 24

def Segment.frame (s : Segment) : List UInt8 := mkFrame s.type s.data

/-- The end of a stream: bytes between frames, then a frame not complete. -/
structure Tail where
  gap : List UInt8
  part : List UInt8
  type : UInt8
  data : List UInt8
  noHead : 0x55 ∉ gap
  fits : data.length ≤ 24
  isPart : part <+: mkFrame type data
  short : part.length < data.length + 7

/-- The bytes of a stream of frames. -/
def streamOf (segs : List Segment) (t : Tail) : List UInt8 :=
  segs.flatMap (fun s => s.gap ++ s.frame) ++ t.gap ++ t.part

/-- Bytes that are no 0x55 are skipped one by one. -/
theorem settles_gap {gap p r : List UInt8} {F : List (List UInt8)} (hg : 0x55 ∉ gap) (h : Settles verdict p F r) :
    ∃ r', Settles verdict (gap ++ p) F r' := by
  induction gap with
  | nil => exact ⟨r, h⟩
  | cons b gap ih =>
    obtain ⟨r', hp, hr⟩ := ih fun hm => hg (List.mem_cons_of_mem b hm)
    by_cases h7 : (b :: gap ++ p).length < 7
    · obtain ⟨rfl, -⟩ := h.eq_of_wait (verdict_of_short (by simp at h7; omega))
      exact ⟨_, .refl _, verdict_of_short h7⟩
    · have hb : b ≠ 0x55 := fun hb => hg (by simp [hb])
      have hv : verdict (b :: gap ++ p) = .skip 1 := by
        rw [verdict, if_neg h7, if_pos (by simpa using hb)]
      exact ⟨r', .skip hv hp, hr⟩

/-- The front of a frame shows its header and its length. -/
theorem frame_front {type : UInt8} {data q : List UInt8} (hlen : data.length ≤ 0xffff) (h7 : 7 ≤ q.length)
    (h : q <+: mkFrame type data ∨ mkFrame type data <+: q) :
    q.getD 0 0 = 0x55 ∧ q.getD 1 0 = 0xaa ∧ q.getD 2 0 = 0x00 ∧ streamLen q = data.length := by
  have hm : (mkFrame type data).length = data.length + 7 := length_mkFrame type data
  have same : ∀ i, i < 7 → q.getD i 0 = (mkFrame type data).getD i 0 := fun i hi => by
    rcases h with ⟨t, h⟩ | ⟨t, h⟩
    · rw [← h, getD_append t (by omega)]
    · rw [← h, getD_append t (by omega)]
  rw [streamLen, same 0 (by omega), same 1 (by omega), same 2 (by omega), same 4 (by omega), same 5 (by omega)]
  exact ⟨rfl, rfl, rfl, length_bytes hlen⟩

/-- A frame at the front is taken. -/
theorem settles_frame {type : UInt8} {data p r : List UInt8} {F : List (List UInt8)} (hf : data.length ≤ 24)
    (h : Settles verdict p F r) : Settles verdict (mkFrame type data ++ p) (mkFrame type data :: F) r := by
  have hm : (mkFrame type data).length = data.length + 7 := length_mkFrame type data
  have hb : (frameBody type data).length = data.length + 6 := length_frameBody type data
  obtain ⟨h0, h1, h2, hL⟩ := frame_front (q := mkFrame type data) (by omega) (by omega) (.inl (List.prefix_refl _))
  have hv : verdict (mkFrame type data) = .frame (data.length + 7) := by
    have hsum : (mkFrame type data).getD (data.length + 6) 0 = checkSum (frameBody type data) := by
      rw [mkFrame, List.getD_eq_getElem?_getD, ← hb, List.getElem?_append_right (Nat.le_refl _), Nat.sub_self]
      rfl
    rw [verdict, if_neg (by omega), if_neg (not_not.2 h0), if_neg (not_not.2 h1), if_neg (not_not.2 h2), hL,
      if_neg (by omega), if_neg (by omega), if_neg (by omega), hsum, mkFrame, ← hb, List.take_left, if_neg (by simp)]
  have hv' : verdict (mkFrame type data ++ p) = .frame (data.length + 7) := by
    rw [verdict_stable.append p (by simp [hv]), hv]
  have hfr := Parses.frame hv' (F := F) (r := r) (by rw [← hm, List.drop_left]; exact h.1)
  rw [← hm, List.take_left] at hfr
  exact ⟨hfr, h.2⟩

/-- The part of a frame is waited for. -/
theorem verdict_part (t : Tail) : verdict t.part = .wait := by
  have hf := t.fits
  have hs := t.short
  by_cases h7 : t.part.length < 7
  · exact verdict_of_short h7
  · obtain ⟨h0, h1, h2, hL⟩ := frame_front (by omega) (Nat.not_lt.1 h7) (.inl t.isPart)
    rw [verdict, if_neg h7, if_neg (not_not.2 h0), if_neg (not_not.2 h1), if_neg (not_not.2 h2), hL,
      if_neg (by omega), if_neg (by omega), if_pos (by omega)]

/-- A stream of frames parses into its frames. -/
theorem settles_streamOf (segs : List Segment) (t : Tail) :
    ∃ r, Settles verdict (streamOf segs t) (segs.map Segment.frame) r := by
  induction segs with
  | nil =>
    obtain ⟨r, h⟩ := settles_gap t.noHead ⟨.refl t.part, verdict_part t⟩
    exact ⟨r, h⟩
  | cons s segs ih =>
    obtain ⟨r, h⟩ := ih
    obtain ⟨r', h'⟩ := settles_gap s.noHead (settles_frame s.fits h)
    refine ⟨r', ?_⟩
    simp only [streamOf, List.flatMap_cons, List.append_assoc, List.map_cons] at h' ⊢
    exact h'

/-- **Completeness.** Over a stream of frames, however it is cut, each of them is
passed to `data_handle` once, in order and whole, and the part of a frame at its
end is withheld, if and only if `data_handle` returns from every frame but the last. -/
theorem frames_delivered_iff (site : Site) {segs : List Segment} {t : Tail} {as : List DeviceAct}
    (h : arrivals as = streamOf segs t) (txBuf buf : Nat → UInt8) (before : UInt8) :
    (∀ G, Delivers site (.start txBuf buf before []) as G ↔ G = segs.map Segment.frame) ↔
      ∀ k, k + 1 < segs.length → ¬ Stops site (.start txBuf buf before []) as k := by
  obtain ⟨r, hs⟩ := settles_streamOf segs t
  rw [← h] at hs
  obtain ⟨stop, hlt, hstop, hG⟩ := exists_stop site (d := .start txBuf buf before []) hs
  have hall : upTo (segs.map Segment.frame) none = segs.map Segment.frame := List.take_length
  have hnone : ∀ k, none = some k → k < (segs.map Segment.frame).length :=
    fun k hk => (Option.some_ne_none k hk.symm).elim
  have hcut := upTo_eq_iff hlt hnone
  rw [hall, List.length_map] at hcut
  simp only [reduceCtorEq, iff_false] at hcut
  simp only [hG, hstop]
  rw [← hcut]
  constructor
  · exact fun hsame => (hsame _).1 rfl
  · exact fun heq G => by rw [heq]

def oneBeat : List Segment := [⟨[7], 0, [], by decide, by decide⟩]

/-- The heartbeat in two pieces, with bytes around it and the begin of another. -/
def oneBeatRun : List DeviceAct := [.arrive [7, 0x55], .call, .arrive [0xaa, 0, 0, 0, 0, 0xff, 9, 0x55, 0xaa]]

theorem frames_delivered_iff_heartbeat :
    (∀ G, Delivers .plain (.fresh []) oneBeatRun G ↔ G = oneBeat.map Segment.frame) ↔
      ∀ k, k + 1 < oneBeat.length → ¬ Stops .plain (.fresh []) oneBeatRun k :=
  frames_delivered_iff .plain
    (show arrivals oneBeatRun =
      streamOf oneBeat ⟨[9], [0x55, 0xaa], 0, [], by decide, by decide, by decide, by decide⟩ by decide) _ _ _

/-- `fullLength`, a frame whose data point declares 0xFFFC bytes, and a heartbeat. -/
def fullThenBeat : List Segment :=
  [⟨[], 6, [231, 2, 0xff, 0xfc], by decide, by decide⟩, ⟨[], 0, [], by decide, by decide⟩]

/-- The heartbeat behind such a frame is never passed. -/
theorem heartbeat_not_delivered :
    arrivals [.arrive (fullLength ++ heartbeat)] =
        streamOf fullThenBeat ⟨[], [], 0, [], by decide, by decide, by decide, by decide⟩ ∧
      fullThenBeat.map Segment.frame = [fullLength, heartbeat] ∧
      Delivers .plain (.fresh []) [.arrive (fullLength ++ heartbeat)] [fullLength] ∧
      ¬ ∀ G, Delivers .plain (.fresh []) [.arrive (fullLength ++ heartbeat)] G ↔ G = fullThenBeat.map Segment.frame := by
  have hfirst : Delivers .plain (.fresh []) [.arrive (fullLength ++ heartbeat)] [fullLength] := by
    refine delivers_first (fullLength ++ heartbeat) rfl ?_ (n := 11) ?_ (spins_of_full ?_ ?_ ?_) <;> decide
  refine ⟨by decide, by decide, hfirst, fun hall => ?_⟩
  exact absurd ((hall _).1 hfirst) (by decide)

end Petbox.Wifi
