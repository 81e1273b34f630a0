/-
The sockets of the SIM7070 driver (`at_device_sim7070.c`): which descriptors the
bitmap `sg_SocketBitMap` holds, and which connections there are.

A driver function stops wherever it waits for the modem (and where it asks for
memory); a `+CACLOSE` of the modem can come there. `sim7070_connect` closes the
descriptor before it tries again, `sim7070_close` frees it, and nothing takes it
again: a connection that the retry opens does not own its descriptor.
-/
import Petbox.Lib.Bitmap
import Petbox.Lib.Dialogue
import Petbox.Lib.Run

namespace Petbox.Modem

open Bitmap Dialogue Machine

/-! ## The code -/

def sim7070MaxSocketNum : Nat := 5
def unusedSocket : Int := -1
def qcloudRetSuccess : Int := 0
def qcloudErrFailure : Int := -1001
def qcloudErrInval : Int := -1002

/-- `eNetProto`; `other` is any value the driver does not support. -/
inductive NetProto
  | tcp
  | udp
  | other
  deriving DecidableEq, Repr

/-- What the driver waits for: memory for a response (0 for none), or the return
code of an AT command. -/
inductive Query
  | createResp
  | caopen (fd : Int) (proto : NetProto) (ip : List UInt8) (port : UInt16)
  | caclose (fd : Int)
  deriving DecidableEq

/-- Code of the driver, on `sg_SocketBitMap`. -/
abbrev DriverM := Code UInt8 Query Int

/-- `alloc_fd`. -/
def allocFd : DriverM Int := do
  let bits ← get
  match (List.range sim7070MaxSocketNum).find? fun i => (bits >>> i.toUInt8) &&& 1 == 0 with
  | some i =>
    modify (· ||| mask i)
    return i
  | none => return unusedSocket

/-- The bitmap after `free_fd`. -/
def freed (fd : Int) (bits : UInt8) : UInt8 :=
  if fd ≠ unusedSocket ∧ fd < sim7070MaxSocketNum then bits &&& ~~~(mask fd.toNat) else bits

/-- `free_fd`. -/
def freeFd (fd : Int) : DriverM Unit := modify (freed fd)

/-- `sim7070_close`. -/
def sim7070Close (fd : Int) : DriverM Int := do
  if (← ask .createResp) = 0 then return qcloudErrFailure
  let ret ← ask (.caclose fd)
  freeFd fd
  return ret

/-- `sim7070_connect` from its label `__exit` on. -/
def connectExit (fd ret : Int) : DriverM Int := do
  if ret ≠ qcloudRetSuccess then
    freeFd fd
    return unusedSocket
  return fd

/-- `sim7070_connect` from its label `__retry` on; `retryed` says that there is no
retry left. -/
def connectRetry (ip : List UInt8) (port : UInt16) (proto : NetProto) (fd : Int) : Nat → DriverM Int
  | 0 => do
    if proto = .other then connectExit fd qcloudErrFailure
    else connectExit fd (← ask (.caopen fd proto ip port))
  | retries + 1 => do
    if proto = .other then connectExit fd qcloudErrFailure
    else
      let ret ← ask (.caopen fd proto ip port)
      if ret ≠ qcloudRetSuccess then
        if (← sim7070Close fd) ≠ qcloudRetSuccess then connectExit fd ret
        else connectRetry ip port proto fd retries
      else connectExit fd ret

/-- `sim7070_connect`; no address stands for a null pointer. -/
def sim7070Connect (ip : Option (List UInt8)) (port : UInt16) (proto : NetProto) : DriverM Int :=
  match ip with
  | none => return qcloudErrInval
  | some ip => do
    if (← ask .createResp) = 0 then return qcloudErrFailure
    let fd ← allocFd
    if fd < 0 then return qcloudErrFailure
    connectRetry ip port proto fd 1

/-! ## The driver at work -/

/-- A call of the driver. -/
inductive Call
  | connect
  | close (fd : Nat)
  deriving DecidableEq

/-- The driver: its bitmap, and the call that waits for an answer, if any. The
rest is not in the code: what the call has asked for so far (the last first),
which descriptors the modem has closed since it asked, and the descriptors of
the connections that were returned and not closed yet. -/
structure Driver where
  bits : UInt8
  call : Option (Call × (Int → DriverM Int))
  asked : List Query
  notified : List Nat
  conns : List Nat

/-- What can happen: a call of the driver, the answer it waits for, and a
`+CACLOSE` notification. -/
inductive DriverAction
  | connect (ip : Option (List UInt8)) (port : UInt16) (proto : NetProto)
  | close (fd : Nat)
  | answer (ret : Int)
  | notify (fd : Nat)

/-- Every open connection has its bit set, and no two have the same descriptor. -/
def Owned (bits : UInt8) (conns : List Nat) : Prop :=
  (∀ fd ∈ conns, fd < sim7070MaxSocketNum ∧ Has bits fd) ∧ conns.Nodup

section Steps

-- Does a call of `sim7070_close` that returns a failure close the connection?
variable (refused : Bool)

/-- The open connections when a call returns. One whose `+CACLOSE` came first is
not open any more. -/
def connsAfter (s : Driver) (ret : Int) : Call → List Nat
  | .connect => if 0 ≤ ret ∧ ret.toNat ∉ s.notified then s.conns ++ [ret.toNat] else s.conns
  | .close fd => if ret = qcloudRetSuccess ∨ refused = true then s.conns.filter (· ≠ fd) else s.conns

/-- The driver when a call returns, or waits. -/
def settle (s : Driver) (call : Call) : Talk UInt8 Query Int Int → Driver
  | .done bits ret =>
    { bits, call := none, asked := [], notified := [], conns := connsAfter refused s ret call }
  | .ask bits q next => { s with bits, call := some (call, next), asked := q :: s.asked, notified := [] }

/-- One step. Calls come one at a time; `urc_close_func` tells the layer above
and frees the descriptor. -/
def driverStep (s : Driver) : DriverAction → Option Driver
  | .connect ip port proto =>
    match s.call with
    | none => some (settle refused s .connect (sim7070Connect ip port proto s.bits))
    | some _ => none
  | .close fd =>
    match s.call with
    | none => some (settle refused s (.close fd) (sim7070Close fd s.bits))
    | some _ => none
  | .answer ret =>
    match s.call with
    | none => none
    | some (call, next) => some (settle refused s call (next ret s.bits))
  | .notify fd =>
    some { s with bits := freed fd s.bits, notified := fd :: s.notified, conns := s.conns.filter (· ≠ fd) }

/-- After the step every open connection owns its descriptor. -/
def OwnedAfter (s : Driver) (a : DriverAction) : Prop :=
  ∀ s', driverStep refused s a = some s' → Owned s'.bits s'.conns

/-- The step is not the answer of success to the second `AT+CAOPEN` of a call,
without a `+CACLOSE` since that was sent; nor, where a call of `sim7070_close`
has to succeed, the answer of failure to it for an open connection. -/
def Proper (s : Driver) : DriverAction → Prop
  | .answer ret =>
    match s.call, s.asked with
    | some (.connect, _), .caopen fd proto ip port :: asked =>
      ret = qcloudRetSuccess → .caopen fd proto ip port ∈ asked → fd.toNat ∈ s.notified
    | some (.close fd, _), .caclose _ :: _ => ret ≠ qcloudRetSuccess → refused = false → fd ∉ s.conns
    | _, _ => True
  | _ => True

/-- The driver after a reset. -/
def resetDriver : Driver where
  bits := 0
  call := none
  asked := []
  notified := []
  conns := []

end Steps

/-! ## Bits and connections -/

theorem has_freed {bits : UInt8} {n j : Nat} (hj : j < sim7070MaxSocketNum) :
    Has (freed n bits) j ↔ Has bits j ∧ n ≠ j := by
  unfold sim7070MaxSocketNum at hj
  unfold freed unusedSocket sim7070MaxSocketNum
  split
  · next h => exact has_and_not_mask (by omega) (by omega)
  · next h =>
    have hne : n ≠ j := by omega
    exact (and_iff_left hne).symm

/-- The descriptor that is taken was free. -/
theorem find_free {bits : UInt8} {i : Nat}
    (h : (List.range sim7070MaxSocketNum).find? (fun i => (bits >>> i.toUInt8) &&& 1 == 0) = some i) :
    i < sim7070MaxSocketNum ∧ ¬ Has bits i := by
  have hi := List.mem_range.1 (List.mem_of_find?_eq_some h)
  have hbit := List.find?_some h
  unfold sim7070MaxSocketNum at hi
  exact ⟨hi, (shift_and_one (by omega)).1 hbit⟩

section Own

variable {bits : UInt8} {conns : List Nat}

theorem Owned.free (h : Owned bits conns) {n : Nat} (hn : n ∉ conns) : Owned (freed n bits) conns :=
  ⟨fun fd hfd => ⟨(h.1 fd hfd).1, (has_freed (h.1 fd hfd).1).2 ⟨(h.1 fd hfd).2, fun heq => hn (heq ▸ hfd)⟩⟩, h.2⟩

theorem Owned.filter (h : Owned bits conns) (n : Nat) : Owned bits (conns.filter (· ≠ n)) :=
  ⟨fun fd hfd => h.1 fd ((List.mem_filter.1 hfd).1), h.2.filter _⟩

/-- A descriptor that is closed is free. -/
theorem Owned.closed (h : Owned bits conns) (n : Nat) : Owned (freed n bits) (conns.filter (· ≠ n)) :=
  (h.filter n).free (by simp)

theorem Owned.alloc (h : Owned bits conns) {n : Nat} (hn : n < sim7070MaxSocketNum) :
    Owned (bits ||| mask n) conns := by
  unfold sim7070MaxSocketNum at hn
  exact ⟨fun fd hfd => ⟨(h.1 fd hfd).1, (has_or_mask (by omega)).2 (.inl (h.1 fd hfd).2)⟩, h.2⟩

theorem Owned.add (h : Owned bits conns) {n : Nat} (hn : n < sim7070MaxSocketNum) (hbit : Has bits n)
    (hfree : n ∉ conns) : Owned bits (conns ++ [n]) := by
  have hdisj : ∀ a ∈ conns, ∀ b ∈ [n], a ≠ b := fun a ha b hb heq => hfree (List.mem_singleton.1 hb ▸ heq ▸ ha)
  refine ⟨fun fd hfd => ?_, List.nodup_append.2 ⟨h.2, by simp, hdisj⟩⟩
  rcases List.mem_append.1 hfd with hfd | hfd
  · exact h.1 fd hfd
  · rw [List.mem_singleton.1 hfd]
    exact ⟨hn, hbit⟩

end Own

/-! ## Where a call waits -/

/-- `sim7070_close` behind its request for memory. -/
def closeBehindResp (fd resp : Int) : DriverM Int := do
  if resp = 0 then return qcloudErrFailure
  let ret ← ask (.caclose fd)
  freeFd fd
  return ret

/-- `sim7070_close` behind its `AT+CACLOSE`. -/
def closeBehindCommand (fd ret : Int) : DriverM Int := do
  freeFd fd
  return ret

/-- `sim7070_connect` behind its request for memory. -/
def connectBehindResp (ip : List UInt8) (port : UInt16) (proto : NetProto) (resp : Int) : DriverM Int := do
  if resp = 0 then return qcloudErrFailure
  let fd ← allocFd
  if fd < 0 then return qcloudErrFailure
  connectRetry ip port proto fd 1

/-- `sim7070_connect` behind the `sim7070_close` that follows a failure. -/
def connectBehindClose (ip : List UInt8) (port : UInt16) (proto : NetProto) (fd ret closed : Int) : DriverM Int := do
  if closed ≠ qcloudRetSuccess then connectExit fd ret
  else connectRetry ip port proto fd 0

/-- `sim7070_connect` behind its first `AT+CAOPEN`. -/
def connectBehindOpen (ip : List UInt8) (port : UInt16) (proto : NetProto) (fd ret : Int) : DriverM Int := do
  if ret ≠ qcloudRetSuccess then
    let closed ← sim7070Close fd
    connectBehindClose ip port proto fd ret closed
  else connectExit fd ret

/-- The places a call waits at, with what the driver knows there. -/
inductive Waits (s : Driver) : Prop
  | idle (hcall : s.call = none) (hasked : s.asked = [])
  /-- `sim7070_connect` for memory -/
  | connectResp (ip : List UInt8) (port : UInt16) (proto : NetProto)
      (hcall : s.call = some (.connect, connectBehindResp ip port proto)) (hasked : s.asked = [.createResp])
  /-- for its first `AT+CAOPEN` -/
  | opening (ip : List UInt8) (port : UInt16) (proto : NetProto) (n : Nat) (hn : n < sim7070MaxSocketNum)
      (hcall : s.call = some (.connect, connectBehindOpen ip port proto n))
      (hasked : s.asked = [.caopen n proto ip port, .createResp]) (hfree : n ∉ s.conns)
      (hbit : Has s.bits n ∨ n ∈ s.notified)
  /-- for memory to close it, after a failure -/
  | reclosingResp (ip : List UInt8) (port : UInt16) (proto : NetProto) (n : Nat) (hn : n < sim7070MaxSocketNum)
      (ret : Int) (hret : ret ≠ qcloudRetSuccess)
      (hcall : s.call = some (.connect, fun resp => do
        let closed ← closeBehindResp n resp
        connectBehindClose ip port proto n ret closed))
      (hasked : s.asked = [.createResp, .caopen n proto ip port, .createResp]) (hfree : n ∉ s.conns)
  /-- for the `AT+CACLOSE` -/
  | reclosing (ip : List UInt8) (port : UInt16) (proto : NetProto) (n : Nat) (hn : n < sim7070MaxSocketNum)
      (ret : Int) (hret : ret ≠ qcloudRetSuccess)
      (hcall : s.call = some (.connect, fun r => do
        let closed ← closeBehindCommand n r
        connectBehindClose ip port proto n ret closed))
      (hasked : s.asked = [.caclose n, .createResp, .caopen n proto ip port, .createResp]) (hfree : n ∉ s.conns)
  /-- for the second `AT+CAOPEN`: the descriptor was freed -/
  | reopening (ip : List UInt8) (port : UInt16) (proto : NetProto) (n : Nat) (hn : n < sim7070MaxSocketNum)
      (hcall : s.call = some (.connect, connectExit n))
      (hasked : s.asked = [.caopen n proto ip port, .caclose n, .createResp, .caopen n proto ip port, .createResp])
      (hfree : n ∉ s.conns) (hbit : ¬ Has s.bits n)
  /-- `sim7070_close` for memory -/
  | closeResp (fd : Nat) (hcall : s.call = some (.close fd, closeBehindResp fd)) (hasked : s.asked = [.createResp])
  /-- for its `AT+CACLOSE` -/
  | closing (fd : Nat) (hcall : s.call = some (.close fd, closeBehindCommand fd))
      (hasked : s.asked = [.caclose fd, .createResp])

/-! ## From one place to the next -/

section Talk

variable {bits : UInt8} {ip : List UInt8} {port : UInt16} {proto : NetProto} {fd ret : Int}

theorem connectExit_failure (h : ret ≠ qcloudRetSuccess) :
    connectExit fd ret bits = .done (freed fd bits) unusedSocket := by
  rw [connectExit, if_pos h]
  rfl

theorem connectExit_success : connectExit fd qcloudRetSuccess bits = .done bits fd := rfl

theorem connectRetry_other (retries : Nat) :
    connectRetry ip port .other fd retries bits = .done (freed fd bits) unusedSocket := by
  cases retries <;> rfl

theorem connectRetry_first (h : proto ≠ .other) :
    connectRetry ip port proto fd 1 bits =
      .ask bits (.caopen fd proto ip port) (connectBehindOpen ip port proto fd) := by
  rw [connectRetry, if_neg h]
  rfl

theorem connectRetry_last (h : proto ≠ .other) :
    connectRetry ip port proto fd 0 bits = .ask bits (.caopen fd proto ip port) (connectExit fd) := by
  rw [connectRetry, if_neg h]
  rfl

theorem allocFd_some {i : Nat}
    (h : (List.range sim7070MaxSocketNum).find? (fun i => (bits >>> i.toUInt8) &&& 1 == 0) = some i) :
    allocFd bits = .done (bits ||| mask i) i := by
  rw [allocFd, get_bind, h]
  rfl

theorem allocFd_none
    (h : (List.range sim7070MaxSocketNum).find? (fun i => (bits >>> i.toUInt8) &&& 1 == 0) = none) :
    allocFd bits = .done bits unusedSocket := by
  rw [allocFd, get_bind, h]
  rfl

theorem closeBehindResp_some {resp : Int} (h : resp ≠ 0) :
    closeBehindResp fd resp bits = .ask bits (.caclose fd) (closeBehindCommand fd) := by
  rw [closeBehindResp, if_neg h]
  rfl

theorem closeBehindResp_none : closeBehindResp fd 0 bits = .done bits qcloudErrFailure := rfl

end Talk

section Invariant

variable {refused : Bool} {s : Driver}

theorem connsAfter_connect (ret : Int) : connsAfter refused s ret .connect =
    if 0 ≤ ret ∧ ret.toNat ∉ s.notified then s.conns ++ [ret.toNat] else s.conns := rfl

theorem connsAfter_close (ret : Int) (fd : Nat) : connsAfter refused s ret (.close fd) =
    if ret = qcloudRetSuccess ∨ refused = true then s.conns.filter (· ≠ fd) else s.conns := rfl

theorem connsAfter_failed {ret : Int} (h : ret < 0) : connsAfter refused s ret .connect = s.conns :=
  if_neg fun hpos => absurd hpos.1 (by omega)

/-- A call that returns leaves nothing to wait for. -/
theorem returns_keeps {call : Call} {bits : UInt8} {ret : Int} (h : Owned bits (connsAfter refused s ret call))
    {s' : Driver} (hs : s' = settle refused s call (.done bits ret)) : Owned s'.bits s'.conns ∧ Waits s' := by
  subst hs
  exact ⟨h, .idle rfl rfl⟩

/-- A call of `sim7070_connect` that fails. -/
theorem connect_fails {bits : UInt8} (h : Owned bits s.conns) {code : Int} (hcode : code < 0) {s' : Driver}
    (hs : s' = settle refused s .connect (.done bits code)) : Owned s'.bits s'.conns ∧ Waits s' := by
  refine returns_keeps ?_ hs
  rw [connsAfter_failed hcode]
  exact h

/-- `sim7070_connect` behind its request for memory keeps the invariant. -/
theorem connectBehindResp_keeps (ho : Owned s.bits s.conns) (ip : List UInt8) (port : UInt16) (proto : NetProto)
    (resp : Int) (hasked : s.asked = [.createResp]) {s' : Driver}
    (hs : s' = settle refused s .connect (connectBehindResp ip port proto resp s.bits)) :
    Owned s'.bits s'.conns ∧ Waits s' := by
  by_cases hresp : resp = 0
  · rw [connectBehindResp, if_pos hresp] at hs
    exact connect_fails ho (by decide) hs
  · rw [connectBehindResp, if_neg hresp] at hs
    cases hfind : (List.range sim7070MaxSocketNum).find? fun i => (s.bits >>> i.toUInt8) &&& 1 == 0 with
    | none =>
      rw [bind_apply, allocFd_none hfind] at hs
      exact connect_fails ho (by decide) hs
    | some n =>
      obtain ⟨hn, hclear⟩ := find_free hfind
      have hfree : n ∉ s.conns := fun hmem => hclear (ho.1 n hmem).2
      have hnonneg : ¬ (n : Int) < 0 := by omega
      rw [bind_apply, allocFd_some hfind, Talk.bind, if_neg hnonneg] at hs
      have halloc := ho.alloc hn
      by_cases hproto : proto = .other
      · rw [hproto, connectRetry_other] at hs
        exact connect_fails (halloc.free hfree) (by decide) hs
      · rw [connectRetry_first hproto] at hs
        subst hs
        have hset : Has (s.bits ||| mask n) n := by
          unfold sim7070MaxSocketNum at hn
          exact (has_or_mask (by omega)).2 (.inr rfl)
        exact ⟨halloc, .opening ip port proto n hn rfl (by simp [settle, hasked]) hfree (.inl hset)⟩

section Behind

variable {ip : List UInt8} {port : UInt16} {proto : NetProto} {n : Nat} {ret : Int} {s' : Driver}

/-- Behind the first `AT+CAOPEN`. -/
theorem connectBehindOpen_keeps (ho : Owned s.bits s.conns) (hn : n < sim7070MaxSocketNum)
    (hasked : s.asked = [.caopen n proto ip port, .createResp]) (hfree : n ∉ s.conns)
    (hbit : Has s.bits n ∨ n ∈ s.notified)
    (hs : s' = settle refused s .connect (connectBehindOpen ip port proto n ret s.bits)) :
    Owned s'.bits s'.conns ∧ Waits s' := by
  by_cases hret : ret = qcloudRetSuccess
  · rw [connectBehindOpen, if_neg (fun h => h hret), hret, connectExit_success] at hs
    refine returns_keeps ?_ hs
    -- the bit was set before, and a notification that came since has closed the connection
    rw [connsAfter_connect]
    split
    · next h => exact ho.add hn (hbit.resolve_right h.2) hfree
    · exact ho
  · rw [connectBehindOpen, if_pos hret] at hs
    subst hs
    exact ⟨ho, .reclosingResp ip port proto n hn ret hret rfl (congrArg (_ :: ·) hasked) hfree⟩

/-- Behind the request for memory to close it, after a failure. -/
theorem recloseBehindResp_keeps {resp : Int} (ho : Owned s.bits s.conns) (hn : n < sim7070MaxSocketNum)
    (hret : ret ≠ qcloudRetSuccess) (hasked : s.asked = [.createResp, .caopen n proto ip port, .createResp])
    (hfree : n ∉ s.conns)
    (hs : s' = settle refused s .connect
      ((do let closed ← closeBehindResp n resp; connectBehindClose ip port proto n ret closed) s.bits)) :
    Owned s'.bits s'.conns ∧ Waits s' := by
  by_cases hresp : resp = 0
  · rw [bind_apply, hresp, closeBehindResp_none, Talk.bind, connectBehindClose, if_pos (by decide),
      connectExit_failure hret] at hs
    exact connect_fails (ho.free hfree) (by decide) hs
  · rw [bind_apply, closeBehindResp_some hresp] at hs
    subst hs
    exact ⟨ho, .reclosing ip port proto n hn ret hret rfl (congrArg (_ :: ·) hasked) hfree⟩

/-- Behind the `AT+CACLOSE` after a failure: the descriptor is freed. -/
theorem recloseBehindCommand_keeps {closed : Int} (ho : Owned s.bits s.conns) (hn : n < sim7070MaxSocketNum)
    (hret : ret ≠ qcloudRetSuccess)
    (hasked : s.asked = [.caclose n, .createResp, .caopen n proto ip port, .createResp]) (hfree : n ∉ s.conns)
    (hs : s' = settle refused s .connect
      ((do let closed ← closeBehindCommand n closed; connectBehindClose ip port proto n ret closed) s.bits)) :
    Owned s'.bits s'.conns ∧ Waits s' := by
  have hfreed := ho.free hfree
  have hbehind : (do let closed ← closeBehindCommand n closed; connectBehindClose ip port proto n ret closed) s.bits =
      connectBehindClose ip port proto n ret closed (freed n s.bits) := rfl
  rw [hbehind] at hs
  by_cases hclosed : closed = qcloudRetSuccess
  · rw [connectBehindClose, if_neg (fun h => h hclosed)] at hs
    by_cases hproto : proto = .other
    · rw [hproto, connectRetry_other] at hs
      exact connect_fails (hfreed.free hfree) (by decide) hs
    · rw [connectRetry_last hproto] at hs
      subst hs
      exact ⟨hfreed, .reopening ip port proto n hn rfl (congrArg (_ :: ·) hasked) hfree
        fun h => ((has_freed hn).1 h).2 rfl⟩
  · rw [connectBehindClose, if_pos hclosed, connectExit_failure hret] at hs
    exact connect_fails (hfreed.free hfree) (by decide) hs

/-- Behind the second `AT+CAOPEN`, which may succeed only for a descriptor that the
modem has closed since. -/
theorem connectExit_keeps (ho : Owned s.bits s.conns) (hfree : n ∉ s.conns)
    (hclosed : ret = qcloudRetSuccess → n ∈ s.notified)
    (hs : s' = settle refused s .connect (connectExit n ret s.bits)) : Owned s'.bits s'.conns ∧ Waits s' := by
  by_cases hret : ret = qcloudRetSuccess
  · rw [hret, connectExit_success] at hs
    refine returns_keeps ?_ hs
    rw [connsAfter_connect, if_neg fun h => h.2 (hclosed hret)]
    exact ho
  · rw [connectExit_failure hret] at hs
    exact connect_fails (ho.free hfree) (by decide) hs

/-- `sim7070_close` behind its request for memory. -/
theorem closeBehindResp_keeps {fd : Nat} {resp : Int} (ho : Owned s.bits s.conns) (hasked : s.asked = [.createResp])
    (hs : s' = settle refused s (.close fd) (closeBehindResp fd resp s.bits)) :
    Owned s'.bits s'.conns ∧ Waits s' := by
  by_cases hresp : resp = 0
  · rw [hresp, closeBehindResp_none] at hs
    refine returns_keeps ?_ hs
    rw [connsAfter_close]
    split
    · exact ho.filter fd
    · exact ho
  · rw [closeBehindResp_some hresp] at hs
    subst hs
    exact ⟨ho, .closing fd rfl (congrArg (_ :: ·) hasked)⟩

/-- Behind its `AT+CACLOSE`, which may fail only when that closes the connection or
there is none. -/
theorem closeBehindCommand_keeps {fd : Nat} (ho : Owned s.bits s.conns)
    (hclosed : ret ≠ qcloudRetSuccess → refused = false → fd ∉ s.conns)
    (hs : s' = settle refused s (.close fd) (closeBehindCommand fd ret s.bits)) :
    Owned s'.bits s'.conns ∧ Waits s' := by
  have hfreed : closeBehindCommand fd ret s.bits = .done (freed fd s.bits) ret := rfl
  rw [hfreed] at hs
  refine returns_keeps ?_ hs
  rw [connsAfter_close]
  split
  · exact ho.closed fd
  · next h =>
    rw [not_or, Bool.not_eq_true] at h
    exact ho.free (hclosed h.1 h.2)

end Behind

/-- What the answer to a call makes of the driver, when it is proper. -/
theorem answer_keeps (ho : Owned s.bits s.conns) (hw : Waits s) {ret : Int} (hp : Proper refused s (.answer ret))
    {s' : Driver} (hs : driverStep refused s (.answer ret) = some s') : Owned s'.bits s'.conns ∧ Waits s' := by
  have hsettle {call : Call} {next : Int → DriverM Int} (hcall : s.call = some (call, next)) :
      s' = settle refused s call (next ret s.bits) := by
    simp only [driverStep, hcall, Option.some.injEq] at hs
    exact hs.symm
  cases hw with
  | idle hcall hasked =>
    simp only [driverStep, hcall] at hs
    exact absurd hs (by simp)
  | connectResp ip port proto hcall hasked =>
    exact connectBehindResp_keeps ho ip port proto ret hasked (hsettle hcall)
  | opening ip port proto n hn hcall hasked hfree hbit =>
    exact connectBehindOpen_keeps ho hn hasked hfree hbit (hsettle hcall)
  | reclosingResp ip port proto n hn ret₁ hret₁ hcall hasked hfree =>
    exact recloseBehindResp_keeps ho hn hret₁ hasked hfree (hsettle hcall)
  | reclosing ip port proto n hn ret₁ hret₁ hcall hasked hfree =>
    exact recloseBehindCommand_keeps ho hn hret₁ hasked hfree (hsettle hcall)
  | reopening ip port proto n hn hcall hasked hfree hbit =>
    simp only [Proper, hcall, hasked] at hp
    exact connectExit_keeps ho hfree (fun hret => hp hret (by simp)) (hsettle hcall)
  | closeResp fd hcall hasked => exact closeBehindResp_keeps ho hasked (hsettle hcall)
  | closing fd hcall hasked =>
    simp only [Proper, hcall, hasked] at hp
    exact closeBehindCommand_keeps ho hp (hsettle hcall)

theorem Waits.notify (h : Waits s) (fd : Nat) :
    Waits { s with bits := freed fd s.bits, notified := fd :: s.notified, conns := s.conns.filter (· ≠ fd) } := by
  have hkeep {n : Nat} (hfree : n ∉ s.conns) : n ∉ s.conns.filter (· ≠ fd) := fun h => hfree (List.mem_filter.1 h).1
  cases h with
  | idle hcall hasked => exact .idle hcall hasked
  | connectResp ip port proto hcall hasked => exact .connectResp ip port proto hcall hasked
  | opening ip port proto n hn hcall hasked hfree hbit =>
    refine .opening ip port proto n hn hcall hasked (hkeep hfree) ?_
    by_cases heq : fd = n
    · exact .inr (heq ▸ List.mem_cons_self ..)
    · exact hbit.imp (fun h => (has_freed hn).2 ⟨h, heq⟩) (List.mem_cons_of_mem _)
  | reclosingResp ip port proto n hn ret hret hcall hasked hfree =>
    exact .reclosingResp ip port proto n hn ret hret hcall hasked (hkeep hfree)
  | reclosing ip port proto n hn ret hret hcall hasked hfree =>
    exact .reclosing ip port proto n hn ret hret hcall hasked (hkeep hfree)
  | reopening ip port proto n hn hcall hasked hfree hbit =>
    exact .reopening ip port proto n hn hcall hasked (hkeep hfree) fun h => hbit ((has_freed hn).1 h).1
  | closeResp n hcall hasked => exact .closeResp n hcall hasked
  | closing n hcall hasked => exact .closing n hcall hasked

/-- The invariant, one step. -/
theorem driverStep_keeps (ho : Owned s.bits s.conns) (hw : Waits s) {a : DriverAction} (hp : Proper refused s a)
    {s' : Driver} (hs : driverStep refused s a = some s') : Owned s'.bits s'.conns ∧ Waits s' := by
  -- a call is made when no other waits
  have hidle (hcall : s.call = none) : s.asked = [] := by
    cases hw with
    | idle _ hasked => exact hasked
    | connectResp _ _ _ h | opening _ _ _ _ _ h | reclosingResp _ _ _ _ _ _ _ h | reclosing _ _ _ _ _ _ _ h
    | reopening _ _ _ _ _ h | closeResp _ h | closing _ h =>
      rw [hcall] at h
      exact absurd h (by simp)
  cases a with
  | connect ip port proto =>
    cases hcall : s.call with
    | some c =>
      simp only [driverStep, hcall] at hs
      exact absurd hs (by simp)
    | none =>
      simp only [driverStep, hcall, Option.some.injEq] at hs
      cases ip with
      | none => exact connect_fails ho (show qcloudErrInval < 0 by decide) hs.symm
      | some ip =>
        subst hs
        exact ⟨ho, .connectResp ip port proto rfl (congrArg (_ :: ·) (hidle hcall))⟩
  | close fd =>
    cases hcall : s.call with
    | some c =>
      simp only [driverStep, hcall] at hs
      exact absurd hs (by simp)
    | none =>
      simp only [driverStep, hcall, Option.some.injEq] at hs
      subst hs
      exact ⟨ho, .closeResp fd rfl (congrArg (_ :: ·) (hidle hcall))⟩
  | answer ret => exact answer_keeps ho hw hp hs
  | notify fd =>
    simp only [driverStep, Option.some.injEq] at hs
    subst hs
    exact ⟨ho.closed fd, hw.notify fd⟩

/-- A step after which every connection owns its descriptor is proper. -/
theorem OwnedAfter.proper (hw : Waits s) {a : DriverAction} (h : OwnedAfter refused s a) : Proper refused s a := by
  cases a with
  | connect _ _ _ | close _ | notify _ => trivial
  | answer ret =>
    cases hw with
    | idle hcall hasked => simp [Proper, hcall]
    | connectResp _ _ _ hcall hasked => simp [Proper, hcall, hasked]
    | opening _ _ _ _ _ hcall hasked => simp [Proper, hcall, hasked]
    | reclosingResp _ _ _ _ _ _ _ hcall hasked => simp [Proper, hcall, hasked]
    | reclosing _ _ _ _ _ _ _ hcall hasked => simp [Proper, hcall, hasked]
    | closeResp _ hcall hasked => simp [Proper, hcall, hasked]
    | reopening ip port proto n hn hcall hasked hfree hbit =>
      simp only [Proper, hcall, hasked]
      intro hret _
      by_contra hopen
      have howned := h (settle refused s .connect (connectExit n ret s.bits)) (by simp only [driverStep, hcall])
      rw [hret, connectExit_success] at howned
      have hmem : n ∈ connsAfter refused s n .connect := by
        rw [connsAfter_connect, if_pos ⟨by omega, hopen⟩]
        simp
      exact hbit (howned.1 n hmem).2
    | closing fd hcall hasked =>
      simp only [Proper, hcall, hasked]
      intro hret hrefused hmem
      have howned : Owned (freed fd s.bits) (connsAfter refused s ret (.close fd)) :=
        h (settle refused s (.close fd) (closeBehindCommand fd ret s.bits)) (by simp only [driverStep, hcall])
      have hconns : connsAfter refused s ret (.close fd) = s.conns := by
        refine if_neg ?_
        rw [hrefused]
        simp [hret]
      rw [hconns] at howned
      obtain ⟨hlt, hbit⟩ := howned.1 fd hmem
      exact ((has_freed hlt).1 hbit).2 rfl

/-- **When the connections own their descriptors**: in a run of the driver every
connection that is open has its bit set after every step, and no two have the
same descriptor, just when every step is proper. -/
theorem descriptors_owned_iff (refused : Bool) {as : List DriverAction} {s : Driver}
    (h : exec (driverStep refused) resetDriver as = some s) :
    Along (driverStep refused) (OwnedAfter refused) resetDriver as ↔
      Along (driverStep refused) (Proper refused) resetDriver as := by
  have hinit : Owned resetDriver.bits resetDriver.conns ∧ Waits resetDriver :=
    ⟨⟨fun _ hfd => absurd hfd List.not_mem_nil, List.nodup_nil⟩, .idle rfl rfl⟩
  refine exec_along_iff (J := fun s => Owned s.bits s.conns ∧ Waits s) hinit h
    (fun s a s' hs hp hstep => driverStep_keeps hs.1 hs.2 hp hstep) fun s a s' hs hstep => ?_
  exact ⟨fun hafter => hafter.proper hs.2, fun hp t ht => (driverStep_keeps hs.1 hs.2 hp ht).1⟩

end Invariant

/-- A connection that is opened at once, and closed by the modem. -/
def openedAndClosed : List DriverAction := [.connect (some []) 80 .tcp, .answer 1, .answer 0, .notify 0]

theorem descriptors_owned_iff_closed :
    Along (driverStep false) (OwnedAfter false) resetDriver openedAndClosed := by
  obtain ⟨s, hs⟩ : ∃ s, exec (driverStep false) resetDriver openedAndClosed = some s := ⟨_, rfl⟩
  refine (descriptors_owned_iff false hs).2 ⟨trivial, fun s₁ h₁ => ?_⟩
  cases h₁
  refine ⟨trivial, fun s₂ h₂ => ?_⟩
  cases h₂
  refine ⟨fun _ hmem => absurd hmem (by decide), fun s₃ h₃ => ⟨trivial, fun _ _ => trivial⟩⟩

/-- A connection that the second `AT+CAOPEN` opens, twice. -/
def openedByRetry : List DriverAction :=
  [.connect (some []) 80 .tcp, .answer 1, .answer qcloudErrFailure, .answer 1, .answer 0, .answer 0,
    .connect (some []) 80 .tcp, .answer 1, .answer 0]

/-- No bit is set for the first connection, and the second gets its descriptor;
a close that fails would count as one here. -/
theorem descriptor_given_twice :
    (exec (driverStep true) resetDriver (openedByRetry.take 6)).map (fun s => (s.bits, s.conns)) = some (0, [0]) ∧
      (exec (driverStep true) resetDriver openedByRetry).map (fun s => (s.bits, s.conns)) = some (1, [0, 0]) :=
  ⟨rfl, rfl⟩

end Petbox.Modem
