/-
The sockets over the modem (`at_socket_inf.c`): a table of five contexts, each
with its list of received packets in one heap.

`at_socket_connect` takes a context that is closed; when the driver fails it
frees the context but leaves it allocated, and nothing closes it again.
-/
import Mathlib.Algebra.BigOperators.Fin
import Petbox.Modem.RecvPkt

namespace Petbox.Modem

open Linked Machine

/-! ## The code -/

def maxAtSocketNum : Nat := 5
def qcloudErrTcpPeerShutdown : Int := -608

/-- `eSocketState`. -/
inductive ESocketState
  | alloced
  | connected
  | closed
  deriving DecidableEq, Repr

/-- `at_socket_ctx_t`; `recv_lock` and `dev_op` are null or not. -/
structure AtSocketCtx where
  fd : Int
  recvpktList : Option PtrList
  recvLock : Bool
  devOp : Bool
  state : ESocketState
  deriving DecidableEq, Repr

/-- `at_socket_ctxs`, the memory of their lists, and whether a driver is registered
as `sg_at_device_ops`. -/
structure AtSocketInf where
  ctxs : Fin maxAtSocketNum → AtSocketCtx
  heap : Heap AtRecvPkt
  devOps : Bool

/-- One context, and the memory, anew. -/
def AtSocketInf.setCtx (s : AtSocketInf) (i : Fin maxAtSocketNum) (ctx : AtSocketCtx) (heap : Heap AtRecvPkt) :
    AtSocketInf :=
  { s with ctxs := Function.update s.ctxs i ctx, heap }

/-- A context as `_at_socket_ctx_free` leaves it. -/
def AtSocketCtx.freed (ctx : AtSocketCtx) : AtSocketCtx :=
  { ctx with fd := unusedSocket, recvpktList := none, recvLock := false }

/-- `_at_socket_ctx_free`. -/
def atSocketCtxFree (s : AtSocketInf) (i : Fin maxAtSocketNum) : Option AtSocketInf :=
  match (s.ctxs i).recvpktList with
  | some list => do
    let (heap, _) ← listDestroy s.heap list
    return s.setCtx i (s.ctxs i).freed heap
  | none => some (s.setCtx i (s.ctxs i).freed s.heap)

/-- `_at_socket_ctx_alloc`; `lockMem` and `listMem` are whether `HAL_MutexCreate`
and `list_new` get their memory. -/
def atSocketCtxAlloc (s : AtSocketInf) (lockMem listMem : Bool) : Option (Option (Fin maxAtSocketNum) × AtSocketInf) :=
  match (List.finRange maxAtSocketNum).find? fun i => (s.ctxs i).state == .closed with
  | none => some (none, s)
  | some i =>
    let ctx := { s.ctxs i with devOp := s.devOps, recvLock := lockMem }
    if !lockMem then do return (none, ← atSocketCtxFree (s.setCtx i ctx s.heap) i)
    else if !listMem then do return (none, ← atSocketCtxFree (s.setCtx i { ctx with recvpktList := none } s.heap) i)
    else some (some i, s.setCtx i { ctx with recvpktList := some listNew, state := .alloced } s.heap)

/-- `_at_socket_find`. -/
def atSocketFind (s : AtSocketInf) (fd : Int) : Option (Fin maxAtSocketNum) :=
  (List.finRange maxAtSocketNum).find? fun i => (s.ctxs i).fd == fd

/-- `_at_socket_recv_cb`, with what `_at_recvpkt_put` returns in it; undefined
where it follows a null pointer. -/
def atSocketRecvCb (s : AtSocketInf) (fd : Int) (buff : List UInt8) (pktMem : Bool) (node : Option Nat) :
    Option (Int × AtSocketInf) := do
  let i ← atSocketFind s (fd + maxAtSocketNum)
  let list ← (s.ctxs i).recvpktList
  let (ret, heap, list) ← atRecvpktPut s.heap list pktMem node buff
  return (ret, s.setCtx i { s.ctxs i with recvpktList := some list } heap)

/-- `_at_socket_closed_cb`. -/
def atSocketClosedCb (s : AtSocketInf) (fd : Int) : Option AtSocketInf :=
  match atSocketFind s (fd + maxAtSocketNum) with
  | none => some s
  | some i => atSocketCtxFree (s.setCtx i { s.ctxs i with state := .closed } s.heap) i

/-- `at_socket_init`: the contexts it leaves. -/
def atSocketInit (s : AtSocketInf) : AtSocketInf :=
  { s with ctxs := fun i => { s.ctxs i with fd := unusedSocket, state := .closed, devOp := false, recvpktList := none } }

/-- `at_socket_connect` up to `dev_op->connect`, where no context means that it
returns `QCLOUD_ERR_FAILURE`. -/
def atSocketConnect (s : AtSocketInf) (lockMem listMem : Bool) : Option (Option (Fin maxAtSocketNum) × AtSocketInf) := do
  let (ctx, s) ← atSocketCtxAlloc s lockMem listMem
  return (ctx.filter fun i => (s.ctxs i).devOp, s)

/-- `at_socket_connect` from there on, with what `dev_op->connect` returned. -/
def atSocketConnected (s : AtSocketInf) (i : Fin maxAtSocketNum) (fd : Int) : Option (Int × AtSocketInf) := do
  let s ←
    if fd < 0 then atSocketCtxFree s i
    else some (s.setCtx i { s.ctxs i with fd := fd + maxAtSocketNum, state := .connected } s.heap)
  return ((s.ctxs i).fd, s)

/-- `at_socket_send` and `at_socket_close`: the descriptor they call the driver
with, or what they return without it. -/
def atSocketSend (s : AtSocketInf) (fd : Int) : Except Int Int :=
  match atSocketFind s fd with
  | none => .error qcloudErrInval
  | some i =>
    if (s.ctxs i).devOp = false then .error qcloudErrInval
    else if (s.ctxs i).state ≠ .connected then .error qcloudErrTcpPeerShutdown
    else .ok (fd - maxAtSocketNum)

def atSocketClose (s : AtSocketInf) (fd : Int) : Except Int Int :=
  match atSocketFind s fd with
  | none => .error qcloudErrTcpPeerShutdown
  | some i =>
    if (s.ctxs i).state = .connected ∧ (s.ctxs i).devOp = true then .ok ((s.ctxs i).fd - maxAtSocketNum)
    else .error qcloudErrFailure

/-- `at_socket_recv`: its return value, and what it writes to `buf`. The driver's
`recv_timeout` does nothing here. -/
def atSocketRecv (s : AtSocketInf) (fd : Int) (len : Nat) (iterMem : Bool) : Option (Int × List UInt8 × AtSocketInf) :=
  match atSocketFind s fd with
  | none => some (qcloudErrInval, [], s)
  | some i =>
    if (s.ctxs i).devOp = false then some (qcloudErrInval, [], s)
    else if (s.ctxs i).state ≠ .connected then some (qcloudErrTcpReadFail, [], s)
    else do
      let list ← (s.ctxs i).recvpktList
      let (ret, buf, heap, list) ← atRecvpktGet s.heap list iterMem len
      return (ret, buf, s.setCtx i { s.ctxs i with recvpktList := some list } heap)

/-! ## The sockets at work -/

/-- The table, and the contexts whose `dev_op->connect` has not returned yet. -/
structure SocketSys where
  inf : AtSocketInf
  opening : Fin maxAtSocketNum → Bool

/-- What happens to the table: a connect takes a context, the driver returns, the
modem says that a connection is closed or hands in its bytes, a reader reads. -/
inductive SocketAct
  | connect (lockMem listMem : Bool)
  | connected (i : Fin maxAtSocketNum) (fd : Int)
  | closed (fd : Int)
  | received (fd : Int) (buff : List UInt8) (pktMem : Bool) (node : Option Nat)
  | recv (fd : Int) (len : Nat) (iterMem : Bool)
  deriving DecidableEq

/-- A step, with what the call returns and writes. -/
def SocketSys.call (s : SocketSys) : SocketAct → Option (Int × List UInt8 × SocketSys)
  | .connect lockMem listMem => do
    let (ctx, inf) ← atSocketConnect s.inf lockMem listMem
    match ctx with
    | none => return (qcloudErrFailure, [], { s with inf })
    | some i => return (qcloudRetSuccess, [], ⟨inf, Function.update s.opening i true⟩)
  | .connected i fd =>
    if s.opening i then do
      let (ret, inf) ← atSocketConnected s.inf i fd
      return (ret, [], ⟨inf, Function.update s.opening i false⟩)
    else none
  | .closed fd => do
    let inf ← atSocketClosedCb s.inf fd
    return (qcloudRetSuccess, [], { s with inf })
  | .received fd buff pktMem node => do
    let (ret, inf) ← atSocketRecvCb s.inf fd buff pktMem node
    return (ret, [], { s with inf })
  | .recv fd len iterMem => do
    let (ret, buf, inf) ← atSocketRecv s.inf fd len iterMem
    return (ret, buf, { s with inf })

def SocketSys.step (s : SocketSys) (a : SocketAct) : Option SocketSys := (s.call a).map fun r => r.2.2

/-- The state behind `at_socket_init`, with a driver registered. -/
def socketStart (ctxs : Fin maxAtSocketNum → AtSocketCtx) : SocketSys where
  inf := atSocketInit { ctxs, heap := fun _ => none, devOps := true }
  opening := fun _ => false

/-- What is promised from outside: the modem names descriptors from 0 on, and a node
that is handed in is new. -/
def Promised (s : SocketSys) : SocketAct → Prop
  | .closed fd => 0 ≤ fd
  | .received fd _ _ node => 0 ≤ fd ∧ ∀ n ∈ node, s.inf.heap n = none
  | _ => True

/-- The driver returns a descriptor that no socket has. -/
def OwnDescriptor (s : SocketSys) : SocketAct → Prop
  | .connected _ fd => 0 ≤ fd → ∀ i, (s.inf.ctxs i).fd ≠ fd + maxAtSocketNum
  | _ => True

/-- The driver returns to a connect that has called it, and a packet is for a socket
that is open. -/
def Expected (s : SocketSys) : SocketAct → Prop
  | .connected i _ => s.opening i = true
  | .received fd _ _ _ => atSocketFind s.inf (fd + maxAtSocketNum) ≠ none
  | _ => True

/-- A packet for any other is where a null pointer is followed. -/
theorem received_stray {s : SocketSys} {fd : Int} (h : atSocketFind s.inf (fd + maxAtSocketNum) = none)
    (buff : List UInt8) (pktMem : Bool) (node : Option Nat) : s.step (.received fd buff pktMem node) = none := by
  simp [SocketSys.step, SocketSys.call, atSocketRecvCb, h]

/-! ## The table -/

/-- What is known of a context whose list has the nodes `l`. -/
structure CtxOk (h : Heap AtRecvPkt) (ctx : AtSocketCtx) (opening : Bool) (l : Nodes AtRecvPkt) : Prop where
  unused : ctx.state ≠ .connected → ctx.fd = unusedSocket
  used : ctx.state = .connected → 5 ≤ ctx.fd
  alloced : opening = true → ctx.state = .alloced
  closed : ctx.state = .closed → ctx.recvpktList = none
  live : ctx.state = .connected ∨ opening = true →
    ctx.devOp = true ∧ ∃ list, ctx.recvpktList = some list ∧ Holds h list l
  idle : ctx.state ≠ .connected → l = []

/-- The table: each context is sound, no two share a node, and all nodes are those of
the lists. -/
structure TableOk (s : SocketSys) (ls : Fin maxAtSocketNum → Nodes AtRecvPkt) : Prop where
  ctx : ∀ i, CtxOk s.inf.heap (s.inf.ctxs i) (s.opening i) (ls i)
  apart : ∀ i j n, n ∈ ids (ls i) → n ∈ ids (ls j) → i = j
  alloc : ∀ n, s.inf.heap n ≠ none → ∃ i, n ∈ ids (ls i)
  driver : s.inf.devOps = true

/-- Each connected context has its descriptor for itself. -/
def OwnFds (s : SocketSys) : Prop :=
  ∀ i j, (s.inf.ctxs i).state = .connected → (s.inf.ctxs i).fd = (s.inf.ctxs j).fd → i = j

section Table

section SetCtx

variable (inf : AtSocketInf) (i : Fin maxAtSocketNum) (ctx : AtSocketCtx) (heap : Heap AtRecvPkt)

@[simp] theorem setCtx_self : (inf.setCtx i ctx heap).ctxs i = ctx := Function.update_self _ _ _
@[simp] theorem setCtx_heap : (inf.setCtx i ctx heap).heap = heap := rfl
@[simp] theorem setCtx_devOps : (inf.setCtx i ctx heap).devOps = inf.devOps := rfl

@[simp] theorem setCtx_of_ne {j : Fin maxAtSocketNum} (hj : j ≠ i) :
    (inf.setCtx i ctx heap).ctxs j = inf.ctxs j := Function.update_of_ne hj _ _

@[simp] theorem setCtx_setCtx (ctx' : AtSocketCtx) (heap' : Heap AtRecvPkt) :
    (inf.setCtx i ctx heap).setCtx i ctx' heap' = inf.setCtx i ctx' heap' := by
  simp [AtSocketInf.setCtx]

end SetCtx

variable {s : SocketSys} {ls : Fin maxAtSocketNum → Nodes AtRecvPkt} {i : Fin maxAtSocketNum}

theorem find_some {inf : AtSocketInf} {fd : Int} (h : atSocketFind inf fd = some i) : (inf.ctxs i).fd = fd := by
  simpa using List.find?_some h

theorem find_none {inf : AtSocketInf} {fd : Int} (h : atSocketFind inf fd = none) (i : Fin maxAtSocketNum) :
    (inf.ctxs i).fd ≠ fd := by
  simpa using List.find?_eq_none.1 h i (List.mem_finRange i)

/-- A descriptor is found only where it is in use. -/
theorem TableOk.find_connected (ht : TableOk s ls) {fd : Int} (hfd : fd ≠ unusedSocket)
    (h : atSocketFind s.inf fd = some i) : (s.inf.ctxs i).state = .connected ∧ (s.inf.ctxs i).fd = fd := by
  have heq := find_some h
  refine ⟨?_, heq⟩
  by_contra hstate
  exact hfd (heq.symm.trans ((ht.ctx i).unused hstate))

theorem TableOk.not_opening (ht : TableOk s ls) (hstate : (s.inf.ctxs i).state ≠ .alloced) : s.opening i = false := by
  cases ho : s.opening i with
  | false => rfl
  | true => exact absurd ((ht.ctx i).alloced ho) hstate

/-- What a step may change of one context, and of the nodes of its list, for the
table to stay sound. -/
structure Changes (s : SocketSys) (ls : Fin maxAtSocketNum → Nodes AtRecvPkt) (i : Fin maxAtSocketNum)
    (s' : SocketSys) (l : Nodes AtRecvPkt) : Prop where
  ctx : CtxOk s'.inf.heap (s'.inf.ctxs i) (s'.opening i) l
  others : ∀ j ≠ i, s'.inf.ctxs j = s.inf.ctxs j ∧ s'.opening j = s.opening j
  driver : s'.inf.devOps = s.inf.devOps
  same : ∀ n, n ∉ ids (ls i) → s.inf.heap n ≠ none → s'.inf.heap n = s.inf.heap n
  new : ∀ n ∈ ids l, n ∈ ids (ls i) ∨ s.inf.heap n = none
  alloc : ∀ n, s'.inf.heap n ≠ none → n ∈ ids l ∨ n ∉ ids (ls i) ∧ s.inf.heap n ≠ none

variable {s' : SocketSys} {l : Nodes AtRecvPkt}

/-- The nodes of the other lists are allocated, and none of this one. -/
theorem TableOk.others (ht : TableOk s ls) {j : Fin maxAtSocketNum} (hj : j ≠ i) {n : Nat} (hn : n ∈ ids (ls j)) :
    n ∉ ids (ls i) ∧ s.inf.heap n ≠ none := by
  refine ⟨fun hmem => hj (ht.apart j i n hn hmem), ?_⟩
  have hstate : (s.inf.ctxs j).state = .connected := by
    by_contra hstate
    rw [(ht.ctx j).idle hstate] at hn
    cases hn
  obtain ⟨-, list, -, hheld⟩ := (ht.ctx j).live (.inl hstate)
  exact hheld.chain.alloc hn

theorem Changes.ctxOk (hc : Changes s ls i s' l) (ht : TableOk s ls) (j : Fin maxAtSocketNum) :
    CtxOk s'.inf.heap (s'.inf.ctxs j) (s'.opening j) (Function.update ls i l j) := by
  by_cases hj : j = i
  · subst hj
    simpa using hc.ctx
  · have hold := ht.ctx j
    rw [(hc.others j hj).1, (hc.others j hj).2, Function.update_of_ne hj]
    refine { hold with live := fun hlive => ?_ }
    obtain ⟨hop, list, hlist, hheld⟩ := hold.live hlive
    exact ⟨hop, list, hlist, hheld.frame fun n hn => hc.same n (ht.others hj hn).1 (ht.others hj hn).2⟩

theorem Changes.apart (hc : Changes s ls i s' l) (ht : TableOk s ls) {j : Fin maxAtSocketNum} (hj : j ≠ i) {n : Nat}
    (hn : n ∈ ids (ls j)) : n ∉ ids l := by
  intro hmem
  rcases hc.new n hmem with hold | hfree
  · exact (ht.others hj hn).1 hold
  · exact (ht.others hj hn).2 hfree

theorem Changes.tableOk (hc : Changes s ls i s' l) (ht : TableOk s ls) : TableOk s' (Function.update ls i l) := by
  refine ⟨hc.ctxOk ht, fun j k n hj hk => ?_, fun n hn => ?_, hc.driver.trans ht.driver⟩
  · by_cases hji : j = i <;> by_cases hki : k = i
    · exact hji.trans hki.symm
    · subst hji
      rw [Function.update_self] at hj
      rw [Function.update_of_ne hki] at hk
      exact absurd hj (hc.apart ht hki hk)
    · subst hki
      rw [Function.update_self] at hk
      rw [Function.update_of_ne hji] at hj
      exact absurd hk (hc.apart ht hji hj)
    · rw [Function.update_of_ne hji] at hj
      rw [Function.update_of_ne hki] at hk
      exact ht.apart j k n hj hk
  · rcases hc.alloc n hn with hmem | ⟨hnot, hold⟩
    · exact ⟨i, by simpa using hmem⟩
    · obtain ⟨j, hj⟩ := ht.alloc n hold
      have hji : j ≠ i := fun heq => hnot (heq ▸ hj)
      exact ⟨j, by simpa [hji] using hj⟩

/-- The descriptors stay apart where the one of the context that changes is its own. -/
theorem Changes.ownFds (hc : Changes s ls i s' l) (ht : TableOk s ls) (ho : OwnFds s)
    (hfd : (s'.inf.ctxs i).state = .connected → ∀ j ≠ i, (s.inf.ctxs j).fd ≠ (s'.inf.ctxs i).fd) : OwnFds s' := by
  intro j k hstate heq
  by_cases hj : j = i <;> by_cases hk : k = i
  · exact hj.trans hk.symm
  · subst hj
    rw [(hc.others k hk).1] at heq
    exact absurd heq.symm (hfd hstate k hk)
  · subst hk
    rw [(hc.others j hj).1] at hstate heq
    by_cases hi : (s'.inf.ctxs k).state = .connected
    · exact absurd heq (hfd hi j hj)
    · have hlow := (ht.ctx j).used hstate
      rw [heq, hc.ctx.unused hi] at hlow
      exact absurd hlow (by decide)
  · rw [(hc.others j hj).1] at hstate heq
    rw [(hc.others k hk).1] at heq
    exact ho j k hstate heq

/-- A context that is not connected behind a step takes no descriptor. -/
theorem Changes.ownFds_shut (hc : Changes s ls i s' l) (ht : TableOk s ls) (ho : OwnFds s)
    (hstate : (s'.inf.ctxs i).state ≠ .connected) : OwnFds s' :=
  hc.ownFds ht ho fun h => absurd h hstate

/-- The memory behind `_at_socket_ctx_free`: the nodes of the list are given back. -/
theorem ctxFree_spec (i : Fin maxAtSocketNum) (ctx : AtSocketCtx) {list : PtrList} (hlist : ctx.recvpktList = some list)
    (hheld : Holds s.inf.heap list l) :
    ∃ heap, atSocketCtxFree (s.inf.setCtx i ctx s.inf.heap) i = some (s.inf.setCtx i ctx.freed heap) ∧
      (∀ n ∈ ids l, heap n = none) ∧ ∀ n ∉ ids l, heap n = s.inf.heap n := by
  obtain ⟨heap, hdestroy, hgone, hsame⟩ := listDestroy_spec hheld
  exact ⟨heap, by simp [atSocketCtxFree, hlist, hdestroy], hgone, hsame⟩

/-- A live context that is freed, and is not connected then. -/
theorem changes_freed {ctx : AtSocketCtx} {heap : Heap AtRecvPkt} (hstate : ctx.state ≠ .connected)
    (hgone : ∀ n ∈ ids (ls i), heap n = none) (hsame : ∀ n ∉ ids (ls i), heap n = s.inf.heap n) :
    Changes s ls i ⟨s.inf.setCtx i ctx.freed heap, Function.update s.opening i false⟩ [] := by
  have hstate' : ctx.freed.state ≠ .connected := hstate
  refine ⟨⟨fun _ => by simp [AtSocketCtx.freed], ?_, by simp, fun _ => by simp [AtSocketCtx.freed], ?_, fun _ => rfl⟩,
    fun j hj => by simp [hj], rfl, fun n hn _ => hsame n hn, by simp, fun n hn => ?_⟩
  · simpa using fun h => absurd h hstate'
  · simpa using fun h => absurd h hstate'
  · by_cases hmem : n ∈ ids (ls i)
    · exact absurd (hgone n hmem) hn
    · exact .inr ⟨hmem, hsame n hmem ▸ hn⟩

/-! ## The steps -/

theorem fd_ne_unused (fd : Nat) : (fd : Int) + maxAtSocketNum ≠ unusedSocket := by
  unfold unusedSocket maxAtSocketNum
  omega

/-- What a notification of the modem does: nothing, or it closes a connected context. -/
theorem closed_cases (ht : TableOk s ls) (fd : Nat) :
    s.step (.closed fd) = some s ∧ atSocketFind s.inf (fd + maxAtSocketNum) = none ∨
      ∃ s' i, s.step (.closed fd) = some s' ∧ (s.inf.ctxs i).state = .connected ∧ (s.inf.ctxs i).fd = fd + 5 ∧
        (s'.inf.ctxs i).state = .closed ∧ s'.opening = s.opening ∧ Changes s ls i s' [] := by
  cases hfind : atSocketFind s.inf (fd + maxAtSocketNum) with
  | none => exact .inl ⟨by simp [SocketSys.step, SocketSys.call, atSocketClosedCb, hfind], rfl⟩
  | some i =>
    obtain ⟨hstate, heq⟩ := ht.find_connected (fd_ne_unused fd) hfind
    obtain ⟨-, list, hlist, hheld⟩ := (ht.ctx i).live (.inl hstate)
    have hoff : s.opening i = false := ht.not_opening (by simp [hstate])
    let ctx := { s.inf.ctxs i with state := .closed }
    obtain ⟨heap, hfree, hgone, hsame⟩ := ctxFree_spec i ctx hlist hheld
    have hchg : Changes s ls i ⟨s.inf.setCtx i ctx.freed heap, Function.update s.opening i false⟩ [] :=
      changes_freed (by simp [ctx]) hgone hsame
    rw [← hoff, Function.update_eq_self] at hchg
    refine .inr ⟨{ s with inf := s.inf.setCtx i ctx.freed heap }, i, ?_, hstate, heq, by simp [AtSocketCtx.freed, ctx],
      rfl, hchg⟩
    simp [SocketSys.step, SocketSys.call, atSocketClosedCb, hfind, ctx, hfree]

/-- A connected context stays so, with its descriptor, and has another list. -/
structure StaysOpen (s : SocketSys) (ls : Fin maxAtSocketNum → Nodes AtRecvPkt) (i : Fin maxAtSocketNum) (fd : Int)
    (s' : SocketSys) (l : Nodes AtRecvPkt) : Prop where
  was : (s.inf.ctxs i).state = .connected
  is : (s'.inf.ctxs i).state = .connected
  oldFd : (s.inf.ctxs i).fd = fd
  newFd : (s'.inf.ctxs i).fd = fd
  opening : s'.opening = s.opening
  changes : Changes s ls i s' l

theorem StaysOpen.ownFds {fd : Int} (h : StaysOpen s ls i fd s' l) (ht : TableOk s ls) (ho : OwnFds s) : OwnFds s' :=
  h.changes.ownFds ht ho fun _ j hj heq => hj (ho i j h.was (h.oldFd.trans (heq.trans h.newFd).symm)).symm

/-- No state changes then. -/
theorem StaysOpen.states {fd : Int} (h : StaysOpen s ls i fd s' l) (j : Fin maxAtSocketNum) :
    (s'.inf.ctxs j).state = (s.inf.ctxs j).state ∧ s'.opening j = s.opening j := by
  refine ⟨?_, by rw [h.opening]⟩
  by_cases hj : j = i
  · rw [hj, h.was, h.is]
  · rw [(h.changes.others j hj).1]

theorem staysOpen_list (ht : TableOk s ls) (hstate : (s.inf.ctxs i).state = .connected)
    {heap : Heap AtRecvPkt} {list : PtrList} (hheld : Holds heap list l)
    (hnew : ∀ n ∈ ids l, n ∈ ids (ls i) ∨ s.inf.heap n = none)
    (hsame : ∀ n, n ∉ ids (ls i) → s.inf.heap n ≠ none → heap n = s.inf.heap n)
    (halloc : ∀ n, heap n ≠ none → n ∈ ids l ∨ n ∉ ids (ls i) ∧ s.inf.heap n ≠ none) :
    StaysOpen s ls i (s.inf.ctxs i).fd
      { s with inf := s.inf.setCtx i { s.inf.ctxs i with recvpktList := some list } heap } l := by
  have hold := ht.ctx i
  refine ⟨hstate, by simpa using hstate, rfl, by simp, rfl, ⟨by simpa using hold.unused, by simpa using hold.used,
    by simpa using hold.alloced, ?_, fun _ => ?_, ?_⟩, fun j hj => by simp [hj], rfl, hsame, hnew, halloc⟩
  · simp [hstate]
  · obtain ⟨hop, -⟩ := hold.live (.inl hstate)
    simp [hop, hheld]
  · simp [hstate]

/-- A packet for an open socket is the last of its list, or refused. -/
theorem received_call (ht : TableOk s ls) {fd : Nat} (hfind : atSocketFind s.inf (fd + maxAtSocketNum) = some i)
    (buff : List UInt8) (pktMem : Bool) {node : Option Nat} (hnew : ∀ n ∈ node, s.inf.heap n = none) :
    ∃ ret s' l, s.call (.received fd buff pktMem node) = some (ret, [], s') ∧ StaysOpen s ls i (fd + 5) s' l ∧
      (0 ≤ ret ↔ accepts (ls i).length pktMem node = true) ∧
      pages l = if accepts (ls i).length pktMem node = true then pages (ls i) ++ [buff] else pages (ls i) := by
  obtain ⟨hstate, heq⟩ := ht.find_connected (fd_ne_unused fd) hfind
  obtain ⟨-, list, hlist, hheld⟩ := (ht.ctx i).live (.inl hstate)
  have hnot : ∀ n ∈ node, n ∉ ids (ls i) := fun n hn hmem => hheld.chain.alloc hmem (hnew n hn)
  obtain ⟨ret, heap, list', l, hput, hret, hheld', hpages, hids, hsub, hsame⟩ :=
    atRecvpktPut_cases hheld pktMem hnot buff
  refine ⟨ret, { s with inf := s.inf.setCtx i { s.inf.ctxs i with recvpktList := some list' } heap }, l, ?_, ?_, hret,
    hpages⟩
  · simp [SocketSys.call, atSocketRecvCb, hfind, hlist, hput]
  rw [show (fd : Int) + 5 = (s.inf.ctxs i).fd from heq.symm]
  exact staysOpen_list ht hstate hheld' (fun n hn => (hids n hn).imp id fun hmem => hnew n hmem)
    (fun n hn halloc => hsame n fun hmem => (hids n hmem).elim hn fun hnode => halloc (hnew n hnode))
    (fun n hn => or_iff_not_imp_left.2 fun hmem => ⟨fun h => hmem (hsub h), hsame n hmem ▸ hn⟩)

/-- A read fails where no open socket has the descriptor, and takes from its list else. -/
theorem recv_call (ht : TableOk s ls) (fd : Int) (len : Nat) (iterMem : Bool) :
    (∃ ret, ret < 0 ∧ s.call (.recv fd len iterMem) = some (ret, [], s) ∧
        ∀ j, (s.inf.ctxs j).state = .connected → (s.inf.ctxs j).fd ≠ fd) ∨
      ∃ i ret buf s' l, s.call (.recv fd len iterMem) = some (ret, buf, s') ∧ StaysOpen s ls i fd s' l ∧
        (if ret < 0 then none else some buf) =
          (if pages (ls i) ≠ [] ∧ iterMem = false then none else some (readPages len (pages (ls i))).1) ∧
        pages l = if pages (ls i) ≠ [] ∧ iterMem = false then pages (ls i) else (readPages len (pages (ls i))).2 := by
  cases hfind : atSocketFind s.inf fd with
  | none =>
    exact .inl ⟨qcloudErrInval, by decide, by simp [SocketSys.call, atSocketRecv, hfind], fun j _ => find_none hfind j⟩
  | some i =>
    have heq := find_some hfind
    by_cases hstate : (s.inf.ctxs i).state = .connected
    · obtain ⟨hop, list, hlist, hheld⟩ := (ht.ctx i).live (.inl hstate)
      obtain ⟨ret, buf, heap, list', l, hget, hheld', hseen, hpages, hsub, hgone, hsame⟩ :=
        atRecvpktGet_cases hheld iterMem len
      refine .inr ⟨i, ret, buf,
        { s with inf := s.inf.setCtx i { s.inf.ctxs i with recvpktList := some list' } heap }, l, ?_, ?_, hseen, hpages⟩
      · simp [SocketSys.call, atSocketRecv, hfind, hop, hstate, hlist, hget]
      rw [← heq]
      exact staysOpen_list ht hstate hheld' (fun n hn => .inl (hsub hn)) (fun n hn _ => hsame n hn) fun n hn =>
        or_iff_not_imp_left.2 fun hmem => by
          have hold : n ∉ ids (ls i) := fun h => hn (hgone n h hmem)
          exact ⟨hold, hsame n hold ▸ hn⟩
    · -- the descriptor of contexts that are not open
      have hfar : ∀ j, (s.inf.ctxs j).state = .connected → (s.inf.ctxs j).fd ≠ fd := fun j hj h => by
        have hlow := (ht.ctx j).used hj
        rw [h, ← heq, (ht.ctx i).unused hstate] at hlow
        exact absurd hlow (by decide)
      cases hop : (s.inf.ctxs i).devOp with
      | false => exact .inl ⟨qcloudErrInval, by decide, by simp [SocketSys.call, atSocketRecv, hfind, hop], hfar⟩
      | true =>
        exact .inl ⟨qcloudErrTcpReadFail, by decide, by simp [SocketSys.call, atSocketRecv, hfind, hop, hstate], hfar⟩

/-- A closed context as a connect leaves it: taken, or given back for want of memory. -/
def TakenCtx (ctx : AtSocketCtx) (o : Bool) : Prop :=
  ctx.fd = unusedSocket ∧ (ctx.state = .closed ∧ ctx.recvpktList = none ∧ o = false ∨
    ctx.state = .alloced ∧ ctx.recvpktList = some listNew ∧ ctx.devOp = true ∧ o = true)

/-- What a connect does up to `dev_op->connect`. -/
theorem connect_cases (ht : TableOk s ls) (lockMem listMem : Bool) :
    s.call (.connect lockMem listMem) = some (qcloudErrFailure, [], s) ∧ (∀ i, (s.inf.ctxs i).state ≠ .closed) ∨
      ∃ ret i ctx o, s.call (.connect lockMem listMem) =
          some (ret, [], ⟨s.inf.setCtx i ctx s.inf.heap, Function.update s.opening i o⟩) ∧
        (s.inf.ctxs i).state = .closed ∧ TakenCtx ctx o ∧ (ret = qcloudRetSuccess ↔ lockMem && listMem) := by
  simp only [SocketSys.call, atSocketConnect, atSocketCtxAlloc]
  cases hfind : (List.finRange maxAtSocketNum).find? (fun i => (s.inf.ctxs i).state == .closed) with
  | none =>
    exact .inl ⟨rfl, fun i hi => by simpa [hi] using List.find?_eq_none.1 hfind i (List.mem_finRange i)⟩
  | some i =>
    have hstate : (s.inf.ctxs i).state = .closed := by simpa using List.find?_some hfind
    have hfd := (ht.ctx i).unused (by simp [hstate])
    have hlist := (ht.ctx i).closed hstate
    have hopen : s.opening = Function.update s.opening i false := by
      rw [← ht.not_opening (i := i) (by simp [hstate]), Function.update_eq_self]
    have hgiven : TakenCtx ⟨unusedSocket, none, false, s.inf.devOps, .closed⟩ false := ⟨rfl, .inl ⟨rfl, rfl, rfl⟩⟩
    have hneither : qcloudErrFailure ≠ qcloudRetSuccess := by decide
    cases lockMem with
    | false =>
      refine .inr ⟨qcloudErrFailure, i, _, false, ?_, hstate, hgiven, by simp [hneither]⟩
      rw [← hopen]
      simp [atSocketCtxFree, hlist, AtSocketCtx.freed, hstate]
    | true =>
      cases listMem with
      | false =>
        refine .inr ⟨qcloudErrFailure, i, _, false, ?_, hstate, hgiven, by simp [hneither]⟩
        rw [← hopen]
        simp [atSocketCtxFree, AtSocketCtx.freed, hstate]
      | true =>
        refine .inr ⟨qcloudRetSuccess, i, ⟨(s.inf.ctxs i).fd, some listNew, true, true, .alloced⟩, true, ?_, hstate,
          ⟨hfd, .inr ⟨rfl, rfl, rfl, rfl⟩⟩, by simp⟩
        simp [ht.driver, Option.filter]

theorem changes_taken (ht : TableOk s ls) (hstate : (s.inf.ctxs i).state = .closed)
    {ctx : AtSocketCtx} {o : Bool} (htaken : TakenCtx ctx o) :
    Changes s ls i ⟨s.inf.setCtx i ctx s.inf.heap, Function.update s.opening i o⟩ [] := by
  have hnil : ls i = [] := (ht.ctx i).idle (by simp [hstate])
  obtain ⟨hfd, hstate' | hstate'⟩ := htaken
  · refine ⟨⟨by simp [hfd], by simp [hstate'], by simp [hstate'], by simp [hstate'], by simp [hstate'], fun _ => rfl⟩,
      fun j hj => by simp [hj], rfl, fun n _ _ => rfl, by simp, fun n hn => .inr ⟨by simp [hnil], hn⟩⟩
  · refine ⟨⟨by simp [hfd], by simp [hstate'], by simp [hstate'], by simp [hstate'], fun _ => ?_, fun _ => rfl⟩,
      fun j hj => by simp [hj], rfl, fun n _ _ => rfl, by simp, fun n hn => .inr ⟨by simp [hnil], hn⟩⟩
    simp [hstate', holds_new]

theorem TakenCtx.not_connected {ctx : AtSocketCtx} {o : Bool} (h : TakenCtx ctx o) : ctx.state ≠ .connected := by
  obtain ⟨-, h | h⟩ := h <;> simp [h]

/-- What a connect does when `dev_op->connect` returns: the context is freed and left
allocated, or connected. -/
theorem connected_cases (ht : TableOk s ls) (ho : s.opening i = true) (fd : Int) :
    ∃ s', s.step (.connected i fd) = some s' ∧ (s.inf.ctxs i).state = .alloced ∧ s'.opening i = false ∧
      Changes s ls i s' [] ∧
      (fd < 0 ∧ (s'.inf.ctxs i).state = .alloced ∨
        0 ≤ fd ∧ (s'.inf.ctxs i).state = .connected ∧ (s'.inf.ctxs i).fd = fd + 5) := by
  have hstate := (ht.ctx i).alloced ho
  have hnil : ls i = [] := (ht.ctx i).idle (by simp [hstate])
  obtain ⟨hop, list, hlist, hheld⟩ := (ht.ctx i).live (.inr ho)
  rw [hnil] at hheld
  by_cases hfd : fd < 0
  · obtain ⟨heap, hdestroy, -, hsame⟩ := listDestroy_spec hheld
    have hchg := @changes_freed s ls i (s.inf.ctxs i) heap (by simp [hstate]) (by simp [hnil])
      fun n _ => hsame n (by simp)
    refine ⟨_, ?_, hstate, by simp, hchg, .inl ⟨hfd, by simp [AtSocketCtx.freed, hstate]⟩⟩
    simp [SocketSys.step, SocketSys.call, ho, atSocketConnected, hfd, atSocketCtxFree, hlist, hdestroy]
  · refine ⟨⟨s.inf.setCtx i { s.inf.ctxs i with fd := fd + maxAtSocketNum, state := .connected } s.inf.heap,
      Function.update s.opening i false⟩, ?_, hstate, by simp, ⟨⟨by simp, fun _ => ?_, by simp, by simp, fun _ => ?_,
        by simp⟩, fun j hj => by simp [hj], rfl, fun n _ _ => rfl, by simp, fun n hn => .inr ⟨by simp [hnil], hn⟩⟩,
      .inr ⟨by omega, by simp, by simp [maxAtSocketNum]⟩⟩
    · simp [SocketSys.step, SocketSys.call, ho, atSocketConnected, hfd]
    · simp only [setCtx_self]
      unfold maxAtSocketNum
      omega
    · simp [hop, hlist, hheld]

/-- A driver that returns to no connect is no step. -/
theorem opening_of_step {fd : Int} (hstep : s.step (.connected i fd) = some s') : s.opening i = true := by
  cases ho : s.opening i with
  | false => simp [SocketSys.step, SocketSys.call, ho] at hstep
  | true => rfl

/-- A packet for no open socket is none either. -/
theorem find_of_step {fd : Int} {buff : List UInt8} {pktMem : Bool} {node : Option Nat}
    (hstep : s.step (.received fd buff pktMem node) = some s') :
    ∃ i, atSocketFind s.inf (fd + maxAtSocketNum) = some i := by
  cases hfind : atSocketFind s.inf (fd + maxAtSocketNum) with
  | none =>
    rw [received_stray hfind] at hstep
    cases hstep
  | some i => exact ⟨i, rfl⟩

/-- No call follows a null pointer, but that of a packet for no open socket. -/
theorem step_some (ht : TableOk s ls) {a : SocketAct} (hp : Promised s a) (he : Expected s a) :
    ∃ s', s.step a = some s' := by
  cases a with
  | connect lockMem listMem =>
    rcases connect_cases ht lockMem listMem with ⟨hcall, -⟩ | ⟨ret, i, ctx, o, hcall, -⟩
    · exact ⟨_, by rw [SocketSys.step, hcall]; rfl⟩
    · exact ⟨_, by rw [SocketSys.step, hcall]; rfl⟩
  | connected i fd =>
    obtain ⟨s', hstep, -⟩ := connected_cases ht he fd
    exact ⟨s', hstep⟩
  | closed fd =>
    obtain ⟨fd, rfl⟩ := Int.eq_ofNat_of_zero_le hp
    rcases closed_cases ht fd with ⟨hstep, -⟩ | ⟨s', i, hstep, -⟩
    · exact ⟨s, hstep⟩
    · exact ⟨s', hstep⟩
  | received fd buff pktMem node =>
    obtain ⟨hfd, hnew⟩ := hp
    obtain ⟨fd, rfl⟩ := Int.eq_ofNat_of_zero_le hfd
    obtain ⟨i, hfind⟩ := Option.ne_none_iff_exists'.1 he
    obtain ⟨ret, s', l, hcall, -⟩ := received_call ht hfind buff pktMem hnew
    exact ⟨s', by rw [SocketSys.step, hcall]; rfl⟩
  | recv fd len iterMem =>
    rcases recv_call ht fd len iterMem with ⟨ret, -, hcall, -⟩ | ⟨i, ret, buf, s', l, hcall, -⟩
    · exact ⟨s, by rw [SocketSys.step, hcall]; rfl⟩
    · exact ⟨s', by rw [SocketSys.step, hcall]; rfl⟩

/-! ## What waits for the readers -/

/-- The open sockets, by the driver's descriptors, each with the packets that wait. -/
abbrev Waiting := Nat → Option (List (List UInt8))

/-- The open sockets of the table. -/
def Shows (s : SocketSys) (ls : Fin maxAtSocketNum → Nodes AtRecvPkt) (w : Waiting) : Prop :=
  ∀ fd ps, w fd = some ps ↔ ∃ i, (s.inf.ctxs i).state = .connected ∧ (s.inf.ctxs i).fd = fd + 5 ∧ pages (ls i) = ps

variable {w : Waiting} {fd : Nat}

theorem Shows.open (hs : Shows s ls w) (hc : Changes s ls i s' l) (hstate : (s'.inf.ctxs i).state = .connected)
    (hfd : (s'.inf.ctxs i).fd = fd + 5)
    (hbefore : (s.inf.ctxs i).state = .connected → (s.inf.ctxs i).fd = fd + 5)
    (hfree : ∀ j ≠ i, (s.inf.ctxs j).fd ≠ fd + 5) :
    Shows s' (Function.update ls i l) (Function.update w fd (some (pages l))) := by
  intro fd' ps
  by_cases hne : fd' = fd
  · subst hne
    rw [Function.update_self]
    constructor
    · intro h
      exact ⟨i, hstate, hfd, by simpa using h⟩
    · rintro ⟨j, hj, hjfd, hps⟩
      by_cases hji : j = i
      · subst hji
        simpa using hps
      · rw [(hc.others j hji).1] at hjfd
        exact absurd hjfd (hfree j hji)
  · rw [Function.update_of_ne hne, hs]
    refine exists_congr fun j => ?_
    by_cases hji : j = i
    · subst hji
      have hnow : (s'.inf.ctxs j).fd ≠ fd' + 5 := by omega
      have hthen : (s.inf.ctxs j).state = .connected → (s.inf.ctxs j).fd ≠ fd' + 5 := fun h => by
        have := hbefore h
        omega
      constructor
      · exact fun h => absurd h.2.1 (hthen h.1)
      · exact fun h => absurd h.2.1 hnow
    · rw [(hc.others j hji).1, Function.update_of_ne hji]

/-- An open socket with another list. -/
theorem Shows.stays (hs : Shows s ls w) (ho : OwnFds s) (h : StaysOpen s ls i (fd + 5) s' l) :
    Shows s' (Function.update ls i l) (Function.update w fd (some (pages l))) :=
  hs.open h.changes h.is h.newFd (fun _ => h.oldFd) fun j hj heq =>
    hj (ho i j h.was (h.oldFd.trans heq.symm)).symm

theorem Shows.shut (hs : Shows s ls w) (ho : OwnFds s) (hc : Changes s ls i s' l)
    (hstate : (s'.inf.ctxs i).state ≠ .connected) (hbefore : (s.inf.ctxs i).state = .connected)
    (hfd : (s.inf.ctxs i).fd = fd + 5) :
    Shows s' (Function.update ls i l) (Function.update w fd none) := by
  intro fd' ps
  by_cases hne : fd' = fd
  · subst hne
    rw [Function.update_self]
    constructor
    · intro h
      cases h
    · rintro ⟨j, hj, hjfd, -⟩
      have hji : j ≠ i := fun heq => hstate (heq ▸ hj)
      rw [(hc.others j hji).1] at hjfd
      exact absurd (ho i j hbefore (hfd.trans hjfd.symm)).symm hji
  · rw [Function.update_of_ne hne, hs]
    refine exists_congr fun j => ?_
    by_cases hji : j = i
    · subst hji
      have hthen : (s.inf.ctxs j).fd ≠ fd' + 5 := by omega
      constructor
      · exact fun h => absurd h.2.1 hthen
      · exact fun h => absurd h.1 hstate
    · rw [(hc.others j hji).1, Function.update_of_ne hji]

/-- A context that is not connected before or behind a step shows nothing. -/
theorem Shows.hidden (hs : Shows s ls w) (hc : Changes s ls i s' l) (hstate : (s'.inf.ctxs i).state ≠ .connected)
    (hbefore : (s.inf.ctxs i).state ≠ .connected) : Shows s' (Function.update ls i l) w := by
  intro fd' ps
  rw [hs]
  refine exists_congr fun j => ?_
  by_cases hji : j = i
  · subst hji
    constructor
    · exact fun h => absurd h.1 hbefore
    · exact fun h => absurd h.1 hstate
  · rw [(hc.others j hji).1, Function.update_of_ne hji]

end Table

/-- What waits for a reader of a socket. -/
def Waiting.of (w : Waiting) (fd : Int) : Option (List (List UInt8)) :=
  if 5 ≤ fd then w (fd - 5).toNat else none

/-- The same steps on what waits; undefined where the table would follow a null
pointer, or open a socket that is open. -/
def Waiting.step (w : Waiting) : SocketAct → Option Waiting
  | .connect _ _ => some w
  | .connected _ fd =>
    if fd < 0 then some w
    else if w fd.toNat = none then some (Function.update w fd.toNat (some [])) else none
  | .closed fd => some (Function.update w fd.toNat none)
  | .received fd buff pktMem node =>
    (w fd.toNat).map fun ps =>
      Function.update w fd.toNat (some (if accepts ps.length pktMem node then ps ++ [buff] else ps))
  | .recv fd len iterMem =>
    some (match w.of fd with
      | none => w
      | some ps =>
        Function.update w (fd - 5).toNat (some (if ps ≠ [] ∧ iterMem = false then ps else (readPages len ps).2)))

/-- What the modem's reader and the sockets' readers see: the bytes that were taken
in or read, or none when the call refuses or fails. -/
def SocketSys.seen (s : SocketSys) (a : SocketAct) : List (Option (List UInt8)) :=
  match a with
  | .received _ buff _ _ => ((s.call a).map fun r => if r.1 < 0 then none else some buff).toList
  | .recv _ _ _ => ((s.call a).map fun r => if r.1 < 0 then none else some r.2.1).toList
  | _ => []

def Waiting.seen (w : Waiting) : SocketAct → List (Option (List UInt8))
  | .received fd buff pktMem node =>
    ((w fd.toNat).map fun ps => if accepts ps.length pktMem node then some buff else none).toList
  | .recv fd len iterMem =>
    [(w.of fd).bind fun ps => if ps ≠ [] ∧ iterMem = false then none else some (readPages len ps).1]
  | _ => []

/-- The table stands for what waits. -/
def Carries (s : SocketSys) (w : Waiting) : Prop := ∃ ls, TableOk s ls ∧ OwnFds s ∧ Shows s ls w

section Sim

variable {s : SocketSys} {w : Waiting} {ls : Fin maxAtSocketNum → Nodes AtRecvPkt}

theorem tableOk_start (ctxs : Fin maxAtSocketNum → AtSocketCtx) : TableOk (socketStart ctxs) fun _ => [] := by
  refine ⟨fun i => ?_, by simp, by simp [socketStart, atSocketInit], rfl⟩
  exact ⟨fun _ => rfl, by simp [socketStart, atSocketInit], by simp [socketStart], fun _ => rfl,
    by simp [socketStart, atSocketInit], fun _ => rfl⟩

theorem carries_start (ctxs : Fin maxAtSocketNum → AtSocketCtx) : Carries (socketStart ctxs) fun _ => none :=
  ⟨_, tableOk_start ctxs, by simp [OwnFds, socketStart, atSocketInit], by simp [Shows, socketStart, atSocketInit]⟩

/-- Where no context has the descriptor, nothing waits. -/
theorem Shows.none_of_find (hs : Shows s ls w) {fd : Nat} (h : atSocketFind s.inf (fd + maxAtSocketNum) = none) :
    w fd = none := by
  cases hw : w fd with
  | none => rfl
  | some ps =>
    obtain ⟨i, -, hfd, -⟩ := (hs fd ps).1 hw
    exact absurd hfd (find_none h i)

theorem closed_sim (hc : Carries s w) {fd : Int} (hfd : 0 ≤ fd) {s' : SocketSys}
    (hstep : s.step (.closed fd) = some s') : Carries s' (Function.update w fd.toNat none) := by
  obtain ⟨ls, ht, ho, hs⟩ := hc
  obtain ⟨fd, rfl⟩ := Int.eq_ofNat_of_zero_le hfd
  rcases closed_cases ht fd with ⟨hsame, hfind⟩ | ⟨u, i, hu, hstate, heq, hclosed, -, hchg⟩
  · obtain rfl := Option.some.inj (hsame.symm.trans hstep)
    have hw : Function.update w fd none = w := by
      rw [← hs.none_of_find hfind, Function.update_eq_self]
    exact ⟨ls, ht, ho, by rwa [Int.toNat_natCast, hw]⟩
  · obtain rfl := Option.some.inj (hu.symm.trans hstep)
    have hshut : (u.inf.ctxs i).state ≠ .connected := by simp [hclosed]
    exact ⟨_, hchg.tableOk ht, hchg.ownFds_shut ht ho hshut, hs.shut ho hchg hshut hstate heq⟩

theorem received_sim (hc : Carries s w) {fd : Int} {buff : List UInt8} {pktMem : Bool} {node : Option Nat}
    (hfd : 0 ≤ fd) (hnew : ∀ n ∈ node, s.inf.heap n = none) {s' : SocketSys}
    (hstep : s.step (.received fd buff pktMem node) = some s') :
    ∃ w', w.step (.received fd buff pktMem node) = some w' ∧ Carries s' w' ∧
      s.seen (.received fd buff pktMem node) = w.seen (.received fd buff pktMem node) := by
  obtain ⟨ls, ht, ho, hs⟩ := hc
  obtain ⟨fd, rfl⟩ := Int.eq_ofNat_of_zero_le hfd
  obtain ⟨i, hfind⟩ := find_of_step hstep
  obtain ⟨ret, u, l, hcall, hstays, hret, hpages⟩ := received_call ht hfind buff pktMem hnew
  rw [SocketSys.step, hcall] at hstep
  obtain rfl := Option.some.inj hstep
  have hw : w fd = some (pages (ls i)) := (hs fd _).2 ⟨i, hstays.was, hstays.oldFd, rfl⟩
  have hlen : (pages (ls i)).length = (ls i).length := by simp [pages]
  have hshows := hs.stays ho hstays
  rw [hpages, ← hlen] at hshows
  refine ⟨_, congrArg (Option.map _) hw, ⟨_, hstays.changes.tableOk ht, hstays.ownFds ht ho, hshows⟩, ?_⟩
  have hneg : ret < 0 ↔ accepts (pages (ls i)).length pktMem node = false := by
    rw [← not_le, hret, hlen, Bool.not_eq_true]
  simp only [SocketSys.seen, Waiting.seen, hcall, Int.toNat_natCast, hw, Option.map_some]
  cases haccepts : accepts (pages (ls i)).length pktMem node <;> simp [hneg, haccepts]

/-- Where no open socket has the descriptor, no one waits for it. -/
theorem Shows.of_eq_none (hs : Shows s ls w) {fd : Int}
    (h : ∀ j, (s.inf.ctxs j).state = .connected → (s.inf.ctxs j).fd ≠ fd) : w.of fd = none := by
  by_cases hfd : 5 ≤ fd
  · obtain ⟨n, rfl⟩ : ∃ n : Nat, fd = n + 5 := ⟨(fd - 5).toNat, by omega⟩
    rw [Waiting.of, if_pos hfd, show ((n : Int) + 5 - 5).toNat = n by omega]
    cases hw : w n with
    | none => rfl
    | some ps =>
      obtain ⟨i, hstate, heq, -⟩ := (hs n ps).1 hw
      exact absurd heq (h i hstate)
  · exact if_neg hfd

theorem recv_sim (hc : Carries s w) (fd : Int) (len : Nat) (iterMem : Bool) {s' : SocketSys}
    (hstep : s.step (.recv fd len iterMem) = some s') :
    ∃ w', w.step (.recv fd len iterMem) = some w' ∧ Carries s' w' ∧
      s.seen (.recv fd len iterMem) = w.seen (.recv fd len iterMem) := by
  obtain ⟨ls, ht, ho, hs⟩ := hc
  rcases recv_call ht fd len iterMem with ⟨ret, hret, hcall, hfar⟩ | ⟨i, ret, buf, u, l, hcall, hstays, hseen, hpages⟩
  · rw [SocketSys.step, hcall] at hstep
    obtain rfl := Option.some.inj hstep
    have hnone := hs.of_eq_none hfar
    refine ⟨w, by simp [Waiting.step, hnone], ⟨ls, ht, ho, hs⟩, ?_⟩
    simp [SocketSys.seen, Waiting.seen, hcall, hret, hnone]
  · rw [SocketSys.step, hcall] at hstep
    obtain rfl := Option.some.inj hstep
    have hfd : 5 ≤ fd := hstays.oldFd ▸ (ht.ctx i).used hstays.was
    obtain ⟨n, rfl⟩ : ∃ n : Nat, fd = n + 5 := ⟨(fd - 5).toNat, by omega⟩
    have hof : w.of (n + 5) = some (pages (ls i)) := by
      rw [Waiting.of, if_pos hfd, show ((n : Int) + 5 - 5).toNat = n by omega]
      exact (hs n _).2 ⟨i, hstays.was, hstays.oldFd, rfl⟩
    have hshows := hs.stays ho hstays
    rw [hpages] at hshows
    refine ⟨_, by rw [Waiting.step, hof, show ((n : Int) + 5 - 5).toNat = n by omega],
      ⟨_, hstays.changes.tableOk ht, hstays.ownFds ht ho, hshows⟩, ?_⟩
    simp [SocketSys.seen, Waiting.seen, hcall, hof, hseen]

theorem connect_sim (hc : Carries s w) {lockMem listMem : Bool} {s' : SocketSys}
    (hstep : s.step (.connect lockMem listMem) = some s') : Carries s' w := by
  obtain ⟨ls, ht, ho, hs⟩ := hc
  rcases connect_cases ht lockMem listMem with ⟨hcall, -⟩ | ⟨ret, i, ctx, o, hcall, hstate, htaken, -⟩
  · rw [SocketSys.step, hcall] at hstep
    obtain rfl := Option.some.inj hstep
    exact ⟨ls, ht, ho, hs⟩
  · rw [SocketSys.step, hcall] at hstep
    obtain rfl := Option.some.inj hstep
    have hchg := changes_taken ht hstate htaken
    have hshut := htaken.not_connected
    exact ⟨_, hchg.tableOk ht, hchg.ownFds_shut ht ho (by simpa using hshut),
      hs.hidden hchg (by simpa using hshut) (by simp [hstate])⟩

theorem connected_sim (hc : Carries s w) {i : Fin maxAtSocketNum} {fd : Int} (hp : OwnDescriptor s (.connected i fd))
    {s' : SocketSys} (hstep : s.step (.connected i fd) = some s') :
    ∃ w', w.step (.connected i fd) = some w' ∧ Carries s' w' := by
  obtain ⟨ls, ht, ho, hs⟩ := hc
  obtain ⟨u, hu, hstate, -, hchg, hcases⟩ := connected_cases ht (opening_of_step hstep) fd
  obtain rfl := Option.some.inj (hu.symm.trans hstep)
  obtain ⟨hfd, hstate'⟩ | ⟨hfd, hstate', hfd'⟩ := hcases
  · have hshut : (u.inf.ctxs i).state ≠ .connected := by simp [hstate']
    exact ⟨w, by simp [Waiting.step, hfd], _, hchg.tableOk ht, hchg.ownFds_shut ht ho hshut,
      hs.hidden hchg hshut (by simp [hstate])⟩
  · obtain ⟨fd, rfl⟩ := Int.eq_ofNat_of_zero_le hfd
    have hfree : ∀ j, (s.inf.ctxs j).fd ≠ fd + 5 := hp hfd
    have hnone : w fd = none := by
      cases hw : w fd with
      | none => rfl
      | some ps =>
        obtain ⟨j, -, hj, -⟩ := (hs fd ps).1 hw
        exact absurd hj (hfree j)
    refine ⟨Function.update w fd (some []), by simp [Waiting.step, hnone], _, hchg.tableOk ht,
      hchg.ownFds ht ho fun _ j _ => hfd' ▸ hfree j, ?_⟩
    exact hs.open hchg hstate' hfd' (fun h => by simp [hstate] at h) fun j _ => hfree j

/-- The promises that the streams of the sockets rest on. -/
def Dependable (s : SocketSys) (a : SocketAct) : Prop := Promised s a ∧ OwnDescriptor s a

/-- Every step of the table is one of what waits, and the readers see the same. -/
theorem socket_sim (s : SocketSys) (a : SocketAct) (s' : SocketSys) (w : Waiting) (hc : Carries s w)
    (hp : Dependable s a) (hstep : s.step a = some s') :
    ∃ w', w.step a = some w' ∧ Carries s' w' ∧ s.seen a = w.seen a := by
  obtain ⟨hp, hown⟩ := hp
  cases a with
  | connect lockMem listMem => exact ⟨w, rfl, connect_sim hc hstep, rfl⟩
  | connected i fd =>
    obtain ⟨w', hw, hc'⟩ := connected_sim hc hown hstep
    exact ⟨w', hw, hc', rfl⟩
  | closed fd => exact ⟨_, rfl, closed_sim hc hp hstep, rfl⟩
  | received fd buff pktMem node => exact received_sim hc hp.1 hp.2 hstep
  | recv fd len iterMem => exact recv_sim hc fd len iterMem hstep

/-- Where packets come for open sockets only, a run is defined to its end. -/
theorem socket_runs {as : List SocketAct} (hc : Carries s w)
    (h : Along SocketSys.step (fun s a => Dependable s a ∧ Expected s a) s as) :
    ∃ s', exec SocketSys.step s as = some s' := by
  induction as generalizing s w with
  | nil => exact ⟨s, rfl⟩
  | cons a as ih =>
    obtain ⟨⟨hp, he⟩, hrest⟩ := h
    obtain ⟨u, hu⟩ := step_some hc.choose_spec.1 hp.1 he
    obtain ⟨w', -, hc', -⟩ := socket_sim s a u w hc hp hu
    obtain ⟨s', hs'⟩ := ih hc' (hrest u hu)
    exact ⟨s', exec_cons.2 ⟨u, hu, hs'⟩⟩

end Sim

/-! ## Streams -/

section Streams

variable (fd : Nat)

/-- The bytes that wait for a reader, in order. -/
def Waiting.held (w : Waiting) : List UInt8 := ((w fd).getD []).flatten

/-- The bytes of a socket that a step takes in, and those that it gives to a reader
or drops with the socket. -/
def Waiting.accepted (w : Waiting) : SocketAct → List UInt8
  | .received fd' buff pktMem node =>
    if fd'.toNat = fd ∧ accepts ((w fd).getD []).length pktMem node = true then buff else []
  | _ => []

def Waiting.removed (w : Waiting) : SocketAct → List UInt8
  | .closed fd' => if fd'.toNat = fd then w.held fd else []
  | .recv fd' len iterMem => if fd' = fd + 5 then ((w.seen (.recv fd' len iterMem)).head?.join).getD [] else []
  | _ => []

/-- A read gives its reader what it takes from the streams. -/
theorem Waiting.recv_balance (w : Waiting) (fd' : Int) (len : Nat) (iterMem : Bool) (w' : Waiting)
    (hstep : w.step (.recv fd' len iterMem) = some w') :
    w.held fd = w.removed fd (.recv fd' len iterMem) ++ w'.held fd := by
  cases hstep
  by_cases hfd : fd' = fd + 5
  · subst hfd
    have hnat : ((fd : Int) + 5 - 5).toNat = fd := by omega
    have hof : w.of (fd + 5) = w fd := by rw [Waiting.of, if_pos (by omega), hnat]
    cases hps : w fd with
    | none => simp [removed, held, seen, hof, hps]
    | some ps =>
      obtain ⟨htake, hdrop⟩ := readPages_spec len ps
      by_cases hfail : ps ≠ [] ∧ iterMem = false
      · simp [removed, held, seen, hof, hps, hfail]
      · simp [removed, held, seen, hof, hps, hfail, htake, hdrop]
  · cases hps : w.of fd' with
    | none => simp [removed, held, hfd]
    | some ps =>
      have hne : fd ≠ (fd' - 5).toNat := by
        by_cases hlow : 5 ≤ fd'
        · omega
        · rw [Waiting.of, if_neg hlow] at hps
          cases hps
      simp [removed, held, hfd, hne]

theorem Waiting.balance (w : Waiting) (a : SocketAct) (w' : Waiting) (hstep : w.step a = some w') :
    w.held fd ++ w.accepted fd a = w.removed fd a ++ w'.held fd := by
  cases a with
  | connect lockMem listMem =>
    cases hstep
    simp [accepted, removed]
  | connected i fd' =>
    simp only [step] at hstep
    by_cases hneg : fd' < 0
    · rw [if_pos hneg] at hstep
      cases hstep
      simp [accepted, removed]
    · rw [if_neg hneg] at hstep
      by_cases hnone : w fd'.toNat = none
      · rw [if_pos hnone] at hstep
        cases hstep
        by_cases hfd : fd = fd'.toNat
        · simp [accepted, removed, held, hfd, hnone]
        · simp [accepted, removed, held, hfd]
      · rw [if_neg hnone] at hstep
        cases hstep
  | closed fd' =>
    cases hstep
    by_cases hfd : fd'.toNat = fd
    · simp [accepted, removed, held, hfd]
    · simp [accepted, removed, held, hfd, Ne.symm hfd]
  | received fd' buff pktMem node =>
    simp only [step, Option.map_eq_some_iff] at hstep
    obtain ⟨ps, hps, rfl⟩ := hstep
    by_cases hfd : fd'.toNat = fd
    · subst hfd
      by_cases haccepts : accepts ps.length pktMem node = true
      · simp [accepted, removed, held, hps, haccepts]
      · simp [accepted, removed, held, hps, haccepts]
    · simp [accepted, removed, held, hfd, Ne.symm hfd]
  | recv fd' len iterMem =>
    have hbalance := w.recv_balance fd fd' len iterMem w' hstep
    exact (List.append_nil _).trans hbalance

end Streams

/-- **Each socket is a byte stream of its own**: over every order of connects, closes,
received packets and reads in which a packet is for an open socket, no call follows a
null pointer, the readers see what they see of the streams, and the bytes of each
socket that are taken in are, in order and once, those read from it or dropped when
it is closed, and those that wait. -/
theorem socket_streams (ctxs : Fin maxAtSocketNum → AtSocketCtx) (as : List SocketAct)
    (h : Along SocketSys.step (fun s a => Dependable s a ∧ Expected s a) (socketStart ctxs) as) :
    ∃ s w, exec SocketSys.step (socketStart ctxs) as = some s ∧ exec Waiting.step (fun _ => none) as = some w ∧
      trace SocketSys.step SocketSys.seen (socketStart ctxs) as = trace Waiting.step Waiting.seen (fun _ => none) as ∧
      ∀ fd, trace Waiting.step (Waiting.accepted fd) (fun _ => none) as =
        trace Waiting.step (Waiting.removed fd) (fun _ => none) as ++ w.held fd := by
  obtain ⟨s, hx⟩ := socket_runs (carries_start ctxs) h
  have hsim : ∀ s a s' w, Carries s w → (Dependable s a ∧ Expected s a) → s.step a = some s' →
      ∃ w', w.step a = some w' ∧ Carries s' w' ∧ s.seen a = w.seen a :=
    fun s a s' w hc hp => socket_sim s a s' w hc hp.1
  obtain ⟨w, hw, -, hseen⟩ := exec_sim_trace_along hsim (carries_start ctxs) h hx
  exact ⟨s, w, hx, hw, hseen, fun fd => by simpa [Waiting.held] using trace_balance (Waiting.balance fd) hw⟩

def firstCtx : Fin maxAtSocketNum := ⟨0, by decide⟩

/-- A socket is opened, gets two bytes, and one is read. -/
def shortTalk : List SocketAct :=
  [.connect true true, .connected firstCtx 0, .received 0 [0x61, 0x62] true (some 7), .recv 5 1 true]

theorem socket_streams_short :
    ∃ s w, exec SocketSys.step (socketStart fun _ => ⟨0, none, false, false, .alloced⟩) shortTalk = some s ∧
      exec Waiting.step (fun _ => none) shortTalk = some w ∧
      trace SocketSys.step SocketSys.seen (socketStart fun _ => ⟨0, none, false, false, .alloced⟩) shortTalk =
        trace Waiting.step Waiting.seen (fun _ => none) shortTalk ∧
      ∀ fd, trace Waiting.step (Waiting.accepted fd) (fun _ => none) shortTalk =
        trace Waiting.step (Waiting.removed fd) (fun _ => none) shortTalk ++ w.held fd := by
  refine socket_streams _ shortTalk (.cons rfl ⟨⟨trivial, trivial⟩, trivial⟩ ?_)
  refine .cons rfl ⟨⟨trivial, fun _ => by decide⟩, rfl⟩ ?_
  refine .cons rfl ⟨⟨⟨by decide, fun n _ => rfl⟩, trivial⟩, Option.some_ne_none firstCtx⟩ ?_
  exact .cons rfl ⟨⟨trivial, trivial⟩, trivial⟩ trivial

/-! ## Contexts that are lost -/

/-- How many contexts are such. -/
def SocketSys.count (s : SocketSys) (p : AtSocketCtx → Bool → Bool) : Nat :=
  ∑ i, (p (s.inf.ctxs i) (s.opening i)).toNat

/-- Connected, or about to be. -/
def inUse (ctx : AtSocketCtx) (opening : Bool) : Bool := decide (ctx.state = .connected) || opening

/-- Allocated, and nobody's. -/
def lost (ctx : AtSocketCtx) (opening : Bool) : Bool := decide (ctx.state = .alloced) && !opening

def available (ctx : AtSocketCtx) (_ : Bool) : Bool := decide (ctx.state = .closed)

/-- A connect that fails in the driver. -/
def SocketSys.failed (_ : SocketSys) : SocketAct → List Unit
  | .connected _ fd => if fd < 0 then [()] else []
  | _ => []

section Lost

variable {s s' : SocketSys} {ls : Fin maxAtSocketNum → Nodes AtRecvPkt} {i : Fin maxAtSocketNum}

/-- One context that changes changes the count by itself. -/
theorem count_changes {l : Nodes AtRecvPkt} (hc : Changes s ls i s' l) (p : AtSocketCtx → Bool → Bool) :
    s'.count p + (p (s.inf.ctxs i) (s.opening i)).toNat = s.count p + (p (s'.inf.ctxs i) (s'.opening i)).toNat := by
  have hrest : ∑ j ∈ Finset.univ.erase i, (p (s'.inf.ctxs j) (s'.opening j)).toNat =
      ∑ j ∈ Finset.univ.erase i, (p (s.inf.ctxs j) (s.opening j)).toNat := by
    refine Finset.sum_congr rfl fun j hj => ?_
    obtain ⟨hctx, hopen⟩ := hc.others j (Finset.ne_of_mem_erase hj)
    rw [hctx, hopen]
  simp only [SocketSys.count]
  rw [← Finset.add_sum_erase _ _ (Finset.mem_univ i), ← Finset.add_sum_erase _ _ (Finset.mem_univ i), hrest]
  omega

/-- Each context is available, in use or lost. -/
theorem count_all (ht : TableOk s ls) : s.count available + s.count inUse + s.count lost = 5 := by
  simp only [SocketSys.count, ← Finset.sum_add_distrib]
  have hone : ∀ i, (available (s.inf.ctxs i) (s.opening i)).toNat + (inUse (s.inf.ctxs i) (s.opening i)).toNat +
      (lost (s.inf.ctxs i) (s.opening i)).toNat = 1 := by
    intro i
    have hctx := ht.ctx i
    cases ho : s.opening i with
    | true => simp [available, inUse, lost, hctx.alloced ho]
    | false => cases hstate : (s.inf.ctxs i).state <;> simp [available, inUse, lost, hstate]
  rw [Finset.sum_congr rfl fun i _ => hone i]
  rfl

/-- Calls that leave the states alone leave the counts alone. -/
theorem count_same {p : AtSocketCtx → Bool → Bool}
    (hsame : ∀ j, p (s'.inf.ctxs j) (s'.opening j) = p (s.inf.ctxs j) (s.opening j)) : s'.count p = s.count p := by
  simp [SocketSys.count, hsame]

/-- A connect that fails in the driver loses one context; nothing else loses one,
and nothing gets one back. The table stays sound, whatever descriptor the driver returns. -/
theorem lost_step (ht : TableOk s ls) {a : SocketAct} (hp : Promised s a) (hstep : s.step a = some s') :
    (∃ ls', TableOk s' ls') ∧ s'.count lost = s.count lost + (s.failed a).length := by
  cases a with
  | connect lockMem listMem =>
    rcases connect_cases ht lockMem listMem with ⟨hcall, -⟩ | ⟨ret, i, ctx, o, hcall, hstate, htaken, -⟩
    · rw [SocketSys.step, hcall] at hstep
      obtain rfl := Option.some.inj hstep
      exact ⟨⟨ls, ht⟩, rfl⟩
    · rw [SocketSys.step, hcall] at hstep
      obtain rfl := Option.some.inj hstep
      have hchg := changes_taken ht hstate htaken
      have hcount := count_changes hchg lost
      refine ⟨⟨_, hchg.tableOk ht⟩, ?_⟩
      obtain ⟨-, hstate' | hstate'⟩ := htaken <;> simpa [lost, hstate, hstate', SocketSys.failed] using hcount
  | connected i fd =>
    have hopen := opening_of_step hstep
    obtain ⟨u, hu, hstate, hopen', hchg, hcases⟩ := connected_cases ht hopen fd
    obtain rfl := Option.some.inj (hu.symm.trans hstep)
    have hcount := count_changes hchg lost
    refine ⟨⟨_, hchg.tableOk ht⟩, ?_⟩
    obtain ⟨hfd, hstate'⟩ | ⟨hfd, hstate', -⟩ := hcases
    · simpa [lost, hopen, hopen', hstate, hstate', SocketSys.failed, hfd] using hcount
    · simpa [lost, hopen, hopen', hstate, hstate', SocketSys.failed, Int.not_lt.2 hfd] using hcount
  | closed fd =>
    obtain ⟨fd, rfl⟩ := Int.eq_ofNat_of_zero_le hp
    rcases closed_cases ht fd with ⟨hsame, -⟩ | ⟨u, i, hu, hstate, -, hclosed, hopen, hchg⟩
    · obtain rfl := Option.some.inj (hsame.symm.trans hstep)
      exact ⟨⟨ls, ht⟩, rfl⟩
    · obtain rfl := Option.some.inj (hu.symm.trans hstep)
      have hcount := count_changes hchg lost
      exact ⟨⟨_, hchg.tableOk ht⟩, by simpa [lost, hstate, hclosed, SocketSys.failed] using hcount⟩
  | received fd buff pktMem node =>
    obtain ⟨hfd, hnew⟩ := hp
    obtain ⟨fd, rfl⟩ := Int.eq_ofNat_of_zero_le hfd
    obtain ⟨i, hfind⟩ := find_of_step hstep
    obtain ⟨ret, u, l, hcall, hstays, -⟩ := received_call ht hfind buff pktMem hnew
    rw [SocketSys.step, hcall] at hstep
    obtain rfl := Option.some.inj hstep
    exact ⟨⟨_, hstays.changes.tableOk ht⟩, count_same fun j => by simp [lost, hstays.states j]⟩
  | recv fd len iterMem =>
    rcases recv_call ht fd len iterMem with ⟨ret, -, hcall, -⟩ | ⟨i, ret, buf, u, l, hcall, hstays, -⟩
    · rw [SocketSys.step, hcall] at hstep
      obtain rfl := Option.some.inj hstep
      exact ⟨⟨ls, ht⟩, rfl⟩
    · rw [SocketSys.step, hcall] at hstep
      obtain rfl := Option.some.inj hstep
      exact ⟨⟨_, hstays.changes.tableOk ht⟩, count_same fun j => by simp [lost, hstays.states j]⟩

theorem lost_run {as : List SocketAct} (ht : TableOk s ls) (hp : Along SocketSys.step Promised s as)
    (hx : exec SocketSys.step s as = some s') :
    (∃ ls', TableOk s' ls') ∧
      s'.count lost = s.count lost + (trace SocketSys.step SocketSys.failed s as).length := by
  induction as generalizing s ls with
  | nil =>
    cases hx
    exact ⟨⟨ls, ht⟩, rfl⟩
  | cons a as ih =>
    obtain ⟨u, hu, hx⟩ := exec_cons.1 hx
    obtain ⟨⟨ls', ht'⟩, hone⟩ := lost_step ht hp.1 hu
    obtain ⟨hok, hrest⟩ := ih ht' (hp.2 u hu) hx
    refine ⟨hok, ?_⟩
    rw [hrest, hone]
    simp [trace, hu, Nat.add_assoc]

theorem count_pos {p : AtSocketCtx → Bool → Bool} (i : Fin maxAtSocketNum)
    (h : p (s.inf.ctxs i) (s.opening i) = true) : 0 < s.count p := by
  simp only [SocketSys.count]
  rw [← Finset.add_sum_erase _ _ (Finset.mem_univ i), h]
  exact Nat.lt_add_right _ Nat.one_pos

/-- A connect that has its memory takes a context if and only if one is closed. -/
theorem connect_iff (ht : TableOk s ls) (lockMem listMem : Bool) :
    ∃ ret buf t, s.call (.connect lockMem listMem) = some (ret, buf, t) ∧
      (ret = qcloudRetSuccess ↔ (lockMem && listMem) = true ∧ 0 < s.count available) := by
  rcases connect_cases ht lockMem listMem with ⟨hcall, hnone⟩ | ⟨ret, i, ctx, o, hcall, hstate, -, hret⟩
  · have hzero : s.count available = 0 := by
      simp [SocketSys.count, available, hnone]
    exact ⟨_, _, _, hcall, by simp [hzero, qcloudErrFailure, qcloudRetSuccess]⟩
  · have hpos : 0 < s.count available := count_pos i (by simp [available, hstate])
    exact ⟨_, _, _, hcall, by rw [hret, and_iff_left hpos]⟩

end Lost

/-- **Each connect the driver fails costs a socket for good**: in every state of every
run, whatever descriptors the driver gives, a connect that has its memory takes a
context if and only if fewer than five are in use or were lost to the connects that
failed so far. -/
theorem socket_connect_iff (ctxs : Fin maxAtSocketNum → AtSocketCtx) (as : List SocketAct) (s : SocketSys)
    (hp : Along SocketSys.step Promised (socketStart ctxs) as)
    (hx : exec SocketSys.step (socketStart ctxs) as = some s) (lockMem listMem : Bool) :
    ∃ ret buf t, s.call (.connect lockMem listMem) = some (ret, buf, t) ∧
      (ret = qcloudRetSuccess ↔ (lockMem && listMem) = true ∧
        s.count inUse + (trace SocketSys.step SocketSys.failed (socketStart ctxs) as).length < 5) := by
  obtain ⟨⟨ls, ht⟩, hlost⟩ := lost_run (tableOk_start ctxs) hp hx
  obtain ⟨ret, buf, t, hcall, hret⟩ := connect_iff ht lockMem listMem
  have hnone : (socketStart ctxs).count lost = 0 := by
    simp [SocketSys.count, lost, socketStart, atSocketInit]
  have hall := count_all ht
  refine ⟨ret, buf, t, hcall, hret.trans (and_congr_right fun _ => ?_)⟩
  omega

/-- Two connects get one descriptor, the first closed by the driver alone, and three fail. -/
def reconnects : List SocketAct :=
  [.connect true true, .connected firstCtx 0, .connect true true, .connected ⟨1, by decide⟩ 0,
    .connect true true, .connected ⟨2, by decide⟩ (-1), .connect true true, .connected ⟨3, by decide⟩ (-1),
    .connect true true, .connected ⟨4, by decide⟩ (-1)]

theorem socket_connect_iff_reconnects :
    ∃ s, exec SocketSys.step (socketStart fun _ => ⟨0, none, false, false, .alloced⟩) reconnects = some s ∧
      ∃ ret buf t, s.call (.connect true true) = some (ret, buf, t) ∧
        (ret = qcloudRetSuccess ↔ (true && true) = true ∧ s.count inUse +
          (trace SocketSys.step SocketSys.failed (socketStart fun _ => ⟨0, none, false, false, .alloced⟩)
            reconnects).length < 5) := by
  refine ⟨_, rfl, socket_connect_iff _ reconnects _ ?_ rfl true true⟩
  iterate 10 refine .cons rfl trivial ?_
  trivial

end Petbox.Modem
