/-
The response objects of the SIM7070 driver: what its calls create, they delete,
except where `sim7070_connect` finds no descriptor.

`sim7070_connect` and `sim7070_close` are written out here with their response
objects; `hide_connect` and `hide_close` say that without these they are the code
of `Petbox.Modem.Sim7070`.
-/
import Petbox.Modem.Domain
import Petbox.Modem.Send

namespace Petbox.Modem

open Bitmap Dialogue Machine

def sim7070WaitConnectTime : UInt32 := 5000
def qcloudErrMalloc : Int := -1004
def qcloudErrTimeout : Int := -2
def gnssRetry : Nat := 3

/-! ## The code -/

namespace Resp

/-- `alloc_fd`. -/
def allocFd : ClientM Int := do
  let client ← get
  match (List.range sim7070MaxSocketNum).find? fun i => (client.bits >>> i.toUInt8) &&& 1 == 0 with
  | some i =>
    modify fun client => { client with bits := client.bits ||| mask i }
    return i
  | none => return unusedSocket

/-- `free_fd`. -/
def freeFd (fd : Int) : ClientM Unit := modify fun client => { client with bits := freed fd client.bits }

/-- `sim7070_close`. -/
def sim7070Close (fd : Int) : ClientM Int := do
  let resp ← atCreateResp 64 0 atRespTimeoutMs
  if resp = 0 then return qcloudErrFailure
  let ret ← atExecCmd resp (.caclose fd)
  freeFd fd
  atDeleteResp resp
  return ret

/-- `sim7070_connect` from its label `__exit` on. -/
def connectExit (resp fd ret : Int) : ClientM Int := do
  atDeleteResp resp
  if ret ≠ qcloudRetSuccess then
    freeFd fd
    return unusedSocket
  return fd

/-- `sim7070_connect` from its label `__retry` on; `retryed` says that there is no
retry left. -/
def connectRetry (ip : List UInt8) (port : UInt16) (proto : NetProto) (resp fd : Int) : Nat → ClientM Int
  | 0 => do
    if proto = .other then connectExit resp fd qcloudErrFailure
    else
      let ret ← atExecCmd resp (.caopen fd proto ip port)
      connectExit resp fd ret
  | retries + 1 => do
    if proto = .other then connectExit resp fd qcloudErrFailure
    else
      let ret ← atExecCmd resp (.caopen fd proto ip port)
      if ret ≠ qcloudRetSuccess then
        let closed ← sim7070Close fd
        if closed ≠ qcloudRetSuccess then connectExit resp fd ret
        else connectRetry ip port proto resp fd retries
      else connectExit resp fd ret

/-- `sim7070_connect`; no address stands for a null pointer. -/
def sim7070Connect (ip : Option (List UInt8)) (port : UInt16) (proto : NetProto) : ClientM Int :=
  match ip with
  | none => return qcloudErrInval
  | some ip => do
    let resp ← atCreateResp 128 0 atRespTimeoutMs
    if resp = 0 then return qcloudErrFailure
    let fd ← allocFd
    if fd < 0 then return qcloudErrFailure
    connectRetry ip port proto resp fd 1

end Resp

/-- The loop of `at_obj_wait_connect`; `none` when the fuel is used up. -/
def waitConnectLoop (resp : Int) (startTime timeout : UInt32) : (fuel : Nat) → ClientM (Option Int)
  | 0 => return none
  | fuel + 1 => do
    let now ← halGetTimeMs
    if now - startTime > timeout then return some qcloudErrTimeout
    let result ← atExecCmd resp .attention
    if result ≠ qcloudRetSuccess then waitConnectLoop resp startTime timeout fuel
    else return some result

/-- `at_obj_wait_connect` behind its loop. -/
def waitConnectExit (resp : Int) : Option Int → ClientM (Option Int)
  | none => return none
  | some result => do
    atDeleteResp resp
    return some result

/-- `at_obj_wait_connect`. -/
def atObjWaitConnect (fuel : Nat) (timeout : UInt32) : ClientM (Option Int) := do
  let resp ← atCreateResp 128 0 1000
  if resp = 0 then return some qcloudErrMalloc
  let startTime ← halGetTimeMs
  let result ← waitConnectLoop resp startTime timeout fuel
  waitConnectExit resp result

/-- The loop of `sim7070_gnss_init`, with `tries` left: it opened the GNSS. -/
def gnssLoop (resp : Int) : (tries : Nat) → ClientM Bool
  | 0 => return false
  | tries + 1 => do
    let ret ← atExecCmd resp .sgnscfg
    if ret < 0 then gnssLoop resp tries
    else
      let ret ← atExecCmd resp .sgnscmd
      if ret < 0 then gnssLoop resp tries else return true

/-- `sim7070_gnss_init` from its label `__exit` on. -/
def gnssExit (resp ret : Int) : ClientM (Option Int) := do
  atDeleteResp resp
  return some ret

/-- `sim7070_gnss_init` behind `at_obj_wait_connect`. -/
def gnssBehindWait (gnssEnable : Bool) (resp : Int) : Option Int → ClientM (Option Int)
  | none => return none
  | some result => do
    if result ≠ 0 then gnssExit resp qcloudErrTimeout
    else if gnssEnable then
      let opened ← gnssLoop resp gnssRetry
      gnssExit resp (if opened then qcloudRetSuccess else qcloudErrFailure)
    else gnssExit resp qcloudRetSuccess

/-- `sim7070_gnss_init`; `none` when the fuel of `at_obj_wait_connect` is used up. -/
def sim7070GnssInit (fuel : Nat) (gnssEnable : Bool) : ClientM (Option Int) := do
  let resp ← atCreateResp 64 0 atRespTimeoutMs
  if resp = 0 then return some qcloudErrFailure
  let result ← atObjWaitConnect fuel sim7070WaitConnectTime
  gnssBehindWait gnssEnable resp result

/-! ## The code of `Petbox.Modem.Sim7070` -/

/-- Without the response objects: the questions and the state there. -/
def hidingResp : Hiding Client Request Answer UInt8 Query Int where
  show?
    | .createResp _ _ _ => some .createResp
    | .execCmd _ (.caopen fd proto ip port) => some (.caopen fd proto ip port)
    | .execCmd _ (.caclose fd) => some (.caclose fd)
    | _ => none
  answer ret := ⟨ret, []⟩
  own := ⟨0, []⟩
  view client := client.bits
  put bits client := { client with bits }
  view_put _ _ := rfl

theorem hide_close (fd : Int) : Hides hidingResp (Resp.sim7070Close fd) (sim7070Close fd) := by
  refine .shown rfl fun resp => .ite (.pure _) (.shown rfl fun ret => ?_)
  exact .bind (.modify fun _ => rfl) fun _ => .hidden rfl (.pure _)

theorem hide_connectExit (resp fd ret : Int) : Hides hidingResp (Resp.connectExit resp fd ret) (connectExit fd ret) :=
  .hidden rfl (.ite (.bind (.modify fun _ => rfl) fun _ => .pure _) (.pure _))

theorem hide_connectRetry (ip : List UInt8) (port : UInt16) (proto : NetProto) (resp fd : Int) (retries : Nat) :
    Hides hidingResp (Resp.connectRetry ip port proto resp fd retries) (connectRetry ip port proto fd retries) := by
  induction retries with
  | zero => exact .ite (hide_connectExit resp fd _) (.shown rfl fun ret => hide_connectExit resp fd _)
  | succ retries ih =>
    refine .ite (hide_connectExit resp fd _) (.shown rfl fun ret => .ite ?_ (hide_connectExit resp fd _))
    exact .bind (hide_close fd) fun closed => .ite (hide_connectExit resp fd _) ih

theorem hide_allocFd : Hides hidingResp Resp.allocFd allocFd := by
  refine .get fun client => ?_
  simp only [hidingResp]
  cases (List.range sim7070MaxSocketNum).find? fun i => (client.bits >>> i.toUInt8) &&& 1 == 0 with
  | none => exact .pure _
  | some i => exact .bind (.modify fun _ => rfl) fun _ => .pure _

/-- Without its response objects the code is that of the sockets. -/
theorem hide_connect (ip : Option (List UInt8)) (port : UInt16) (proto : NetProto) :
    Hides hidingResp (Resp.sim7070Connect ip port proto) (sim7070Connect ip port proto) := by
  cases ip with
  | none => exact .pure _
  | some ip =>
    refine .shown rfl fun resp => .ite (.pure _) (.bind hide_allocFd fun fd => .ite (.pure _) ?_)
    exact hide_connectRetry ip port proto resp fd 1

/-! ## Created and deleted -/

/-- The response objects a call holds, behind one more exchange; only an object that
is held can be deleted. -/
def respStep (live : List Int) (e : Exchange) : Option (List Int) :=
  match e.question with
  | .createResp _ _ _ => some (if e.answer.ret = 0 then live else e.answer.ret :: live)
  | .deleteResp resp => if resp ∈ live then some (live.erase resp) else none
  | _ => some live

/-- Every response object was deleted, and once. -/
def AllDeleted (asked : List Exchange) : Prop := exec respStep [] asked = some []

/-- Code that leaves the objects held before as they are, if it returns. -/
def Keeps {α : Type} (returns : α → Prop) (x : ClientM α) : Prop :=
  ∀ live, Ends respStep live x fun a live' => returns a → live' = live

/-- Code that deletes the object created last, if it returns. -/
def Deletes {α : Type} (resp : Int) (returns : α → Prop) (x : ClientM α) : Prop :=
  ∀ live, Ends respStep (resp :: live) x fun a live' => returns a → live' = live

/-- Code that always returns. -/
def Always {α : Type} (_ : α) : Prop := True

section Rules

variable {α β : Type} {returns : β → Prop} {x : ClientM α} {f : α → ClientM β} {resp : Int}

theorem Keeps.pure (b : β) : Keeps returns (Pure.pure b : ClientM β) := fun _ => .pure fun _ => rfl

theorem Keeps.bind (hx : Keeps Always x) (hf : ∀ a, Keeps returns (f a)) : Keeps returns (x >>= f) := fun live =>
  .bind (hx live) fun a _ h => h trivial ▸ hf a live

theorem Keeps.ite {p : Prop} [Decidable p] {y y' : ClientM β} (hy : Keeps returns y) (hy' : Keeps returns y') :
    Keeps returns (if p then y else y') := by
  split
  · exact hy
  · exact hy'

theorem Deletes.bind (hx : Keeps Always x) (hf : ∀ a, Deletes resp returns (f a)) : Deletes resp returns (x >>= f) :=
  fun live => .bind (hx (resp :: live)) fun a _ h => h trivial ▸ hf a live

theorem Deletes.ite {p : Prop} [Decidable p] {y y' : ClientM β} (hy : Deletes resp returns y)
    (hy' : Deletes resp returns y') : Deletes resp returns (if p then y else y') := by
  split
  · exact hy
  · exact hy'

/-- Code that does not return. -/
theorem Deletes.stuck {b : β} (h : ¬ returns b) : Deletes resp returns (Pure.pure b : ClientM β) := fun _ =>
  .pure fun hb => absurd hb h

theorem ends_deleteResp (live : List Int) :
    Ends respStep (resp :: live) (atDeleteResp resp) fun _ live' => live' = live := by
  have hask : Ends respStep (resp :: live) (ask (.deleteResp resp) : ClientM Answer) fun _ live' => live' = live :=
    .ask fun _ _ => ⟨live, by simp [respStep], rfl⟩
  exact hask.bind fun _ _ h => .pure h

theorem ends_createResp (bufSize lineNum timeout : Nat) (live : List Int) :
    Ends respStep live (atCreateResp bufSize lineNum timeout) fun resp live' =>
      live' = if resp = 0 then live else resp :: live :=
  .bind (.ask fun _ _ => ⟨_, rfl, rfl⟩) fun a live' (h : live' = if a.ret = 0 then live else a.ret :: live) => .pure h

/-- An exit. -/
theorem Deletes.delete {y : Unit → ClientM β} (hy : Keeps returns (y ())) :
    Deletes resp returns (atDeleteResp resp >>= y) := fun live =>
  .bind (ends_deleteResp live) fun _ _ h => h ▸ hy live

/-- Code that starts with a response object, or gives up. -/
theorem Keeps.create {bufSize lineNum timeout : Nat} {b : β} {y : Int → ClientM β}
    (hy : ∀ resp, Deletes resp returns (y resp)) :
    Keeps returns (do
      let resp ← atCreateResp bufSize lineNum timeout
      if resp = 0 then return b
      y resp) := fun live => by
  refine .bind (ends_createResp bufSize lineNum timeout live) fun resp live' h => ?_
  subst h
  by_cases hresp : resp = 0
  · rw [if_pos hresp, if_pos hresp]
    exact .pure fun _ => rfl
  · rw [if_neg hresp, if_neg hresp]
    exact hy resp live

end Rules

/-! ## The pieces -/

theorem keeps_objExecCmd (resp : Int) (cmd : AtCmd) : Keeps Always (atObjExecCmd resp cmd) := fun live =>
  .ask fun _ _ => ⟨live, rfl, fun _ => rfl⟩

theorem keeps_execCmd (resp : Int) (cmd : AtCmd) : Keeps Always (atExecCmd resp cmd) :=
  .bind (keeps_objExecCmd resp cmd) fun _ => .pure _

theorem keeps_clientSend (data : List UInt8) : Keeps Always (atClientSend data) :=
  .bind (fun live => .ask fun _ _ => ⟨live, rfl, fun _ => rfl⟩) fun _ => .pure _

theorem keeps_getTimeMs : Keeps Always halGetTimeMs :=
  .bind (fun live => .ask fun _ _ => ⟨live, rfl, fun _ => rfl⟩) fun _ => .pure _

theorem keeps_modify (f : Client → Client) : Keeps Always (modify f : ClientM Unit) := fun _ =>
  .modify fun _ => rfl

theorem keeps_sendLoop (resp fd : Int) (buff : List UInt8) (sent : Nat) :
    Keeps Always (sendLoop resp fd buff sent) := by
  rw [sendLoop]
  split
  · refine .bind (keeps_execCmd _ _) fun ret => .ite (.pure _) (.bind (keeps_modify _) fun _ => ?_)
    refine .bind (keeps_clientSend _) fun temp =>
      .ite (.pure _) (.bind (keeps_execCmd _ _) fun ack => .ite (.pure _) ?_)
    exact keeps_sendLoop resp fd buff _
  · exact .pure _
termination_by buff.length - sent
decreasing_by
  have := curPktSize_pos ‹_›
  omega

theorem keeps_domainLoop (resp : Int) (hostName : List UInt8) (tries : Nat) (vars : DomainVars) :
    Keeps Always (domainLoop resp hostName tries vars) := by
  induction tries generalizing vars with
  | zero => exact .pure _
  | succ tries ih =>
    exact .bind (keeps_objExecCmd _ _) fun reply => .ite (.pure _) (.ite (.pure _) (.ite (.pure _) (ih _)))

theorem keeps_waitConnectLoop (resp : Int) (startTime timeout : UInt32) (fuel : Nat) :
    Keeps Always (waitConnectLoop resp startTime timeout fuel) := by
  induction fuel with
  | zero => exact .pure _
  | succ fuel ih =>
    exact .bind keeps_getTimeMs fun now => .ite (.pure _) (.bind (keeps_execCmd _ _) fun result => .ite ih (.pure _))

theorem keeps_gnssLoop (resp : Int) (tries : Nat) : Keeps Always (gnssLoop resp tries) := by
  induction tries with
  | zero => exact .pure _
  | succ tries ih =>
    exact .bind (keeps_execCmd _ _) fun ret => .ite ih (.bind (keeps_execCmd _ _) fun ret => .ite ih (.pure _))

/-! ## The calls -/

theorem keeps_close (fd : Int) : Keeps Always (Resp.sim7070Close fd) :=
  .create fun _ => .bind (keeps_execCmd _ _) fun _ => .bind (keeps_modify _) fun _ => .delete (.pure _)

theorem deletes_connectExit (resp fd ret : Int) : Deletes resp Always (Resp.connectExit resp fd ret) :=
  .delete (.ite (.bind (keeps_modify _) fun _ => .pure _) (.pure _))

theorem deletes_connectRetry (ip : List UInt8) (port : UInt16) (proto : NetProto) (resp fd : Int) (retries : Nat) :
    Deletes resp Always (Resp.connectRetry ip port proto resp fd retries) := by
  have hexit := deletes_connectExit resp fd
  induction retries with
  | zero => exact .ite (hexit _) (.bind (keeps_execCmd _ _) fun ret => hexit _)
  | succ retries ih =>
    refine .ite (hexit _) (.bind (keeps_execCmd _ _) fun ret => .ite ?_ (hexit _))
    exact .bind (keeps_close fd) fun closed => .ite (hexit _) ih

theorem keeps_send (fd : Int) (buff : Option (List UInt8)) : Keeps Always (sim7070Send fd buff) := by
  cases buff with
  | none => exact .pure _
  | some buff =>
    exact .create fun _ => .bind (keeps_modify _) fun _ => .bind (keeps_sendLoop _ _ _ _) fun _ => .delete (.pure _)

theorem keeps_parseDomain {n : Nat} (hostName : Option (List UInt8)) (hostIp : Option (CStr.CharArray n)) :
    Keeps (fun res => res.isSome = true) (sim7070ParseDomain hostName hostIp) := by
  cases hostName with
  | none => exact .pure _
  | some hostName =>
    cases hostIp with
    | none => exact .pure _
    | some hostIp =>
      refine .ite (.pure _) (.create fun resp => .bind (keeps_domainLoop _ _ _ _) fun out => ?_)
      cases out with
      | none => exact .stuck (by simp)
      | some out => exact .delete (.pure _)

theorem keeps_waitConnect (fuel : Nat) (timeout : UInt32) :
    Keeps (fun res => res.isSome = true) (atObjWaitConnect fuel timeout) := by
  refine .create fun resp => .bind keeps_getTimeMs fun _ => .bind (keeps_waitConnectLoop _ _ _ _) fun result => ?_
  cases result with
  | none => exact .stuck (by simp)
  | some result => exact .delete (.pure _)

theorem deletes_gnssExit (resp ret : Int) : Deletes resp (fun res => res.isSome = true) (gnssExit resp ret) :=
  .delete (.pure _)

theorem keeps_gnssInit (fuel : Nat) (gnssEnable : Bool) :
    Keeps (fun res => res.isSome = true) (sim7070GnssInit fuel gnssEnable) := by
  refine .create fun resp live => .bind (keeps_waitConnect fuel _ (resp :: live)) fun result live' h => ?_
  cases result with
  | none => exact Ends.pure (by simp)
  | some result =>
    obtain rfl := h rfl
    have hexit := deletes_gnssExit resp
    have hbehind : Deletes resp (fun res => res.isSome = true) (gnssBehindWait gnssEnable resp (some result)) :=
      .ite (hexit _) (.ite (.bind (keeps_gnssLoop _ _) fun opened => hexit _) (hexit _))
    exact hbehind live

/-! ## No leak -/

/-- A call of the driver. -/
inductive ClientCall
  | connect (ip : Option (List UInt8)) (port : UInt16) (proto : NetProto)
  | close (fd : Int)
  | send (fd : Int) (buff : Option (List UInt8))
  | parseDomain (n : Nat) (hostName : Option (List UInt8)) (hostIp : Option (CStr.CharArray n))
  | gnssInit (fuel : Nat) (gnssEnable : Bool)

/-- The call; the value says that it returns. -/
def ClientCall.code : ClientCall → ClientM Bool
  | .connect ip port proto => do
    let _ ← Resp.sim7070Connect ip port proto
    return true
  | .close fd => do
    let _ ← Resp.sim7070Close fd
    return true
  | .send fd buff => do
    let _ ← sim7070Send fd buff
    return true
  | .parseDomain _ hostName hostIp => do
    let res ← sim7070ParseDomain hostName hostIp
    return res.isSome
  | .gnssInit fuel gnssEnable => do
    let res ← sim7070GnssInit fuel gnssEnable
    return res.isSome

/-- Every response object the call created was deleted, and once, when it returns. -/
def NoLeak (r : Outcome Client Request Answer Bool) : Prop := r.value = true → AllDeleted r.asked

/-- `sim7070_connect` with an address gets a response object, and finds every
descriptor taken then. -/
def NoDescriptor (m : AtServer) (client : Client) : ClientCall → Prop
  | .connect ip _ _ => ip.isSome ∧ (m.answer 0).ret ≠ 0 ∧ ∀ fd < sim7070MaxSocketNum, Has (m.urc 0 client.bits) fd
  | _ => False

theorem keeps_isSome {α : Type} {x : ClientM (Option α)} (h : Keeps (fun res => res.isSome = true) x) :
    Keeps (· = true) (do let res ← x; return res.isSome) := fun live =>
  .bind (h live) fun _ _ hlive => .pure hlive

theorem Keeps.noLeak {x : ClientM Bool} (h : Keeps (· = true) x) (m : AtServer) (n : Nat) (client : Client) :
    NoLeak (x.run m.env n client) := by
  intro hvalue
  obtain ⟨live, hexec, hlive⟩ := h [] m.env n client
  rw [AllDeleted, hexec, hlive hvalue]

theorem find_free_none {bits : UInt8} :
    (List.range sim7070MaxSocketNum).find? (fun i => (bits >>> i.toUInt8) &&& 1 == 0) = none ↔
      ∀ fd < sim7070MaxSocketNum, Has bits fd := by
  simp only [List.find?_eq_none, List.mem_range]
  refine forall₂_congr fun fd hfd => ?_
  unfold sim7070MaxSocketNum at hfd
  rw [shift_and_one (by omega), not_not]

section Connect

variable {m : AtServer} {client : Client} {ip : List UInt8} {port : UInt16} {proto : NetProto}

/-- `sim7070_connect` behind `alloc_fd`, when there is no descriptor. -/
theorem connect_none (hresp : (m.answer 0).ret ≠ 0)
    (hfind : (List.range sim7070MaxSocketNum).find?
      (fun i => ((m.urc 0 client.bits) >>> i.toUInt8) &&& 1 == 0) = none) :
    ((Resp.sim7070Connect (some ip) port proto).run m.env 0 client).asked =
      [⟨client, .createResp 128 0 atRespTimeoutMs, m.answer 0⟩] := by
  have hneg : unusedSocket < 0 := by decide
  have halloc : (Resp.allocFd).run m.env 1 (m.env 0 client).2 = ⟨[], (m.env 0 client).2, unusedSocket⟩ := by
    rw [Resp.allocFd, Code.run, get_bind]
    simp only [AtServer.env, hfind]
    rfl
  rw [Resp.sim7070Connect, run_createResp, run_ite, if_neg hresp, run_bind, halloc, run_ite, if_pos hneg]
  rfl

/-- And when there is one. -/
theorem connect_some (hresp : (m.answer 0).ret ≠ 0) {i : Nat}
    (hfind : (List.range sim7070MaxSocketNum).find?
      (fun i => ((m.urc 0 client.bits) >>> i.toUInt8) &&& 1 == 0) = some i) :
    ∃ client', ((Resp.sim7070Connect (some ip) port proto).run m.env 0 client).asked =
      ⟨client, .createResp 128 0 atRespTimeoutMs, m.answer 0⟩ ::
        ((Resp.connectRetry ip port proto (m.answer 0).ret i 1).run m.env 1 client').asked := by
  have halloc : (Resp.allocFd).run m.env 1 (m.env 0 client).2 =
      ⟨[], { (m.env 0 client).2 with bits := m.urc 0 client.bits ||| mask i }, i⟩ := by
    rw [Resp.allocFd, Code.run, get_bind]
    simp only [AtServer.env, hfind]
    rfl
  have hnonneg : ¬ (i : Int) < 0 := by omega
  rw [Resp.sim7070Connect, run_createResp, run_ite, if_neg hresp, run_bind, halloc, run_ite, if_neg hnonneg]
  exact ⟨_, rfl⟩

/-- An address is given: whatever is created is deleted, but for the object of a call
without a descriptor. -/
theorem noLeak_connect :
    NoLeak ((ClientCall.connect (some ip) port proto).code.run m.env 0 client) ↔
      ¬ ((m.answer 0).ret ≠ 0 ∧ ∀ fd < sim7070MaxSocketNum, Has (m.urc 0 client.bits) fd) := by
  have hcode : (ClientCall.connect (some ip) port proto).code.run m.env 0 client =
      ⟨((Resp.sim7070Connect (some ip) port proto).run m.env 0 client).asked,
        ((Resp.sim7070Connect (some ip) port proto).run m.env 0 client).state, true⟩ := by
    rw [ClientCall.code, run_bind, run_pure, Outcome.behind, List.append_nil]
  rw [NoLeak, hcode]
  simp only [true_implies]
  by_cases hresp : (m.answer 0).ret = 0
  · rw [Resp.sim7070Connect, run_createResp, run_ite, if_pos hresp]
    simp [AllDeleted, respStep, hresp, exec]
  · rw [← find_free_none]
    cases hfind : (List.range sim7070MaxSocketNum).find? fun i => ((m.urc 0 client.bits) >>> i.toUInt8) &&& 1 == 0 with
    | none =>
      rw [connect_none hresp hfind]
      simp [AllDeleted, respStep, hresp, exec]
    | some i =>
      obtain ⟨client', hrun⟩ := @connect_some m client ip port proto hresp i hfind
      obtain ⟨live, hexec, hlive⟩ := deletes_connectRetry ip port proto (m.answer 0).ret i 1 [] m.env 1 client'
      rw [hrun]
      refine iff_of_true (exec_cons.2 ⟨[(m.answer 0).ret], ?_, ?_⟩) (by simp)
      · simp [respStep, hresp]
      · rw [hexec, hlive trivial]

end Connect

/-- **When the response objects do not leak**: a call that returns has deleted every
object it created, each once, just when it is not a `sim7070_connect` that finds no
free descriptor. -/
theorem noLeak_iff (call : ClientCall) (m : AtServer) (client : Client) :
    NoLeak (call.code.run m.env 0 client) ↔ ¬ NoDescriptor m client call := by
  cases call with
  | connect ip port proto =>
    cases ip with
    | none => exact iff_of_true (fun _ => rfl) (by simp [NoDescriptor])
    | some ip =>
      rw [noLeak_connect]
      simp [NoDescriptor]
  | close fd =>
    exact iff_of_true (Keeps.noLeak (.bind (keeps_close fd) fun _ => .pure _) m 0 client) id
  | send fd buff =>
    exact iff_of_true (Keeps.noLeak (.bind (keeps_send fd buff) fun _ => .pure _) m 0 client) id
  | parseDomain n hostName hostIp =>
    exact iff_of_true (Keeps.noLeak (keeps_isSome (keeps_parseDomain hostName hostIp)) m 0 client) id
  | gnssInit fuel gnssEnable =>
    exact iff_of_true (Keeps.noLeak (keeps_isSome (keeps_gnssInit fuel gnssEnable)) m 0 client) id

/-- A modem without an answer; there is memory. -/
def silentServer : AtServer where
  answer _ := ⟨1, []⟩
  urc _ bits := bits

/-- With every descriptor taken the response object of `sim7070_connect` is lost. -/
theorem connect_leaks :
    ¬ NoLeak ((ClientCall.connect (some []) 80 .tcp).code.run silentServer.env 0 { bits := 0x1f, endSign := 0 }) := by
  rw [noLeak_connect, not_not]
  exact ⟨by decide, find_free_none.1 (by decide)⟩

end Petbox.Modem
