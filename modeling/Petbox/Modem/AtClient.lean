/-
What the SIM7070 driver does with the AT client (`at_client.c`): response objects,
AT commands, raw data, and the end sign that the parser waits for.
-/
import Petbox.Lib.Transcript
import Petbox.Modem.Sim7070

namespace Petbox.Modem

open Dialogue

/-- The end sign of the client, and the `sg_SocketBitMap` of the driver. -/
structure Client where
  bits : UInt8
  endSign : UInt8
  deriving DecidableEq, Repr

/-- The AT commands: `AT`, `AT+CAOPEN=fd,0,"TCP","ip",port,1` (or with `UDP`),
`AT+CACLOSE=fd`, `AT+CASEND=fd,size`, `AT+CAACK=fd`,
`AT+CDNSGIP="host",retry,timeout`, `AT+SGNSCFG="OUTURC",1` and
`AT+SGNSCMD=2,1000,0,1`. -/
inductive AtCmd
  | attention
  | caopen (fd : Int) (proto : NetProto) (ip : List UInt8) (port : UInt16)
  | caclose (fd : Int)
  | casend (fd : Int) (size : Nat)
  | caack (fd : Int)
  | cdnsgip (host : List UInt8) (retry timeout : Nat)
  | sgnscfg
  | sgnscmd
  deriving DecidableEq, Repr

/-- What the driver asks of the system and of the modem. The answer is what the
function returns: a response object (0 for none), the code of `at_obj_exec_cmd`
with the lines of the response, the bytes sent, the time. -/
inductive Request
  | createResp (bufSize lineNum timeout : Nat)
  | deleteResp (resp : Int)
  | execCmd (resp : Int) (cmd : AtCmd)
  | clientSend (data : List UInt8)
  | getTimeMs
  deriving DecidableEq, Repr

structure Answer where
  ret : Int
  lines : List (List UInt8)
  deriving DecidableEq, Repr

abbrev ClientM := Code Client Request Answer

def atRespTimeoutMs : Nat := 5000

def atCreateResp (bufSize lineNum timeout : Nat) : ClientM Int := do
  return (← ask (.createResp bufSize lineNum timeout)).ret

def atDeleteResp (resp : Int) : ClientM Unit := do
  let _ ← ask (.deleteResp resp)

def atObjExecCmd (resp : Int) (cmd : AtCmd) : ClientM Answer := ask (.execCmd resp cmd)

/-- `at_exec_cmd`, where the response is not read. -/
def atExecCmd (resp : Int) (cmd : AtCmd) : ClientM Int := do
  return (← atObjExecCmd resp cmd).ret

def atClientSend (data : List UInt8) : ClientM Int := do
  return (← ask (.clientSend data)).ret

def halGetTimeMs : ClientM UInt32 := do
  return UInt32.ofInt (← ask .getTimeMs).ret

def atSetEndSign (ch : UInt8) : ClientM Unit := modify fun client => { client with endSign := ch }

/-- The system and the AT server (the modem) during a call: the answer to each request, and what the
`+CACLOSE` notifications before it make of the bitmap. -/
structure AtServer where
  answer : Nat → Answer
  urc : Nat → UInt8 → UInt8

def AtServer.env (m : AtServer) : Env Client Answer := fun n client =>
  (m.answer n, { client with bits := m.urc n client.bits })

abbrev Exchange := Asked Client Request Answer

section Runs

variable (m : AtServer) (n : Nat) (client : Client) {α : Type}

@[simp] theorem run_createResp (bufSize lineNum timeout : Nat) (f : Int → ClientM α) :
    (atCreateResp bufSize lineNum timeout >>= f).run m.env n client =
      ((f (m.answer n).ret).run m.env (n + 1) (m.env n client).2).behind
        [⟨client, .createResp bufSize lineNum timeout, m.answer n⟩] := rfl

@[simp] theorem run_deleteResp (resp : Int) (f : Unit → ClientM α) :
    (atDeleteResp resp >>= f).run m.env n client =
      ((f ()).run m.env (n + 1) (m.env n client).2).behind [⟨client, .deleteResp resp, m.answer n⟩] := rfl

@[simp] theorem run_objExecCmd (resp : Int) (cmd : AtCmd) (f : Answer → ClientM α) :
    (atObjExecCmd resp cmd >>= f).run m.env n client =
      ((f (m.answer n)).run m.env (n + 1) (m.env n client).2).behind [⟨client, .execCmd resp cmd, m.answer n⟩] := rfl

@[simp] theorem run_execCmd (resp : Int) (cmd : AtCmd) (f : Int → ClientM α) :
    (atExecCmd resp cmd >>= f).run m.env n client =
      ((f (m.answer n).ret).run m.env (n + 1) (m.env n client).2).behind
        [⟨client, .execCmd resp cmd, m.answer n⟩] := rfl

@[simp] theorem run_clientSend (data : List UInt8) (f : Int → ClientM α) :
    (atClientSend data >>= f).run m.env n client =
      ((f (m.answer n).ret).run m.env (n + 1) (m.env n client).2).behind
        [⟨client, .clientSend data, m.answer n⟩] := rfl

@[simp] theorem run_setEndSign (ch : UInt8) (f : Unit → ClientM α) :
    (atSetEndSign ch >>= f).run m.env n client = (f ()).run m.env n { client with endSign := ch } := rfl

@[simp] theorem env_endSign : (m.env n client).2.endSign = client.endSign := rfl

end Runs

end Petbox.Modem
