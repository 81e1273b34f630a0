/-
The modem, the ring between its interrupt and the parser thread, the AT client and the
sockets, at work together.

What the readers of a socket get is what the modem sent for it, in order: the packets
that came in completely are those that the sockets took in.
-/
import Petbox.Modem.ClientParser
import Petbox.Modem.ParserThread
import Petbox.Modem.RingBuff
import Petbox.Modem.Socket

namespace Petbox.Modem

open Machine

/-! ## The system -/

/-- What the modem is still going to send, and what there is behind the wire. -/
structure Stack where
  uart : List UInt8
  ring : Ringbuff clinetBuffLen
  thread : ThreadMode
  client : AtClient
  sockets : SocketSys

/-- What happens: bytes come in from the modem; the parser thread is in
`at_client_getchar`, and its time is over or not; a task is in a command or at the
sockets. -/
inductive StackAct
  | rx (n : Nat)
  | getchar (expired mem pktMem : Bool) (node : Option Nat)
  | client (a : ClientAct)
  | socket (a : SocketAct)
  deriving DecidableEq

instance : NeZero clinetBuffLen := ⟨by decide⟩

/-- `at_client_getchar`: a character is popped, or there is none, and the timer has
expired, or not. It goes on when there is none and time is left. -/
def Stack.pop (s : Stack) (expired : Bool) : Option Getchar × Ringbuff clinetBuffLen :=
  let (_, pch, ring) := ringBuffPopData s.ring 1
  (if expired then some .failed else pch.head?.map fun ch => .got s.client.endSign ch, ring)

/-- What the parser thread hands on is done. -/
def Stack.handle (s : Stack) (pktMem : Bool) (node : Option Nat) : ThreadEvent → Option Stack
  | .line buffer => some { s with client := clientParser s.client buffer }
  | .recv fd buf => (s.sockets.step (.received fd buf pktMem node)).map fun sockets => { s with sockets }
  | .closed fd => (s.sockets.step (.closed fd)).map fun sockets => { s with sockets }
  | .flush => some { s with ring := ringBuffFlush s.ring }
  | .setFlag _ => some s
  | .gnss _ => some s

/-- What a task does itself. -/
def SocketAct.byTask : SocketAct → Bool
  | .closed _ => false
  | .received _ _ _ _ => false
  | _ => true

def ClientAct.byTask : ClientAct → Bool
  | .line _ => false
  | _ => true

def Stack.step (s : Stack) : StackAct → Option Stack
  | .rx n => some { s with ring := (ringBuffPushData s.ring (s.uart.take n)).2, uart := s.uart.drop n }
  | .getchar expired mem pktMem node =>
    match s.pop expired with
    | (none, ring) => some { s with ring }
    | (some g, ring) =>
      match parserThread urcTable s.thread mem g with
      | (none, thread) => some { s with ring, thread }
      | (some e, thread) => { s with ring, thread }.handle pktMem node e
  | .client a => if a.byTask then (s.client.step a).map fun client => { s with client } else none
  | .socket a => if a.byTask then (s.sockets.step a).map fun sockets => { s with sockets } else none

/-- What the parser thread hands on in a step. -/
def Stack.event (s : Stack) : StackAct → Option ThreadEvent
  | .getchar expired mem _ _ => (s.pop expired).1.bind fun g => (parserThread urcTable s.thread mem g).1
  | _ => none

/-- The character that the parser thread gets in a step. -/
def Stack.heard (s : Stack) : StackAct → List Signed
  | .getchar expired _ _ _ =>
    match (s.pop expired).1 with
    | some (.got endSign ch) => [(endSign, ch)]
    | _ => []
  | _ => []

/-- What reaches the sockets in a step. -/
def Stack.handed (s : Stack) (a : StackAct) : List ThreadEvent := (s.event a).toList.filter ThreadEvent.outside

/-- What the sockets are asked to do. -/
def ThreadEvent.socketActs (pktMem : Bool) (node : Option Nat) : ThreadEvent → List SocketAct
  | .recv fd buf => [.received fd buf pktMem node]
  | .closed fd => [.closed fd]
  | _ => []

def Stack.socketActs (s : Stack) : StackAct → List SocketAct
  | .getchar expired mem pktMem node =>
    (s.event (.getchar expired mem pktMem node)).toList.flatMap (ThreadEvent.socketActs pktMem node)
  | .socket a => [a]
  | _ => []

/-- The bytes of a packet for a socket. -/
def ThreadEvent.dataFor (fd : Nat) : ThreadEvent → List UInt8
  | .recv fd' buf => if fd'.toNat = fd then buf else []
  | _ => []

def Item.dataFor (fd : Nat) : Item → List UInt8
  | .data fd' _ payload => if fd' = fd then payload else []
  | _ => []

/-- A step in which nothing is lost: what comes in has room in the ring; time runs out
between the lines only; there is memory for a packet, and its socket is open and takes
it in; the end sign is none or the prompt; and the sockets are promised what they need. -/
def Smooth (s : Stack) : StackAct → Prop
  | .rx n => n ≤ s.ring.fifo.free
  | .getchar expired mem pktMem node =>
    mem = true ∧ (expired = true → s.ring.fifo.bytes = [] ∧ s.thread = .fresh) ∧
      ∀ fd buf, s.event (.getchar expired mem pktMem node) = some (.recv fd buf) →
        (∀ n ∈ node, s.sockets.inf.heap n = none) ∧
          ∃ r ∈ s.sockets.call (.received fd buf pktMem node), 0 ≤ r.1
  | .client (.setEndSign ch) => ch = 0 ∨ ch = promptSign
  | .client _ => True
  | .socket a => Dependable s.sockets a

/-- The modem is going to send these items, and nothing was sent yet. -/
structure Stack.Start (items : List Item) (s : Stack) : Prop where
  uart : s.uart = (items.map Item.bytes).flatten
  ring : s.ring = ringBuffInit
  thread : s.thread = .fresh
  sign : s.client.endSign = 0
  sockets : ∃ ctxs, s.sockets = socketStart ctxs

/-! ## A step -/

section Step

variable {s s' : Stack} {a : StackAct}

/-- The oldest character of the ring, where there is one. -/
theorem pop_cases {expired : Bool} (h : expired = true → s.ring.fifo.bytes = []) :
    (∃ ring, s.pop expired = (if expired then some .failed else none, ring) ∧ s.ring.fifo.bytes = [] ∧
        ring.fifo.bytes = []) ∨
      ∃ ch ring, s.pop expired = (some (.got s.client.endSign ch), ring) ∧ s.ring.fifo.bytes = ch :: ring.fifo.bytes := by
  obtain ⟨-, hdata, hrest⟩ := ringBuffPopData_spec s.ring 1
  have hlen : ¬ 1 > clinetBuffLen := by decide
  simp only [Fifo.pop, if_neg hlen] at hdata hrest
  have hring := congrArg Fifo.bytes hrest
  cases hbytes : s.ring.fifo.bytes with
  | nil =>
    simp only [hbytes, List.take_nil, List.drop_nil] at hdata hring
    exact .inl ⟨_, by simp [Stack.pop, hdata], rfl, hring⟩
  | cons ch rest =>
    simp only [hbytes, List.take_succ_cons, List.take_zero, List.drop_succ_cons, List.drop_zero] at hdata hring
    have hexpired : expired = false := by
      rw [← Bool.not_eq_true]
      intro ht
      rw [h ht] at hbytes
      cases hbytes
    exact .inr ⟨ch, (ringBuffPopData s.ring 1).2.2, by simp [Stack.pop, hdata, hexpired], by rw [hring]⟩

theorem clientParser_endSign (c : AtClient) (buffer : List UInt8) : (clientParser c buffer).endSign = c.endSign := by
  by_cases hnil : buffer = []
  · simp [clientParser, hnil]
  · cases hresp : c.resp with
    | false => rw [clientParser_detached hresp]
    | true =>
      by_cases hsign : c.endSign = 0
      · have hstore := endSign_store c (buffer.dropLast ++ [0])
        simp only [clientParser, if_neg hnil, hresp, hsign]
        generalize c.store (buffer.dropLast ++ [0]) = d at hstore
        cases endStatus d.obj.lineNum d.lineCounts (buffer.dropLast ++ [0]) with
        | none => simpa [hsign] using hstore
        | some status => simpa [AtClient.exit, hsign] using hstore
      · by_cases hlast : buffer.getLast? = some c.endSign <;>
          simp [clientParser, hnil, hresp, hsign, hlast, AtClient.exit]

/-- What the thread hands on leaves the wire and the thread as they are. -/
theorem handle_same {pktMem : Bool} {node : Option Nat} {e : ThreadEvent} (h : s.handle pktMem node e = some s') :
    s'.uart = s.uart ∧ s'.thread = s.thread ∧ s'.client.endSign = s.client.endSign ∧
      (e ≠ .flush → s'.ring = s.ring) := by
  cases e with
  | line buffer =>
    cases h
    exact ⟨rfl, rfl, clientParser_endSign _ _, fun _ => rfl⟩
  | recv fd buf =>
    obtain ⟨sockets, -, rfl⟩ := Option.map_eq_some_iff.1 h
    exact ⟨rfl, rfl, rfl, fun _ => rfl⟩
  | closed fd =>
    obtain ⟨sockets, -, rfl⟩ := Option.map_eq_some_iff.1 h
    exact ⟨rfl, rfl, rfl, fun _ => rfl⟩
  | setFlag flag =>
    cases h
    exact ⟨rfl, rfl, rfl, fun _ => rfl⟩
  | gnss data =>
    cases h
    exact ⟨rfl, rfl, rfl, fun _ => rfl⟩
  | flush =>
    cases h
    exact ⟨rfl, rfl, rfl, fun h => absurd rfl h⟩

/-- A step of the parser thread, when nothing is lost. -/
theorem getchar_cases {expired mem pktMem : Bool} {node : Option Nat} (hc : Smooth s (.getchar expired mem pktMem node))
    (hstep : s.step (.getchar expired mem pktMem node) = some s') :
    (s.heard (.getchar expired mem pktMem node) = [] ∧ s.event (.getchar expired mem pktMem node) = none ∧
        s'.thread = s.thread ∧ s'.client = s.client ∧ s'.sockets = s.sockets ∧ s'.uart = s.uart ∧
        s'.ring.fifo.bytes = s.ring.fifo.bytes) ∨
      ∃ ch ring thread, s.ring.fifo.bytes = ch :: ring.fifo.bytes ∧
        s.heard (.getchar expired mem pktMem node) = [(s.client.endSign, ch)] ∧
        parserThread urcTable s.thread true (.got s.client.endSign ch) =
          (s.event (.getchar expired mem pktMem node), thread) ∧
        match s.event (.getchar expired mem pktMem node) with
        | none => s' = { s with ring, thread }
        | some e => { s with ring, thread }.handle pktMem node e = some s' := by
  obtain ⟨rfl, hexpired, -⟩ := hc
  rcases pop_cases (fun h => (hexpired h).1) with ⟨ring, hpop, hempty, hring⟩ | ⟨ch, ring, hpop, hbytes⟩
  · refine .inl ?_
    cases expired with
    | false =>
      simp only [Stack.step, hpop] at hstep
      cases hstep
      simp [Stack.heard, Stack.event, hpop, hempty, hring]
    | true =>
      have hthread := (hexpired rfl).2
      simp only [Stack.step, hpop, hthread] at hstep
      cases hstep
      simp [Stack.heard, Stack.event, hpop, hempty, hring, hthread, parserThread, ThreadMode.fresh, atRecvReadline]
  · refine .inr ⟨ch, ring, (parserThread urcTable s.thread true (.got s.client.endSign ch)).2, hbytes, ?_, ?_, ?_⟩
    · simp [Stack.heard, hpop]
    · simp [Stack.event, hpop]
    · simp only [Stack.step, hpop] at hstep
      simp only [Stack.event, hpop, Option.bind_some]
      cases hthread : parserThread urcTable s.thread true (.got s.client.endSign ch) with
      | mk e thread =>
        rw [hthread] at hstep
        cases e with
        | none =>
          cases hstep
          rfl
        | some e => exact hstep

/-- The thread runs through the characters that it gets. -/
theorem emits_step (hc : Smooth s a) (hstep : s.step a = some s') :
    Emits ThreadMode.step ThreadMode.emits s.thread (acts (s.heard a)) (s.handed a) s'.thread := by
  cases a with
  | rx n =>
    cases hstep
    exact .nil _
  | client a =>
    simp only [Stack.step, Option.ite_none_right_eq_some, Option.map_eq_some_iff] at hstep
    obtain ⟨-, client, -, rfl⟩ := hstep
    exact .nil _
  | socket a =>
    simp only [Stack.step, Option.ite_none_right_eq_some, Option.map_eq_some_iff] at hstep
    obtain ⟨-, sockets, -, rfl⟩ := hstep
    exact .nil _
  | getchar expired mem pktMem node =>
    rcases getchar_cases hc hstep with ⟨hheard, hevent, hthread, -⟩ | ⟨ch, ring, thread, -, hheard, hparser, hdone⟩
    · rw [hheard, hthread, Stack.handed, hevent]
      exact .nil _
    · have hthread : s'.thread = thread := by
        cases hevent : s.event (.getchar expired mem pktMem node) with
        | none =>
          rw [hevent] at hdone
          rw [hdone]
        | some e =>
          rw [hevent] at hdone
          exact (handle_same hdone).2.1
      have hone := Emits.one ThreadMode.emits
        (show s.thread.step (true, .got s.client.endSign ch) = some thread by simp [ThreadMode.step, hparser])
      rw [hheard, hthread, Stack.handed]
      simpa [ThreadMode.emits, hparser] using hone

/-- Bytes move from the wire into the ring, and from there to the thread. -/
theorem bytes_step (hc : Smooth s a) (hstep : s.step a = some s') (hflush : s.event a ≠ some .flush) :
    s.ring.fifo.bytes ++ s.uart = heard (s.heard a) ++ (s'.ring.fifo.bytes ++ s'.uart) := by
  cases a with
  | rx n =>
    cases hstep
    have hfree : n ≤ s.ring.fifo.free := hc
    have hle : (s.uart.take n).length ≤ s.ring.fifo.free := (List.length_take_le _ _).trans hfree
    have hsize : ¬ (s.uart.take n).length > clinetBuffLen := by
      unfold Fifo.free at hle
      omega
    obtain ⟨-, hpush⟩ := ringBuffPushData_spec s.ring (s.uart.take n)
    rw [Fifo.push, if_neg hsize] at hpush
    rw [hpush, List.take_of_length_le hle]
    simp [Stack.heard]
  | client a =>
    simp only [Stack.step, Option.ite_none_right_eq_some, Option.map_eq_some_iff] at hstep
    obtain ⟨-, client, -, rfl⟩ := hstep
    rfl
  | socket a =>
    simp only [Stack.step, Option.ite_none_right_eq_some, Option.map_eq_some_iff] at hstep
    obtain ⟨-, sockets, -, rfl⟩ := hstep
    rfl
  | getchar expired mem pktMem node =>
    rcases getchar_cases hc hstep with ⟨hheard, -, -, -, -, huart, hring⟩ | ⟨ch, ring, thread, hbytes, hheard, -, hdone⟩
    · rw [hheard, huart, hring]
      rfl
    · rw [hheard, hbytes]
      cases hevent : s.event (.getchar expired mem pktMem node) with
      | none =>
        rw [hevent] at hdone
        rw [hdone]
        rfl
      | some e =>
        rw [hevent] at hdone
        obtain ⟨huart, -, -, hring⟩ := handle_same hdone
        rw [huart, hring fun h => hflush (by rw [hevent, h])]
        rfl

theorem heard_first (hc : Smooth s a) (hstep : s.step a = some s') :
    heard (s.heard a) <+: s.ring.fifo.bytes ++ s.uart := by
  cases a with
  | rx n => exact List.nil_prefix
  | client a => exact List.nil_prefix
  | socket a => exact List.nil_prefix
  | getchar expired mem pktMem node =>
    rcases getchar_cases hc hstep with ⟨hheard, -⟩ | ⟨ch, ring, thread, hbytes, hheard, -⟩
    · rw [hheard]
      exact List.nil_prefix
    · rw [hheard, hbytes]
      exact ⟨ring.fifo.bytes ++ s.uart, rfl⟩

/-- The end sign is none or the prompt. -/
theorem sign_step (hc : Smooth s a) (hstep : s.step a = some s')
    (hsign : s.client.endSign = 0 ∨ s.client.endSign = promptSign) :
    Signs (s.heard a) ∧ (s'.client.endSign = 0 ∨ s'.client.endSign = promptSign) := by
  cases a with
  | rx n =>
    cases hstep
    exact ⟨by simp [Stack.heard, Signs], hsign⟩
  | client a =>
    simp only [Stack.step, Option.ite_none_right_eq_some, Option.map_eq_some_iff] at hstep
    obtain ⟨htask, client, hclient, rfl⟩ := hstep
    refine ⟨by simp [Stack.heard, Signs], ?_⟩
    cases a with
    | line buffer => cases htask
    | setEndSign ch =>
      cases hclient
      exact hc
    | detach =>
      simp only [AtClient.step] at hclient
      split at hclient
      · cases hclient
        exact hsign
      · cases hclient
    | execCmd resp | take | expire | check =>
      simp only [AtClient.step, Option.ite_none_right_eq_some, Option.some.injEq] at hclient
      obtain ⟨-, rfl⟩ := hclient
      exact hsign
  | socket a =>
    simp only [Stack.step, Option.ite_none_right_eq_some, Option.map_eq_some_iff] at hstep
    obtain ⟨-, sockets, -, rfl⟩ := hstep
    exact ⟨by simp [Stack.heard, Signs], hsign⟩
  | getchar expired mem pktMem node =>
    rcases getchar_cases hc hstep with ⟨hheard, -, -, hclient, -⟩ | ⟨ch, ring, thread, -, hheard, -, hdone⟩
    · rw [hheard, hclient]
      exact ⟨by simp [Signs], hsign⟩
    · rw [hheard]
      refine ⟨by simpa [Signs] using hsign, ?_⟩
      cases hevent : s.event (.getchar expired mem pktMem node) with
      | none =>
        rw [hevent] at hdone
        rwa [hdone]
      | some e =>
        rw [hevent] at hdone
        rwa [(handle_same hdone).2.2.1]

end Step

/-! ## A run -/

section Run

variable {items : List Item} {start s : Stack} {as : List StackAct}

/-- Where the run is in what the modem sends. -/
structure Follows (items : List Item) (start : Stack) (as : List StackAct) (s : Stack) : Prop where
  stream : (items.map Item.bytes).flatten = heard (trace Stack.step Stack.heard start as) ++ (s.ring.fifo.bytes ++ s.uart)
  emits : Emits ThreadMode.step ThreadMode.emits .fresh (acts (trace Stack.step Stack.heard start as))
    (trace Stack.step Stack.handed start as) s.thread
  signs : Signs (trace Stack.step Stack.heard start as)
  sign : s.client.endSign = 0 ∨ s.client.endSign = promptSign

theorem trace_snoc {β : Type} {out : Stack → StackAct → List β} {a : StackAct} (hx : exec Stack.step start as = some s) :
    trace Stack.step out start (as ++ [a]) = trace Stack.step out start as ++ out s a := by
  rw [trace_append hx]
  cases h : s.step a <;> simp [trace, h]

/-- What the thread hands on is what arrived, one character more included. -/
theorem Follows.handed_snoc (hitems : ∀ item ∈ items, item.Ok) (h : Follows items start as s)
    (hx : exec Stack.step start as = some s) {a : StackAct} {s' : Stack} (hc : Smooth s a) (hstep : s.step a = some s') :
    trace Stack.step Stack.handed start (as ++ [a]) =
      (arrived items (trace Stack.step Stack.heard start (as ++ [a])).length).flatMap Item.events := by
  have hsigns : Signs (trace Stack.step Stack.heard start (as ++ [a])) := by
    rw [trace_snoc hx]
    intro c hcs
    rcases List.mem_append.1 hcs with hcs | hcs
    · exact h.signs c hcs
    · exact (sign_step hc hstep h.sign).1 c hcs
  have hprefix : heard (trace Stack.step Stack.heard start (as ++ [a])) <+: (items.map Item.bytes).flatten := by
    rw [trace_snoc hx, heard_append, h.stream]
    exact (List.prefix_append_right_inj _).2 (heard_first hc hstep)
  obtain ⟨m, hm⟩ := emits_items hitems hsigns hprefix
  have hemits := h.emits.append (emits_step hc hstep)
  rw [← acts_append, ← trace_snoc hx, ← trace_snoc hx] at hemits
  exact hemits.2.symm.trans hm.2

/-- What reaches the sockets and the ring is of an item. -/
theorem Follows.event_mem (hitems : ∀ item ∈ items, item.Ok) (h : Follows items start as s)
    (hx : exec Stack.step start as = some s) {a : StackAct} {s' : Stack} (hc : Smooth s a) (hstep : s.step a = some s')
    {e : ThreadEvent} (he : e ∈ s.handed a) : ∃ item, e ∈ Item.events item := by
  have hmem : e ∈ trace Stack.step Stack.handed start (as ++ [a]) := by
    rw [trace_snoc hx]
    exact List.mem_append_right _ he
  rw [h.handed_snoc hitems hx hc hstep] at hmem
  obtain ⟨item, -, hitem⟩ := List.mem_flatMap.1 hmem
  exact ⟨item, hitem⟩

theorem event_ne_flush (item : Item) : ThreadEvent.flush ∉ item.events := by
  cases item <;> simp [Item.events]

theorem Follows.snoc (hitems : ∀ item ∈ items, item.Ok) (h : Follows items start as s)
    (hx : exec Stack.step start as = some s) {a : StackAct} {s' : Stack} (hc : Smooth s a) (hstep : s.step a = some s') :
    Follows items start (as ++ [a]) s' := by
  have hflush : s.event a ≠ some .flush := by
    intro hevent
    obtain ⟨item, hitem⟩ := h.event_mem hitems hx hc hstep
      (show ThreadEvent.flush ∈ s.handed a by simp [Stack.handed, hevent, ThreadEvent.outside])
    exact event_ne_flush item hitem
  obtain ⟨hsigns, hsign⟩ := sign_step hc hstep h.sign
  refine ⟨?_, ?_, ?_, hsign⟩
  · rw [trace_snoc hx, heard_append, List.append_assoc, ← bytes_step hc hstep hflush, h.stream]
  · have hemits := h.emits.append (emits_step hc hstep)
    rwa [← acts_append, ← trace_snoc hx, ← trace_snoc hx] at hemits
  · rw [trace_snoc hx]
    intro c hcs
    rcases List.mem_append.1 hcs with hcs | hcs
    · exact h.signs c hcs
    · exact hsigns c hcs

theorem follows_start (h : start.Start items) : Follows items start [] start := by
  refine ⟨?_, ?_, by simp [trace, Signs], .inl h.sign⟩
  · simp [trace, h.uart, h.ring, Fifo.empty]
  · rw [h.thread]
    exact .nil _

/-- Every run follows what the modem sends. -/
theorem follows_run (hitems : ∀ item ∈ items, item.Ok) (h : start.Start items)
    (hc : Along Stack.step Smooth start as) (hx : exec Stack.step start as = some s) : Follows items start as s :=
  exec_history (follows_start h) (fun _ _ _ _ hx hf hc hstep => hf.snoc hitems hx hc hstep) hc hx

/-- What the thread handed on is what arrived. -/
theorem Follows.handed (hitems : ∀ item ∈ items, item.Ok) (h : Follows items start as s) :
    trace Stack.step Stack.handed start as =
      (arrived items (trace Stack.step Stack.heard start as).length).flatMap Item.events := by
  obtain ⟨m, hm⟩ := emits_items hitems h.signs (h.stream ▸ List.prefix_append _ _)
  exact h.emits.2.symm.trans hm.2

/-! ## The sockets -/

/-- A smooth step in which what reaches the sockets is of an item. -/
def Orderly (s : Stack) (a : StackAct) : Prop := Smooth s a ∧ ∀ e ∈ s.handed a, ∃ item, e ∈ Item.events item

theorem orderly_run (hitems : ∀ item ∈ items, item.Ok) (h : start.Start items)
    (hc : Along Stack.step Smooth start as) (hx : exec Stack.step start as = some s) :
    Along Stack.step Orderly start as := by
  refine along_of_forall fun pre a post u heq hpre => ?_
  subst heq
  obtain ⟨hcpre, hcpost⟩ := hc.append
  obtain ⟨v, hv, hx⟩ := exec_append.1 hx
  obtain rfl := Option.some.inj (hpre.symm.trans hv)
  obtain ⟨w, hw, -⟩ := exec_cons.1 hx
  have hsmooth := (hcpost u hpre).1
  exact ⟨hsmooth, fun e he => (follows_run hitems h hcpre hpre).event_mem hitems hpre hsmooth hw he⟩

end Run

section Sockets

variable {s s' : Stack} {a : StackAct} (fd : Nat)

/-- The bytes that a step of the table takes in for a socket. -/
def SocketSys.took (s : SocketSys) (a : SocketAct) : List UInt8 :=
  match a with
  | .received fd' _ _ _ => if fd'.toNat = fd then ((s.seen a).head?.join).getD [] else []
  | _ => []

theorem took_eq {s : SocketSys} {a : SocketAct} {w w' : Waiting} (hw : w.step a = some w')
    (hseen : s.seen a = w.seen a) :
    s.took fd a = w.accepted fd a := by
  cases a with
  | received fd' buff pktMem node =>
    simp only [Waiting.step, Option.map_eq_some_iff] at hw
    obtain ⟨ps, hps, -⟩ := hw
    by_cases hfd : fd'.toNat = fd
    · subst hfd
      simp only [SocketSys.took, hseen, Waiting.seen, Waiting.accepted, hps]
      cases haccepts : accepts ps.length pktMem node <;> simp [haccepts]
    · simp [SocketSys.took, Waiting.accepted, hfd]
  | connect lockMem listMem => rfl
  | connected i fd' => rfl
  | closed fd' => rfl
  | recv fd' len iterMem => rfl

/-- The sockets run through what they are asked. -/
theorem handle_sockets {pktMem : Bool} {node : Option Nat} {e : ThreadEvent} (h : s.handle pktMem node e = some s') :
    exec SocketSys.step s.sockets (e.socketActs pktMem node) = some s'.sockets := by
  cases e with
  | recv fd buf =>
    obtain ⟨sockets, hsockets, rfl⟩ := Option.map_eq_some_iff.1 h
    exact exec_cons.2 ⟨sockets, hsockets, rfl⟩
  | closed fd =>
    obtain ⟨sockets, hsockets, rfl⟩ := Option.map_eq_some_iff.1 h
    exact exec_cons.2 ⟨sockets, hsockets, rfl⟩
  | line buffer =>
    cases h
    rfl
  | setFlag flag =>
    cases h
    rfl
  | gnss data =>
    cases h
    rfl
  | flush =>
    cases h
    rfl

theorem sockets_step (hc : Smooth s a) (hstep : s.step a = some s') :
    exec SocketSys.step s.sockets (s.socketActs a) = some s'.sockets := by
  cases a with
  | rx n =>
    cases hstep
    rfl
  | client a =>
    simp only [Stack.step, Option.ite_none_right_eq_some, Option.map_eq_some_iff] at hstep
    obtain ⟨-, client, -, rfl⟩ := hstep
    rfl
  | socket a =>
    simp only [Stack.step, Option.ite_none_right_eq_some, Option.map_eq_some_iff] at hstep
    obtain ⟨-, sockets, hsockets, rfl⟩ := hstep
    exact exec_cons.2 ⟨sockets, hsockets, rfl⟩
  | getchar expired mem pktMem node =>
    rcases getchar_cases hc hstep with ⟨-, hevent, -, -, hsockets, -⟩ | ⟨ch, ring, thread, -, -, -, hdone⟩
    · rw [Stack.socketActs, hevent, hsockets]
      rfl
    · rw [Stack.socketActs]
      cases hevent : s.event (.getchar expired mem pktMem node) with
      | none =>
        rw [hevent] at hdone
        rw [hdone]
        rfl
      | some e =>
        rw [hevent] at hdone
        simpa using handle_sockets hdone

theorem took_task {s : SocketSys} {a : SocketAct} (h : a.byTask = true) : s.took fd a = [] := by
  cases a with
  | received fd' buff pktMem node => cases h
  | connect lockMem listMem => rfl
  | connected i fd' => rfl
  | closed fd' => rfl
  | recv fd' len iterMem => rfl

theorem trace_one {out : SocketSys → SocketAct → List UInt8} (s : SocketSys) (a : SocketAct) :
    trace SocketSys.step out s [a] = out s a := by
  cases h : s.step a <;> simp [trace, h]

/-- The sockets take in the packets that they are handed. -/
theorem took_step (hc : Smooth s a) (hstep : s.step a = some s') :
    Emits SocketSys.step (SocketSys.took fd) s.sockets (s.socketActs a) ((s.handed a).flatMap (ThreadEvent.dataFor fd))
      s'.sockets := by
  refine ⟨sockets_step hc hstep, ?_⟩
  cases a with
  | rx n => rfl
  | client a => rfl
  | socket a =>
    simp only [Stack.step, Option.ite_none_right_eq_some] at hstep
    rw [Stack.socketActs, trace_one, took_task fd hstep.1]
    rfl
  | getchar expired mem pktMem node =>
    cases hevent : s.event (.getchar expired mem pktMem node) with
    | none => simp [Stack.socketActs, Stack.handed, hevent, trace]
    | some e =>
      cases e with
      | line buffer => simp [Stack.socketActs, Stack.handed, hevent, ThreadEvent.socketActs, ThreadEvent.outside, trace]
      | setFlag flag => simp [Stack.socketActs, Stack.handed, hevent, ThreadEvent.socketActs, ThreadEvent.outside, trace]
      | gnss data => simp [Stack.socketActs, Stack.handed, hevent, ThreadEvent.socketActs, ThreadEvent.outside, trace]
      | flush =>
        simp [Stack.socketActs, Stack.handed, hevent, ThreadEvent.socketActs, ThreadEvent.outside, ThreadEvent.dataFor,
          trace]
      | closed fd' =>
        simp only [Stack.socketActs, Stack.handed, hevent, ThreadEvent.socketActs, Option.toList_some, List.flatMap_cons,
          List.flatMap_nil, List.append_nil]
        rw [trace_one]
        rfl
      | recv fd' buf =>
        have hrun := sockets_step hc hstep
        simp only [Stack.socketActs, Stack.handed, hevent, ThreadEvent.socketActs, Option.toList_some, List.flatMap_cons,
          List.flatMap_nil, List.append_nil] at hrun ⊢
        obtain ⟨r, hr, hpos⟩ := (hc.2.2 fd' buf hevent).2
        have hr : s.sockets.call (.received fd' buf pktMem node) = some r := hr
        have hpos : ¬ r.1 < 0 := Int.not_lt.2 hpos
        rw [trace_one]
        by_cases hfd : fd'.toNat = fd
        · simp [SocketSys.took, SocketSys.seen, hr, hpos, List.filter_cons, ThreadEvent.outside, ThreadEvent.dataFor, hfd]
        · simp [SocketSys.took, List.filter_cons, ThreadEvent.outside, ThreadEvent.dataFor, hfd]

/-- The sockets are promised what they need. -/
theorem promised_step (hc : Orderly s a) : Along SocketSys.step Dependable s.sockets (s.socketActs a) := by
  obtain ⟨hc, hitem⟩ := hc
  cases a with
  | rx n => trivial
  | client a => trivial
  | socket a => exact ⟨hc, fun _ _ => trivial⟩
  | getchar expired mem pktMem node =>
    cases hevent : s.event (.getchar expired mem pktMem node) with
    | none =>
      simp only [Stack.socketActs, hevent]
      trivial
    | some e =>
      simp only [Stack.handed, hevent] at hitem
      simp only [Stack.socketActs, hevent, Option.toList_some, List.flatMap_cons, List.flatMap_nil, List.append_nil]
      cases e with
      | line buffer => trivial
      | setFlag flag => trivial
      | gnss data => trivial
      | flush => trivial
      | closed fd' =>
        obtain ⟨item, hitem⟩ := hitem (.closed fd') (by simp [ThreadEvent.outside])
        refine ⟨⟨?_, trivial⟩, fun _ _ => trivial⟩
        cases item with
        | text l => simp [Item.events] at hitem
        | closed fd tail =>
          obtain rfl : fd' = fd := by simpa [Item.events] using hitem
          exact Int.natCast_nonneg fd
        | data fd tail payload => simp [Item.events] at hitem
      | recv fd' buf =>
        obtain ⟨item, hitem⟩ := hitem (.recv fd' buf) (by simp [ThreadEvent.outside])
        refine ⟨⟨⟨?_, (hc.2.2 fd' buf hevent).1⟩, trivial⟩, fun _ _ => trivial⟩
        cases item with
        | text l => simp [Item.events] at hitem
        | closed fd tail => simp [Item.events] at hitem
        | data fd tail payload =>
          obtain ⟨rfl, -⟩ : fd' = fd ∧ buf = payload := by simpa [Item.events] using hitem
          exact Int.natCast_nonneg fd

theorem dataFor_events (items : List Item) :
    (items.flatMap Item.events).flatMap (ThreadEvent.dataFor fd) = items.flatMap (Item.dataFor fd) := by
  induction items with
  | nil => rfl
  | cons item items ih =>
    rw [List.flatMap_cons, List.flatMap_append, ih, List.flatMap_cons]
    cases item <;> simp [Item.events, ThreadEvent.dataFor, Item.dataFor]

end Sockets

/-- **From the modem to the readers**: over every order of interrupts, turns of the parser
thread, commands and socket calls in which nothing is lost on the way, what the modem
sent is what the thread got, what is in the ring and what is still to come; the readers
see what they see of the streams; and of each socket the bytes of the packets that came
in completely are, in order and once, those read from it or dropped when it was closed,
and those that wait. -/
theorem stack_streams (items : List Item) (hitems : ∀ item ∈ items, item.Ok) (start s : Stack) (as : List StackAct)
    (hstart : start.Start items) (hc : Along Stack.step Smooth start as) (hx : exec Stack.step start as = some s) :
    (items.map Item.bytes).flatten = heard (trace Stack.step Stack.heard start as) ++ (s.ring.fifo.bytes ++ s.uart) ∧
      ∃ w, exec Waiting.step (fun _ => none) (trace Stack.step Stack.socketActs start as) = some w ∧
        trace SocketSys.step SocketSys.seen start.sockets (trace Stack.step Stack.socketActs start as) =
          trace Waiting.step Waiting.seen (fun _ => none) (trace Stack.step Stack.socketActs start as) ∧
        ∀ fd, (arrived items (trace Stack.step Stack.heard start as).length).flatMap (Item.dataFor fd) =
          trace Waiting.step (Waiting.removed fd) (fun _ => none) (trace Stack.step Stack.socketActs start as) ++
            w.held fd := by
  have hfollows := follows_run hitems hstart hc hx
  have horderly := orderly_run hitems hstart hc hx
  obtain ⟨ctxs, hctxs⟩ := hstart.sockets
  have hcarries : Carries start.sockets fun _ => none := hctxs ▸ carries_start ctxs
  have hpromised := along_project (fun _ _ _ h => sockets_step h.1) (fun _ _ h => promised_step h) horderly hx
  have hsockets := (emits_project (fun _ _ _ => took_step 0) hc hx).1
  obtain ⟨w, hw, -, hseen⟩ := exec_sim_trace_along socket_sim hcarries hpromised hsockets
  refine ⟨hfollows.stream, w, hw, hseen, fun fd => ?_⟩
  have htook := (emits_project (fun _ _ _ => took_step fd) hc hx).2
  -- What the table takes in is what the streams do.
  have haccepted : trace SocketSys.step (SocketSys.took fd) start.sockets (trace Stack.step Stack.socketActs start as) =
      trace Waiting.step (Waiting.accepted fd) (fun _ => none) (trace Stack.step Stack.socketActs start as) := by
    refine (exec_sim_trace_along (fun s a s' t hR hp hstep => ?_) hcarries hpromised hsockets).choose_spec.2.2
    obtain ⟨t', ht', hR', hseen⟩ := socket_sim s a s' t hR hp hstep
    exact ⟨t', ht', hR', took_eq fd ht' hseen⟩
  have hbalance := trace_balance (Waiting.balance fd) hw
  rw [← dataFor_events, ← hfollows.handed hitems, ← trace_flatMap, ← htook, haccepted]
  simpa [Waiting.held] using hbalance

/-- A packet of one byte, from the connect of its socket to the read. -/
def onePacket : List Item := [.data 0 [] [0x61]]

def wired : Stack where
  uart := (onePacket.map Item.bytes).flatten
  ring := ringBuffInit
  thread := .fresh
  client := restingClient
  sockets := socketStart fun _ => ⟨0, none, false, false, .alloced⟩

def packetRun : List StackAct :=
  [.socket (.connect true true), .socket (.connected firstCtx 0), .rx 21] ++
    List.replicate 21 (.getchar false true true (some 7)) ++ [.socket (.recv 5 1 true)]

theorem packetRun_smooth : Along Stack.step Smooth wired packetRun := by
  refine .cons rfl ⟨trivial, trivial⟩ (.cons rfl ⟨trivial, fun _ => by decide⟩ (.cons rfl ?_ ?_))
  · show (21 : Nat) ≤ _
    decide
  iterate 20 refine .cons rfl ⟨rfl, fun h => absurd h (by decide), by rintro _ _ ⟨⟩⟩ ?_
  refine .cons rfl ⟨rfl, fun h => absurd h (by decide), ?_⟩ (.cons rfl ⟨trivial, trivial⟩ trivial)
  rintro _ _ ⟨⟩
  exact ⟨fun _ _ => rfl, _, rfl, by decide⟩

theorem stack_streams_packet : ∃ s, exec Stack.step wired packetRun = some s ∧
    (onePacket.map Item.bytes).flatten = heard (trace Stack.step Stack.heard wired packetRun) ++
      (s.ring.fifo.bytes ++ s.uart) ∧
    ∃ w, exec Waiting.step (fun _ => none) (trace Stack.step Stack.socketActs wired packetRun) = some w ∧
      trace SocketSys.step SocketSys.seen wired.sockets (trace Stack.step Stack.socketActs wired packetRun) =
        trace Waiting.step Waiting.seen (fun _ => none) (trace Stack.step Stack.socketActs wired packetRun) ∧
      ∀ fd, (arrived onePacket (trace Stack.step Stack.heard wired packetRun).length).flatMap (Item.dataFor fd) =
        trace Waiting.step (Waiting.removed fd) (fun _ => none) (trace Stack.step Stack.socketActs wired packetRun) ++
          w.held fd := by
  refine ⟨_, rfl, stack_streams onePacket ?_ wired _ packetRun ⟨rfl, rfl, rfl, rfl, _, rfl⟩ packetRun_smooth rfl⟩
  intro item hitem
  rw [List.mem_singleton.1 hitem]
  exact ⟨by decide, by decide, by decide, by decide, by simp [Plain], by simp⟩

end Petbox.Modem
