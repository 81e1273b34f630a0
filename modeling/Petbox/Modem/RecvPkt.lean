/-
The packets that wait for a reader of a socket (`at_socket_inf.c`): what is put
into the list in packets is got out of it in bytes, in any portions.
-/
import Petbox.Modem.Sim7070
import Petbox.Modem.UtilsList

namespace Petbox.Modem

open Linked

/-! ## The code -/

/-- `MAX_RECV_PKT_PER_CHAIN`. -/
def maxRecvPktPerChain : Nat := 10

def qcloudErrTcpReadFail : Int := -606

/-- `at_recv_pkt`: its buffer, and how much of it was read. -/
structure AtRecvPkt where
  buff : List UInt8
  bfszTotle : Nat
  bfszIndex : Nat
  totle : bfszTotle = buff.length
  index : bfszIndex ≤ bfszTotle

/-- The packet of a buffer that was received. -/
def newPkt (ptr : List UInt8) : AtRecvPkt where
  buff := ptr
  bfszTotle := ptr.length
  bfszIndex := 0
  totle := rfl
  index := Nat.zero_le _

/-- `_at_recvpkt_put`; `pktMem` and `node` are what `HAL_Malloc` gave for the
packet and for its node. -/
def atRecvpktPut (h : Heap AtRecvPkt) (rlist : PtrList) (pktMem : Bool) (node : Option Nat) (ptr : List UInt8) :
    Option (Int × Heap AtRecvPkt × PtrList) :=
  if rlist.len > maxRecvPktPerChain then some (qcloudErrFailure, h, rlist)
  else if !pktMem then some (qcloudErrFailure, h, rlist)
  else
    match listNodeNew h node (newPkt ptr) with
    | (_, none) => some (qcloudErrFailure, h, rlist)
    | (h, some node) => do
      let (h, rlist, _) ← listRpush h rlist (some node)
      return (ptr.length, h, rlist)

/-- The loop of `_at_recvpkt_get`: `len` bytes are still to be read. What it
copies to `buff`, and the list behind it. -/
def recvpktGetLoop : Nat → Heap AtRecvPkt → PtrList → ListIterator → Nat →
    Option (List UInt8 × Heap AtRecvPkt × PtrList)
  | 0, _, _, _, _ => none
  | fuel + 1, h, pktList, iter, len => do
    let (node, iter) ← listIteratorNext h iter
    match node with
    | none => return ([], h, pktList)
    | some node => do
      let n ← h node
      let pkt := n.val
      let pageLen := pkt.bfszTotle - pkt.bfszIndex
      if hpage : pageLen ≥ len then
        let pkt' := { pkt with bfszIndex := pkt.bfszIndex + len, index := by have := pkt.index; omega }
        return ((pkt.buff.drop pkt.bfszIndex).take len, Function.update h node (some { n with val := pkt' }), pktList)
      else
        let page := (pkt.buff.drop pkt.bfszIndex).take pageLen
        let (h, pktList, _) ← listRemove h pktList node
        let (rest, h, pktList) ← recvpktGetLoop fuel h pktList iter (len - pageLen)
        return (page ++ rest, h, pktList)

/-- `_at_recvpkt_get`; `iterMem` is whether `HAL_Malloc` gave an iterator. Every
pass of the loop reads one node. -/
def atRecvpktGet (h : Heap AtRecvPkt) (pktList : PtrList) (iterMem : Bool) (len : Nat) :
    Option (Int × List UInt8 × Heap AtRecvPkt × PtrList) :=
  if pktList.len = 0 then some (0, [], h, pktList)
  else
    match listIteratorNew iterMem pktList .head with
    | none => some (qcloudErrTcpReadFail, [], h, pktList)
    | some iter => do
      let (buff, h, pktList) ← recvpktGetLoop (pktList.len + 1) h pktList iter len
      return (buff.length, buff, h, pktList)

/-! ## The packets as what is left of them -/

/-- What is left of a packet. -/
def AtRecvPkt.left (pkt : AtRecvPkt) : List UInt8 := pkt.buff.drop pkt.bfszIndex

theorem AtRecvPkt.length_left (pkt : AtRecvPkt) : pkt.left.length = pkt.bfszTotle - pkt.bfszIndex := by
  rw [left, List.length_drop, pkt.totle]

/-- What is left of the packets of a list. -/
def pages (l : Nodes AtRecvPkt) : List (List UInt8) := l.map fun c => c.2.left

@[simp] theorem pages_nil : pages [] = [] := rfl
@[simp] theorem pages_cons (c : Nat × AtRecvPkt) (l : Nodes AtRecvPkt) : pages (c :: l) = c.2.left :: pages l := rfl
@[simp] theorem pages_append (l m : Nodes AtRecvPkt) : pages (l ++ m) = pages l ++ pages m := List.map_append

/-- Reading from pages: the one that the read ends in stays, even with nothing left. -/
def readPages (len : Nat) : List (List UInt8) → List UInt8 × List (List UInt8)
  | [] => ([], [])
  | page :: rest =>
    if len ≤ page.length then (page.take len, page.drop len :: rest)
    else (page ++ (readPages (len - page.length) rest).1, (readPages (len - page.length) rest).2)

/-- A read gives the first bytes, and leaves the others. -/
theorem readPages_spec (len : Nat) (ps : List (List UInt8)) :
    (readPages len ps).1 = ps.flatten.take len ∧ (readPages len ps).2.flatten = ps.flatten.drop len := by
  induction ps generalizing len with
  | nil => simp [readPages]
  | cons page rest ih =>
    obtain ⟨htake, hdrop⟩ := ih (len - page.length)
    by_cases hlen : len ≤ page.length
    · simp [readPages, hlen, List.take_append_of_le_length, List.drop_append_of_le_length]
    · have hle : page.length ≤ len := by omega
      simp [readPages, hlen, htake, hdrop, List.take_append, List.drop_append, List.take_of_length_le hle,
        List.drop_of_length_le hle]

section Spec

variable {h : Heap AtRecvPkt} {list : PtrList} {l : Nodes AtRecvPkt}

theorem atRecvpktPut_full (hl : Holds h list l) (hfull : maxRecvPktPerChain < l.length) (pktMem : Bool)
    (node : Option Nat) (ptr : List UInt8) :
    atRecvpktPut h list pktMem node ptr = some (qcloudErrFailure, h, list) := by
  rw [atRecvpktPut, hl.len, if_pos hfull]

theorem atRecvpktPut_noMem {pktMem : Bool} {node : Option Nat}
    (hmem : pktMem = false ∨ node = none) (ptr : List UInt8) :
    atRecvpktPut h list pktMem node ptr = some (qcloudErrFailure, h, list) := by
  rcases hmem with rfl | rfl <;> simp [atRecvpktPut, listNodeNew]

/-- A packet that there is room and memory for is the last of the list. -/
theorem atRecvpktPut_spec (hl : Holds h list l) (hroom : l.length ≤ maxRecvPktPerChain) {node : Nat}
    (hnew : node ∉ ids l) (ptr : List UInt8) :
    ∃ h' list', atRecvpktPut h list true (some node) ptr = some ((ptr.length : Int), h', list') ∧
      Holds h' list' (l ++ [(node, newPkt ptr)]) ∧ ∀ i, i ∉ ids l → i ≠ node → h' i = h i := by
  have hheld : Holds (listNodeNew h (some node) (newPkt ptr)).1 list l :=
    hl.frame fun i hi => listNodeNew_of_ne (ne_of_mem_of_not_mem hi hnew)
  have hnode : (listNodeNew h (some node) (newPkt ptr)).1 node = some ⟨none, none, newPkt ptr⟩ :=
    Function.update_self _ _ _
  obtain ⟨h', list', hpush, hl', hsame⟩ := listRpush_spec hheld hnode hnew
  refine ⟨h', list', ?_, hl', fun i hi hne => ?_⟩
  · simp only [listNodeNew] at hpush
    rw [atRecvpktPut, hl.len, if_neg (by omega), if_neg (by simp)]
    simp [listNodeNew, hpush]
  · rw [hsame i hi hne, listNodeNew_of_ne hne]

/-- A packet is taken when there is room for it, and memory. -/
def accepts (waiting : Nat) (pktMem : Bool) (node : Option Nat) : Bool :=
  decide (waiting ≤ maxRecvPktPerChain) && pktMem && node.isSome

theorem atRecvpktPut_cases (hl : Holds h list l) (pktMem : Bool) {node : Option Nat} (hnew : ∀ n ∈ node, n ∉ ids l)
    (ptr : List UInt8) :
    ∃ ret h' list' l', atRecvpktPut h list pktMem node ptr = some (ret, h', list') ∧
      (0 ≤ ret ↔ accepts l.length pktMem node = true) ∧ Holds h' list' l' ∧
      pages l' = (if accepts l.length pktMem node = true then pages l ++ [ptr] else pages l) ∧
      (∀ n ∈ ids l', n ∈ ids l ∨ n ∈ node) ∧ ids l ⊆ ids l' ∧ ∀ n ∉ ids l', h' n = h n := by
  by_cases haccepts : accepts l.length pktMem node = true
  · simp only [accepts, Bool.and_eq_true, decide_eq_true_eq, Option.isSome_iff_exists] at haccepts
    obtain ⟨⟨hroom, rfl⟩, n, rfl⟩ := haccepts
    obtain ⟨h', list', hput, hl', hsame⟩ := atRecvpktPut_spec hl hroom (hnew n rfl) ptr
    refine ⟨_, h', list', _, hput, by simp [accepts, hroom], hl', ?_, ?_, by simp, fun i hi => ?_⟩
    · simp [accepts, hroom, AtRecvPkt.left, newPkt]
    · intro i hi
      simpa [eq_comm] using hi
    · simp only [ids_append, ids_cons, ids_nil, List.mem_append, List.mem_singleton, not_or] at hi
      exact hsame i hi.1 hi.2
  · have hput : atRecvpktPut h list pktMem node ptr = some (qcloudErrFailure, h, list) := by
      by_cases hfull : maxRecvPktPerChain < l.length
      · exact atRecvpktPut_full hl hfull pktMem node ptr
      · refine atRecvpktPut_noMem ?_ ptr
        cases pktMem <;> cases node <;> simp_all [accepts]
    refine ⟨_, h, list, l, hput, ?_, hl, by simp [haccepts], fun n hn => .inl hn, fun _ hn => hn, fun _ _ => rfl⟩
    exact ⟨fun hret => absurd hret (by decide), fun h => absurd h haccepts⟩

/-- A node of the list with another value. -/
theorem Holds.setVal {α : Type} {h : Heap α} {a b : Nodes α} {c : Nat × α} (hl : Holds h list (a ++ c :: b)) (v : α) :
    Holds (Function.update h c.1 (some ⟨last none a, first none b, v⟩)) list (a ++ (c.1, v) :: b) := by
  have hd := hl.nodup
  rw [ids_append, ids_cons, List.nodup_append, List.nodup_cons] at hd
  have hca : c.1 ∉ ids a := fun hmem => hd.2.2 _ hmem _ (by simp) rfl
  obtain ⟨hchainA, -, hchainB⟩ := chain_append.1 hl.chain
  refine ⟨chain_append.2 ⟨hchainA.update hca _, Function.update_self _ _ _, hchainB.update hd.2.1.1 _⟩,
    ?_, ?_, ?_, ?_⟩
  · simpa using hl.head
  · simpa using hl.tail
  · simpa using hl.len
  · simpa using hl.nodup

theorem recvpktGetLoop_spec {rest : Nodes AtRecvPkt} {fuel : Nat} (len : Nat) (hl : Holds h list rest)
    (hfuel : rest.length < fuel) :
    ∃ h' list' l', recvpktGetLoop fuel h list ⟨first none rest, .head⟩ len =
        some ((readPages len (pages rest)).1, h', list') ∧
      Holds h' list' l' ∧ pages l' = (readPages len (pages rest)).2 ∧ ids l' ⊆ ids rest ∧
      (∀ i ∈ ids rest, i ∉ ids l' → h' i = none) ∧ ∀ i ∉ ids rest, h' i = h i := by
  induction rest generalizing h list fuel len with
  | nil =>
    obtain ⟨fuel, rfl⟩ : ∃ n, fuel = n + 1 := ⟨fuel - 1, by simp at hfuel; omega⟩
    exact ⟨h, list, [], rfl, hl, rfl, by simp, by simp, fun _ _ => rfl⟩
  | cons c rest ih =>
    obtain ⟨fuel, rfl⟩ : ∃ n, fuel = n + 1 := ⟨fuel - 1, by simp at hfuel; omega⟩
    have hnext := listIteratorNext_head (a := []) hl
    have hnode := hl.chain.1
    simp only [first_cons, List.tail_cons] at hnext
    have hpage := c.2.length_left
    by_cases hlen : len ≤ c.2.left.length
    · have hset := Holds.setVal (a := []) hl
        { c.2 with bfszIndex := c.2.bfszIndex + len, index := by have := c.2.index; omega }
      refine ⟨_, list, _, ?_, hset, ?_, by simp, ?_, ?_⟩
      · simp only [recvpktGetLoop, first_cons, hnext, hnode, Option.bind_eq_bind, Option.bind_some, pages_cons]
        rw [dif_pos (by omega), readPages, if_pos hlen]
        rfl
      · rw [List.nil_append, pages_cons, pages_cons, readPages, if_pos hlen]
        simp [AtRecvPkt.left]
      · simp only [List.nil_append, ids_cons]
        exact fun i hi hnot => absurd hi hnot
      · intro i hi
        simp only [ids_cons, List.mem_cons, not_or] at hi
        exact Function.update_of_ne hi.1 _ _
    · obtain ⟨h₁, list₁, hrem, hl₁, hgone, hsame₁⟩ := listRemove_spec (a := []) hl
      obtain ⟨h', list', l', hloop, hl', hpages, hsub, hgone', hsame⟩ :=
        ih (len - c.2.left.length) hl₁ (by simpa using hfuel)
      have hcl : c.1 ∉ ids rest := (List.nodup_cons.1 hl.nodup).1
      refine ⟨h', list', l', ?_, hl', ?_, ?_, ?_, ?_⟩
      · simp only [recvpktGetLoop, first_cons, hnext, hnode, Option.bind_eq_bind, Option.bind_some, pages_cons]
        have hwhole : (c.2.buff.drop c.2.bfszIndex).take c.2.left.length = c.2.left := List.take_length
        rw [dif_neg (by omega), hrem, Option.bind_some, ← hpage, hloop, readPages, if_neg hlen, hwhole]
        rfl
      · rw [hpages, pages_cons, readPages, if_neg hlen]
      · exact fun i hi => List.mem_cons_of_mem _ (hsub hi)
      · intro i hi hnot
        rcases List.mem_cons.1 hi with rfl | hi
        · rw [hsame _ hcl, hgone]
        · exact hgone' i hi hnot
      · intro i hi
        have hi' : i ∉ ids rest := fun hmem => hi (List.mem_cons_of_mem _ hmem)
        rw [hsame i hi', hsame₁ i (by simpa using hi)]

/-- A read takes the first bytes of what waits; the nodes of the packets it has
read to the end are given back. -/
theorem atRecvpktGet_spec (hl : Holds h list l) (len : Nat) :
    ∃ h' list' l', atRecvpktGet h list true len =
        some (((readPages len (pages l)).1.length : Int), (readPages len (pages l)).1, h', list') ∧
      Holds h' list' l' ∧ pages l' = (readPages len (pages l)).2 ∧ ids l' ⊆ ids l ∧
      (∀ i ∈ ids l, i ∉ ids l' → h' i = none) ∧ ∀ i ∉ ids l, h' i = h i := by
  by_cases hnil : l = []
  · subst hnil
    have hlen : list.len = 0 := hl.len
    refine ⟨h, list, [], ?_, hl, rfl, by simp, by simp, fun _ _ => rfl⟩
    rw [atRecvpktGet, if_pos hlen]
    rfl
  · obtain ⟨h', list', l', hloop, hrest⟩ := recvpktGetLoop_spec len hl (Nat.lt_succ_self _)
    refine ⟨h', list', l', ?_, hrest⟩
    rw [atRecvpktGet, if_neg (hl.len_ne_zero.2 hnil), listIteratorNew_eq hl, if_pos rfl]
    simp only [start, if_true, hl.len, hloop]
    rfl

/-- Without memory for an iterator, what waits stays; a negative value says so. -/
theorem atRecvpktGet_cases (hl : Holds h list l) (iterMem : Bool) (len : Nat) :
    ∃ ret buf h' list' l', atRecvpktGet h list iterMem len = some (ret, buf, h', list') ∧ Holds h' list' l' ∧
      (if ret < 0 then none else some buf) =
        (if pages l ≠ [] ∧ iterMem = false then none else some (readPages len (pages l)).1) ∧
      pages l' = (if pages l ≠ [] ∧ iterMem = false then pages l else (readPages len (pages l)).2) ∧
      ids l' ⊆ ids l ∧ (∀ i ∈ ids l, i ∉ ids l' → h' i = none) ∧ ∀ i ∉ ids l, h' i = h i := by
  by_cases hfail : pages l ≠ [] ∧ iterMem = false
  · obtain ⟨hpages, rfl⟩ := hfail
    have hnil : l ≠ [] := fun heq => hpages (by rw [heq]; rfl)
    refine ⟨qcloudErrTcpReadFail, [], h, list, l, ?_, hl, ?_, by simp [hpages], fun _ hi => hi,
      fun i hi hnot => absurd hi hnot, fun _ _ => rfl⟩
    · rw [atRecvpktGet, if_neg (hl.len_ne_zero.2 hnil), listIteratorNew_eq hl]
      rfl
    · simp [hpages, qcloudErrTcpReadFail]
  · simp only [if_neg hfail]
    by_cases hnil : l = []
    · subst hnil
      have hlen : list.len = 0 := hl.len
      refine ⟨0, [], h, list, [], ?_, hl, by simp [readPages], rfl, by simp, by simp, fun _ _ => rfl⟩
      rw [atRecvpktGet, if_pos hlen]
    · have hmem : iterMem = true := by
        cases iterMem with
        | true => rfl
        | false => exact absurd ⟨by simpa [pages] using hnil, rfl⟩ hfail
      subst hmem
      obtain ⟨h', list', l', hget, hl', hrest⟩ := atRecvpktGet_spec hl len
      exact ⟨_, _, h', list', l', hget, hl', by simp [Int.not_lt.2 (Int.natCast_nonneg _)], hrest⟩

end Spec

end Petbox.Modem
