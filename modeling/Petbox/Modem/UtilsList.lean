/-
The linked list of the SDK (`utils_list.c`), on a heap of nodes: no call follows
a null or dangling pointer as long as its callers hand in new nodes and listed
ones and ask an iterator on from listed ones, and the list is the sequence it
stands for. `HAL_Malloc` may give no memory for a node or an iterator.
-/
import Petbox.Lib.Linked
import Petbox.Lib.Run

namespace Petbox.Modem

open Linked Machine

/-! ## The code -/

/-- `List`; its callbacks are arguments of the functions that call them. -/
structure PtrList where
  head : Option Nat
  tail : Option Nat
  len : Nat
  deriving DecidableEq, Repr

/-- `ListDirection`. -/
inductive ListDirection
  | head
  | tail
  deriving DecidableEq, Repr

structure ListIterator where
  next : Option Nat
  direction : ListDirection
  deriving DecidableEq, Repr

section Code

variable {α : Type}

/-- `list_new`. -/
def listNew : PtrList := ⟨none, none, 0⟩

/-- `list_node_new`, in the memory that `HAL_Malloc` gave. -/
def listNodeNew (h : Heap α) (node : Option Nat) (val : α) : Heap α × Option Nat :=
  match node with
  | none => (h, none)
  | some i => (Function.update h i (some ⟨none, none, val⟩), some i)

/-- `list_rpush`. -/
def listRpush (h : Heap α) (self : PtrList) (node : Option Nat) : Option (Heap α × PtrList × Option Nat) :=
  if node = none then some (h, self, none)
  else if self.len ≠ 0 then do
    let h ← setPrev h node self.tail
    let h ← setNext h node none
    let h ← setNext h self.tail node
    return (h, { self with tail := node, len := self.len + 1 }, node)
  else do
    let h ← setNext h node none
    let h ← setPrev h node none
    return (h, { head := node, tail := node, len := self.len + 1 }, node)

/-- `list_lpush`. -/
def listLpush (h : Heap α) (self : PtrList) (node : Option Nat) : Option (Heap α × PtrList × Option Nat) :=
  if node = none then some (h, self, none)
  else if self.len ≠ 0 then do
    let h ← setNext h node self.head
    let h ← setPrev h node none
    let h ← setPrev h self.head node
    return (h, { self with head := node, len := self.len + 1 }, node)
  else do
    let h ← setNext h node none
    let h ← setPrev h node none
    return (h, { head := node, tail := node, len := self.len + 1 }, node)

/-- `list_rpop`. -/
def listRpop (h : Heap α) (self : PtrList) : Option (Heap α × PtrList × Option Nat) :=
  if self.len = 0 then some (h, self, none)
  else do
    let node := self.tail
    let (h, self) ←
      if self.len - 1 ≠ 0 then do
        let tail := (← h (← node)).prev
        let h ← setNext h tail none
        pure (h, { self with tail, len := self.len - 1 })
      else pure (h, { head := none, tail := none, len := self.len - 1 })
    let h ← setPrev h node none
    let h ← setNext h node none
    return (h, self, node)

/-- `list_lpop`. -/
def listLpop (h : Heap α) (self : PtrList) : Option (Heap α × PtrList × Option Nat) :=
  if self.len = 0 then some (h, self, none)
  else do
    let node := self.head
    let (h, self) ←
      if self.len - 1 ≠ 0 then do
        let head := (← h (← node)).next
        let h ← setPrev h head none
        pure (h, { self with head, len := self.len - 1 })
      else pure (h, { head := none, tail := none, len := self.len - 1 })
    let h ← setPrev h node none
    let h ← setNext h node none
    return (h, self, node)

/-- `list_remove`: the node before, or the head of the list, is led past the node. -/
def removeNext (h : Heap α) (self : PtrList) (n : Node α) : Option (Heap α × PtrList) :=
  if n.prev ≠ none then do return (← setNext h n.prev n.next, self)
  else some (h, { self with head := n.next })

/-- `list_remove`: so is the node behind, or the tail of the list. -/
def removePrev (h : Heap α) (self : PtrList) (n : Node α) : Option (Heap α × PtrList) :=
  if n.next ≠ none then do return (← setPrev h n.next n.prev, self)
  else some (h, { self with tail := n.prev })

/-- `list_remove`, with the value it hands to `self->free`. -/
def listRemove (h : Heap α) (self : PtrList) (node : Nat) : Option (Heap α × PtrList × α) := do
  let (h, self) ← removeNext h self (← h node)
  let (h, self) ← removePrev h self (← h node)
  let val := (← h node).val
  return (← release h node, { self with len := self.len - 1 }, val)

/-- `list_iterator_new_from_node`; `HAL_Malloc` has memory for it or not. -/
def listIteratorNewFromNode (memory : Bool) (node : Option Nat) (direction : ListDirection) : Option ListIterator :=
  if memory then some ⟨node, direction⟩ else none

/-- `list_iterator_new`. -/
def listIteratorNew (memory : Bool) (self : PtrList) (direction : ListDirection) : Option ListIterator :=
  listIteratorNewFromNode memory (if direction = .head then self.head else self.tail) direction

/-- `list_iterator_next`. -/
def listIteratorNext (h : Heap α) (it : ListIterator) : Option (Option Nat × ListIterator) :=
  match it.next with
  | none => some (none, it)
  | some i => do
    let n ← h i
    return (some i, { it with next := if it.direction = .head then n.next else n.prev })

/-- The loop of `list_find`; `isMatch` is `self->match`, or equality of the pointers. -/
def findLoop (h : Heap α) (isMatch : α → Bool) : Nat → ListIterator → Option (Option Nat)
  | 0, _ => none
  | fuel + 1, it => do
    let (node, it) ← listIteratorNext h it
    match node with
    | none => return none
    | some i => if isMatch (← h i).val then return some i else findLoop h isMatch fuel it

/-- `list_find`; the list has at most `len` nodes. -/
def listFind (memory : Bool) (h : Heap α) (self : PtrList) (isMatch : α → Bool) : Option (Option Nat) :=
  match listIteratorNew memory self .head with
  | none => some none
  | some it => findLoop h isMatch (self.len + 1) it

/-- The loop of `list_at`. -/
def atLoop (h : Heap α) : Nat → ListIterator → Option (Option Nat)
  | 0, it => return (← listIteratorNext h it).1
  | index + 1, it => do
    let (_, it) ← listIteratorNext h it
    atLoop h index it

/-- `list_at`; `~index` counts from the end. -/
def listAt (memory : Bool) (h : Heap α) (self : PtrList) (index : Int) : Option (Option Nat) :=
  let (direction, index) := if index < 0 then (ListDirection.tail, -index - 1) else (.head, index)
  if index.toNat < self.len then
    match listIteratorNew memory self direction with
    | none => some none
    | some it => atLoop h index.toNat it
  else some none

/-- The loop of `list_destroy`, with the values it hands to `self->free`. -/
def destroyLoop (h : Heap α) : Nat → Option Nat → Option (Heap α × List α)
  | 0, _ => some (h, [])
  | len + 1, curr => do
    let i ← curr
    let n ← h i
    let h ← release h i
    let (h, freed) ← destroyLoop h len n.next
    return (h, n.val :: freed)

/-- `list_destroy`. -/
def listDestroy (h : Heap α) (self : PtrList) : Option (Heap α × List α) := destroyLoop h self.len self.head

end Code

/-! ## The sequence of a list -/

/-- The heap holds the list `list` of the nodes `l`. -/
structure Holds {α : Type} (h : Heap α) (list : PtrList) (l : Nodes α) : Prop where
  chain : Chain h none l none
  head : list.head = first none l
  tail : list.tail = last none l
  len : list.len = l.length
  nodup : (ids l).Nodup

section Spec

variable {α : Type} {h : Heap α} {list : PtrList} {l : Nodes α}

theorem holds_new : Holds h listNew [] := ⟨trivial, rfl, rfl, rfl, List.nodup_nil⟩

theorem Holds.len_ne_zero (hl : Holds h list l) : list.len ≠ 0 ↔ l ≠ [] := by
  rw [hl.len, ne_eq, List.length_eq_zero_iff]

/-- Writes outside the nodes of the list leave it alone. -/
theorem Holds.frame (hl : Holds h list l) {h' : Heap α} (hsame : ∀ i ∈ ids l, h' i = h i) : Holds h' list l :=
  { hl with chain := hl.chain.frame hsame }

theorem listRpush_spec (hl : Holds h list l) {i : Nat} {n : Node α} (hi : h i = some n) (hnew : i ∉ ids l) :
    ∃ h' list', listRpush h list (some i) = some (h', list', some i) ∧ Holds h' list' (l ++ [(i, n.val)]) ∧
      ∀ j, j ∉ ids l → j ≠ i → h' j = h j := by
  have hnodup : (ids (l ++ [(i, n.val)])).Nodup := by
    rw [ids_append, List.nodup_append]
    exact ⟨hl.nodup, by simp, fun a ha b hb => by simp_all [ne_of_mem_of_not_mem ha hnew]⟩
  rcases List.eq_nil_or_concat l with rfl | ⟨a, c, rfl⟩
  · obtain ⟨h', hset, hnode, hsame⟩ := setNext_setPrev hi none none
    refine ⟨h', ⟨some i, some i, list.len + 1⟩, ?_, ⟨⟨hnode, trivial⟩, rfl, rfl, by simp [hl.len], hnodup⟩,
      fun j _ hj => hsame j hj⟩
    obtain ⟨h₁, hn, hp⟩ := Option.bind_eq_some_iff.1 hset
    simp [listRpush, hl.len, hn, hp]
  · rw [List.concat_eq_append] at *
    obtain ⟨h₂, hset, hnode, hsame⟩ := setPrev_setNext hi (some c.1) none
    obtain ⟨h₁, hp, hn⟩ := Option.bind_eq_some_iff.1 hset
    have hchain : Chain h₂ none (a ++ [c]) none := hl.chain.frame fun j hj => hsame j (ne_of_mem_of_not_mem hj hnew)
    obtain ⟨h', hlink, hchain', hsame'⟩ := hchain.setNext hl.nodup (some i)
    have hic : i ≠ c.1 := fun heq => hnew (by simp [heq])
    have htail : list.tail = some c.1 := by simp [hl.tail]
    refine ⟨h', { list with tail := some i, len := list.len + 1 }, ?_, ⟨?_, ?_, ?_, ?_, hnodup⟩, ?_⟩
    · simp [listRpush, hl.len, htail, hp, hn, hlink]
    · rw [chain_append]
      refine ⟨hchain', ?_, trivial⟩
      rw [hsame' i hic, hnode, last_append]
      rfl
    · simp [hl.head]
    · simp
    · simp [hl.len]
    · intro j hj hji
      rw [hsame' j (fun heq => hj (by simp [heq])), hsame j hji]

theorem listLpush_spec (hl : Holds h list l) {i : Nat} {n : Node α} (hi : h i = some n) (hnew : i ∉ ids l) :
    ∃ h' list', listLpush h list (some i) = some (h', list', some i) ∧ Holds h' list' ((i, n.val) :: l) ∧
      ∀ j, j ∉ ids l → j ≠ i → h' j = h j := by
  have hnodup : (ids ((i, n.val) :: l)).Nodup := List.nodup_cons.2 ⟨hnew, hl.nodup⟩
  cases l with
  | nil =>
    obtain ⟨h', hset, hnode, hsame⟩ := setNext_setPrev hi none none
    refine ⟨h', ⟨some i, some i, list.len + 1⟩, ?_, ⟨⟨hnode, trivial⟩, rfl, rfl, by simp [hl.len], hnodup⟩,
      fun j _ hj => hsame j hj⟩
    obtain ⟨h₁, hn, hp⟩ := Option.bind_eq_some_iff.1 hset
    simp [listLpush, hl.len, hn, hp]
  | cons c b =>
    obtain ⟨h₂, hset, hnode, hsame⟩ := setNext_setPrev hi none (some c.1)
    obtain ⟨h₁, hn, hp⟩ := Option.bind_eq_some_iff.1 hset
    have hchain : Chain h₂ none (c :: b) none := hl.chain.frame fun j hj => hsame j (ne_of_mem_of_not_mem hj hnew)
    obtain ⟨h', hlink, hchain', hsame'⟩ := hchain.setPrev hl.nodup (some i)
    have hic : i ≠ c.1 := fun heq => hnew (by simp [heq])
    have hhead : list.head = some c.1 := hl.head
    refine ⟨h', { list with head := some i, len := list.len + 1 }, ?_, ⟨⟨?_, hchain'⟩, rfl, ?_, ?_, hnodup⟩, ?_⟩
    · simp [listLpush, hl.len, hhead, hp, hn, hlink]
    · rw [hsame' i hic, hnode]
      rfl
    · simp [hl.tail]
    · simp [hl.len]
    · intro j hj hji
      rw [hsame' j (fun heq => hj (by simp [heq])), hsame j hji]

theorem removeNext_spec {a : Nodes α} {q : Option Nat} (q' : Option Nat) {v : α} (hc : Chain h none a q)
    (hd : (ids a).Nodup)
    (hhead : list.head = first q a) :
    ∃ h' list', removeNext h list ⟨last none a, q', v⟩ = some (h', list') ∧ Chain h' none a q' ∧
      (∀ i ∉ ids a, h' i = h i) ∧ list'.head = first q' a ∧ list'.tail = list.tail ∧ list'.len = list.len := by
  rcases List.eq_nil_or_concat a with rfl | ⟨a, x, rfl⟩
  · exact ⟨h, { list with head := q' }, rfl, trivial, fun _ _ => rfl, rfl, rfl, rfl⟩
  · rw [List.concat_eq_append] at *
    obtain ⟨h', hset, hchain, hsame⟩ := hc.setNext hd q'
    have hlast : last none (a ++ [x]) = some x.1 := by simp
    refine ⟨h', list, ?_, hchain, fun i hi => hsame i fun heq => hi (by simp [heq]), ?_, rfl, rfl⟩
    · simp [removeNext, hlast, hset]
    · simp [hhead]

theorem removePrev_spec {b : Nodes α} {p : Option Nat} (p' : Option Nat) {v : α} (hc : Chain h p b none)
    (hd : (ids b).Nodup)
    (htail : list.tail = last p b) :
    ∃ h' list', removePrev h list ⟨p', first none b, v⟩ = some (h', list') ∧ Chain h' p' b none ∧
      (∀ i ∉ ids b, h' i = h i) ∧ list'.tail = last p' b ∧ list'.head = list.head ∧ list'.len = list.len := by
  cases b with
  | nil => exact ⟨h, { list with tail := p' }, rfl, trivial, fun _ _ => rfl, rfl, rfl, rfl⟩
  | cons x b =>
    obtain ⟨h', hset, hchain, hsame⟩ := hc.setPrev hd p'
    refine ⟨h', list, ?_, hchain, fun i hi => hsame i fun heq => hi (by simp [heq]), htail, rfl, rfl⟩
    simp [removePrev, hset]

/-- The node that is removed is given back; those before and behind it are the list. -/
theorem listRemove_spec {a b : Nodes α} {c : Nat × α} (hl : Holds h list (a ++ c :: b)) :
    ∃ h' list', listRemove h list c.1 = some (h', list', c.2) ∧ Holds h' list' (a ++ b) ∧ h' c.1 = none ∧
      ∀ i ∉ ids (a ++ c :: b), h' i = h i := by
  have hd := hl.nodup
  rw [ids_append, ids_cons, List.nodup_append, List.nodup_cons] at hd
  obtain ⟨hda, ⟨hcb, hdb⟩, hab⟩ := hd
  have hca : c.1 ∉ ids a := fun hmem => hab _ hmem _ (by simp) rfl
  have hba : ∀ i ∈ ids b, i ∉ ids a := fun i hi hmem => hab _ hmem _ (by simp [hi]) rfl
  have hnode := hl.chain.node
  obtain ⟨hchainA, -, hchainB⟩ := chain_append.1 hl.chain
  obtain ⟨h₁, list₁, hnext, hchainA₁, hsame₁, hhead₁, htail₁, hlen₁⟩ :=
    removeNext_spec (first none b) (v := c.2) hchainA hda (by rw [hl.head, first_append])
  obtain ⟨h₂, list₂, hprev, hchainB₂, hsame₂, htail₂, hhead₂, hlen₂⟩ :=
    removePrev_spec (last none a) (v := c.2) (hchainB.frame fun i hi => hsame₁ i (hba i hi)) hdb
      (htail₁.trans (by simp [hl.tail]))
  have hnode₁ : h₁ c.1 = h c.1 := hsame₁ _ hca
  have hnode₂ : h₂ c.1 = h c.1 := (hsame₂ _ hcb).trans hnode₁
  have hsame : ∀ i ∈ ids a, h₂ i = h₁ i := fun i hi => hsame₂ i fun hmem => hba i hmem hi
  refine ⟨Function.update h₂ c.1 none, { list₂ with len := list₂.len - 1 }, ?_, ⟨?_, ?_, ?_, ?_, ?_⟩,
    Function.update_self _ _ _, ?_⟩
  · simp [listRemove, hnode₁, hnode₂, hnode, hnext, hprev, release_some (hnode₂.trans hnode)]
  · exact chain_append.2 ⟨(hchainA₁.frame hsame).update hca _, hchainB₂.update hcb _⟩
  · rw [first_append]
    exact hhead₂.trans hhead₁
  · rw [last_append]
    exact htail₂
  · have hlen := hl.len
    simp only [List.length_append, List.length_cons] at hlen ⊢
    omega
  · rw [ids_append, List.nodup_append]
    exact ⟨hda, hdb, fun i hi j hj heq => hba j hj (heq ▸ hi)⟩
  · intro i hi
    simp only [ids_append, ids_cons, List.mem_append, List.mem_cons, not_or] at hi
    rw [Function.update_of_ne hi.2.1, hsame₂ i hi.2.2, hsame₁ i hi.1]

theorem listRpop_nil (hl : Holds h list []) : listRpop h list = some (h, list, none) := by
  simp [listRpop, hl.len]

theorem listRpop_spec {a : Nodes α} {c : Nat × α} (hl : Holds h list (a ++ [c])) :
    ∃ h' list', listRpop h list = some (h', list', some c.1) ∧ Holds h' list' a ∧
      h' c.1 = some ⟨none, none, c.2⟩ ∧ ∀ i ∉ ids (a ++ [c]), h' i = h i := by
  have hnode := hl.chain.node
  have htail : list.tail = some c.1 := by simp [hl.tail]
  have hd := hl.nodup
  rw [ids_append, List.nodup_append] at hd
  have hca : c.1 ∉ ids a := fun hmem => hd.2.2 _ hmem _ (by simp) rfl
  have hchain := (chain_append.1 hl.chain).1
  rcases List.eq_nil_or_concat a with rfl | ⟨b, x, rfl⟩
  · obtain ⟨h', hset, hself, hsame⟩ := setPrev_setNext hnode none none
    obtain ⟨h₁, hp, hn⟩ := Option.bind_eq_some_iff.1 hset
    refine ⟨h', ⟨none, none, 0⟩, ?_, holds_new, hself, fun i hi => hsame i fun heq => hi (by simp [heq])⟩
    simp [listRpop, hl.len, htail, hp, hn]
  · rw [List.concat_eq_append] at *
    obtain ⟨h₁, hlink, hchain₁, hsame₁⟩ := hchain.setNext hd.1 none
    have hcx : c.1 ≠ x.1 := fun heq => hca (by simp [heq])
    have hprev : last none (b ++ [x]) = some x.1 := by simp
    obtain ⟨h', hset, hself, hsame⟩ := setPrev_setNext ((hsame₁ _ hcx).trans hnode) none none
    obtain ⟨h₂, hp, hn⟩ := Option.bind_eq_some_iff.1 hset
    refine ⟨h', { list with tail := some x.1, len := list.len - 1 }, ?_, ⟨?_, ?_, hprev.symm, ?_, hd.1⟩, hself, ?_⟩
    · simp [listRpop, hl.len, htail, hnode, hprev, hlink, hp, hn]
    · exact hchain₁.frame fun i hi => hsame i (ne_of_mem_of_not_mem hi hca)
    · simp [hl.head]
    · simp [hl.len]
    · intro i hi
      simp only [ids_append, ids_cons, ids_nil, List.mem_append, List.mem_singleton, not_or] at hi
      rw [hsame i hi.2, hsame₁ i hi.1.2]

theorem listLpop_nil (hl : Holds h list []) : listLpop h list = some (h, list, none) := by
  simp [listLpop, hl.len]

theorem listLpop_spec {b : Nodes α} {c : Nat × α} (hl : Holds h list (c :: b)) :
    ∃ h' list', listLpop h list = some (h', list', some c.1) ∧ Holds h' list' b ∧
      h' c.1 = some ⟨none, none, c.2⟩ ∧ ∀ i ∉ ids (c :: b), h' i = h i := by
  have hnode := hl.chain.1
  have hhead : list.head = some c.1 := hl.head
  obtain ⟨hcb, hdb⟩ := List.nodup_cons.1 hl.nodup
  cases b with
  | nil =>
    obtain ⟨h', hset, hself, hsame⟩ := setPrev_setNext hnode none none
    obtain ⟨h₁, hp, hn⟩ := Option.bind_eq_some_iff.1 hset
    refine ⟨h', ⟨none, none, 0⟩, ?_, holds_new, hself, fun i hi => hsame i fun heq => hi (by simp [heq])⟩
    simp [listLpop, hl.len, hhead, hp, hn]
  | cons x b =>
    obtain ⟨h₁, hlink, hchain₁, hsame₁⟩ := hl.chain.2.setPrev hdb none
    have hcx : c.1 ≠ x.1 := fun heq => hcb (by simp [heq])
    obtain ⟨h', hset, hself, hsame⟩ := setPrev_setNext ((hsame₁ _ hcx).trans hnode) none none
    obtain ⟨h₂, hp, hn⟩ := Option.bind_eq_some_iff.1 hset
    refine ⟨h', { list with head := some x.1, len := list.len - 1 }, ?_, ⟨?_, rfl, ?_, ?_, hdb⟩, hself, ?_⟩
    · simp [listLpop, hl.len, hhead, hnode, hlink, hp, hn]
    · exact hchain₁.frame fun i hi => hsame i (ne_of_mem_of_not_mem hi hcb)
    · simp [hl.tail]
    · simp [hl.len]
    · intro i hi
      simp only [ids_cons, List.mem_cons, not_or] at hi
      rw [hsame i hi.1, hsame₁ i hi.2.1]

/-! ### Iterators -/

/-- From the head, the iterator is before the nodes `rest`. -/
theorem listIteratorNext_head {a rest : Nodes α} (hl : Holds h list (a ++ rest)) :
    listIteratorNext h ⟨first none rest, .head⟩ = some (first none rest, ⟨first none rest.tail, .head⟩) := by
  cases rest with
  | nil => rfl
  | cons c b => simp [listIteratorNext, hl.chain.node]

/-- From the tail, behind the nodes `rest`. -/
theorem listIteratorNext_tail {rest b : Nodes α} (hl : Holds h list (rest ++ b)) :
    listIteratorNext h ⟨last none rest, .tail⟩ = some (last none rest, ⟨last none rest.dropLast, .tail⟩) := by
  rcases List.eq_nil_or_concat rest with rfl | ⟨a, c, rfl⟩
  · rfl
  · rw [List.concat_eq_append, List.append_assoc] at hl
    rw [List.concat_eq_append, List.dropLast_concat, last_append]
    simp [listIteratorNext, hl.chain.node]

theorem findLoop_spec (isMatch : α → Bool) {a rest : Nodes α} (hl : Holds h list (a ++ rest)) {fuel : Nat}
    (hfuel : rest.length < fuel) :
    findLoop h isMatch fuel ⟨first none rest, .head⟩ = some ((rest.find? fun c => isMatch c.2).map Prod.fst) := by
  induction rest generalizing a fuel with
  | nil =>
    obtain ⟨fuel, rfl⟩ : ∃ n, fuel = n + 1 := ⟨fuel - 1, by simp at hfuel; omega⟩
    rfl
  | cons c rest ih =>
    obtain ⟨fuel, rfl⟩ : ∃ n, fuel = n + 1 := ⟨fuel - 1, by simp at hfuel; omega⟩
    have hnode := hl.chain.node
    have hrest : Holds h list ((a ++ [c]) ++ rest) := by rwa [List.append_assoc]
    have hnext := listIteratorNext_head hl
    simp only [first_cons, List.tail_cons] at hnext
    by_cases hm : isMatch c.2 = true
    · simp [findLoop, hnext, hnode, hm]
    · have hloop := ih hrest (by simpa using hfuel)
      simp [findLoop, hnext, hnode, hm, hloop]

/-- Where the iterator of a direction starts. -/
def start (l : Nodes α) (direction : ListDirection) : Option Nat :=
  if direction = .head then first none l else last none l

theorem listIteratorNew_eq (hl : Holds h list l) (memory : Bool) (direction : ListDirection) :
    listIteratorNew memory list direction = if memory then some ⟨start l direction, direction⟩ else none := by
  rw [listIteratorNew, listIteratorNewFromNode, hl.head, hl.tail, start]

/-- The node an iterator goes on to from a listed node. -/
def neighbour (l : Nodes α) (i : Nat) : ListDirection → Option Nat
  | .head => first none (l.dropWhile fun c => c.1 != i).tail
  | .tail => last none (l.takeWhile fun c => c.1 != i)

/-- An iterator at a listed node gives it, and goes on to the one beside it. -/
theorem listIteratorNext_spec (hl : Holds h list l) {i : Nat} (hi : i ∈ ids l) (direction : ListDirection) :
    listIteratorNext h ⟨some i, direction⟩ = some (some i, ⟨neighbour l i direction, direction⟩) := by
  obtain ⟨c, hc, rfl⟩ := List.mem_map.1 hi
  obtain ⟨a, b, rfl⟩ := List.append_of_mem hc
  have hd := hl.nodup
  rw [ids_append, ids_cons, List.nodup_append] at hd
  have hfront : ∀ x ∈ a, (x.1 != c.1) = true := fun x hx =>
    bne_iff_ne.2 (hd.2.2 x.1 (List.mem_map_of_mem hx) c.1 (List.mem_cons_self ..))
  have hnode := hl.chain.node
  cases direction with
  | head => simp [listIteratorNext, hnode, neighbour, List.dropWhile_append_of_pos hfront]
  | tail => simp [listIteratorNext, hnode, neighbour, List.takeWhile_append_of_pos hfront]

/-- `list_find` gives the first node that matches. -/
theorem listFind_spec (hl : Holds h list l) (memory : Bool) (isMatch : α → Bool) :
    listFind memory h list isMatch =
      some (if memory then (l.find? fun c => isMatch c.2).map Prod.fst else none) := by
  rw [listFind, listIteratorNew_eq hl]
  cases memory with
  | false => rfl
  | true =>
    simp only [if_true, hl.len, start]
    exact findLoop_spec (a := []) isMatch hl (Nat.lt_succ_self _)

theorem atLoop_head {a rest : Nodes α} (hl : Holds h list (a ++ rest)) (index : Nat) :
    atLoop h index ⟨first none rest, .head⟩ = some (rest[index]?.map Prod.fst) := by
  induction index generalizing a rest with
  | zero =>
    rw [atLoop, listIteratorNext_head hl]
    cases rest <;> rfl
  | succ index ih =>
    rw [atLoop, listIteratorNext_head hl]
    cases rest with
    | nil => simpa using ih hl
    | cons c rest =>
      have hrest : Holds h list ((a ++ [c]) ++ rest) := by rwa [List.append_assoc]
      simpa using ih hrest

theorem atLoop_tail {rest b : Nodes α} (hl : Holds h list (rest ++ b)) (index : Nat) :
    atLoop h index ⟨last none rest, .tail⟩ = some (rest.reverse[index]?.map Prod.fst) := by
  induction index generalizing rest b with
  | zero =>
    rw [atLoop, listIteratorNext_tail hl]
    rcases List.eq_nil_or_concat rest with rfl | ⟨a, c, rfl⟩ <;> simp
  | succ index ih =>
    rw [atLoop, listIteratorNext_tail hl]
    rcases List.eq_nil_or_concat rest with rfl | ⟨a, c, rfl⟩
    · simpa using ih hl
    · rw [List.concat_eq_append, List.append_assoc] at hl
      simpa using ih hl

/-- The node at an index, which counts from the end when it is negative. -/
def nodeAt (l : Nodes α) (index : Int) : Option Nat :=
  if 0 ≤ index then l[index.toNat]?.map Prod.fst else l.reverse[(-index - 1).toNat]?.map Prod.fst

theorem listAt_spec (hl : Holds h list l) (memory : Bool) (index : Int) :
    listAt memory h list index = some (if memory then nodeAt l index else none) := by
  cases memory with
  | false =>
    simp only [listAt, listIteratorNew_eq hl, Bool.false_eq_true, if_false, ite_self]
  | true =>
    simp only [if_true]
    by_cases hneg : index < 0
    · simp only [listAt, nodeAt, if_pos hneg, if_neg (show ¬ 0 ≤ index by omega), hl.len, listIteratorNew_eq hl]
      by_cases hlt : (-index - 1).toNat < l.length
      · rw [if_pos hlt]
        exact atLoop_tail (b := []) (by rwa [List.append_nil]) _
      · rw [if_neg hlt, List.getElem?_eq_none (by simpa using hlt)]
        rfl
    · simp only [listAt, nodeAt, if_neg hneg, if_pos (show 0 ≤ index by omega), hl.len, listIteratorNew_eq hl]
      by_cases hlt : index.toNat < l.length
      · rw [if_pos hlt]
        exact atLoop_head (a := []) hl _
      · rw [if_neg hlt, List.getElem?_eq_none (by simpa using hlt)]
        rfl

/-! ### The end of a list -/

theorem destroyLoop_spec {p : Option Nat} (hc : Chain h p l none) (hd : (ids l).Nodup) :
    ∃ h', destroyLoop h l.length (first none l) = some (h', l.map Prod.snd) ∧
      (∀ i ∈ ids l, h' i = none) ∧ ∀ i ∉ ids l, h' i = h i := by
  induction l generalizing h p with
  | nil => exact ⟨h, rfl, by simp, fun _ _ => rfl⟩
  | cons c l ih =>
    obtain ⟨hcl, hd⟩ := List.nodup_cons.1 hd
    obtain ⟨h', hloop, hgone, hsame⟩ := ih (hc.2.update hcl none) hd
    refine ⟨h', ?_, ?_, ?_⟩
    · simp [destroyLoop, hc.1, release_some hc.1, hloop]
    · intro i hi
      rcases List.mem_cons.1 hi with rfl | hi
      · rw [hsame _ hcl, Function.update_self]
      · exact hgone i hi
    · intro i hi
      simp only [ids_cons, List.mem_cons, not_or] at hi
      rw [hsame i hi.2, Function.update_of_ne hi.1]

/-- `list_destroy` gives every node back, once, and hands on every value. -/
theorem listDestroy_spec (hl : Holds h list l) :
    ∃ h', listDestroy h list = some (h', l.map Prod.snd) ∧ (∀ i ∈ ids l, h' i = none) ∧
      ∀ i ∉ ids l, h' i = h i := by
  rw [listDestroy, hl.len, hl.head]
  exact destroyLoop_spec hl.chain hl.nodup

end Spec

/-! ## Runs -/

/-- A call on the list. `node` and `it` are the memory that `list_node_new` and
`list_iterator_new` got, if any; `memory` is whether there is some for the
iterator of the call itself. -/
inductive ListCall (α : Type)
  | rpush (node : Option Nat) (val : α)
  | lpush (node : Option Nat) (val : α)
  | rpop
  | lpop
  | remove (node : Nat)
  | find (memory : Bool) (isMatch : α → Bool)
  | at (memory : Bool) (index : Int)
  | iteratorNew (it : Option Nat) (direction : ListDirection)
  | iteratorNext (it : Nat)
  | iteratorDestroy (it : Nat)

/-- What a caller gets: a node, an iterator, or the value that was handed to `self->free`. -/
inductive ListResult (α : Type)
  | node (node : Option Nat)
  | iterator (it : Option Nat)
  | freed (val : α)
  | done
  deriving DecidableEq, Repr

/-- The iterators that are allocated. -/
abbrev Iterators := Nat → Option ListIterator

/-- An iterator in its memory, if it got some. -/
def putIterator (its : Iterators) (it : Option Nat) (value : Option ListIterator) : Iterators :=
  match it with
  | none => its
  | some k => Function.update its k value

structure ListState (α : Type) where
  heap : Heap α
  list : PtrList
  its : Iterators

/-- The list as a sequence, the nodes that were taken off it and are their
callers', and the iterators, each with the node it comes to next. -/
structure Sequence (α : Type) where
  nodes : Nodes α
  popped : List Nat
  its : Iterators

section Runs

variable {α : Type}

def ListState.new : ListState α := ⟨fun _ => none, listNew, fun _ => none⟩
def Sequence.new : Sequence α := ⟨[], [], fun _ => none⟩

def ListState.call (s : ListState α) : ListCall α → Option (ListResult α × ListState α)
  | .rpush node val => do
    let (heap, node) := listNodeNew s.heap node val
    let (heap, list, node) ← listRpush heap s.list node
    return (.node node, { s with heap, list })
  | .lpush node val => do
    let (heap, node) := listNodeNew s.heap node val
    let (heap, list, node) ← listLpush heap s.list node
    return (.node node, { s with heap, list })
  | .rpop => do
    let (heap, list, node) ← listRpop s.heap s.list
    return (.node node, { s with heap, list })
  | .lpop => do
    let (heap, list, node) ← listLpop s.heap s.list
    return (.node node, { s with heap, list })
  | .remove node => do
    let (heap, list, val) ← listRemove s.heap s.list node
    return (.freed val, { s with heap, list })
  | .find memory isMatch => return (.node (← listFind memory s.heap s.list isMatch), s)
  | .at memory index => return (.node (← listAt memory s.heap s.list index), s)
  | .iteratorNew it direction =>
    some (.iterator it, { s with its := putIterator s.its it (listIteratorNew it.isSome s.list direction) })
  | .iteratorNext it => do
    let (node, value) ← listIteratorNext s.heap (← s.its it)
    return (.node node, { s with its := Function.update s.its it (some value) })
  | .iteratorDestroy it => do
    let _ ← s.its it
    return (.done, { s with its := Function.update s.its it none })

/-- A node that is neither listed nor anyone's. -/
def Sequence.IsNew (t : Sequence α) (node : Option Nat) : Prop := ∀ i ∈ node, i ∉ ids t.nodes ++ t.popped

instance (t : Sequence α) (node : Option Nat) : Decidable (t.IsNew node) :=
  inferInstanceAs (Decidable (∀ i ∈ node, i ∉ ids t.nodes ++ t.popped))

/-- The same calls on the sequence, made only as the callers make them: a node
that is handed in is new, one that is removed is listed, the memory of an
iterator is its own, and an iterator that is asked on has not been destroyed,
nor has the node it comes to been taken off the list. -/
def Sequence.call (t : Sequence α) : ListCall α → Option (ListResult α × Sequence α)
  | .rpush node val =>
    if t.IsNew node then some (.node node, { t with nodes := t.nodes ++ node.toList.map (·, val) }) else none
  | .lpush node val =>
    if t.IsNew node then some (.node node, { t with nodes := node.toList.map (·, val) ++ t.nodes }) else none
  | .rpop =>
    some (.node (last none t.nodes),
      { t with nodes := t.nodes.dropLast, popped := (last none t.nodes).toList ++ t.popped })
  | .lpop =>
    some (.node (first none t.nodes), { t with nodes := t.nodes.tail, popped := (first none t.nodes).toList ++ t.popped })
  | .remove node =>
    (t.nodes.find? fun c => c.1 == node).map fun c =>
      (.freed c.2, { t with nodes := t.nodes.eraseP fun c => c.1 == node })
  | .find memory isMatch =>
    some (.node (if memory then (t.nodes.find? fun c => isMatch c.2).map Prod.fst else none), t)
  | .at memory index => some (.node (if memory then nodeAt t.nodes index else none), t)
  | .iteratorNew it direction =>
    if it.bind t.its = none then
      some (.iterator it, { t with its := putIterator t.its it (some ⟨start t.nodes direction, direction⟩) })
    else none
  | .iteratorNext it => do
    let value ← t.its it
    match value.next with
    | none => some (.node none, t)
    | some i =>
      if i ∈ ids t.nodes then
        let next := neighbour t.nodes i value.direction
        some (.node (some i), { t with its := Function.update t.its it (some { value with next }) })
      else none
  | .iteratorDestroy it => do
    let _ ← t.its it
    some (.done, { t with its := Function.update t.its it none })

def ListState.step (s : ListState α) (c : ListCall α) : Option (ListState α) := (s.call c).map Prod.snd
def Sequence.step (t : Sequence α) (c : ListCall α) : Option (Sequence α) := (t.call c).map Prod.snd

def ListState.result (s : ListState α) (c : ListCall α) : List (ListResult α) := ((s.call c).map Prod.fst).toList
def Sequence.result (t : Sequence α) (c : ListCall α) : List (ListResult α) := ((t.call c).map Prod.fst).toList

/-- The list holds the sequence, exactly its nodes and those taken off it are
allocated, and the iterators are where they are on the sequence. -/
structure Agrees (t : Sequence α) (s : ListState α) : Prop where
  holds : Holds s.heap s.list t.nodes
  alloc : ∀ i, s.heap i ≠ none ↔ i ∈ ids t.nodes ++ t.popped
  apart : ∀ i ∈ t.popped, i ∉ ids t.nodes
  its : s.its = t.its

variable {t t' : Sequence α} {s : ListState α}

theorem agrees_new : Agrees (Sequence.new : Sequence α) ListState.new :=
  ⟨holds_new, by simp [ListState.new, Sequence.new], by simp [Sequence.new], rfl⟩

/-- The nodes of a chain are allocated; what is left to see is the rest. -/
theorem agrees_of {h : Heap α} {list : PtrList} (hl : Holds h list t.nodes)
    (hrest : ∀ i ∉ ids t.nodes, h i ≠ none ↔ i ∈ t.popped) (hapart : ∀ i ∈ t.popped, i ∉ ids t.nodes) :
    Agrees t ⟨h, list, t.its⟩ := by
  refine ⟨hl, fun i => ?_, hapart, rfl⟩
  rw [List.mem_append]
  by_cases hi : i ∈ ids t.nodes
  · simp [hi, hl.chain.alloc hi]
  · simp [hi, ← hrest i hi]

theorem Agrees.rest (ha : Agrees t s) {i : Nat} (hi : i ∉ ids t.nodes) : s.heap i ≠ none ↔ i ∈ t.popped := by
  rw [ha.alloc i, List.mem_append, or_iff_right hi]

theorem listNodeNew_of_ne {h : Heap α} {node i : Nat} {val : α} (hi : i ≠ node) :
    (listNodeNew h (some node) val).1 i = h i := Function.update_of_ne hi _ _

theorem Agrees.new (ha : Agrees t s) {node : Nat} (hnew : node ∉ ids t.nodes) (val : α) :
    Holds (listNodeNew s.heap (some node) val).1 s.list t.nodes :=
  ha.holds.frame fun _ hi => listNodeNew_of_ne (ne_of_mem_of_not_mem hi hnew)

theorem rpush_sim (ha : Agrees t s) {node : Option Nat} {val : α} (hnew : t.IsNew node) :
    ∃ s', s.call (.rpush node val) = some (.node node, s') ∧
      Agrees { t with nodes := t.nodes ++ node.toList.map (·, val) } s' := by
  cases node with
  | none => exact ⟨s, rfl, by simpa using ha⟩
  | some node =>
    have hnew := hnew node rfl
    rw [List.mem_append, not_or] at hnew
    obtain ⟨h', list', hpush, hl, hsame⟩ :=
      listRpush_spec (ha.new hnew.1 val) (Function.update_self node _ s.heap) hnew.1
    refine ⟨⟨h', list', t.its⟩, ?_, agrees_of hl (fun i hi => ?_) fun i hi => ?_⟩
    · simp only [listNodeNew] at hpush
      simp [ListState.call, listNodeNew, hpush, ha.its]
    · simp only [Option.toList_some, List.map_cons, List.map_nil, ids_append, ids_cons, ids_nil, List.mem_append,
        List.mem_singleton, not_or] at hi
      rw [hsame i hi.1 hi.2, listNodeNew_of_ne hi.2]
      exact ha.rest hi.1
    · simp [ha.apart i hi, ne_of_mem_of_not_mem hi hnew.2]

theorem lpush_sim (ha : Agrees t s) {node : Option Nat} {val : α} (hnew : t.IsNew node) :
    ∃ s', s.call (.lpush node val) = some (.node node, s') ∧
      Agrees { t with nodes := node.toList.map (·, val) ++ t.nodes } s' := by
  cases node with
  | none => exact ⟨s, rfl, by simpa using ha⟩
  | some node =>
    have hnew := hnew node rfl
    rw [List.mem_append, not_or] at hnew
    obtain ⟨h', list', hpush, hl, hsame⟩ :=
      listLpush_spec (ha.new hnew.1 val) (Function.update_self node _ s.heap) hnew.1
    refine ⟨⟨h', list', t.its⟩, ?_, agrees_of hl (fun i hi => ?_) fun i hi => ?_⟩
    · simp only [listNodeNew] at hpush
      simp [ListState.call, listNodeNew, hpush, ha.its]
    · simp only [Option.toList_some, List.map_cons, List.map_nil, List.singleton_append, ids_cons, List.mem_cons,
        not_or] at hi
      rw [hsame i hi.2 hi.1, listNodeNew_of_ne hi.1]
      exact ha.rest hi.2
    · simp [ha.apart i hi, ne_of_mem_of_not_mem hi hnew.2]

/-- A node that is taken off a list is its caller's. -/
theorem agrees_popped {h' : Heap α} {list' : PtrList} {l : Nodes α} {c : Nat × α} (ha : Agrees t s)
    (hids : ∀ i, i ∈ ids t.nodes ↔ i ∈ ids l ∨ i = c.1) (hc : c.1 ∉ ids l) (hl : Holds h' list' l)
    (hnode : h' c.1 = some ⟨none, none, c.2⟩) (hsame : ∀ i ∉ ids t.nodes, h' i = s.heap i) :
    Agrees ⟨l, c.1 :: t.popped, t.its⟩ ⟨h', list', t.its⟩ := by
  refine agrees_of hl (fun i hi => ?_) fun i hi hmem => ?_
  · by_cases hic : i = c.1
    · simp [hic, hnode]
    · have hnot : i ∉ ids t.nodes := by simp [hids, hi, hic]
      rw [hsame i hnot, ha.rest hnot, List.mem_cons, or_iff_right hic]
  · rcases List.mem_cons.1 hi with rfl | hi
    · exact hc hmem
    · exact ha.apart i hi ((hids i).2 (.inl hmem))

theorem rpop_sim (ha : Agrees t s) :
    ∃ s', s.call .rpop = some (.node (last none t.nodes), s') ∧
      Agrees { t with nodes := t.nodes.dropLast, popped := (last none t.nodes).toList ++ t.popped } s' := by
  obtain ⟨nodes, popped, its⟩ := t
  have hl := ha.holds
  have hits : s.its = its := ha.its
  rcases List.eq_nil_or_concat nodes with rfl | ⟨a, c, rfl⟩
  · exact ⟨s, by simp [ListState.call, listRpop_nil hl], ha⟩
  · rw [List.concat_eq_append] at *
    obtain ⟨h', list', hpop, hl', hnode, hsame⟩ := listRpop_spec hl
    refine ⟨⟨h', list', its⟩, by simp [ListState.call, hpop, hits], ?_⟩
    have hd := hl.nodup
    rw [ids_append, List.nodup_append] at hd
    have hc : c.1 ∉ ids a := fun hmem => hd.2.2 _ hmem _ (by simp) rfl
    have hagrees := agrees_popped ha (by simp) hc hl' hnode hsame
    simpa using hagrees

theorem lpop_sim (ha : Agrees t s) :
    ∃ s', s.call .lpop = some (.node (first none t.nodes), s') ∧
      Agrees { t with nodes := t.nodes.tail, popped := (first none t.nodes).toList ++ t.popped } s' := by
  obtain ⟨nodes, popped, its⟩ := t
  have hl := ha.holds
  have hits : s.its = its := ha.its
  cases nodes with
  | nil => exact ⟨s, by simp [ListState.call, listLpop_nil hl], ha⟩
  | cons c b =>
    obtain ⟨h', list', hpop, hl', hnode, hsame⟩ := listLpop_spec hl
    refine ⟨⟨h', list', its⟩, by simp [ListState.call, hpop, hits], ?_⟩
    have hagrees := agrees_popped ha (by simp [or_comm]) (List.nodup_cons.1 hl.nodup).1 hl' hnode hsame
    simpa using hagrees

theorem remove_sim (ha : Agrees t s) {node : Nat} {c : Nat × α}
    (hfind : (t.nodes.find? fun c => c.1 == node) = some c) :
    ∃ s', s.call (.remove node) = some (.freed c.2, s') ∧
      Agrees { t with nodes := t.nodes.eraseP fun c => c.1 == node } s' := by
  obtain ⟨nodes, popped, its⟩ := t
  obtain ⟨hc, a, b, rfl, ha'⟩ := List.find?_eq_some_iff_append.1 hfind
  obtain rfl := beq_iff_eq.1 hc
  have hl := ha.holds
  have hits : s.its = its := ha.its
  obtain ⟨h', list', hrem, hl', hgone, hsame⟩ := listRemove_spec hl
  have herase : (a ++ c :: b).eraseP (fun x => x.1 == c.1) = a ++ b := by
    rw [List.eraseP_append_right _ (by simpa using ha'), List.eraseP_cons_of_pos (by simp)]
  refine ⟨⟨h', list', its⟩, by simp [ListState.call, hrem, hits], ?_⟩
  simp only [herase]
  refine agrees_of hl' (fun i hi => ?_) fun i hi hmem => ha.apart i hi ?_
  · by_cases hic : i = c.1
    · have hnot : c.1 ∉ popped := fun hmem => ha.apart _ hmem (by simp)
      simp [hic, hgone, hnot]
    · have hnot : i ∉ ids (a ++ c :: b) := by simpa [hic] using hi
      rw [hsame i hnot]
      exact ha.rest hnot
  · simp only [ids_append, List.mem_append] at hmem
    simpa using hmem.imp_right Or.inr

/-- A change of the iterators alone. -/
theorem Agrees.withIts (ha : Agrees t s) (its : Iterators) : Agrees { t with its := its } { s with its := its } :=
  ⟨ha.holds, ha.alloc, ha.apart, rfl⟩

theorem iteratorNew_sim (ha : Agrees t s) (it : Option Nat) (direction : ListDirection) :
    ∃ s', s.call (.iteratorNew it direction) = some (.iterator it, s') ∧
      Agrees { t with its := putIterator t.its it (some ⟨start t.nodes direction, direction⟩) } s' := by
  refine ⟨_, rfl, ?_⟩
  have hput : putIterator s.its it (listIteratorNew it.isSome s.list direction) =
      putIterator t.its it (some ⟨start t.nodes direction, direction⟩) := by
    rw [ha.its, listIteratorNew_eq ha.holds]
    cases it <;> rfl
  rw [hput]
  exact ha.withIts _

theorem iteratorNext_sim (ha : Agrees t s) {it : Nat} {r : ListResult α}
    (hc : t.call (.iteratorNext it) = some (r, t')) :
    ∃ s', s.call (.iteratorNext it) = some (r, s') ∧ Agrees t' s' := by
  obtain ⟨⟨next, direction⟩, hvalue, hc⟩ := Option.bind_eq_some_iff.1 hc
  have hvalue' : s.its it = some ⟨next, direction⟩ := ha.its ▸ hvalue
  cases next with
  | none =>
    cases hc
    have hsame : Function.update s.its it (some ⟨none, direction⟩) = s.its := by
      rw [← hvalue', Function.update_eq_self]
    refine ⟨s, ?_, ha⟩
    simp [ListState.call, hvalue', listIteratorNext, hsame]
  | some i =>
    obtain ⟨hi, hc⟩ := Option.ite_none_right_eq_some.1 hc
    cases hc
    refine ⟨_, ?_, ha.withIts _⟩
    simp [ListState.call, hvalue', listIteratorNext_spec ha.holds hi, ha.its]

theorem iteratorDestroy_sim (ha : Agrees t s) {it : Nat} {r : ListResult α}
    (hc : t.call (.iteratorDestroy it) = some (r, t')) :
    ∃ s', s.call (.iteratorDestroy it) = some (r, s') ∧ Agrees t' s' := by
  obtain ⟨value, hvalue, hc⟩ := Option.bind_eq_some_iff.1 hc
  cases hc
  have hvalue' : s.its it = some value := ha.its ▸ hvalue
  refine ⟨_, ?_, ha.withIts _⟩
  simp [ListState.call, hvalue', ha.its]

/-- Every call on the sequence is one on the list, with the same result. -/
theorem call_sim (ha : Agrees t s) {c : ListCall α} {r : ListResult α} (hc : t.call c = some (r, t')) :
    ∃ s', s.call c = some (r, s') ∧ Agrees t' s' := by
  cases c with
  | rpush node val =>
    obtain ⟨hnew, hc⟩ := Option.ite_none_right_eq_some.1 hc
    cases hc
    exact rpush_sim ha hnew
  | lpush node val =>
    obtain ⟨hnew, hc⟩ := Option.ite_none_right_eq_some.1 hc
    cases hc
    exact lpush_sim ha hnew
  | rpop =>
    cases hc
    exact rpop_sim ha
  | lpop =>
    cases hc
    exact lpop_sim ha
  | remove node =>
    simp only [Sequence.call, Option.map_eq_some_iff, Prod.mk.injEq] at hc
    obtain ⟨c, hfind, rfl, rfl⟩ := hc
    exact remove_sim ha hfind
  | find memory isMatch =>
    cases hc
    exact ⟨s, by simp [ListState.call, listFind_spec ha.holds], ha⟩
  | «at» memory index =>
    cases hc
    exact ⟨s, by simp [ListState.call, listAt_spec ha.holds], ha⟩
  | iteratorNew it direction =>
    obtain ⟨-, hc⟩ := Option.ite_none_right_eq_some.1 hc
    cases hc
    exact iteratorNew_sim ha it direction
  | iteratorNext it => exact iteratorNext_sim ha hc
  | iteratorDestroy it => exact iteratorDestroy_sim ha hc

theorem step_sim (t : Sequence α) (c : ListCall α) (t' : Sequence α) (s : ListState α) (ha : Agrees t s)
    (hc : t.step c = some t') : ∃ s', s.step c = some s' ∧ Agrees t' s' ∧ t.result c = s.result c := by
  obtain ⟨⟨r, t''⟩, hcall, rfl⟩ := Option.map_eq_some_iff.1 hc
  obtain ⟨s', hcall', ha'⟩ := call_sim ha hcall
  exact ⟨s', by simp [ListState.step, hcall'], ha', by simp [Sequence.result, ListState.result, hcall, hcall']⟩

/-- **The list is a sequence, and its memory is sound**: whatever calls are made on
a new list in whatever order, as its callers make them, none follows a null or
dangling pointer, each gives what it gives on the sequence, and `list_destroy` then
gives back every node but those that were popped, each once, and hands on the
values in order. -/
theorem list_refines_sequence (cs : List (ListCall α)) (t : Sequence α)
    (h : exec Sequence.step .new cs = some t) :
    ∃ s h', exec ListState.step .new cs = some s ∧
      trace Sequence.step Sequence.result .new cs = trace ListState.step ListState.result .new cs ∧
      Holds s.heap s.list t.nodes ∧ listDestroy s.heap s.list = some (h', t.nodes.map Prod.snd) ∧
      ∀ i, h' i ≠ none ↔ i ∈ t.popped := by
  obtain ⟨s, hs, ha, hresults⟩ := exec_sim_trace step_sim agrees_new h
  obtain ⟨h', hdestroy, hgone, hsame⟩ := listDestroy_spec ha.holds
  refine ⟨s, h', hs, hresults, ha.holds, hdestroy, fun i => ?_⟩
  by_cases hi : i ∈ ids t.nodes
  · have hnot : i ∉ t.popped := fun hmem => ha.apart i hmem hi
    simp [hgone i hi, hnot]
  · rw [hsame i hi]
    exact ha.rest hi

/-- Two nodes, an iterator that is asked on once, and the first node taken off. -/
def iterated : List (ListCall Char) :=
  [.rpush (some 1) 'a', .rpush (some 2) 'b', .iteratorNew (some 3) .head, .iteratorNext 3, .lpop, .iteratorNext 3]

theorem list_refines_sequence_iterated :
    ∃ t, exec Sequence.step .new iterated = some t ∧ t.nodes = [(2, 'b')] ∧ t.popped = [1] ∧
      trace Sequence.step Sequence.result .new iterated =
        [.node (some 1), .node (some 2), .iterator (some 3), .node (some 1), .node (some 1), .node (some 2)] ∧
      ∃ s h', exec ListState.step .new iterated = some s ∧
        trace Sequence.step Sequence.result .new iterated = trace ListState.step ListState.result .new iterated ∧
        Holds s.heap s.list t.nodes ∧ listDestroy s.heap s.list = some (h', t.nodes.map Prod.snd) ∧
        ∀ i, h' i ≠ none ↔ i ∈ t.popped :=
  ⟨_, rfl, rfl, rfl, rfl, list_refines_sequence iterated _ rfl⟩

end Runs

end Petbox.Modem
