/-
Room for a new node. A store at rest has an empty sector to spare; the
allocation that would take the last one asks for a collection instead, after
which only a store whose table fills the other sectors has no room.
-/
import Mathlib.Algebra.Order.BigOperators.Group.Finset
import Petbox.Easyflash.Collect

namespace Petbox.Easyflash

open Log

open scoped BigOperators

abbrev Table := AList fun _ : Key => Value

/-- The lengths of the nodes of a table together. -/
def stored : List ((_ : Key) × Value) → Nat
  | [] => 0
  | e :: es => envLen e.1.length e.2.length + stored es

section

variable {K : Set Key} {s : Ef} {j : Fin sectorNum} {st : Table} {len : Nat}

/-! ## Empty sectors -/

theorem count_eq (s : Ef) (store : SectorStoreStatus) :
    s.count store = ((List.finRange sectorNum).filter fun j => (s.sectors j).store = store).length :=
  List.countP_eq_length_filter

/-- Of two sectors with a status one is another than `j`. -/
theorem exists_other {store : SectorStoreStatus} (h : 1 < s.count store) (j : Fin sectorNum) :
    ∃ i, i ≠ j ∧ (s.sectors i).store = store := by
  by_contra hno
  have hsub : ((List.finRange sectorNum).filter fun j => (s.sectors j).store = store) ⊆ [j] := fun i hi =>
    List.mem_singleton.2 (not_not.1 fun hne => hno ⟨i, hne, of_decide_eq_true (List.mem_filter.1 hi).2⟩)
  have := (List.subperm_of_subset ((List.nodup_finRange sectorNum).filter _) hsub).length_le
  rw [count_eq] at h
  exact absurd (h.trans_le this) (Nat.lt_irrefl 1)

theorem eq_of_count_le {store : SectorStoreStatus} (h : s.count store ≤ 1) {i j : Fin sectorNum}
    (hi : (s.sectors i).store = store) (hj : (s.sectors j).store = store) : i = j := by
  by_contra hne
  have hsub : [i, j] ⊆ (List.finRange sectorNum).filter fun j => (s.sectors j).store = store := fun k hk => by
    refine List.mem_filter.2 ⟨List.mem_finRange k, decide_eq_true ?_⟩
    rcases List.mem_cons.1 hk with rfl | hk
    · exact hi
    · rw [List.mem_singleton.1 hk, hj]
  have hnodup : [i, j].Nodup := List.nodup_cons.2 ⟨fun hm => hne (List.mem_singleton.1 hm), List.nodup_singleton j⟩
  have := (List.subperm_of_subset hnodup hsub).length_le
  rw [← count_eq] at this
  exact Nat.not_succ_le_self 1 (this.trans h)

/-! ## How full the store is -/

def Node.size (e : (_ : Key) × Value) : Nat := envLen e.1.length e.2.length

theorem size_items {ns : List Node} (h : ∀ n ∈ ns, n.status = .write) :
    ((items Node.live Node.item ns).map Node.size).sum = used ns := by
  induction ns with
  | nil => rfl
  | cons n ns ih =>
    obtain ⟨hn, hns⟩ := List.forall_mem_cons.1 h
    have hitem : items Node.live Node.item [n] = {n.item} := items_live (decide_eq_true hn)
    rw [← List.singleton_append, items_append, hitem, Multiset.map_add, Multiset.sum_add,
      ih hns, Multiset.map_singleton, Multiset.sum_singleton]
    rfl

theorem size_entries (es : List ((_ : Key) × Value)) :
    ((es : Multiset ((_ : Key) × Value)).map Node.size).sum = stored es := by
  induction es with
  | nil => rfl
  | cons e es ih =>
    rw [← Multiset.cons_coe, Multiset.map_cons, Multiset.sum_cons, ih]
    rfl

/-- In clean sectors lie the nodes of the table and no others. -/
theorem sum_used (h : s.Ok K) (hclean : ∀ j, (s.sectors j).dirty = .dirtyFalse)
    (hshow : Shows (contents s.sectors) st) : ∑ j, used (s.sectors j).nodes = stored st.entries := by
  rw [← size_entries, ← hshow, contents, sum_held]
  exact Finset.sum_congr rfl fun j _ => (size_items ((h.sectors j).clean (hclean j))).symm

/-- Clean sectors without room, but for one: the table is this large. -/
theorem stored_of_no_room (h : s.Ok K) (hclean : ∀ j, (s.sectors j).dirty = .dirtyFalse)
    (hshow : Shows (contents s.sectors) st) (hfew : s.count .storeEmpty ≤ gcEmptySecThreshold)
    (hno : ∀ i, (s.sectors i).store = .storeUsing → ¬ Accepts s len i) :
    (sectorNum - 1) * (sectorRoom - max len secRemainThreshold) ≤ stored st.entries := by
  obtain ⟨e, he⟩ : ∃ e, ∀ j, j ≠ e → (s.sectors j).store ≠ .storeEmpty := by
    by_cases hex : ∃ e, (s.sectors e).store = .storeEmpty
    · obtain ⟨e, he⟩ := hex
      exact ⟨e, fun j hj hs => hj (eq_of_count_le hfew hs he)⟩
    · exact ⟨⟨0, by decide⟩, fun j _ hs => hex ⟨j, hs⟩⟩
  have hfilled : ∀ j ∈ Finset.univ.erase e, sectorRoom - max len secRemainThreshold ≤ used (s.sectors j).nodes := by
    intro j hj
    have hne := Finset.ne_of_mem_erase hj
    cases hs : (s.sectors j).store with
    | storeEmpty => exact absurd hs (he j hne)
    | storeUsing =>
      have hroom : ¬ len < sectorRoom - used (s.sectors j).nodes := fun hlt => hno j hs ⟨hlt, .inl (hclean j)⟩
      omega
    | storeFull =>
      have := (h.sectors j).full hs
      unfold envMax at this
      omega
  have hcard : (Finset.univ.erase e).card = sectorNum - 1 := by
    rw [Finset.card_erase_of_mem (Finset.mem_univ e), Finset.card_univ, Fintype.card_fin]
  calc (sectorNum - 1) * (sectorRoom - max len secRemainThreshold)
      = (Finset.univ.erase e).card • (sectorRoom - max len secRemainThreshold) := by rw [hcard]; rfl
    _ ≤ ∑ j ∈ Finset.univ.erase e, used (s.sectors j).nodes := Finset.card_nsmul_le_sum _ _ _ hfilled
    _ ≤ ∑ j, used (s.sectors j).nodes := Finset.sum_le_sum_of_subset (Finset.erase_subset e _)
    _ = stored st.entries := sum_used h hclean hshow

/-! ## The allocation -/

/-- Sector `j` of `s'` is where the new node goes, and a sector is left to spare. -/
structure Placed (K : Set Key) (s : Ef) (len : Nat) (s' : Ef) (j : Fin sectorNum) : Prop where
  rests : s'.Rests K
  idle : s'.gcRequest = false
  holds : contents s'.sectors = contents s.sectors
  room : len < sectorRoom - used (s'.sectors j).nodes
  writable : (s'.sectors j).store ≠ .storeFull
  spare : ∃ i, i ≠ j ∧ (s'.sectors i).store = .storeEmpty

theorem Ef.Rests.withAlloc (h : s.Rests K) {table : List SectorCacheNode} (ht : SectorsKnown (EndsAt s.sectors) table)
    (gc : Bool) : Ef.Rests K { s with sectorCacheTable := table, gcRequest := gc } :=
  ⟨⟨h.ok.sectors, ht, h.ok.names, h.ok.named⟩, h.settled, h.last, h.spare⟩

theorem allocEnv_placed (h : s.Rests K) (hidle : s.gcRequest = false) (hlen : len ≤ envMax) :
    (∃ s' j, allocEnv s len = (s', some (s'.metaData j)) ∧ Placed K s len s' j) ∨
      ∃ s', allocEnv s len = (s', none) ∧ s'.Rests K ∧ s'.gcRequest = true ∧ s'.sectors = s.sectors ∧
        (∀ i, (s.sectors i).store = .storeUsing → ¬ Accepts s len i) ∧ s.count .storeEmpty ≤ gcEmptySecThreshold := by
  obtain ⟨table, gc, r, halloc, ht, hres⟩ := allocEnv_spec h.ok hlen
  obtain ⟨e, he⟩ := h.spare
  cases hres with
  | inUsing j hj hacc =>
    refine .inl ⟨_, j, halloc, h.withAlloc ht _, hidle, rfl, hacc.1, hj.trans_ne SectorStoreStatus.noConfusion, e, ?_,
      he⟩
    rintro rfl
    rw [he] at hj
    cases hj
  | inEmpty j hj hacc hno hmany =>
    have hmany := hmany.resolve_right (by rw [hidle]; exact Bool.false_ne_true)
    exact .inl ⟨_, j, halloc, h.withAlloc ht _, hidle, rfl, hacc.1, hj.trans_ne SectorStoreStatus.noConfusion,
      exists_other hmany j⟩
  | request hno _ hfew _ => exact .inr ⟨_, halloc, h.withAlloc ht _, rfl, rfl, hno, hfew⟩
  | nothing _ hzero => exact absurd (count_pos_iff.2 ⟨e, he⟩) (by rw [hzero]; exact Nat.lt_irrefl 0)

/-- There is room for a node unless the table fills all sectors but one. -/
theorem newEnv_spec (h : s.Rests K) (hidle : s.gcRequest = false) (hshow : Shows (contents s.sectors) st)
    (hlen : len ≤ envMax)
    (hroom : stored st.entries < (sectorNum - 1) * (sectorRoom - max len secRemainThreshold)) :
    ∃ s' j, newEnv s len = (s', some (s'.metaData j)) ∧ Placed K s len s' j := by
  rcases allocEnv_placed h hidle hlen with ⟨s', j, halloc, hp⟩ | ⟨s₁, halloc, hr, hgc, hf, -, hfew⟩
  · exact ⟨s', j, by simp only [newEnv, halloc], hp⟩
  · have hnew : newEnv s len = allocEnv (gcCollect s₁) len := by
      simp only [newEnv, halloc, if_pos hgc]
    obtain ⟨hr₂, hidle₂, hcont, hclean⟩ := gcCollect_spec hr hgc
    have hcount : s₁.count .storeEmpty = s.count .storeEmpty := by rw [Ef.count, Ef.count, hf]
    have hclean := hclean (hcount.trans_le hfew)
    rw [hf] at hcont
    rw [hnew]
    rcases allocEnv_placed hr₂ hidle₂ hlen with ⟨s', j, halloc, hp⟩ | ⟨_, -, -, -, -, hno, hfew⟩
    · exact ⟨s', j, halloc, hp.rests, hp.idle, hp.holds.trans hcont, hp.room, hp.writable, hp.spare⟩
    · exact absurd (stored_of_no_room hr₂.ok hclean (hcont.trans hshow) hfew hno) (not_le.2 hroom)

end

end Petbox.Easyflash
