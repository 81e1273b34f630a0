/-
The collection: the valid nodes of a dirty sector are moved away one by one and
the sector is formatted. While a sector is collected there is always room for
its next node: an empty sector, or one in use that has taken no more than what
lay before the node. So no node is lost, and afterwards there is an empty
sector again.
-/
import Petbox.Easyflash.Changes

namespace Petbox.Easyflash

open Log

section

variable {K : Set Key} {s : Ef} {i j : Fin sectorNum} {n : Node}

/-- Room for what follows `u` bytes of a sector that is collected. -/
def Space (f : Fin sectorNum → Sector) (u : Nat) : Prop :=
  (∃ j, (f j).store = .storeEmpty) ∨
    ∃ j, (f j).store = .storeUsing ∧ (f j).dirty = .dirtyFalse ∧ used (f j).nodes ≤ u

theorem Space.mono {f : Fin sectorNum → Sector} {u v : Nat} (h : Space f u) (huv : u ≤ v) : Space f v := by
  rcases h with h | ⟨j, hs, hd, hu⟩
  · exact .inl h
  · exact .inr ⟨j, hs, hd, hu.trans huv⟩

/-- With room the allocation for a node succeeds. -/
theorem Space.allocated (hgc : s.gcRequest = true) {u len : Nat} (hsp : Space s.sectors u)
    (hu : u + len < sectorRoom) {gc : Bool} {r : Option SectorMetaData} (ha : Allocated s len gc r) :
    gc = true ∧ ∃ j, r = some (s.metaData j) ∧ Accepts s len j ∧
      ((s.sectors j).store = .storeUsing ∨
        (s.sectors j).store = .storeEmpty ∧ ∀ i, (s.sectors i).store = .storeUsing → ¬ Accepts s len i) := by
  cases ha with
  | inUsing j hj hacc => exact ⟨hgc, j, rfl, hacc, .inl hj⟩
  | inEmpty j hj hacc hno => exact ⟨hgc, j, rfl, hacc, .inr ⟨hj, hno⟩⟩
  | request _ _ _ hfalse => exact absurd (hgc.symm.trans hfalse) (by decide)
  | nothing hno hzero =>
    rcases hsp with ⟨j, hj⟩ | ⟨j, hs, hd, hle⟩
    · exact absurd (count_pos_iff.2 ⟨j, hj⟩) (by rw [hzero]; exact Nat.lt_irrefl 0)
    · exact absurd ⟨by omega, .inl hd⟩ (hno j hs)

/-- What was room before is room still behind a node that sector `j` has taken
from sector `i`, or sector `j` is. -/
theorem Space.moved {f : Fin sectorNum → Sector} {u len : Nat} (hsp : Space f u) (hok : ∀ k, (f k).Ok)
    (hiempty : (f i).store ≠ .storeEmpty) (hidirty : (f i).dirty ≠ .dirtyFalse) (hji : j ≠ i)
    (hstore : (f j).store = .storeUsing ∨ (f j).store = .storeEmpty) (hlen : n.len = len) (hu : u + len ≤ envMax)
    (b : Sector) : Space (Function.update (Function.update f j ((f j).grown n)) i b) (u + len) := by
  have hstays : ∀ k, k ≠ i → k ≠ j → Function.update (Function.update f j ((f j).grown n)) i b k = f k :=
    fun k hki hkj => by rw [Function.update_of_ne hki, Function.update_of_ne hkj]
  have htaken : (f j).store = .storeEmpty ∨ used (f j).nodes + len ≤ envMax → (f j).dirty = .dirtyFalse →
      used (f j).nodes ≤ u → Space (Function.update (Function.update f j ((f j).grown n)) i b) (u + len) :=
    fun hor hd hle => by
      refine .inr ⟨j, ?_⟩
      rw [Function.update_of_ne hji, Function.update_self]
      refine ⟨if_pos (by rw [hlen]; exact hor), hd, ?_⟩
      simpa [Sector.grown, hlen] using hle
  rcases hstore with hs | hs
  · rcases hsp with ⟨k, hk⟩ | ⟨k, hks, hkd, hku⟩
    · have hki : k ≠ i := fun hki => hiempty (hki ▸ hk)
      have hkj : k ≠ j := fun hkj => by
        rw [hkj, hs] at hk
        cases hk
      exact .inl ⟨k, by rw [hstays k hki hkj]; exact hk⟩
    · have hki : k ≠ i := fun hki => hidirty (hki ▸ hkd)
      by_cases hkj : k = j
      · subst hkj
        exact htaken (.inr ((Nat.add_le_add_right hku _).trans hu)) hkd hku
      · refine .inr ⟨k, ?_⟩
        rw [hstays k hki hkj]
        exact ⟨hks, hkd, hku.trans (Nat.le_add_right _ _)⟩
  · have hnil := (hok j).empty_iff.1 hs
    refine htaken (.inl hs) ((hok j).fresh hnil) ?_
    rw [hnil, used_nil]
    exact Nat.zero_le _

/-- The caches after a node was written in sector `j`. -/
theorem known_grown (h : s.Ok K) {table : List SectorCacheNode}
    (ht : table = s.sectorCacheTable ∨ table = updateSectorCache s.sectorCacheTable j sectorSize)
    (hfit : used (s.sectors j).nodes + n.len < sectorRoom) :
    SectorsKnown (EndsAt (Function.update s.sectors j ((s.sectors j).grown n)))
      (updateSectorCache table j (sectorHdrDataSize + used (s.sectors j).nodes + n.len)) := by
  have hothers : SectorsKnown (fun i e => i ≠ j → EndsAt s.sectors i e) s.sectorCacheTable :=
    h.known.mono fun _ _ hP _ => hP
  have htable : SectorsKnown (fun i e => i ≠ j → EndsAt (Function.update s.sectors j ((s.sectors j).grown n)) i e)
      table := by
    rcases ht with rfl | rfl
    · exact hothers.mono fun i e hP hi => (endsAt_grown hi).2 (hP hi)
    · exact hothers.drop.mono fun i e hP hi => (endsAt_grown hi).2 hP.2
  have hroom := sectorRoom_eq
  have hsize := sectorSize_eq
  refine htable.put (Nat.add_pos_left (Nat.add_pos_left (by decide) _) _) (by unfold sectorHdrDataSize; omega) ?_
  rw [EndsAt, Function.update_self]
  exact ⟨by simp [Sector.grown, Nat.add_assoc], by simp [Sector.grown]⟩

/-! ## One node -/

theorem mark_mark (off : Nat) (st st' : EnvStatus) (ns : List Node) :
    mark Node.off off (fun n => { n with status := st' }) (mark Node.off off (fun n => { n with status := st }) ns) =
      mark Node.off off (fun n => { n with status := st' }) ns := by
  rw [mark, mark, mark, List.map_map]
  refine List.map_congr_left fun n _ => ?_
  by_cases h : n.off = off
  · simp [h]
  · simp [h]

/-- What moving the node `n` out of sector `i` comes to. -/
structure Moved (K : Set Key) (s : Ef) (i : Fin sectorNum) (n : Node) (s' : Ef) : Prop where
  ok : s'.Ok K
  gcRequest : s'.gcRequest = true
  last : s'.lastIsCompleteDel = false
  holds : contents s'.sectors = contents s.sectors
  nodes : (s'.sectors i).nodes = mark Node.off n.off (fun n => { n with status := .deleted }) (s.sectors i).nodes
  dirty : ∀ j, (s'.sectors j).dirty = (s.sectors j).dirty
  others : ∀ j, j ≠ i → ∀ m ∈ (s'.sectors j).nodes, m ∈ (s.sectors j).nodes ∨ m.status = .write
  space : n.off - sectorHdrDataSize + n.len ≤ envMax → Space s'.sectors (n.off - sectorHdrDataSize + n.len)

/-- Room is room still when a node of the collected sector `i` is prepared. -/
theorem Space.prepared {s₁ : Ef} {u : Nat} (hsp : Space s.sectors u) (hp : Prepared K s i n s₁)
    (hempty : (s.sectors i).store ≠ .storeEmpty) (hi : (s.sectors i).dirty = .dirtyGc) : Space s₁.sectors u := by
  rcases hsp with ⟨j, hj⟩ | ⟨j, hs, hd, hu⟩
  · have hji : j ≠ i := fun hji => hempty (hji ▸ hj)
    exact .inl ⟨j, by rw [hp.other hji]; exact hj⟩
  · have hji : j ≠ i := fun hji => absurd (hji ▸ hd) (by rw [hi]; decide)
    exact .inr ⟨j, by rw [hp.other hji]; exact ⟨hs, hd, hu⟩⟩

/-- For the prepared node `n` room is found in another sector. -/
theorem Space.elsewhere {s₁ : Ef} {u : Nat} (hsp : Space s₁.sectors u) (hp : Prepared K s i n s₁)
    (hgc : s.gcRequest = true) (hi : (s.sectors i).dirty = .dirtyGc) (hlen : n.len ≤ envMax)
    (hu : u + n.len < sectorRoom) :
    ∃ table j, allocEnv s₁ n.len = ({ s₁ with sectorCacheTable := table, gcRequest := true }, some (s₁.metaData j)) ∧
      SectorsKnown (EndsAt s₁.sectors) table ∧ j ≠ i ∧ n.len < sectorRoom - used (s₁.sectors j).nodes ∧
      ((s₁.sectors j).store = .storeUsing ∨ (s₁.sectors j).store = .storeEmpty) := by
  obtain ⟨table, gc, r, halloc, ht, hres⟩ := allocEnv_spec hp.ok hlen
  obtain ⟨rfl, j, rfl, hacc, hstore⟩ := hsp.allocated (hp.gcRequest.trans hgc) hu hres
  refine ⟨table, j, halloc, ht, ?_, hacc.1, hstore.imp_right And.left⟩
  rintro rfl
  have hdirty := hacc.2
  rw [hp.dirty hi, hi] at hdirty
  rcases hdirty with hd | ⟨hd, -⟩ <;> cases hd

/-- The prepared node `n` is written there, and the caches are told. -/
theorem copy_spec {s₁ : Ef} (hp : Prepared K s i n s₁) (hgc : s.gcRequest = true)
    (hi : (s.sectors i).dirty = .dirtyGc) (hlen : n.len ≤ envMax) (hname : n.name ∈ K) (hst : n.status = .write)
    (hdel : delEnvAt s none ⟨i, n.off⟩ false = s₁) {u : Nat} (hsp : Space s₁.sectors u) (hu : u + n.len < sectorRoom) :
    ∃ j s₂, moveEnv s ⟨i, n.off⟩ n = (delEnvAt s₂ none ⟨i, n.off⟩ true, .noErr) ∧ j ≠ i ∧
      ((s₁.sectors j).store = .storeUsing ∨ (s₁.sectors j).store = .storeEmpty) ∧ s₂.gcRequest = true ∧
      Replaced K s₁ i j n (s₁.newNode j n.name n.value) s₂ := by
  obtain ⟨table, j, halloc, ht, hji, hroom, hstore⟩ := hsp.elsewhere hp hgc hi hlen hu
  have hfull : (s₁.sectors j).store ≠ .storeFull := by
    rcases hstore with hs | hs <;> rw [hs] <;> decide
  have hfit : used (s₁.sectors j).nodes + n.len < sectorRoom := by omega
  have hwrite := (write_grown (s := { s₁ with sectorCacheTable := table, gcRequest := true }) (hp.ok.sectors j) hfull
    hroom).1
  dsimp only at hwrite
  generalize hm : s₁.newNode j n.name n.value = m
  rw [show (⟨sectorHdrDataSize + used (s₁.sectors j).nodes, .write, n.name, n.value⟩ : Node) = m from hm] at hwrite
  generalize htable : (if ((s₁.sectors j).grown m).store = .storeFull then updateSectorCache table j sectorSize
    else table) = table' at hwrite
  have htable' : table' = table ∨ table' = updateSectorCache table j sectorSize := by
    rw [← htable]
    split
    · exact .inr rfl
    · exact .inl rfl
  have hmst : m.status = .write := by rw [← hm]; rfl
  have hmoff : m.off = sectorHdrDataSize + used (s₁.sectors j).nodes := by rw [← hm]; rfl
  have hmname : m.name = n.name := by rw [← hm]; rfl
  have hmlen : m.len = n.len := by rw [← hm]; rfl
  refine ⟨j, {
    sectors := Function.update s₁.sectors j ((s₁.sectors j).grown m)
    sectorCacheTable := updateSectorCache table' j (sectorHdrDataSize + used (s₁.sectors j).nodes + n.len)
    envCacheTable := updateEnvCache s₁.envCacheTable n.name ⟨j, sectorHdrDataSize + used (s₁.sectors j).nodes⟩
    gcRequest := true
    lastIsCompleteDel := s₁.lastIsCompleteDel }, ?_, hji, hstore, rfl, ?_⟩
  · simp only [moveEnv, if_pos hst, hdel, halloc]
    exact congrArg (fun t : Ef => (delEnvAt { t with
      sectorCacheTable := updateSectorCache t.sectorCacheTable j (sectorHdrDataSize + used (s₁.sectors j).nodes + n.len)
      envCacheTable := updateEnvCache t.envCacheTable n.name ⟨j, sectorHdrDataSize + used (s₁.sectors j).nodes⟩ }
      none ⟨i, n.off⟩ true, EfErrCode.noErr)) hwrite
  · have hnames : NamesKnown
        (fun crc a => a ≠ ⟨i, n.off⟩ ∧ Points (Function.update s₁.sectors j ((s₁.sectors j).grown m)) crc a)
        (updateEnvCache s₁.envCacheTable n.name ⟨j, sectorHdrDataSize + used (s₁.sectors j).nodes⟩) := by
      have hreplaced := names_replaced hp.ok hp.mem hmst hmname fun ha => hji (congrArg Addr.sector ha)
      rwa [hmname, hmoff] at hreplaced
    rw [hm]
    refine ⟨?_, rfl, hnames, hp.last⟩
    refine hp.ok.grow hfull hmoff (hmlen.trans_le hlen) (by rw [hmlen]; exact hfit) hmst (by rw [hmname]; exact hname)
      rfl ?_ (hnames.mono fun _ _ hP => hP.2)
    rw [← hmlen]
    exact known_grown (hp.ok.withSectorCache ht) htable' (by rw [hmlen]; exact hfit)

theorem moveEnv_spec (h : s.Ok K) (hgc : s.gcRequest = true) (hi : (s.sectors i).dirty = .dirtyGc)
    (hn : n ∈ (s.sectors i).nodes) (hst : n.status = .write) (hsp : Space s.sectors (n.off - sectorHdrDataSize)) :
    ∃ s', moveEnv s ⟨i, n.off⟩ n = (s', .noErr) ∧ Moved K s i n s' := by
  have hbound : n.off - sectorHdrDataSize + n.len < sectorRoom := by
    have := (h.sectors i).laid.bounds hn
    have := (h.sectors i).fits
    omega
  have hp := prepare_spec h hn hst none
  generalize hdel : delEnvAt s none ⟨i, n.off⟩ false = s₁ at hp
  have hempty := (h.sectors i).not_empty hn
  have hsp₁ := hsp.prepared hp hempty hi
  obtain ⟨j, s₂, hmove, hji, hstore, hgc₂, hw⟩ := copy_spec hp hgc hi ((h.sectors i).small n hn) (h.named i n hn) hst
    hdel hsp₁ hbound
  refine ⟨_, hmove, ?_⟩
  have hok := hw.delete_ok hp.mem none
  have hcont := hw.delete_contents hp.mem rfl none
  rw [delEnvAt_complete hw.last] at hok hcont ⊢
  have hself : s₂.sectors i = (s.sectors i).kill n.off .preDelete := by
    rw [hw.sectors, Function.update_of_ne hji.symm, hp.self]
  refine {
    ok := hok
    gcRequest := hgc₂
    last := rfl
    holds := hcont.trans hp.holds
    nodes := ?_
    dirty := fun k => ?_
    others := fun k hki m hm => ?_
    space := fun hu => ?_ }
  · dsimp only
    rw [Function.update_self, kill_nodes, hself, kill_nodes, mark_mark]
  · dsimp only
    by_cases hki : k = i
    · rw [hki, Function.update_self, hself, Sector.kill, Sector.kill, hi]
      rfl
    · rw [Function.update_of_ne hki, ← hp.dirty hi, hw.sectors]
      by_cases hkj : k = j
      · rw [hkj, Function.update_self]
        rfl
      · rw [Function.update_of_ne hkj]
  · dsimp only at hm
    rw [Function.update_of_ne hki, hw.sectors] at hm
    by_cases hkj : k = j
    · subst hkj
      rw [Function.update_self] at hm
      rcases List.mem_append.1 hm with hm | hm
      · exact .inl (hp.other hki ▸ hm)
      · exact .inr (by rw [List.mem_singleton.1 hm]; rfl)
    · rw [Function.update_of_ne hkj, hp.other hki] at hm
      exact .inl hm
  · dsimp only
    rw [hw.sectors]
    exact hsp₁.moved (n := s₁.newNode j n.name n.value) hp.ok.sectors (by rw [hp.store]; exact hempty)
      (by rw [hp.dirty hi, hi]; exact SectorDirtyStatus.noConfusion) hji hstore rfl hu _

/-! ## A sector -/

/-- What the collection of a sector keeps, whatever it has done so far. -/
structure Collecting (K : Set Key) (s₀ s : Ef) (i : Fin sectorNum) : Prop where
  ok : s.Ok K
  gcRequest : s.gcRequest = true
  last : s.lastIsCompleteDel = false
  holds : contents s.sectors = contents s₀.sectors
  dirty : ∀ j, (s.sectors j).dirty = (s₀.sectors j).dirty
  collected : (s.sectors i).dirty = .dirtyGc
  others : ∀ j, j ≠ i → ∀ n ∈ (s.sectors j).nodes, n.status = .write ∨ n.status = .deleted

theorem Collecting.move {s₀ s' : Ef} (h : Collecting K s₀ s i) (hm : Moved K s i n s') : Collecting K s₀ s' i where
  ok := hm.ok
  gcRequest := hm.gcRequest
  last := hm.last
  holds := hm.holds.trans h.holds
  dirty j := (hm.dirty j).trans (h.dirty j)
  collected := (hm.dirty i).trans h.collected
  others j hj m hm' := by
    rcases hm.others j hj m hm' with hmem | hst
    · exact h.others j hj m hmem
    · exact .inl hst

/-- The loop of `do_gc`: of the nodes of the sector the first are deleted, and there is room for the rest. -/
theorem gcLoop_spec {s₀ : Ef} (rest : List Node) (done : List Node) (s : Ef) (h : Collecting K s₀ s i)
    (hnodes : (s.sectors i).nodes = done ++ rest) (hdone : ∀ n ∈ done, n.status = .deleted)
    (hrest : ∀ n ∈ rest, n.status = .write ∨ n.status = .deleted) (hsp : rest ≠ [] → Space s.sectors (used done)) :
    Collecting K s₀ (gcLoop i (rest.map Node.off) s) i ∧
      ∀ n ∈ ((gcLoop i (rest.map Node.off) s).sectors i).nodes, n.status = .deleted := by
  induction rest generalizing done s with
  | nil => exact ⟨h, by rw [List.append_nil] at hnodes; exact fun n hn => hdone n (hnodes ▸ hn)⟩
  | cons n rest ih =>
    have hlaid := (h.ok.sectors i).laid
    have hn : n ∈ (s.sectors i).nodes := by rw [hnodes]; exact List.mem_append_cons_self
    have hat := nodeAt_eq (h.ok.sectors i) hn
    rw [hnodes] at hlaid
    have hoff : n.off = sectorHdrDataSize + used done := hlaid.behind.1
    have hnext : rest ≠ [] → used done + n.len ≤ envMax := fun hne => by
      obtain ⟨m, ms, rfl⟩ := List.exists_cons_of_ne_nil hne
      have hm : m.off = sectorHdrDataSize + used done + n.len := hlaid.behind.2.1
      have := (h.ok.sectors i).starts m (by rw [hnodes]; simp)
      omega
    obtain ⟨hnst, hrest⟩ := List.forall_mem_cons.1 hrest
    have hsp := hsp (List.cons_ne_nil n rest)
    have hdone' : ∀ (m : Node), m.status = .deleted → ∀ n ∈ done ++ [m], n.status = .deleted := fun m hm n hn => by
      rcases List.mem_append.1 hn with hn | hn
      · exact hdone n hn
      · rw [List.mem_singleton.1 hn, hm]
    rcases hnst with hst | hst
    · -- a valid node is moved
      have hu : n.off - sectorHdrDataSize = used done := by omega
      obtain ⟨s', hmove, hm⟩ := moveEnv_spec h.ok h.gcRequest h.collected hn hst (hu.symm ▸ hsp)
      have hstep : gcLoop i ((n :: rest).map Node.off) s = gcLoop i (rest.map Node.off) s' := by
        simp only [List.map_cons, gcLoop, hat, if_pos (Or.inl hst : n.status = .write ∨ n.status = .preDelete), hmove]
      have hnodes' : (s'.sectors i).nodes = (done ++ [{ n with status := .deleted }]) ++ rest := by
        rw [hm.nodes, hnodes, mark_middle (by rw [← hnodes]; exact (h.ok.sectors i).laid.nodup) rfl, List.append_assoc]
        rfl
      rw [hstep]
      refine ih (done ++ [{ n with status := .deleted }]) s' (h.move hm) hnodes' (hdone' _ rfl) hrest fun hne => ?_
      have hused : used (done ++ [{ n with status := .deleted }]) = n.off - sectorHdrDataSize + n.len := by
        rw [used_append, used_cons, used_nil, hu]
        rfl
      rw [hused]
      exact hm.space (hu.symm ▸ hnext hne)
    · -- a deleted one is passed over
      have hstep : gcLoop i ((n :: rest).map Node.off) s = gcLoop i (rest.map Node.off) s := by
        simp [gcLoop, hat, hst]
      rw [hstep]
      refine ih (done ++ [n]) s h (by rw [hnodes, List.append_assoc]; rfl) (hdone' n hst) hrest fun _ => ?_
      exact hsp.mono (by rw [used_append]; exact Nat.le_add_right _ _)

/-! ## The collection -/

/-- The store between two operations, but for the request of a collection. -/
structure Ef.Rests (K : Set Key) (s : Ef) : Prop where
  ok : s.Ok K
  settled : Settled s.sectors
  last : s.lastIsCompleteDel = false
  spare : ∃ j, (s.sectors j).store = .storeEmpty

theorem setSector_self (s : Ef) (i : Fin sectorNum) (b : Sector) : (s.setSector i b).sectors i = b :=
  Function.update_self ..

theorem setSector_other (s : Ef) (b : Sector) (h : j ≠ i) : (s.setSector i b).sectors j = s.sectors j :=
  Function.update_of_ne h ..

theorem mark_dirty_nodes (s : Ef) (i j : Fin sectorNum) (dirty : SectorDirtyStatus) :
    ((s.setSector i { s.sectors i with dirty }).sectors j).nodes = (s.sectors j).nodes := by
  by_cases hj : j = i
  · rw [hj, setSector_self]
  · rw [setSector_other s _ hj]

theorem Ef.Ok.collected (h : s.Ok K) (hd : (s.sectors i).dirty ≠ .dirtyFalse) :
    (s.setSector i { s.sectors i with dirty := .dirtyGc }).Ok K where
  sectors := by
    have hi := h.sectors i
    refine (Function.forall_update_iff _ fun _ (b : Sector) => b.Ok).2 ⟨?_, fun j _ => h.sectors j⟩
    exact ⟨hi.laid, hi.starts, hi.small, hi.fits, hi.empty_iff, hi.room, hi.full, (fun hc => nomatch hc),
      fun hnil => absurd (hi.fresh hnil) hd⟩
  known := h.known.mono fun j e hP => by
    rw [EndsAt, mark_dirty_nodes]
    exact hP
  names := NamesKnown.mono h.names fun crc a hP => by
    rw [Points, mark_dirty_nodes]
    exact hP
  named := (Function.forall_update_iff _ fun _ (b : Sector) => ∀ n ∈ b.nodes, n.name ∈ K).2
    ⟨h.named i, fun j _ => h.named j⟩

/-- A dirty sector is marked, and its nodes are moved away. -/
theorem gcSector_spec {s₀ : Ef} (h : s.Rests K) (hgc : s.gcRequest = true) (hd : (s.sectors i).dirty ≠ .dirtyFalse)
    (hs₀ : s.setSector i { s.sectors i with dirty := .dirtyGc } = s₀) :
    Collecting K s₀ (gcLoop i ((s₀.found i).map Node.off) s₀) i ∧
      ∀ n ∈ ((gcLoop i ((s₀.found i).map Node.off) s₀).sectors i).nodes, n.status = .deleted := by
  have hok : s₀.Ok K := hs₀ ▸ h.ok.collected hd
  have hset : Settled s₀.sectors := fun j => by
    rw [← hs₀, mark_dirty_nodes]
    exact h.settled j
  have hcoll : Collecting K s₀ s₀ i := {
    ok := hok
    gcRequest := by rw [← hs₀]; exact hgc
    last := by rw [← hs₀]; exact h.last
    holds := rfl
    dirty := fun _ => rfl
    collected := by rw [← hs₀, setSector_self]
    others := fun j _ => hset j }
  obtain ⟨e, he⟩ := h.spare
  have hei : e ≠ i := by
    rintro rfl
    exact hd ((h.ok.sectors e).fresh ((h.ok.sectors e).empty_iff.1 he))
  have hspare : (s₀.sectors e).store = .storeEmpty := by
    rw [← hs₀, setSector_other s _ hei]
    exact he
  rw [hok.found i]
  exact gcLoop_spec (s₀.sectors i).nodes [] s₀ hcoll rfl (fun _ hn => nomatch hn) (hset i) fun _ => .inl ⟨e, hspare⟩

/-- The emptied sector is formatted. -/
theorem Collecting.format {s₀ : Ef} (h : Collecting K s₀ s i) (hdel : ∀ n ∈ (s.sectors i).nodes, n.status = .deleted) :
    (formatSector s i).Rests K ∧ contents (formatSector s i).sectors = contents s₀.sectors ∧
      ((formatSector s i).sectors i).dirty = .dirtyFalse ∧
      ∀ j, j ≠ i → ((formatSector s i).sectors j).dirty = (s₀.sectors j).dirty := by
  refine ⟨⟨h.ok.format hdel, ?_, h.last, i, ?_⟩, (contents_format hdel).trans h.holds, ?_, fun j hj => ?_⟩
  · rw [formatSector_sectors]
    exact Settled.update (fun _ hn => absurd hn List.not_mem_nil) h.others
  · rw [formatSector_sectors, Function.update_self]
    rfl
  · rw [formatSector_sectors, Function.update_self]
    rfl
  · rw [formatSector_sectors, Function.update_of_ne hj, h.dirty j]

/-- One sector is collected: nothing is lost, and it is clean. -/
theorem doGc_spec (h : s.Rests K) (hgc : s.gcRequest = true) (i : Fin sectorNum) :
    (doGc s i).Rests K ∧ (doGc s i).gcRequest = true ∧ contents (doGc s i).sectors = contents s.sectors ∧
      ((doGc s i).sectors i).dirty = .dirtyFalse ∧
      ∀ j, (s.sectors j).dirty = .dirtyFalse → ((doGc s i).sectors j).dirty = .dirtyFalse := by
  by_cases hd : (s.sectors i).dirty = .dirtyFalse
  · have hsame : doGc s i = s := by
      unfold doGc
      rw [hd]
      exact if_neg fun hc => hc.elim SectorDirtyStatus.noConfusion SectorDirtyStatus.noConfusion
    rw [hsame]
    exact ⟨h, hgc, rfl, hd, fun _ hj => hj⟩
  · have hdirty : (s.sectors i).dirty = .dirtyTrue ∨ (s.sectors i).dirty = .dirtyGc := by
      cases hc : (s.sectors i).dirty with
      | dirtyFalse => exact absurd hc hd
      | dirtyTrue => exact .inl rfl
      | dirtyGc => exact .inr rfl
    generalize hs₀ : s.setSector i { s.sectors i with dirty := .dirtyGc } = s₀
    obtain ⟨hc, hdel⟩ := gcSector_spec h hgc hd hs₀
    have heq : doGc s i = formatSector (gcLoop i ((s₀.found i).map Node.off) s₀) i := by
      rw [← hs₀]
      exact if_pos hdirty
    obtain ⟨hr, hcont, hclean, hrest⟩ := hc.format hdel
    rw [heq]
    refine ⟨hr, hc.gcRequest, hcont.trans ?_, hclean, fun j hj => ?_⟩
    · rw [← hs₀]
      exact congrArg (held Node.live Node.item) (funext fun j => mark_dirty_nodes s i j _)
    · by_cases hji : j = i
      · rw [hji]
        exact hclean
      · rw [hrest j hji, ← hs₀, setSector_other s _ hji]
        exact hj

theorem collectAll_spec (js : List (Fin sectorNum)) (s : Ef) (h : s.Rests K) (hgc : s.gcRequest = true) :
    (js.foldl doGc s).Rests K ∧ contents (js.foldl doGc s).sectors = contents s.sectors ∧
      ∀ j, j ∈ js ∨ (s.sectors j).dirty = .dirtyFalse → ((js.foldl doGc s).sectors j).dirty = .dirtyFalse := by
  induction js generalizing s with
  | nil => exact ⟨h, rfl, fun j hj => hj.resolve_left List.not_mem_nil⟩
  | cons i js ih =>
    obtain ⟨hr, hg, hcont, hclean, hstay⟩ := doGc_spec h hgc i
    obtain ⟨hr', hcont', hclean'⟩ := ih (doGc s i) hr hg
    rw [List.foldl_cons]
    refine ⟨hr', hcont'.trans hcont, fun j hj => hclean' j ?_⟩
    rcases hj with hj | hj
    · rcases List.mem_cons.1 hj with rfl | hj
      · exact .inr hclean
      · exact .inl hj
    · exact .inr (hstay j hj)

/-- A collection loses nothing, leaves an empty sector, and when there was only
one no sector is dirty afterwards. -/
theorem gcCollect_spec (h : s.Rests K) (hgc : s.gcRequest = true) :
    (gcCollect s).Rests K ∧ (gcCollect s).gcRequest = false ∧ contents (gcCollect s).sectors = contents s.sectors ∧
      (s.count .storeEmpty ≤ gcEmptySecThreshold → ∀ j, ((gcCollect s).sectors j).dirty = .dirtyFalse) := by
  have hdone : ∀ t : Ef, t.Rests K → ({ t with gcRequest := false } : Ef).Rests K := fun t ht =>
    ⟨⟨ht.ok.sectors, ht.ok.known, ht.ok.names, ht.ok.named⟩, ht.settled, ht.last, ht.spare⟩
  by_cases hfew : s.count .storeEmpty ≤ gcEmptySecThreshold
  · obtain ⟨hr, hcont, hclean⟩ := collectAll_spec (List.finRange sectorNum) s h hgc
    have heq : gcCollect s = { (List.finRange sectorNum).foldl doGc s with gcRequest := false } := by
      rw [gcCollect, if_pos hfew]
    generalize (List.finRange sectorNum).foldl doGc s = t at hr hcont hclean heq
    rw [heq]
    exact ⟨hdone t hr, rfl, hcont, fun _ j => hclean j (.inl (List.mem_finRange j))⟩
  · have heq : gcCollect s = { s with gcRequest := false } := by
      rw [gcCollect, if_neg hfew]
    rw [heq]
    exact ⟨hdone s h, rfl, rfl, fun hle => absurd hle hfew⟩

end

end Petbox.Easyflash
