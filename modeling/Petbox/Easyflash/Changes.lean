/-
The three changes of the store, as steps of the whole state: a node changes its
status, a node is written, a sector is formatted. Each says what it does to the
flash, what is left for the caches to know, and what the store then holds.
-/
import Petbox.Easyflash.Sectors

namespace Petbox.Easyflash

open Log

section

variable {K : Set Key} {s s' : Ef} {j : Fin sectorNum} {n : Node}

/-! ## A status changes -/

theorem delEnvAt_pre (s : Ef) (key : Option Key) (a : Addr) :
    delEnvAt s key a false = { s with
      sectors := Function.update s.sectors a.sector ((s.sectors a.sector).kill a.off .preDelete)
      lastIsCompleteDel := true } := by
  by_cases hd : (s.sectors a.sector).dirty = .dirtyFalse <;>
    simp [delEnvAt, Ef.writeStatus, Ef.setSector, Sector.kill, hd]

theorem delEnvAt_complete {s : Ef} (hlast : s.lastIsCompleteDel = true) (key : Option Key) (a : Addr) :
    delEnvAt s key a true = { s with
      sectors := Function.update s.sectors a.sector ((s.sectors a.sector).kill a.off .deleted)
      lastIsCompleteDel := false } := by
  by_cases hd : (s.sectors a.sector).dirty = .dirtyFalse <;>
    simp [delEnvAt, Ef.writeStatus, Ef.setSector, Sector.kill, hd, hlast]

theorem delEnvAt_drop {s : Ef} (hlast : s.lastIsCompleteDel = false) (key : Key) (a : Addr) :
    delEnvAt s (some key) a true = { s with
      sectors := Function.update s.sectors a.sector ((s.sectors a.sector).kill a.off .deleted)
      envCacheTable := dropEnvCache s.envCacheTable key
      lastIsCompleteDel := false } := by
  by_cases hd : (s.sectors a.sector).dirty = .dirtyFalse <;>
    simp [delEnvAt, Ef.writeStatus, Ef.setSector, Sector.kill, hd, hlast]

theorem kill_nodes (b : Sector) (off : Nat) (status : EnvStatus) :
    (b.kill off status).nodes = mark Node.off off (fun n => { n with status }) b.nodes := rfl

theorem endsAt_kill {off : Nat} {status : EnvStatus} {i : Fin sectorNum} {e : Nat} (h : EndsAt s.sectors i e) :
    EndsAt (Function.update s.sectors j ((s.sectors j).kill off status)) i e := by
  by_cases hi : i = j
  · subst hi
    rw [EndsAt, Function.update_self, kill_nodes, used_mark]
    exact ⟨h.1, fun hnil => h.2 (List.map_eq_nil_iff.1 hnil)⟩
  · rwa [EndsAt, Function.update_of_ne hi]

/-- The address of a deleted node is the only one that is lost. -/
theorem points_kill {off : Nat} {status : EnvStatus} {crc : UInt16} {a : Addr} (h : Points s.sectors crc a)
    (ha : status = .deleted → a ≠ ⟨j, off⟩) :
    Points (Function.update s.sectors j ((s.sectors j).kill off status)) crc a := by
  obtain ⟨n, hn, hoff, hst, hcrc⟩ := h
  by_cases hi : a.sector = j
  · by_cases ho : n.off = off
    · refine ⟨{ n with status }, ?_, hoff, fun hdel => ha hdel ?_, hcrc⟩
      · rw [hi, Function.update_self, kill_nodes]
        exact mem_mark_self (hi ▸ hn) ho
      · exact (congrArg₂ Addr.mk hi (hoff.symm.trans ho) : Addr.mk a.sector a.off = ⟨j, off⟩)
    · refine ⟨n, ?_, hoff, hst, hcrc⟩
      rw [hi, Function.update_self, kill_nodes]
      exact mem_mark_of_ne (hi ▸ hn) ho
  · refine ⟨n, ?_, hoff, hst, hcrc⟩
    rwa [Function.update_of_ne hi]

theorem Ef.Ok.kill (h : s.Ok K) (hn : n ∈ (s.sectors j).nodes) {status : EnvStatus}
    (hf : s'.sectors = Function.update s.sectors j ((s.sectors j).kill n.off status))
    (hc : s'.sectorCacheTable = s.sectorCacheTable)
    (hnames : NamesKnown (fun crc a => (status = .deleted → a ≠ ⟨j, n.off⟩) ∧ Points s.sectors crc a)
      s'.envCacheTable) : s'.Ok K where
  sectors := by
    rw [hf]
    exact (Function.forall_update_iff _ fun _ (b : Sector) => b.Ok).2
      ⟨(h.sectors j).kill hn _ _, fun i _ => h.sectors i⟩
  known := by
    rw [hf, hc]
    exact h.known.mono fun _ _ => endsAt_kill
  names := by
    rw [hf]
    exact hnames.mono fun _ _ hP => points_kill hP.2 hP.1
  named := by
    rw [hf]
    refine (Function.forall_update_iff _ fun _ (b : Sector) => ∀ n ∈ b.nodes, n.name ∈ K).2
      ⟨fun m hm => ?_, fun i _ => h.named i⟩
    obtain ⟨m', hm', -, hname, -⟩ := of_mem_mark hm
    exact hname ▸ h.named j m' hm'

/-- A node that is no longer valid is taken out of what the store holds. -/
theorem contents_kill (h : (s.sectors j).Ok) (hn : n ∈ (s.sectors j).nodes) (hst : n.status = .write)
    {status : EnvStatus} (hstatus : status ≠ .write) :
    contents (Function.update s.sectors j ((s.sectors j).kill n.off status)) + {n.item} = contents s.sectors := by
  obtain ⟨l₁, l₂, hsplit, hmark⟩ := mark_split (g := fun n => { n with status }) h.laid.nodup hn rfl
  rw [contents, nodes_update, kill_nodes, hmark]
  exact held_kill hsplit (decide_eq_true hst) (decide_eq_false hstatus)

theorem contents_kill_dead (h : (s.sectors j).Ok) (hn : n ∈ (s.sectors j).nodes) (hst : n.status ≠ .write)
    {status : EnvStatus} (hstatus : status ≠ .write) :
    contents (Function.update s.sectors j ((s.sectors j).kill n.off status)) = contents s.sectors := by
  obtain ⟨l₁, l₂, hsplit, hmark⟩ := mark_split (g := fun n => { n with status }) h.laid.nodup hn rfl
  rw [contents, nodes_update, kill_nodes, hmark]
  refine held_same ?_
  have hdead : ∀ m : Node, m.status ≠ .write → items Node.live Node.item [m] = 0 := fun m hm =>
    items_dead (decide_eq_false hm)
  rw [hsplit, ← List.singleton_append, ← List.singleton_append (x := n), items_append, items_append, items_append,
    items_append, hdead n hst, hdead _ hstatus]

/-- What is left when a valid node of sector `j` is prepared for its deletion. -/
structure Prepared (K : Set Key) (s : Ef) (j : Fin sectorNum) (n : Node) (s' : Ef) : Prop where
  ok : s'.Ok K
  sectors : s'.sectors = Function.update s.sectors j ((s.sectors j).kill n.off .preDelete)
  last : s'.lastIsCompleteDel = true
  gcRequest : s'.gcRequest = s.gcRequest
  holds : contents s'.sectors + {n.item} = contents s.sectors
  mem : { n with status := .preDelete } ∈ (s'.sectors j).nodes

theorem Prepared.self (h : Prepared K s j n s') : s'.sectors j = (s.sectors j).kill n.off .preDelete := by
  rw [h.sectors, Function.update_self]

theorem Prepared.other (h : Prepared K s j n s') {i : Fin sectorNum} (hi : i ≠ j) : s'.sectors i = s.sectors i := by
  rw [h.sectors, Function.update_of_ne hi]

theorem Prepared.store (h : Prepared K s j n s') (i : Fin sectorNum) :
    (s'.sectors i).store = (s.sectors i).store := by
  by_cases hi : i = j
  · rw [hi, h.self]
    rfl
  · rw [h.other hi]

theorem Prepared.used (h : Prepared K s j n s') (i : Fin sectorNum) :
    used (s'.sectors i).nodes = used (s.sectors i).nodes := by
  by_cases hi : i = j
  · rw [hi, h.self, kill_nodes, used_mark]
  · rw [h.other hi]

/-- A sector that is collected stays so. -/
theorem Prepared.dirty (h : Prepared K s j n s') (hj : (s.sectors j).dirty = .dirtyGc) (i : Fin sectorNum) :
    (s'.sectors i).dirty = (s.sectors i).dirty := by
  by_cases hi : i = j
  · rw [hi, h.self, Sector.kill, hj]
    rfl
  · rw [h.other hi]

theorem prepare_spec (h : s.Ok K) (hn : n ∈ (s.sectors j).nodes) (hst : n.status = .write) (key : Option Key) :
    Prepared K s j n (delEnvAt s key ⟨j, n.off⟩ false) := by
  rw [delEnvAt_pre]
  refine {
    ok := h.kill hn rfl rfl (h.names.mono fun _ _ hP => ⟨EnvStatus.noConfusion, hP⟩)
    sectors := rfl
    last := rfl
    gcRequest := rfl
    holds := contents_kill (h.sectors j) hn hst EnvStatus.noConfusion
    mem := ?_ }
  dsimp only
  rw [Function.update_self]
  exact mem_mark_self hn rfl

/-! ## A node is written -/

theorem endsAt_grown {i : Fin sectorNum} {e : Nat} (hi : i ≠ j) :
    EndsAt (Function.update s.sectors j ((s.sectors j).grown n)) i e ↔ EndsAt s.sectors i e := by
  rw [EndsAt, EndsAt, Function.update_of_ne hi]

theorem points_grown {crc : UInt16} {a : Addr} (h : Points s.sectors crc a) :
    Points (Function.update s.sectors j ((s.sectors j).grown n)) crc a := by
  obtain ⟨m, hm, hrest⟩ := h
  refine ⟨m, ?_, hrest⟩
  by_cases hi : a.sector = j
  · rw [hi, Function.update_self]
    exact List.mem_append_left _ (hi ▸ hm)
  · rwa [Function.update_of_ne hi]

theorem points_new (hst : n.status = .write) :
    Points (Function.update s.sectors j ((s.sectors j).grown n)) (nameCrc n.name) ⟨j, n.off⟩ := by
  refine ⟨n, ?_, rfl, by rw [hst]; exact EnvStatus.noConfusion, rfl⟩
  rw [Function.update_self]
  exact List.mem_append_right _ (List.mem_singleton_self n)

/-- A node with the name of an old one: the cache has its place, and the old place for no name. -/
theorem names_replaced (h : s.Ok K) {i : Fin sectorNum} {old : Node} (hold : old ∈ (s.sectors i).nodes)
    (hst : n.status = .write) (hname : n.name = old.name) (hne : (⟨j, n.off⟩ : Addr) ≠ ⟨i, old.off⟩) :
    NamesKnown (fun crc a => a ≠ ⟨i, old.off⟩ ∧ Points (Function.update s.sectors j ((s.sectors j).grown n)) crc a)
      (updateEnvCache s.envCacheTable n.name ⟨j, n.off⟩) := by
  refine h.names.put (fun crc a hcrc hP => ⟨fun ha => hcrc ?_, points_grown hP⟩) ⟨hne, points_new hst⟩
  obtain ⟨n', hn', hoff', -, rfl⟩ := hP
  subst ha
  dsimp only at hn' hoff'
  rw [(h.sectors i).laid.eq_of_off hn' hold hoff', hname]

theorem contents_grown (hst : n.status = .write) :
    contents (Function.update s.sectors j ((s.sectors j).grown n)) = contents s.sectors + {n.item} := by
  rw [contents, nodes_update]
  exact held_put (decide_eq_true hst)

theorem Ef.Ok.grow (h : s.Ok K) (hfull : (s.sectors j).store ≠ .storeFull)
    (hoff : n.off = sectorHdrDataSize + used (s.sectors j).nodes) (hlen : n.len ≤ envMax)
    (hfit : used (s.sectors j).nodes + n.len < sectorRoom) (hst : n.status = .write) (hname : n.name ∈ K)
    (hf : s'.sectors = Function.update s.sectors j ((s.sectors j).grown n))
    (hknown : SectorsKnown (EndsAt s'.sectors) s'.sectorCacheTable)
    (hnames : NamesKnown (Points s'.sectors) s'.envCacheTable) : s'.Ok K where
  sectors := by
    rw [hf]
    exact (Function.forall_update_iff _ fun _ (b : Sector) => b.Ok).2
      ⟨(h.sectors j).grown hfull hoff hlen hfit hst, fun i _ => h.sectors i⟩
  known := hknown
  names := hnames
  named := by
    rw [hf]
    refine (Function.forall_update_iff _ fun _ (b : Sector) => ∀ n ∈ b.nodes, n.name ∈ K).2
      ⟨fun m hm => ?_, fun i _ => h.named i⟩
    rcases List.mem_append.1 hm with hm | hm
    · exact h.named j m hm
    · exact List.mem_singleton.1 hm ▸ hname

theorem create_sectors {m : SectorMetaData} (hj : m.addr = j) {name : Key} {value : Value}
    (hbefore : ∀ n ∈ (s.sectors j).nodes, n.off ≠ m.emptyEnv) :
    s.create m name value = { s with
      sectors := Function.update s.sectors j { s.sectors j with
        nodes := (s.sectors j).nodes ++ [⟨m.emptyEnv, .write, name, value⟩] } } := by
  subst hj
  have hmark : mark Node.off m.emptyEnv (fun n => { n with status := .write })
      ((s.sectors m.addr).nodes ++ [⟨m.emptyEnv, .preWrite, name, value⟩]) =
      (s.sectors m.addr).nodes ++ [⟨m.emptyEnv, .write, name, value⟩] := by
    rw [mark, List.map_append, List.map_singleton, if_pos rfl]
    exact congrArg (· ++ _) (mark_absent hbefore)
  simp [Ef.create, Ef.writeNode, Ef.writeStatus, Ef.setSector, hmark]

/-- The sector status and the node together: the sector has grown, and the
cache forgets it when it has become full. -/
theorem write_grown (h : (s.sectors j).Ok) (hfull : (s.sectors j).store ≠ .storeFull) {name : Key} {value : Value}
    (hfit : envLen name.length value.length < sectorRoom - used (s.sectors j).nodes) :
    let b := (s.sectors j).grown ⟨sectorHdrDataSize + used (s.sectors j).nodes, .write, name, value⟩
    let r := updateSecStatus s (s.metaData j) (envLen name.length value.length)
    r.1.create (s.metaData j) name value = { s with
      sectors := Function.update s.sectors j b
      sectorCacheTable :=
        if b.store = .storeFull then updateSectorCache s.sectorCacheTable j sectorSize else s.sectorCacheTable } ∧
    (r.2 = some true ↔ b.store = .storeFull) := by
  have hbefore : ∀ n ∈ (s.sectors j).nodes, n.off ≠ sectorHdrDataSize + used (s.sectors j).nodes := fun n hn heq => by
    have := (h.laid.bounds hn).2
    have := n.len_pos
    omega
  have hcreate : ∀ t : Ef, (t.sectors j).nodes = (s.sectors j).nodes → t.create (s.metaData j) name value = { t with
      sectors := Function.update t.sectors j { t.sectors j with
        nodes := (t.sectors j).nodes ++ [⟨sectorHdrDataSize + used (s.sectors j).nodes, .write, name, value⟩] } } :=
    fun t ht => create_sectors rfl (ht ▸ hbefore)
  have hroom := sectorRoom_eq
  have hmax := envMax_eq
  dsimp only
  cases hs : (s.sectors j).store with
  | storeFull => exact absurd hs hfull
  | storeEmpty =>
    have hup : updateSecStatus s (s.metaData j) (envLen name.length value.length) =
        (s.setSector j { s.sectors j with store := .storeUsing }, none) := by
      simp only [updateSecStatus, Ef.metaData, hs]
    rw [hup, hcreate _ (by simp [Ef.setSector])]
    simp [Ef.setSector, Sector.grown, hs]
  | storeUsing =>
    have hle := h.room hs
    by_cases hfits : used (s.sectors j).nodes + envLen name.length value.length ≤ envMax
    · have hup : updateSecStatus s (s.metaData j) (envLen name.length value.length) = (s, some false) := by
        simp only [updateSecStatus, Ef.metaData, hs, secRemainThreshold, envHdrDataSize, envNameMax]
        rw [if_neg (by omega)]
      rw [hup, hcreate s rfl]
      simp [Sector.grown, hs, Node.len, hfits]
    · have hup : updateSecStatus s (s.metaData j) (envLen name.length value.length) =
          ({ s.setSector j { s.sectors j with store := .storeFull } with
            sectorCacheTable := updateSectorCache s.sectorCacheTable j sectorSize }, some true) := by
        simp only [updateSecStatus, Ef.metaData, hs, secRemainThreshold, envHdrDataSize, envNameMax]
        rw [if_pos (by omega)]
      rw [hup, hcreate _ (by simp [Ef.setSector])]
      simp [Ef.setSector, Sector.grown, hs, Node.len, hfits]

/-! ## A node is replaced -/

/-- The node that is written in sector `j` next. -/
def Ef.newNode (s : Ef) (j : Fin sectorNum) (key : Key) (value : Value) : Node :=
  ⟨sectorHdrDataSize + used (s.sectors j).nodes, .write, key, value⟩

/-- Where a new node goes no node lies. -/
theorem newNode_off_ne (h : (s.sectors j).Ok) {key : Key} {value : Value} (hn : n ∈ (s.sectors j).nodes) :
    n.off ≠ (s.newNode j key value).off := fun heq => by
  have hle := (h.laid.bounds hn).2
  have hpos := n.len_pos
  have hnew : (s.newNode j key value).off = sectorHdrDataSize + used (s.sectors j).nodes := rfl
  omega

/-- What is left when a node with the name of the prepared node `n` of sector
`i` has been written in sector `j`: the old place is known for no name. -/
structure Replaced (K : Set Key) (s : Ef) (i j : Fin sectorNum) (n m : Node) (s' : Ef) : Prop where
  ok : s'.Ok K
  sectors : s'.sectors = Function.update s.sectors j ((s.sectors j).grown m)
  names : NamesKnown (fun crc a => a ≠ ⟨i, n.off⟩ ∧ Points s'.sectors crc a) s'.envCacheTable
  last : s'.lastIsCompleteDel = true

section Replacing

variable {i : Fin sectorNum} {m : Node}

theorem Replaced.mem (h : Replaced K s i j n m s') (hn : { n with status := .preDelete } ∈ (s.sectors i).nodes) :
    { n with status := .preDelete } ∈ (s'.sectors i).nodes := by
  rw [h.sectors]
  by_cases hi : i = j
  · subst hi
    rw [Function.update_self]
    exact List.mem_append_left _ hn
  · rwa [Function.update_of_ne hi]

/-- The old node is deleted. -/
theorem Replaced.delete_ok (h : Replaced K s i j n m s') (hn : { n with status := .preDelete } ∈ (s.sectors i).nodes)
    (key : Option Key) : (delEnvAt s' key ⟨i, n.off⟩ true).Ok K := by
  rw [delEnvAt_complete h.last]
  exact h.ok.kill (n := { n with status := .preDelete }) (h.mem hn) rfl rfl
    (h.names.mono fun _ _ hP => ⟨fun _ => hP.1, hP.2⟩)

theorem Replaced.delete_contents (h : Replaced K s i j n m s')
    (hn : { n with status := .preDelete } ∈ (s.sectors i).nodes) (hst : m.status = .write) (key : Option Key) :
    contents (delEnvAt s' key ⟨i, n.off⟩ true).sectors = contents s.sectors + {m.item} := by
  rw [delEnvAt_complete h.last]
  refine (contents_kill_dead (h.ok.sectors i) (h.mem hn) EnvStatus.noConfusion EnvStatus.noConfusion).trans ?_
  rw [h.sectors, contents_grown hst]

end Replacing

/-! ## A sector is formatted -/

theorem formatSector_sectors (s : Ef) (j : Fin sectorNum) :
    (formatSector s j).sectors = Function.update s.sectors j Sector.formatted := rfl

theorem Ef.Ok.format (h : s.Ok K) (hdel : ∀ n ∈ (s.sectors j).nodes, n.status = .deleted) :
    (formatSector s j).Ok K where
  sectors := by
    rw [formatSector_sectors]
    exact (Function.forall_update_iff _ fun _ (b : Sector) => b.Ok).2 ⟨Sector.formatted_ok, fun i _ => h.sectors i⟩
  known := by
    have hothers : SectorsKnown (fun i e => i ≠ j → EndsAt s.sectors i e) s.sectorCacheTable :=
      h.known.mono fun _ _ hP _ => hP
    rw [formatSector_sectors]
    exact hothers.drop.mono fun i e hP => by rw [EndsAt, Function.update_of_ne hP.1]; exact hP.2
  names := by
    rw [formatSector_sectors]
    refine NamesKnown.mono h.names fun crc a hP => ?_
    obtain ⟨n, hn, hoff, hst, hcrc⟩ := hP
    have ha : a.sector ≠ j := fun ha => hst (hdel n (ha ▸ hn))
    exact ⟨n, by rwa [Function.update_of_ne ha], hoff, hst, hcrc⟩
  named := by
    rw [formatSector_sectors]
    exact (Function.forall_update_iff _ fun _ (b : Sector) => ∀ n ∈ b.nodes, n.name ∈ K).2
      ⟨fun _ hn => (nomatch hn), fun i _ => h.named i⟩

theorem contents_format (hdel : ∀ n ∈ (s.sectors j).nodes, n.status = .deleted) :
    contents (formatSector s j).sectors = contents s.sectors := by
  rw [formatSector_sectors, contents, nodes_update]
  refine held_wipe fun n hn => decide_eq_false ?_
  rw [hdel n hn]
  exact EnvStatus.noConfusion

/-! ## The nodes settle -/

section Settling

variable {f : Fin sectorNum → Sector} {i : Fin sectorNum} {off : Nat}

theorem Settled.update {b : Sector} (hb : ∀ n ∈ b.nodes, n.status = .write ∨ n.status = .deleted)
    (h : ∀ i, i ≠ j → ∀ n ∈ (f i).nodes, n.status = .write ∨ n.status = .deleted) : Settled (Function.update f j b) :=
  (Function.forall_update_iff _ fun _ (b : Sector) => ∀ n ∈ b.nodes, n.status = .write ∨ n.status = .deleted).2 ⟨hb, h⟩

/-- Every node is settled, but perhaps the one at `off` of sector `i`. -/
def SettledBut (f : Fin sectorNum → Sector) (i : Fin sectorNum) (off : Nat) : Prop :=
  ∀ k, ∀ n ∈ (f k).nodes, n.status = .write ∨ n.status = .deleted ∨ k = i ∧ n.off = off

theorem Settled.but (h : Settled f) : SettledBut f i off := fun k n hn => (h k n hn).imp_right .inl

theorem SettledBut.kill (h : SettledBut f i off) (status : EnvStatus) :
    SettledBut (Function.update f i ((f i).kill off status)) i off := fun k n hn => by
  by_cases hk : k = i
  · subst hk
    rw [Function.update_self] at hn
    obtain ⟨m, hm, hoff, -, -, hst⟩ := of_mem_mark hn
    by_cases ho : m.off = off
    · exact .inr (.inr ⟨rfl, hoff.trans ho⟩)
    · rw [hst, if_neg ho, hoff]
      exact h k m hm
  · rw [Function.update_of_ne hk] at hn
    exact h k n hn

theorem SettledBut.grown (h : SettledBut f i off) (hst : n.status = .write) :
    SettledBut (Function.update f j ((f j).grown n)) i off := fun k m hm => by
  by_cases hk : k = j
  · subst hk
    rw [Function.update_self] at hm
    rcases List.mem_append.1 hm with hm | hm
    · exact h k m hm
    · exact .inl (List.mem_singleton.1 hm ▸ hst)
  · rw [Function.update_of_ne hk] at hm
    exact h k m hm

/-- The deletion of the node settles the store. -/
theorem SettledBut.delete (h : SettledBut f i off) : Settled (Function.update f i ((f i).kill off .deleted)) := by
  refine Settled.update (fun n hn => ?_) fun k hk n hn => ?_
  · obtain ⟨m, hm, -, -, -, hst⟩ := of_mem_mark hn
    rw [hst]
    split
    · exact .inr rfl
    · rename_i hne
      exact (h i m hm).imp_right fun hor => hor.resolve_right fun hand => hne hand.2
  · exact (h k n hn).imp_right fun hor => hor.resolve_right fun hand => hk hand.1

end Settling

end

end Petbox.Easyflash
