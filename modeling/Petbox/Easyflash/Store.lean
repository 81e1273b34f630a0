/-
What the store is for: a table of names and values. Every operation does to the
flash what it does to the table, over every run, whatever is collected in
between and wherever the nodes lie.
-/
import Petbox.Easyflash.Room

namespace Petbox.Easyflash

open Log

section

variable {K : Set Key} {s : Ef} {j : Fin sectorNum} {st : Table} {key : Key} {value : Value}

/-- The store at rest holds the table. -/
structure Ef.Represents (K : Set Key) (s : Ef) (st : Table) : Prop where
  rests : s.Rests K
  idle : s.gcRequest = false
  holds : Shows (contents s.sectors) st

/-- A value fits: its node is not too long, and the table leaves room. -/
structure Fits (st : Table) (key : Key) (value : Value) : Prop where
  small : envLen key.length value.length ≤ envMax
  room : stored st.entries <
    (sectorNum - 1) * (sectorRoom - max (envLen key.length value.length) secRemainThreshold)

/-- The names are found anew, the rest stays. -/
theorem Ef.Rests.withNames (h : s.Rests K) {table : List EnvCacheNode} (ht : NamesKnown (Points s.sectors) table) :
    Ef.Rests K { s with envCacheTable := table } :=
  ⟨⟨h.ok.sectors, h.ok.known, ht, h.ok.named⟩, h.settled, h.last, h.spare⟩

/-- A requested collection at the end of an operation. -/
theorem Ef.Rests.collect (h : s.Rests K) (hholds : Shows (contents s.sectors) st) :
    (if s.gcRequest = true then gcCollect s else s).Represents K st := by
  by_cases hgc : s.gcRequest = true
  · rw [if_pos hgc]
    obtain ⟨hr, hidle, hcont, -⟩ := gcCollect_spec h hgc
    exact ⟨hr, hidle, hcont.trans hholds⟩
  · rw [if_neg hgc]
    exact ⟨h, Bool.eq_false_iff.2 hgc, hholds⟩

/-- A name without a valid node is not in the table. -/
theorem absent_of_not_found (hholds : Shows (contents s.sectors) st)
    (hno : ∀ j, ∀ n ∈ (s.sectors j).nodes, n.status = .write → n.name ≠ key) : key ∉ st :=
  hholds.absent fun _ hmem => by
    obtain ⟨j, n, hn, hst, hname, -⟩ := mem_contents.1 hmem
    exact hno j n hn hst hname

/-! ## Writing -/

theorem createEnvBlob_spec (h : s.Ok K) (hfull : (s.sectors j).store ≠ .storeFull) (hkey : key ∈ K)
    (hshort : key.length ≤ envNameMax) (hlen : envLen key.length value.length ≤ envMax)
    (hfit : envLen key.length value.length < sectorRoom - used (s.sectors j).nodes) (dirty : SectorDirtyStatus) :
    ∃ s', createEnvBlob s (some { s.metaData j with dirty }) key value = (s', .noErr) ∧ s'.Ok K ∧
      s'.sectors = Function.update s.sectors j ((s.sectors j).grown (s.newNode j key value)) ∧
      s'.envCacheTable = updateEnvCache s.envCacheTable key ⟨j, (s.newNode j key value).off⟩ ∧
      s'.lastIsCompleteDel = s.lastIsCompleteDel := by
  obtain ⟨hcreate, hfullIff⟩ := write_grown (h.sectors j) hfull hfit
  generalize hm : s.metaData j = m at hcreate hfullIff
  have haddr : m.addr = j := by rw [← hm]; rfl
  have hempty : m.emptyEnv = (s.newNode j key value).off := by rw [← hm]; rfl
  have hsmall : ¬ sectorSize - sectorHdrDataSize < envLen key.length value.length :=
    not_lt.2 (hlen.trans (by decide))
  generalize hn : s.newNode j key value = n at hempty
  rw [show (⟨sectorHdrDataSize + used (s.sectors j).nodes, .write, key, value⟩ : Node) = n from hn]
    at hcreate hfullIff
  have hlenN : n.len = envLen key.length value.length := by rw [← hn]; rfl
  have hoff : n.off = sectorHdrDataSize + used (s.sectors j).nodes := by rw [← hn]; rfl
  have hst : n.status = .write := by rw [← hn]; rfl
  have hname : n.name = key := by rw [← hn]; rfl
  have hfit' : used (s.sectors j).nodes + n.len < sectorRoom := by omega
  refine ⟨_, by simp only [createEnvBlob, if_neg (not_lt.2 hshort), if_neg hsmall, sectorFor]; rfl, ?_⟩
  generalize hr : updateSecStatus s { m with dirty } (envLen key.length value.length) = r
  have hr' : updateSecStatus s m (envLen key.length value.length) = r := hr
  rw [hr'] at hcreate hfullIff
  have hcreate' : r.1.create { m with dirty } key value = _ := hcreate
  rw [hcreate']
  have hnames : NamesKnown (Points (Function.update s.sectors j ((s.sectors j).grown n)))
      (updateEnvCache s.envCacheTable key ⟨j, n.off⟩) :=
    h.names.put (fun _ _ _ hP => points_grown hP) (hname ▸ points_new hst)
  refine ⟨h.grow hfull hoff (hlenN.trans_le hlen) hfit' hst (hname.symm ▸ hkey) rfl ?_ ?_, rfl, ?_, rfl⟩
  · dsimp only
    by_cases hb : ((s.sectors j).grown n).store = .storeFull
    · -- a full sector is forgotten
      rw [if_pos (hfullIff.2 hb), if_pos hb]
      have hothers : SectorsKnown (fun i e => i ≠ j → EndsAt s.sectors i e) s.sectorCacheTable :=
        h.known.mono fun _ _ hP _ => hP
      exact hothers.drop.mono fun i e hP => (endsAt_grown hP.1).2 hP.2
    · rw [if_neg (mt hfullIff.1 hb), if_neg hb, haddr, hempty, ← hlenN, hoff]
      exact known_grown h (.inl rfl) hfit'
  · dsimp only
    rw [haddr, hempty]
    exact hnames
  · dsimp only
    rw [haddr, hempty]

/-- A value for a name that the store has not. -/
theorem set_absent (hplaced : (s.sectors j).store ≠ .storeFull) (h : s.Rests K)
    (hspare : ∃ i, i ≠ j ∧ (s.sectors i).store = .storeEmpty) (hholds : Shows (contents s.sectors) st)
    (hkey : key ∈ K) (hshort : key.length ≤ envNameMax) (hlen : envLen key.length value.length ≤ envMax)
    (hfit : envLen key.length value.length < sectorRoom - used (s.sectors j).nodes) (habs : key ∉ st) :
    ∃ s', createEnvBlob s (some (s.metaData j)) key value = (s', .noErr) ∧ s'.Rests K ∧
      Shows (contents s'.sectors) (st.insert key value) := by
  obtain ⟨s', heq, hok, hf, -, hlast⟩ := createEnvBlob_spec h.ok hplaced hkey hshort hlen hfit (s.sectors j).dirty
  obtain ⟨i, hij, hi⟩ := hspare
  refine ⟨s', heq, ⟨hok, ?_, hlast.trans h.last, i, ?_⟩, ?_⟩
  · rw [hf]
    refine Settled.update (fun n hn => ?_) fun i _ => h.settled i
    rcases List.mem_append.1 hn with hn | hn
    · exact h.settled j n hn
    · exact .inl (by rw [List.mem_singleton.1 hn]; rfl)
  · rw [hf, Function.update_of_ne hij]
    exact hi
  · rw [hf, contents_grown rfl]
    exact Shows.put (hholds.erase_absent habs) value

/-- A new value for the name of the prepared node `n`. -/
theorem replace_spec {s₁ : Ef} {i : Fin sectorNum} {n : Node} (hp : Prepared K s i n s₁)
    (hplaced : (s.sectors j).store ≠ .storeFull) (hkey : key ∈ K) (hname : n.name = key)
    (hshort : key.length ≤ envNameMax) (hlen : envLen key.length value.length ≤ envMax)
    (hfit : envLen key.length value.length < sectorRoom - used (s.sectors j).nodes) :
    ∃ s₂, createEnvBlob s₁ (some (s.metaData j)) key value = (s₂, .noErr) ∧
      Replaced K s₁ i j n (s₁.newNode j key value) s₂ := by
  have hmeta : s.metaData j = { s₁.metaData j with dirty := (s.sectors j).dirty } := by
    rw [Ef.metaData, Ef.metaData, hp.store, hp.used]
  obtain ⟨s₂, heq, hok, hf, htable, hlast⟩ := createEnvBlob_spec hp.ok (by rw [hp.store]; exact hplaced) hkey hshort
    hlen (by rw [hp.used]; exact hfit) (s.sectors j).dirty
  refine ⟨s₂, hmeta ▸ heq, hok, hf, ?_, hlast.trans hp.last⟩
  -- the cache has the new place for the name, and no other place is lost
  have hne : (⟨j, (s₁.newNode j key value).off⟩ : Addr) ≠ ⟨i, n.off⟩ := fun ha => by
    obtain ⟨rfl, hoff⟩ := Addr.mk.inj ha
    exact newNode_off_ne (hp.ok.sectors j) hp.mem hoff.symm
  have hreplaced := names_replaced hp.ok hp.mem (n := s₁.newNode j key value) rfl hname.symm hne
  rw [htable, hf]
  exact hreplaced

/-- A value for a name whose node lies at `n`: the node is prepared for its
deletion, the new one is written, and then the old one is deleted. -/
theorem set_present (hplaced : (s.sectors j).store ≠ .storeFull) (h : s.Rests K)
    (hspare : ∃ i, i ≠ j ∧ (s.sectors i).store = .storeEmpty) (hholds : Shows (contents s.sectors) st)
    (hkey : key ∈ K) (hshort : key.length ≤ envNameMax) (hlen : envLen key.length value.length ≤ envMax)
    (hfit : envLen key.length value.length < sectorRoom - used (s.sectors j).nodes)
    {i : Fin sectorNum} {n : Node} (hn : n ∈ (s.sectors i).nodes) (hst : n.status = .write) (hname : n.name = key) :
    ∃ s', createEnvBlob (delEnvAt s (some key) ⟨i, n.off⟩ false) (some (s.metaData j)) key value = (s', .noErr) ∧
      (delEnvAt s' (some key) ⟨i, n.off⟩ true).Rests K ∧
      Shows (contents (delEnvAt s' (some key) ⟨i, n.off⟩ true).sectors) (st.insert key value) := by
  have hp := prepare_spec h.ok hn hst (some key)
  obtain ⟨s₂, heq, hw⟩ := replace_spec hp hplaced hkey hname hshort hlen hfit
  generalize delEnvAt s (some key) ⟨i, n.off⟩ false = s₁ at hp heq hw
  refine ⟨s₂, heq, ⟨hw.delete_ok hp.mem (some key), ?_, ?_, ?_⟩, ?_⟩
  · -- only the old node was not settled, and it is deleted
    have hbut : SettledBut s₂.sectors i n.off := by
      rw [hw.sectors, hp.sectors]
      exact (h.settled.but.kill .preDelete).grown rfl
    rw [delEnvAt_complete hw.last]
    exact hbut.delete
  · rw [delEnvAt_complete hw.last]
  · obtain ⟨e, hej, he⟩ := hspare
    have hei : e ≠ i := fun hei => (h.ok.sectors i).not_empty hn (hei ▸ he)
    refine ⟨e, ?_⟩
    rw [delEnvAt_complete hw.last]
    dsimp only
    rw [Function.update_of_ne hei, hw.sectors, Function.update_of_ne hej, hp.store]
    exact he
  · have hold : n.item = ⟨key, n.value⟩ := by rw [Node.item, hname]
    have hitem : (s₁.newNode j key value).item = ⟨key, value⟩ := rfl
    rw [hw.delete_contents hp.mem rfl (some key), hitem]
    exact Shows.put (hholds.remove (hold ▸ hp.holds)) value

/-! ## The operations -/

theorem setEnv_some (hK : Keys K) (h : s.Represents K st) (hkey : key ∈ K) (hfits : Fits st key value) (u : Stale) :
    ∃ s', setEnv u key (some value) s = (s', .noErr) ∧ s'.Represents K (st.insert key value) := by
  obtain ⟨s₁, j, hnew, hp⟩ := newEnv_spec h.rests h.idle h.holds hfits.small hfits.room
  obtain ⟨table, r, hfind, hnames, hfinds⟩ := findEnv_spec hK hp.rests.ok hp.rests.settled hkey u
  have hr := hp.rests.withNames hnames
  have hholds : Shows (contents s₁.sectors) st := hp.holds.trans h.holds
  have hshort := hK.short key hkey
  rcases hfinds with ⟨i, n, hn, hst, hname, rfl⟩ | ⟨hno, rfl⟩
  · obtain ⟨s', heq, hr', hholds'⟩ :=
      set_present (s := { s₁ with envCacheTable := table }) hp.writable hr hp.spare hholds hkey hshort hfits.small
        hp.room hn hst hname
    have hset : setEnv u key (some value) s =
        (if (delEnvAt s' (some key) ⟨i, n.off⟩ true).gcRequest = true then
          gcCollect (delEnvAt s' (some key) ⟨i, n.off⟩ true) else delEnvAt s' (some key) ⟨i, n.off⟩ true, .noErr) := by
      simp only [setEnv, hnew, hfind]
      rw [show createEnvBlob (delEnvAt { s₁ with envCacheTable := table } (some key) ⟨i, n.off⟩ false)
        (some (s₁.metaData j)) key value = _ from heq]
      rfl
    exact ⟨_, hset, hr'.collect hholds'⟩
  · obtain ⟨s', heq, hr', hholds'⟩ :=
      set_absent (s := { s₁ with envCacheTable := table }) hp.writable hr hp.spare hholds hkey hshort hfits.small
        hp.room (absent_of_not_found hholds hno)
    have hset : setEnv u key (some value) s =
        (if s'.gcRequest = true then gcCollect s' else s', .noErr) := by
      simp only [setEnv, hnew, hfind]
      rw [show createEnvBlob { s₁ with envCacheTable := table } (some (s₁.metaData j)) key value = _ from heq]
    exact ⟨_, hset, hr'.collect hholds'⟩

theorem setEnv_none (hK : Keys K) (h : s.Represents K st) (hkey : key ∈ K) (u : Stale) :
    ∃ s', setEnv u key none s = (s', if key ∈ st then .noErr else .envNameErr) ∧ s'.Represents K (st.erase key) := by
  obtain ⟨table, r, hfind, hnames, hfinds⟩ := findEnv_spec hK h.rests.ok h.rests.settled hkey u
  have hr := h.rests.withNames hnames
  rcases hfinds with ⟨i, n, hn, hst, rfl, rfl⟩ | ⟨hno, rfl⟩
  · have hmem : n.name ∈ st := by
      refine AList.lookup_isSome.1 ?_
      rw [h.holds.mem_iff.1 (mem_contents.2 ⟨i, n, hn, hst, rfl, rfl⟩)]
      rfl
    have hset : setEnv u n.name none s =
        (delEnvAt { s with envCacheTable := table } (some n.name) ⟨i, n.off⟩ true, .noErr) := by
      simp only [setEnv, delEnv, hfind]
    refine ⟨_, by rw [hset, if_pos hmem], ?_⟩
    rw [delEnvAt_drop hr.last]
    have hknown : NamesKnown (fun crc a => (EnvStatus.deleted = .deleted → a ≠ ⟨i, n.off⟩) ∧ Points s.sectors crc a)
        (dropEnvCache table n.name) := by
      refine NamesKnown.mono (NamesKnown.drop hnames) fun crc a hP => ⟨fun _ ha => ?_, hP.2⟩
      obtain ⟨hcrc, n', hn', hoff', -, hcrc'⟩ := hP
      subst ha
      exact hcrc (by rw [← hcrc', (h.rests.ok.sectors i).laid.eq_of_off hn' hn hoff'])
    obtain ⟨e, he⟩ := h.rests.spare
    have hei : e ≠ i := fun hei => (h.rests.ok.sectors i).not_empty hn (hei ▸ he)
    refine ⟨⟨hr.ok.kill hn rfl rfl hknown, h.rests.settled.but.delete, rfl, e, ?_⟩, h.idle, ?_⟩
    · dsimp only
      rw [Function.update_of_ne hei]
      exact he
    · have hcont : contents (Function.update s.sectors i ((s.sectors i).kill n.off .deleted)) + {n.item} =
          contents s.sectors := contents_kill (h.rests.ok.sectors i) hn hst EnvStatus.noConfusion
      exact h.holds.remove (k := n.name) (v := n.value) hcont
  · have habs := absent_of_not_found h.holds hno
    have hset : setEnv u key none s = ({ s with envCacheTable := table }, .envNameErr) := by
      simp only [setEnv, delEnv, hfind]
    exact ⟨_, by rw [hset, if_neg habs], hr, h.idle, h.holds.erase_absent habs⟩

/-- What `get_env` reads of a table. -/
def readOf (st : Table) (key : Key) (bufLen : Nat) : List UInt8 × Option Nat :=
  match st.lookup key with
  | some value => (value.take bufLen, some value.length)
  | none => ([], none)

theorem getEnv_spec (hK : Keys K) (h : s.Represents K st) (hkey : key ∈ K) (u : Stale) (bufLen : Nat) :
    ∃ s', getEnv u key bufLen s = (s', readOf st key bufLen) ∧ s'.Represents K st := by
  obtain ⟨table, r, hfind, hnames, hfinds⟩ := findEnv_spec hK h.rests.ok h.rests.settled hkey u
  have hr : Ef.Represents K { s with envCacheTable := table } st := ⟨h.rests.withNames hnames, h.idle, h.holds⟩
  refine ⟨_, ?_, hr⟩
  rcases hfinds with ⟨i, n, hn, hst, hname, rfl⟩ | ⟨hno, rfl⟩
  · have hlook : st.lookup key = some n.value := h.holds.mem_iff.1 (mem_contents.2 ⟨i, n, hn, hst, hname, rfl⟩)
    have hat : Ef.nodeAt { s with envCacheTable := table } ⟨i, n.off⟩ = some n := nodeAt_eq (hr.rests.ok.sectors i) hn
    simp only [getEnv, hfind, hat, readOf, hlook]
  · have hlook : st.lookup key = none := AList.lookup_eq_none.2 (absent_of_not_found h.holds hno)
    simp only [getEnv, hfind, readOf, hlook]

end

end Petbox.Easyflash
