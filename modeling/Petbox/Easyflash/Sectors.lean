/-
The store as a whole: what holds of the flash and the caches between two writes
(`Ef.Ok`), what the store holds for its keys, and how a node is found, how
room for one is, and what writing and deleting one does.

The names may be any that are not the beginning of one another: the search
compares a name with what lay behind a shorter one.
-/
import Petbox.Easyflash.Caches

namespace Petbox.Easyflash

open Log CStr

/-- The names in use. -/
structure Keys (K : Set Key) : Prop where
  text : ∀ k ∈ K, Text k
  short : ∀ k ∈ K, k.length ≤ envNameMax
  apart : ∀ k ∈ K, ∀ k' ∈ K, k <+: k' → k = k'

/-- The nodes of sector `j` end at `e`. -/
def EndsAt (f : Fin sectorNum → Sector) (j : Fin sectorNum) (e : Nat) : Prop :=
  e = sectorHdrDataSize + used (f j).nodes ∧ (f j).nodes ≠ []

/-- A node that is not deleted, with this CRC of its name, lies at `a`. -/
def Points (f : Fin sectorNum → Sector) (crc : UInt16) (a : Addr) : Prop :=
  ∃ n ∈ (f a.sector).nodes, n.off = a.off ∧ n.status ≠ .deleted ∧ nameCrc n.name = crc

structure Ef.Ok (K : Set Key) (s : Ef) : Prop where
  sectors : ∀ j, (s.sectors j).Ok
  known : SectorsKnown (EndsAt s.sectors) s.sectorCacheTable
  names : NamesKnown (Points s.sectors) s.envCacheTable
  named : ∀ j, ∀ n ∈ (s.sectors j).nodes, n.name ∈ K

def Node.live (n : Node) : Bool := n.status = .write

def Node.item (n : Node) : (_ : Key) × Value := ⟨n.name, n.value⟩

/-- What the store holds. -/
def contents (f : Fin sectorNum → Sector) : Multiset ((_ : Key) × Value) :=
  held Node.live Node.item fun j => (f j).nodes

theorem nodes_update (f : Fin sectorNum → Sector) (j : Fin sectorNum) (b : Sector) :
    (fun i => (Function.update f j b i).nodes) = Function.update (fun i => (f i).nodes) j b.nodes := by
  funext i
  exact Function.apply_update (fun _ => Sector.nodes) f j b i

theorem mem_contents {f : Fin sectorNum → Sector} {k : Key} {v : Value} :
    (⟨k, v⟩ : (_ : Key) × Value) ∈ contents f ↔
      ∃ j, ∃ n ∈ (f j).nodes, n.status = .write ∧ n.name = k ∧ n.value = v := by
  rw [contents, mem_held]
  refine exists_congr fun j => exists_congr fun n => and_congr_right fun _ => and_congr decide_eq_true_iff ?_
  rw [Node.item, Sigma.mk.injEq, heq_iff_eq]

section

variable {K : Set Key} {s : Ef}

theorem Ef.Ok.found (h : s.Ok K) (j : Fin sectorNum) : s.found j = (s.sectors j).nodes :=
  found_eq (h.sectors j) fun _ he => (h.known.lookup he).1

/-! ## Finding a node -/

/-- A name and what was read behind it compare equal to another over the whole name only if they are the same. -/
theorem eq_of_strncmpEq_prefix (hK : Keys K) {k k' : Key} (hk : k ∈ K) (hk' : k' ∈ K) {x y : List UInt8} {n : Nat}
    (hn : k.length ≤ n) (h : strncmpEq (k ++ x) (k' ++ y) n = true) : k = k' := by
  rw [strncmpEq_iff] at h
  have part : ∀ l z : List UInt8, Text l → l.take n <+: cstr ((l ++ z).take n) := fun l z hl => by
    rw [List.take_append, cstr_append (hl.take n)]
    exact List.prefix_append _ _
  have hp := part k x (hK.text k hk)
  have hp' := part k' y (hK.text k' hk')
  rw [h] at hp
  rw [List.take_of_length_le hn] at hp
  rcases List.prefix_or_prefix_of_prefix hp hp' with hc | hc
  · exact hK.apart k hk k' hk' (hc.trans (List.take_prefix n k'))
  · by_cases hlen : k'.length ≤ n
    · rw [List.take_of_length_le hlen] at hc
      exact (hK.apart k' hk' k hk hc).symm
    · -- the first `n` bytes of `k'` are all of `k`
      have hlen' : (k'.take n).length = n := List.length_take_of_le (not_le.1 hlen).le
      have heq : k'.take n = k := hc.eq_of_length (le_antisymm hc.length_le (hn.trans hlen'.ge))
      exact hK.apart k hk k' hk' (heq ▸ List.take_prefix n k')

theorem strncmpEq_self (k x : Key) {n : Nat} (hn : n = k.length) : strncmpEq (k ++ x) k n = true := by
  rw [strncmpEq_iff, hn, List.take_left, List.take_length]

/-- The search over the nodes ends at the valid node of the name, if there is one. -/
theorem findLoop_spec (hK : Keys K) {key : Key} (hkey : key ∈ K) (field : List UInt8) {l : List (Addr × Node)}
    (hl : ∀ p ∈ l, p.2.name ∈ K) :
    (∃ p ∈ l, p.2.status = .write ∧ p.2.name = key ∧ findLoop key field l = some p.1) ∨
      (∀ p ∈ l, p.2.status = .write → p.2.name ≠ key) ∧ findLoop key field l = none := by
  induction l generalizing field with
  | nil => exact .inr ⟨(fun _ h => nomatch h), rfl⟩
  | cons p l ih =>
    obtain ⟨a, n⟩ := p
    obtain ⟨hn, hl⟩ := List.forall_mem_cons.1 hl
    have hmax : (max (UInt8.ofNat key.length).toNat n.name.length) = max key.length n.name.length := by
      have := hK.short key hkey
      rw [UInt8.toNat_ofNat_of_lt' (this.trans_lt (by decide))]
    have hfield : nameField field n.name = n.name ++ (List.replicate (wgAlign n.name.length - n.name.length) 0xff ++
        field.drop (padded n.name).length) := by
      rw [nameField, padded, List.append_assoc]
    have hmatch : strncmpEq (nameField field n.name) key (max (UInt8.ofNat key.length).toNat n.name.length) = true ↔
        n.name = key := by
      rw [hmax, hfield]
      constructor
      · intro h
        have h' := h
        rw [← List.append_nil key] at h'
        exact eq_of_strncmpEq_prefix hK hn hkey (by rw [List.append_nil]; exact le_max_right _ _) h'
      · rintro rfl
        exact strncmpEq_self _ _ (max_self _)
    by_cases hhit : n.status = .write ∧ n.name = key
    · refine .inl ⟨(a, n), List.mem_cons_self, hhit.1, hhit.2, ?_⟩
      rw [findLoop, if_pos ⟨hhit.1, hmatch.2 hhit.2⟩]
    · have hpass : findLoop key field ((a, n) :: l) = findLoop key (nameField field n.name) l := by
        rw [findLoop, if_neg fun h => hhit ⟨h.1, hmatch.1 h.2⟩]
      rw [hpass]
      rcases ih (nameField field n.name) hl with ⟨p, hp, hst, hname, hfind⟩ | ⟨hno, hfind⟩
      · exact .inl ⟨p, List.mem_cons_of_mem _ hp, hst, hname, hfind⟩
      · exact .inr ⟨List.forall_mem_cons.2 ⟨fun hst hname => hhit ⟨hst, hname⟩, hno⟩, hfind⟩

/-- No node is being written or replaced. -/
def Settled (f : Fin sectorNum → Sector) : Prop := ∀ j, ∀ n ∈ (f j).nodes, n.status = .write ∨ n.status = .deleted

theorem mem_visited (h : s.Ok K) {p : Addr × Node} :
    p ∈ s.visited ↔ p.2 ∈ (s.sectors p.1.sector).nodes ∧ p.1.off = p.2.off := by
  obtain ⟨⟨j, off⟩, n⟩ := p
  have hstore : ∀ i, n ∈ (s.sectors i).nodes →
      (s.sectors i).store = .storeUsing ∨ (s.sectors i).store = .storeFull := fun i hn => by
    cases hs : (s.sectors i).store with
    | storeEmpty => exact absurd hs ((h.sectors i).not_empty hn)
    | storeUsing => exact .inl rfl
    | storeFull => exact .inr rfl
  unfold Ef.visited
  rw [List.mem_flatMap]
  constructor
  · rintro ⟨i, -, hi⟩
    split at hi
    · obtain ⟨m, hm, heq⟩ := List.mem_map.1 hi
      obtain ⟨ha, rfl⟩ := Prod.mk.inj heq
      obtain ⟨rfl, rfl⟩ := Addr.mk.inj ha
      exact ⟨h.found i ▸ hm, rfl⟩
    · cases hi
  · rintro ⟨hn, hoff⟩
    dsimp only at hn hoff
    refine ⟨j, List.mem_finRange j, ?_⟩
    rw [if_pos (hstore j hn), hoff]
    exact List.mem_map.2 ⟨n, (h.found j).symm ▸ hn, rfl⟩

/-- Where the node of a name lies, if the store has one. -/
def Finds (s : Ef) (key : Key) (r : Option Addr) : Prop :=
  (∃ j, ∃ n ∈ (s.sectors j).nodes, n.status = .write ∧ n.name = key ∧ r = some ⟨j, n.off⟩) ∨
    (∀ j, ∀ n ∈ (s.sectors j).nodes, n.status = .write → n.name ≠ key) ∧ r = none

theorem findEnvNoCache_finds (hK : Keys K) (h : s.Ok K) {key : Key} (hkey : key ∈ K) (u : Stale) :
    Finds s key (findEnvNoCache u key s) := by
  have hnamed : ∀ p ∈ s.visited, p.2.name ∈ K := fun p hp => h.named _ _ ((mem_visited h).1 hp).1
  rcases findLoop_spec hK hkey u.name hnamed with ⟨⟨⟨j, off⟩, n⟩, hp, hst, hname, hfind⟩ | ⟨hno, hfind⟩
  · obtain ⟨hn, hoff⟩ := (mem_visited h).1 hp
    dsimp only at hn hoff hst hname hfind
    exact .inl ⟨j, n, hn, hst, hname, hoff ▸ hfind⟩
  · exact .inr ⟨fun j n hn hst => hno (⟨j, n.off⟩, n) ((mem_visited h).2 ⟨hn, rfl⟩) hst, hfind⟩

/-- The cache answers only with the node of the name. -/
theorem getEnvFromCache_spec (hK : Keys K) (h : s.Ok K) (hset : Settled s.sectors) {key : Key} (hkey : key ∈ K)
    {u : Stale} {a : Addr} {table : List EnvCacheNode} (hhit : getEnvFromCache u s key = some (a, table)) :
    NamesKnown (Points s.sectors) table ∧ Finds s key (some a) := by
  obtain ⟨htold, hmem, hcmp⟩ := getEnvLoop_told hhit
  obtain ⟨n, hn, hoff, hdel, -⟩ := h.names.right _ hmem a rfl
  have hst := (hset _ n hn).resolve_right hdel
  have hat : s.nodeAt a = some n := by
    have := nodeAt_eq (h.sectors a.sector) hn
    rwa [hoff] at this
  have hshort : n.name.length ≤ envNameMax := hK.short _ (h.named _ n hn)
  have hsaved : ∃ rest, s.savedName u a = n.name ++ rest := by
    unfold Ef.savedName
    rw [hat, Option.map_some, Option.getD_some, Node.text, padded, List.append_assoc, List.append_assoc,
      List.take_append, List.take_of_length_le hshort]
    exact ⟨_, rfl⟩
  obtain ⟨rest, hrest⟩ := hsaved
  rw [hrest, ← List.append_nil key] at hcmp
  have hname := eq_of_strncmpEq_prefix hK hkey (h.named _ n hn) (by rw [List.append_nil]) hcmp
  refine ⟨h.names.congr htold, .inl ⟨a.sector, n, hn, hst, hname.symm, ?_⟩⟩
  rw [hoff]

theorem findEnv_spec (hK : Keys K) (h : s.Ok K) (hset : Settled s.sectors) {key : Key} (hkey : key ∈ K) (u : Stale) :
    ∃ table r, findEnv u key s = ({ s with envCacheTable := table }, r) ∧ NamesKnown (Points s.sectors) table ∧
      Finds s key r := by
  cases hhit : getEnvFromCache u s key with
  | some p =>
    obtain ⟨hnames, hfinds⟩ := getEnvFromCache_spec hK h hset hkey hhit
    exact ⟨p.2, some p.1, by rw [findEnv, hhit], hnames, hfinds⟩
  | none =>
    have hfinds := findEnvNoCache_finds hK h hkey u
    cases hfind : findEnvNoCache u key s with
    | none => exact ⟨s.envCacheTable, none, by rw [findEnv, hhit]; simp only [hfind], h.names, hfind ▸ hfinds⟩
    | some a =>
      rw [hfind] at hfinds
      refine ⟨updateEnvCache s.envCacheTable key a, some a, by rw [findEnv, hhit]; simp only [hfind], ?_, hfinds⟩
      rcases hfinds with ⟨j, n, hn, hst, hname, ha⟩ | ⟨-, ha⟩
      · refine h.names.put (fun _ _ _ hP => hP) ?_
        rw [Option.some.inj ha]
        exact ⟨n, hn, rfl, by rw [hst]; exact EnvStatus.noConfusion, by rw [hname]⟩
      · cases ha

/-! ## Room for a node -/

/-- What `read_sector_meta_data` gives of a sector. -/
def Ef.metaData (s : Ef) (j : Fin sectorNum) : SectorMetaData where
  addr := j
  store := (s.sectors j).store
  dirty := (s.sectors j).dirty
  remain := sectorRoom - used (s.sectors j).nodes
  emptyEnv := sectorHdrDataSize + used (s.sectors j).nodes

/-- What `alloc_env_cb` asks of a sector. -/
def Accepts (s : Ef) (len : Nat) (j : Fin sectorNum) : Prop :=
  len < sectorRoom - used (s.sectors j).nodes ∧
    ((s.sectors j).dirty = .dirtyFalse ∨ ((s.sectors j).dirty = .dirtyTrue ∧ s.gcRequest = false))

theorem continueFfAddr_laid {o : Nat} {ns : List Node} (h : Laid o ns) :
    continueFfAddr ns (o + used ns) = o + used ns := by
  unfold continueFfAddr
  cases hlast : ns.getLast? with
  | none => rfl
  | some n => exact if_pos (h.bounds (List.mem_of_getLast? hlast)).2

theorem readSectorMetaData_spec (h : s.Ok K) {j : Fin sectorNum} (hfull : (s.sectors j).store ≠ .storeFull) :
    ∃ table, readSectorMetaData s j = ({ s with sectorCacheTable := table }, s.metaData j) ∧
      SectorsKnown (EndsAt s.sectors) table := by
  have hfits := (h.sectors j).fits
  have hroom : sectorSize - (sectorHdrDataSize + used (s.sectors j).nodes) = sectorRoom - used (s.sectors j).nodes :=
    (Nat.sub_sub _ _ _).symm
  cases hs : (s.sectors j).store with
  | storeFull => exact absurd hs hfull
  | storeEmpty =>
    refine ⟨s.sectorCacheTable, ?_, h.known⟩
    simp only [readSectorMetaData, Ef.metaData, hs, (h.sectors j).empty_iff.1 hs, used_nil]
    rfl
  | storeUsing =>
    cases hc : getSectorFromCache s.sectorCacheTable j with
    | some e =>
      refine ⟨s.sectorCacheTable, ?_, h.known⟩
      simp only [readSectorMetaData, Ef.metaData, hs, hc, (h.known.lookup hc).1, hroom]
    | none =>
      have hnodes : (s.sectors j).nodes ≠ [] := fun hnil => by
        rw [(h.sectors j).empty_iff.2 hnil] at hs
        cases hs
      have hothers : SectorsKnown (fun i e => i ≠ j → EndsAt s.sectors i e) s.sectorCacheTable :=
        h.known.mono fun _ _ hP _ => hP
      refine ⟨updateSectorCache s.sectorCacheTable j (sectorHdrDataSize + used (s.sectors j).nodes), ?_,
        hothers.put (Nat.add_pos_left (by decide) _) ?_ ⟨rfl, hnodes⟩⟩
      · simp only [readSectorMetaData, Ef.metaData, hs, hc, h.found j, continueFfAddr_laid (h.sectors j).laid, hroom]
      · have := sectorRoom_eq
        have := sectorSize_eq
        unfold sectorHdrDataSize
        omega

/-- The flash, the requests and the names stay; only the sector cache learns. -/
theorem Ef.Ok.withSectorCache (h : s.Ok K) {table : List SectorCacheNode} (ht : SectorsKnown (EndsAt s.sectors) table) :
    Ef.Ok K { s with sectorCacheTable := table } := ⟨h.sectors, ht, h.names, h.named⟩

theorem allocLoop_spec (h : s.Ok K) (store : SectorStoreStatus) (hstore : store ≠ .storeFull) (len : Nat)
    (js : List (Fin sectorNum)) :
    ∃ table, SectorsKnown (EndsAt s.sectors) table ∧
      ((∃ j ∈ js, (s.sectors j).store = store ∧ Accepts s len j ∧
          allocLoop store len js s = ({ s with sectorCacheTable := table }, some (s.metaData j))) ∨
        (∀ j ∈ js, (s.sectors j).store = store → ¬ Accepts s len j) ∧
          allocLoop store len js s = ({ s with sectorCacheTable := table }, none)) := by
  induction js generalizing s with
  | nil => exact ⟨s.sectorCacheTable, h.known, .inr ⟨(fun _ h => nomatch h), rfl⟩⟩
  | cons j js ih =>
    by_cases hj : (s.sectors j).store = store
    · obtain ⟨table, hread, ht⟩ := readSectorMetaData_spec h (hj.trans_ne hstore)
      by_cases hacc : Accepts s len j
      · refine ⟨table, ht, .inl ⟨j, List.mem_cons_self, hj, hacc, ?_⟩⟩
        simp only [allocLoop, if_pos hj, hread]
        exact if_pos hacc
      · have hpass : allocLoop store len (j :: js) s = allocLoop store len js { s with sectorCacheTable := table } := by
          simp only [allocLoop, if_pos hj, hread]
          exact if_neg hacc
        rw [hpass]
        obtain ⟨table', ht', hres⟩ := ih (h.withSectorCache ht)
        refine ⟨table', ht', ?_⟩
        rcases hres with ⟨i, hi, hstore', hacc', heq⟩ | ⟨hno, heq⟩
        · exact .inl ⟨i, List.mem_cons_of_mem _ hi, hstore', hacc', heq⟩
        · exact .inr ⟨List.forall_mem_cons.2 ⟨fun _ => hacc, hno⟩, heq⟩
    · have hpass : allocLoop store len (j :: js) s = allocLoop store len js s := by
        rw [allocLoop, if_neg hj]
      rw [hpass]
      obtain ⟨table, ht, hres⟩ := ih h
      refine ⟨table, ht, ?_⟩
      rcases hres with ⟨i, hi, hstore', hacc', heq⟩ | ⟨hno, heq⟩
      · exact .inl ⟨i, List.mem_cons_of_mem _ hi, hstore', hacc', heq⟩
      · exact .inr ⟨List.forall_mem_cons.2 ⟨fun hs => absurd hs hj, hno⟩, heq⟩

theorem count_pos_iff {store : SectorStoreStatus} : 0 < s.count store ↔ ∃ j, (s.sectors j).store = store := by
  simp [Ef.count, List.countP_pos_iff]

/-- An empty sector takes every node that is not too long. -/
theorem accepts_empty (h : s.Ok K) {j : Fin sectorNum} (hj : (s.sectors j).store = .storeEmpty) {len : Nat}
    (hlen : len ≤ envMax) : Accepts s len j := by
  have hnil := (h.sectors j).empty_iff.1 hj
  refine ⟨?_, .inl ((h.sectors j).fresh hnil)⟩
  rw [hnil, used_nil]
  exact hlen.trans_lt (by decide)

/-- What `alloc_env` has found, and when. -/
inductive Allocated (s : Ef) (len : Nat) : Bool → Option SectorMetaData → Prop
  | inUsing (j : Fin sectorNum) (hj : (s.sectors j).store = .storeUsing) (hacc : Accepts s len j) :
      Allocated s len s.gcRequest (some (s.metaData j))
  | inEmpty (j : Fin sectorNum) (hj : (s.sectors j).store = .storeEmpty) (hacc : Accepts s len j)
      (hno : ∀ i, (s.sectors i).store = .storeUsing → ¬ Accepts s len i)
      (hmany : gcEmptySecThreshold < s.count .storeEmpty ∨ s.gcRequest = true) :
      Allocated s len s.gcRequest (some (s.metaData j))
  | request (hno : ∀ i, (s.sectors i).store = .storeUsing → ¬ Accepts s len i) (hpos : 0 < s.count .storeEmpty)
      (hfew : s.count .storeEmpty ≤ gcEmptySecThreshold) (hgc : s.gcRequest = false) : Allocated s len true none
  | nothing (hno : ∀ i, (s.sectors i).store = .storeUsing → ¬ Accepts s len i) (hzero : s.count .storeEmpty = 0) :
      Allocated s len s.gcRequest none

theorem allocEnv_spec (h : s.Ok K) {len : Nat} (hlen : len ≤ envMax) :
    ∃ table gc r, allocEnv s len = ({ s with sectorCacheTable := table, gcRequest := gc }, r) ∧
      SectorsKnown (EndsAt s.sectors) table ∧ Allocated s len gc r := by
  -- the sectors in use first
  obtain ⟨table, r, heq, ht, hres⟩ : ∃ table r,
      (if 0 < s.count .storeUsing then allocLoop .storeUsing len (List.finRange sectorNum) s else (s, none)) =
        ({ s with sectorCacheTable := table }, r) ∧ SectorsKnown (EndsAt s.sectors) table ∧
      ((∃ j, (s.sectors j).store = .storeUsing ∧ Accepts s len j ∧ r = some (s.metaData j)) ∨
        (∀ i, (s.sectors i).store = .storeUsing → ¬ Accepts s len i) ∧ r = none) := by
    split
    · obtain ⟨table, ht, hres⟩ := allocLoop_spec h .storeUsing (by decide) len (List.finRange sectorNum)
      rcases hres with ⟨j, -, hj, hacc, heq⟩ | ⟨hno, heq⟩
      · exact ⟨table, _, heq, ht, .inl ⟨j, hj, hacc, rfl⟩⟩
      · exact ⟨table, _, heq, ht, .inr ⟨fun i => hno i (List.mem_finRange i), rfl⟩⟩
    · rename_i hzero
      exact ⟨s.sectorCacheTable, none, rfl, h.known, .inr ⟨fun i hi => absurd (count_pos_iff.2 ⟨i, hi⟩) hzero, rfl⟩⟩
  simp only [allocEnv, heq]
  rcases hres with ⟨j, hj, hacc, rfl⟩ | ⟨hno, rfl⟩
  · rw [if_neg fun hn => nomatch hn.2]
    exact ⟨table, s.gcRequest, _, rfl, ht, .inUsing j hj hacc⟩
  · by_cases hpos : 0 < s.count .storeEmpty
    · rw [if_pos ⟨hpos, rfl⟩]
      by_cases hmany : gcEmptySecThreshold < s.count .storeEmpty ∨ s.gcRequest = true
      · rw [if_pos hmany]
        obtain ⟨table', ht', hres⟩ :=
          allocLoop_spec (h.withSectorCache ht) .storeEmpty (by decide) len (List.finRange sectorNum)
        rcases hres with ⟨j, -, hj, hacc, heq'⟩ | ⟨hnone, -⟩
        · exact ⟨table', s.gcRequest, _, heq', ht', .inEmpty j hj hacc hno hmany⟩
        · obtain ⟨j, hj⟩ := count_pos_iff.1 hpos
          exact absurd (accepts_empty h hj hlen) (hnone j (List.mem_finRange j) hj)
      · rw [if_neg hmany]
        obtain ⟨hfew, hgc⟩ := not_or.1 hmany
        exact ⟨table, true, none, rfl, ht, .request hno hpos (not_lt.1 hfew) (Bool.eq_false_iff.2 hgc)⟩
    · rw [if_neg fun hp => hpos hp.1]
      exact ⟨table, s.gcRequest, none, rfl, ht, .nothing hno (Nat.eq_zero_of_not_pos hpos)⟩

end

end Petbox.Easyflash
