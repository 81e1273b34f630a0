/-
The two caches of the store. Each is told of a change by one call, and keeps to
what it was told: the sector cache has one place at most for a sector, and in
the cache of the names the first place for the CRC of a name is the only one
that counts.
-/
import Petbox.Easyflash.Layout

namespace Petbox.Easyflash

open Log CStr

/-! ## The sector cache -/

/-- Each address is right, and no sector has two places. -/
structure SectorsKnown (P : Fin sectorNum → Nat → Prop) (table : List SectorCacheNode) : Prop where
  right : ∀ c ∈ table, ∀ j, c.addr = some j → P j c.emptyAddr
  once : table.Pairwise fun a b => ∀ j, a.addr = some j → b.addr ≠ some j

section Sectors

variable {P Q : Fin sectorNum → Nat → Prop} {table : List SectorCacheNode} {j : Fin sectorNum}

theorem SectorsKnown.mono (h : SectorsKnown P table) (hPQ : ∀ i e, P i e → Q i e) : SectorsKnown Q table :=
  ⟨fun c hc i hi => hPQ i _ (h.right c hc i hi), h.once⟩

theorem SectorsKnown.lookup (h : SectorsKnown P table) {e : Nat} (he : getSectorFromCache table j = some e) :
    P j e := by
  obtain ⟨c, hc, rfl⟩ := Option.map_eq_some_iff.1 he
  exact h.right c (List.mem_of_find?_eq_some hc) j (by simpa using List.find?_some hc)

/-- The places of the other sectors, when the first of `j` is between them. -/
theorem SectorsKnown.others {l₁ l₂ : List SectorCacheNode} {c : SectorCacheNode} (h : SectorsKnown P (l₁ ++ c :: l₂))
    (hc : c.addr = some j) : ∀ c' ∈ l₁ ++ l₂, c'.addr ≠ some j := by
  obtain ⟨-, hc₂, hdisj⟩ := List.pairwise_append.1 h.once
  intro c' hc'
  rcases List.mem_append.1 hc' with hc' | hc'
  · exact fun heq => hdisj c' hc' c List.mem_cons_self j heq hc
  · exact (List.pairwise_cons.1 hc₂).1 c' hc' j hc

/-- A place is given away: for nothing, or for a sector that has no other. -/
theorem SectorsKnown.give {l₁ l₂ : List SectorCacheNode} {c c' : SectorCacheNode} (h : SectorsKnown P (l₁ ++ c :: l₂))
    (hothers : ∀ d ∈ l₁ ++ l₂, ∀ i, d.addr = some i → P i d.emptyAddr → c'.addr ≠ some i ∧ Q i d.emptyAddr)
    (hc' : ∀ i, c'.addr = some i → Q i c'.emptyAddr) : SectorsKnown Q (l₁ ++ c' :: l₂) := by
  obtain ⟨h₁, h₂, hdisj⟩ := List.pairwise_append.1 h.once
  have ho₁ : ∀ d ∈ l₁, ∀ i, d.addr = some i → c'.addr ≠ some i ∧ Q i d.emptyAddr := fun d hd i hi =>
    hothers d (List.mem_append_left _ hd) i hi (h.right d (List.mem_append_left _ hd) i hi)
  have ho₂ : ∀ d ∈ l₂, ∀ i, d.addr = some i → c'.addr ≠ some i ∧ Q i d.emptyAddr := fun d hd i hi =>
    hothers d (List.mem_append_right _ hd) i hi (h.right d (List.mem_append_right _ (List.mem_cons_of_mem _ hd)) i hi)
  refine ⟨fun d hd i hi => ?_, List.pairwise_append.2 ⟨h₁, List.pairwise_cons.2 ⟨fun d hd i hi heq => ?_,
    (List.pairwise_cons.1 h₂).2⟩, fun d hd d' hd' i hi => ?_⟩⟩
  · rcases List.mem_append.1 hd with hd | hd
    · exact (ho₁ d hd i hi).2
    · rcases List.mem_cons.1 hd with rfl | hd
      · exact hc' i hi
      · exact (ho₂ d hd i hi).2
  · exact (ho₂ d hd i heq).1 hi
  · rcases List.mem_cons.1 hd' with rfl | hd'
    · exact (ho₁ d hd i hi).1
    · exact hdisj d hd d' (List.mem_cons_of_mem _ hd') i hi

/-- After a change of sector `j` the cache is told where its empty space begins. -/
theorem SectorsKnown.put {e : Nat} (h : SectorsKnown (fun i e => i ≠ j → Q i e) table) (hpos : 0 < e)
    (he : e < sectorSize) (hQ : Q j e) : SectorsKnown Q (updateSectorCache table j e) := by
  have hnew : ∀ i, (⟨some j, e⟩ : SectorCacheNode).addr = some i → Q i e := fun i hi => Option.some.inj hi ▸ hQ
  unfold updateSectorCache
  rw [if_pos ⟨hpos, he⟩]
  cases hfind : table.findIdx? (·.addr = some j) with
  | some k =>
    obtain ⟨l₁, c, l₂, rfl, rfl, hc, -⟩ := findIdx?_split hfind
    have hother := h.others (of_decide_eq_true hc)
    dsimp only
    rw [set_split]
    refine h.give (fun d hd i hi hP => ?_) hnew
    have hij : i ≠ j := fun hij => hother d hd (hij ▸ hi)
    exact ⟨fun heq => hij (Option.some.inj heq).symm, hP hij⟩
  | none =>
    have hno : ∀ d ∈ table, ∀ i, d.addr = some i → i ≠ j := fun d hd i hi hij => by
      have := List.findIdx?_eq_none_iff.1 hfind d hd
      exact of_decide_eq_false this (hij ▸ hi)
    dsimp only
    cases hfree : table.findIdx? (·.addr = none) with
    | none => exact ⟨fun d hd i hi => h.right d hd i hi (hno d hd i hi), h.once⟩
    | some k =>
      obtain ⟨l₁, c, l₂, rfl, rfl, hc, -⟩ := findIdx?_split hfree
      dsimp only
      rw [set_split]
      refine h.give (fun d hd i hi hP => ?_) hnew
      have hmem : d ∈ l₁ ++ c :: l₂ := by
        rcases List.mem_append.1 hd with hd | hd
        · exact List.mem_append_left _ hd
        · exact List.mem_append_right _ (List.mem_cons_of_mem _ hd)
      have hij := hno d hmem i hi
      exact ⟨fun heq => hij (Option.some.inj heq).symm, hP hij⟩

/-- A sector is taken out of the cache. -/
theorem SectorsKnown.drop (h : SectorsKnown (fun i e => i ≠ j → Q i e) table) :
    SectorsKnown (fun i e => i ≠ j ∧ Q i e) (updateSectorCache table j sectorSize) := by
  unfold updateSectorCache
  rw [if_neg fun hlt => absurd hlt.2 (Nat.lt_irrefl _)]
  cases hfind : table.findIdx? (·.addr = some j) with
  | some k =>
    obtain ⟨l₁, c, l₂, rfl, rfl, hc, -⟩ := findIdx?_split hfind
    have hother := h.others (of_decide_eq_true hc)
    dsimp only
    rw [modify_split]
    refine h.give (fun d hd i hi hP => ?_) fun i hi => nomatch hi
    have hij : i ≠ j := fun hij => hother d hd (hij ▸ hi)
    exact ⟨(Option.some_ne_none i).symm, hij, hP hij⟩
  | none =>
    refine ⟨fun d hd i hi => ?_, h.once⟩
    have hij : i ≠ j := fun hij => of_decide_eq_false (List.findIdx?_eq_none_iff.1 hfind d hd) (hij ▸ hi)
    exact ⟨hij, h.right d hd i hi hij⟩

end Sectors

/-! ## The cache of the names -/

/-- What a place says, its activity aside. -/
def EnvCacheNode.told (c : EnvCacheNode) : UInt16 × Option Addr := (c.nameCrc, c.addr)

/-- Each address is right, and no place before it has the same CRC. -/
structure NamesKnown (P : UInt16 → Addr → Prop) (table : List EnvCacheNode) : Prop where
  right : ∀ p ∈ table.map EnvCacheNode.told, ∀ a, p.2 = some a → P p.1 a
  first : (table.map EnvCacheNode.told).Pairwise fun p q => q.2 ≠ none → p.1 ≠ q.1

/-- The loop has found the place of the CRC, or there is none. -/
theorem updateEnvLoop_told (crc : UInt16) (addr : Addr) (i : Nat) (empty minActivity : Option Nat) (activity : UInt16)
    (table : List EnvCacheNode) :
    let r := updateEnvLoop crc addr i empty minActivity activity table
    (r.2 = none ∧ ∃ l₁ x l₂, table.map EnvCacheNode.told = l₁ ++ (crc, x) :: l₂ ∧ (∀ p ∈ l₁, p.1 ≠ crc) ∧
        r.1.map EnvCacheNode.told = l₁ ++ (crc, some addr) :: l₂) ∨
      (r.2 ≠ none ∧ (∀ p ∈ table.map EnvCacheNode.told, p.1 ≠ crc) ∧
        r.1.map EnvCacheNode.told = table.map EnvCacheNode.told) := by
  induction table generalizing i empty minActivity activity with
  | nil => exact .inr ⟨Option.some_ne_none _, (fun _ h => nomatch h), rfl⟩
  | cons c cs ih =>
    by_cases hcrc : c.nameCrc = crc
    · refine .inl ⟨by rw [updateEnvLoop, if_pos hcrc], [], c.addr, cs.map EnvCacheNode.told, ?_,
        (fun _ h => nomatch h), ?_⟩
      · rw [List.map_cons, EnvCacheNode.told, hcrc, List.nil_append]
      · rw [updateEnvLoop, if_pos hcrc, List.map_cons, EnvCacheNode.told, hcrc, List.nil_append]
    · -- this place is passed; at most its activity changes
      have hpass : ∃ c' i' e m act, (updateEnvLoop crc addr i empty minActivity activity (c :: cs)).1 =
            c' :: (updateEnvLoop crc addr i' e m act cs).1 ∧
          (updateEnvLoop crc addr i empty minActivity activity (c :: cs)).2 =
            (updateEnvLoop crc addr i' e m act cs).2 ∧ c'.told = c.told := by
        rw [updateEnvLoop, if_neg hcrc]
        dsimp only
        split_ifs
        all_goals exact ⟨_, _, _, _, _, rfl, rfl, rfl⟩
      obtain ⟨c', i', e, m, act, h₁, h₂, htold⟩ := hpass
      dsimp only at ih ⊢
      rw [h₁, h₂, List.map_cons, List.map_cons, htold]
      rcases ih i' e m act with ⟨hnone, l₁, x, l₂, htable, hbefore, hr⟩ | ⟨hsome, hall, hr⟩
      · refine .inl ⟨hnone, c.told :: l₁, x, l₂, ?_, List.forall_mem_cons.2 ⟨hcrc, hbefore⟩, ?_⟩
        · rw [htable, List.cons_append]
        · rw [hr, List.cons_append]
      · exact .inr ⟨hsome, List.forall_mem_cons.2 ⟨hcrc, hall⟩, by rw [hr]⟩

section Names

variable {P Q : UInt16 → Addr → Prop} {table : List EnvCacheNode} {name : Key} {addr : Addr}

theorem NamesKnown.mono (h : NamesKnown P table) (hPQ : ∀ crc a, P crc a → Q crc a) : NamesKnown Q table :=
  ⟨fun p hp a ha => hPQ _ _ (h.right p hp a ha), h.first⟩

theorem NamesKnown.congr {table' : List EnvCacheNode} (h : NamesKnown P table)
    (htold : table'.map EnvCacheNode.told = table.map EnvCacheNode.told) : NamesKnown P table' :=
  ⟨htold ▸ h.right, htold ▸ h.first⟩

/-- A place is given to the CRC of a name, when no other place that counts has it. -/
theorem NamesKnown.give {l₁ l₂ : List (UInt16 × Option Addr)} {p : UInt16 × Option Addr} {x : Option Addr}
    {table' : List EnvCacheNode} (h : NamesKnown P table) (htable : table.map EnvCacheNode.told = l₁ ++ p :: l₂)
    (htable' : table'.map EnvCacheNode.told = l₁ ++ (nameCrc name, x) :: l₂) (h₁ : ∀ q ∈ l₁, q.1 ≠ nameCrc name)
    (h₂ : ∀ q ∈ l₂, q.2 ≠ none → q.1 ≠ nameCrc name) (hold : ∀ crc a, crc ≠ nameCrc name → P crc a → Q crc a)
    (hnew : ∀ a, x = some a → Q (nameCrc name) a) : NamesKnown Q table' := by
  have hright := h.right
  have hfirst := h.first
  rw [htable] at hright hfirst
  obtain ⟨hf₁, hf₂, hdisj⟩ := List.pairwise_append.1 hfirst
  refine ⟨fun q hq a ha => ?_, ?_⟩
  · rw [htable'] at hq
    rcases List.mem_append.1 hq with hq | hq
    · exact hold _ _ (h₁ q hq) (hright q (List.mem_append_left _ hq) a ha)
    · rcases List.mem_cons.1 hq with rfl | hq
      · exact hnew a ha
      · exact hold _ _ (h₂ q hq (by rw [ha]; exact Option.some_ne_none a))
          (hright q (List.mem_append_right _ (List.mem_cons_of_mem _ hq)) a ha)
  · rw [htable', List.pairwise_append, List.pairwise_cons]
    refine ⟨hf₁, ⟨fun q hq hne heq => h₂ q hq hne heq.symm, (List.pairwise_cons.1 hf₂).2⟩, fun q hq q' hq' hne => ?_⟩
    rcases List.mem_cons.1 hq' with rfl | hq'
    · exact h₁ q hq
    · exact hdisj q hq q' (List.mem_cons_of_mem _ hq') hne

/-- After a node of the name is written at `addr`, no place has another address for its CRC. -/
theorem NamesKnown.put (h : NamesKnown P table) (hold : ∀ crc a, crc ≠ nameCrc name → P crc a → Q crc a)
    (hnew : Q (nameCrc name) addr) : NamesKnown Q (updateEnvCache table name addr) := by
  have hnew' : ∀ a, some addr = some a → Q (nameCrc name) a := fun a ha => Option.some.inj ha ▸ hnew
  unfold updateEnvCache
  rcases updateEnvLoop_told (nameCrc name) addr 0 none none 0xffff table with
    ⟨hnone, l₁, x, l₂, htable, hbefore, hr⟩ | ⟨hsome, hall, hr⟩
  · dsimp only
    rw [hnone]
    have hdisj := (List.pairwise_append.1 (htable ▸ h.first)).2.1
    exact h.give htable hr hbefore
      (fun q hq hne heq => (List.pairwise_cons.1 hdisj).1 q hq hne heq.symm) hold hnew'
  · -- none of them is for this CRC, so any place will do
    generalize updateEnvLoop (nameCrc name) addr 0 none none 0xffff table = r at hsome hr
    have hkeep : NamesKnown Q r.1 := by
      have hk := h.congr hr
      exact ⟨fun p hp a ha => hold _ _ (hall p (hr ▸ hp)) (hk.right p hp a ha), hk.first⟩
    have hset : ∀ k, NamesKnown Q (r.1.set k ⟨nameCrc name, 0, some addr⟩) := by
      intro k
      by_cases hk : k < r.1.length
      · obtain ⟨l₁, c, l₂, hsplit, rfl⟩ : ∃ l₁ c l₂, r.1 = l₁ ++ c :: l₂ ∧ l₁.length = k :=
          ⟨r.1.take k, r.1[k], r.1.drop (k + 1), by rw [List.getElem_cons_drop, List.take_append_drop],
            List.length_take_of_le hk.le⟩
        have hall' : ∀ q ∈ (l₁ ++ c :: l₂).map EnvCacheNode.told, q.1 ≠ nameCrc name := fun q hq =>
          hall q (hr ▸ hsplit ▸ hq)
        rw [hsplit, List.map_append, List.map_cons] at hr
        rw [hsplit, set_split]
        rw [List.map_append, List.map_cons] at hall'
        exact h.give hr.symm (by rw [List.map_append, List.map_cons]; rfl)
          (fun q hq => hall' q (List.mem_append_left _ hq))
          (fun q hq _ => hall' q (List.mem_append_right _ (List.mem_cons_of_mem _ hq))) hold hnew'
      · rw [List.set_eq_of_length_le (not_lt.1 hk)]
        exact hkeep
    dsimp only
    split
    · exact hset _
    · exact hset _
    · exact hkeep

/-- After a deletion no place has an address for the CRC of the name. -/
theorem NamesKnown.drop (h : NamesKnown P table) :
    NamesKnown (fun crc a => crc ≠ nameCrc name ∧ P crc a) (dropEnvCache table name) := by
  unfold dropEnvCache
  cases hfind : table.findIdx? (·.nameCrc = nameCrc name) with
  | none =>
    refine ⟨fun p hp a ha => ?_, h.first⟩
    obtain ⟨c, hc, rfl⟩ := List.mem_map.1 hp
    exact ⟨of_decide_eq_false (List.findIdx?_eq_none_iff.1 hfind c hc), h.right _ hp a ha⟩
  | some k =>
    obtain ⟨l₁, c, l₂, rfl, rfl, hc, hbefore⟩ := findIdx?_split hfind
    have hcrc : c.nameCrc = nameCrc name := of_decide_eq_true hc
    have hfirst := h.first
    rw [List.map_append, List.map_cons] at hfirst
    have hbehind := (List.pairwise_cons.1 (List.pairwise_append.1 hfirst).2.1).1
    dsimp only
    rw [modify_split]
    refine h.give (by rw [List.map_append, List.map_cons])
      (by rw [List.map_append, List.map_cons, ← hcrc]; rfl) (fun q hq => ?_) (fun q hq hne heq => ?_)
      (fun crc a hne hP => ⟨hne, hP⟩) fun a ha => absurd ha.symm (Option.some_ne_none a)
    · obtain ⟨d, hd, rfl⟩ := List.mem_map.1 hq
      exact of_decide_eq_false (hbefore d hd)
    · exact hbehind q hq hne (hcrc.trans heq.symm)

/-- A hit says an address for the CRC of the name, where these bytes of the name were read. -/
theorem getEnvLoop_told {u : Stale} {s : Ef} {a : Addr} {table' : List EnvCacheNode}
    (h : getEnvLoop u s name table = some (a, table')) :
    table'.map EnvCacheNode.told = table.map EnvCacheNode.told ∧
      (nameCrc name, some a) ∈ table.map EnvCacheNode.told ∧
      strncmpEq name (s.savedName u a) name.length = true := by
  induction table generalizing table' with
  | nil => cases h
  | cons c cs ih =>
    have hpass : ∀ r, getEnvLoop u s name cs = some r → (a, table') = (r.1, c :: r.2) →
        table'.map EnvCacheNode.told = (c :: cs).map EnvCacheNode.told ∧
          (nameCrc name, some a) ∈ (c :: cs).map EnvCacheNode.told ∧
          strncmpEq name (s.savedName u a) name.length = true := by
      rintro ⟨b, t⟩ hr heq
      obtain ⟨rfl, rfl⟩ := Prod.mk.inj heq
      obtain ⟨htold, hmem, hname⟩ := ih hr
      exact ⟨congrArg (c.told :: ·) htold, List.mem_cons_of_mem _ hmem, hname⟩
    cases hc : c.addr with
    | none =>
      simp only [getEnvLoop, hc] at h
      obtain ⟨r, hr, heq⟩ := Option.map_eq_some_iff.1 h
      exact hpass r hr heq.symm
    | some b =>
      simp only [getEnvLoop, hc] at h
      by_cases hhit : c.nameCrc = nameCrc name ∧ strncmpEq name (s.savedName u b) name.length = true
      · rw [if_pos hhit] at h
        obtain ⟨rfl, rfl⟩ := Prod.mk.inj (Option.some.inj h)
        refine ⟨?_, List.mem_cons.2 (.inl ?_), hhit.2⟩
        · rw [List.map_cons, List.map_cons, EnvCacheNode.told, EnvCacheNode.told, hc]
        · rw [EnvCacheNode.told, hhit.1, hc]
      · rw [if_neg hhit] at h
        obtain ⟨r, hr, heq⟩ := Option.map_eq_some_iff.1 h
        exact hpass r hr heq.symm

end Names

end Petbox.Easyflash
