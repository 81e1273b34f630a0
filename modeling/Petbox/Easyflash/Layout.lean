/-
How the nodes of a sector lie: one behind the other from the sector header on,
every one where at least `EF_SEC_REMAIN_THRESHOLD` bytes were left, so that the
search for the magic word finds it. The three changes of a sector (a node
behind the others, a status, the formatting) keep this.
-/
import Mathlib.Tactic.Common
import Petbox.Easyflash.Env

namespace Petbox.Easyflash

/-- What a sector has for nodes. -/
def sectorRoom : Nat := sectorSize - sectorHdrDataSize

/-- The longest node that leaves the threshold in an empty sector. -/
def envMax : Nat := sectorRoom - secRemainThreshold

theorem sectorSize_eq : sectorSize = 4096 := rfl
theorem sectorRoom_eq : sectorRoom = 4060 := rfl
theorem envMax_eq : envMax = 3988 := rfl

theorem Node.len_pos (n : Node) : 0 < n.len := by
  unfold Node.len envLen envHdrDataSize
  omega

@[simp] theorem used_nil : used [] = 0 := rfl

@[simp] theorem used_cons (n : Node) (ns : List Node) : used (n :: ns) = n.len + used ns := rfl

@[simp] theorem used_append (ns ms : List Node) : used (ns ++ ms) = used ns + used ms := by
  induction ns with
  | nil => exact (Nat.zero_add _).symm
  | cons n ns ih => rw [List.cons_append, used_cons, used_cons, ih, Nat.add_assoc]

/-- Nodes one behind the other, from `o` on. -/
def Laid : Nat → List Node → Prop
  | _, [] => True
  | o, n :: ns => n.off = o ∧ Laid (o + n.len) ns

theorem laid_append {o : Nat} {ns : List Node} {n : Node} :
    Laid o (ns ++ [n]) ↔ Laid o ns ∧ n.off = o + used ns := by
  induction ns generalizing o with
  | nil => simp [Laid]
  | cons m ns ih => rw [List.cons_append, Laid, Laid, ih, used_cons, and_assoc, Nat.add_assoc]

theorem Laid.behind {o : Nat} {ns ms : List Node} (h : Laid o (ns ++ ms)) : Laid (o + used ns) ms := by
  induction ns generalizing o with
  | nil => exact h
  | cons n ns ih =>
    rw [used_cons, ← Nat.add_assoc]
    exact ih h.2

theorem Laid.bounds {o : Nat} {ns : List Node} (h : Laid o ns) {n : Node} (hn : n ∈ ns) :
    o ≤ n.off ∧ n.off + n.len ≤ o + used ns := by
  induction ns generalizing o with
  | nil => cases hn
  | cons m ns ih =>
    rw [used_cons]
    rcases List.mem_cons.1 hn with rfl | hn
    · have := h.1
      omega
    · have := ih h.2 hn
      omega

theorem Laid.nodup {o : Nat} {ns : List Node} (h : Laid o ns) : (ns.map Node.off).Nodup := by
  induction ns generalizing o with
  | nil => exact List.nodup_nil
  | cons m ns ih =>
    refine List.nodup_cons.2 ⟨fun hm => ?_, ih h.2⟩
    obtain ⟨n, hn, hoff⟩ := List.mem_map.1 hm
    have := h.2.bounds hn
    have := m.len_pos
    have := h.1
    omega

theorem Laid.eq_of_off {o : Nat} {ns : List Node} (h : Laid o ns) {n m : Node} (hn : n ∈ ns) (hm : m ∈ ns)
    (hoff : n.off = m.off) : n = m := List.inj_on_of_nodup_map h.nodup hn hm hoff

/-! ## A status changes -/

variable {off : Nat} {status : EnvStatus}

theorem laid_mark {o : Nat} {ns : List Node} :
    Laid o (Log.mark Node.off off (fun n => { n with status }) ns) ↔ Laid o ns := by
  induction ns generalizing o with
  | nil => rfl
  | cons n ns ih =>
    rw [Log.mark, List.map_cons]
    split <;> exact and_congr_right fun _ => ih

theorem used_mark (ns : List Node) : used (Log.mark Node.off off (fun n => { n with status }) ns) = used ns := by
  induction ns with
  | nil => rfl
  | cons n ns ih =>
    rw [Log.mark, List.map_cons, used_cons, used_cons]
    split <;> exact congrArg _ ih

/-- A node after the change is one of before, but for its status. -/
theorem of_mem_mark {ns : List Node} {n : Node} (h : n ∈ Log.mark Node.off off (fun n => { n with status }) ns) :
    ∃ m ∈ ns, n.off = m.off ∧ n.name = m.name ∧ n.value = m.value ∧
      n.status = if m.off = off then status else m.status := by
  rcases Log.mem_mark h with ⟨hn, hne⟩ | ⟨m, hm, hoff, rfl⟩
  · exact ⟨n, hn, rfl, rfl, rfl, (if_neg hne).symm⟩
  · exact ⟨m, hm, rfl, rfl, rfl, (if_pos hoff).symm⟩

/-! ## A sector -/

/-- A sector as the store leaves it between two writes. -/
structure Sector.Ok (b : Sector) : Prop where
  laid : Laid sectorHdrDataSize b.nodes
  starts : ∀ n ∈ b.nodes, n.off ≤ sectorHdrDataSize + envMax
  small : ∀ n ∈ b.nodes, n.len ≤ envMax
  fits : used b.nodes < sectorRoom
  empty_iff : b.store = .storeEmpty ↔ b.nodes = []
  room : b.store = .storeUsing → used b.nodes ≤ envMax
  full : b.store = .storeFull → envMax < used b.nodes
  clean : b.dirty = .dirtyFalse → ∀ n ∈ b.nodes, n.status = .write
  fresh : b.nodes = [] → b.dirty = .dirtyFalse

theorem Sector.Ok.not_empty {b : Sector} (h : b.Ok) {n : Node} (hn : n ∈ b.nodes) : b.store ≠ .storeEmpty := by
  intro he
  rw [h.empty_iff.1 he] at hn
  cases hn

def Sector.formatted : Sector := ⟨.storeEmpty, .dirtyFalse, []⟩

theorem Sector.formatted_ok : Sector.formatted.Ok where
  laid := trivial
  starts _ h := nomatch h
  small _ h := nomatch h
  fits := by decide
  empty_iff := iff_of_true rfl rfl
  room h := nomatch h
  full h := nomatch h
  clean _ _ h := nomatch h
  fresh _ := rfl

/-- What `del_env` does to the sector of the node. -/
def Sector.kill (b : Sector) (off : Nat) (status : EnvStatus) : Sector where
  store := b.store
  dirty := if b.dirty = .dirtyFalse then .dirtyTrue else b.dirty
  nodes := Log.mark Node.off off (fun n => { n with status }) b.nodes

theorem Sector.Ok.kill {b : Sector} (h : b.Ok) {n : Node} (hn : n ∈ b.nodes) (off : Nat) (status : EnvStatus) :
    (b.kill off status).Ok where
  laid := laid_mark.2 h.laid
  starts m hm := by
    obtain ⟨m', hm', hoff, -⟩ := of_mem_mark hm
    exact hoff ▸ h.starts m' hm'
  small m hm := by
    obtain ⟨m', hm', -, hname, hvalue, -⟩ := of_mem_mark hm
    rw [Node.len, hname, hvalue]
    exact h.small m' hm'
  fits := (used_mark b.nodes).trans_lt h.fits
  empty_iff := h.empty_iff.trans List.map_eq_nil_iff.symm
  room hs := (used_mark b.nodes).trans_le (h.room hs)
  full hs := (used_mark b.nodes).symm ▸ h.full hs
  clean hd := by
    unfold Sector.kill at hd
    dsimp only at hd
    split at hd
    · cases hd
    · contradiction
  fresh hnil := absurd hn (by rw [List.map_eq_nil_iff.1 hnil]; exact List.not_mem_nil)

/-- What a new node does to its sector. -/
def Sector.grown (b : Sector) (n : Node) : Sector where
  store := if b.store = .storeEmpty ∨ used b.nodes + n.len ≤ envMax then .storeUsing else .storeFull
  dirty := b.dirty
  nodes := b.nodes ++ [n]

theorem Sector.Ok.grown {b : Sector} (h : b.Ok) {n : Node} (hfull : b.store ≠ .storeFull)
    (hoff : n.off = sectorHdrDataSize + used b.nodes) (hlen : n.len ≤ envMax)
    (hfit : used b.nodes + n.len < sectorRoom) (hst : n.status = .write) : (b.grown n).Ok where
  laid := laid_append.2 ⟨h.laid, hoff⟩
  starts m hm := by
    rcases List.mem_append.1 hm with hm | hm
    · exact h.starts m hm
    · rw [List.mem_singleton.1 hm, hoff]
      cases hs : b.store with
      | storeEmpty => rw [h.empty_iff.1 hs]; exact Nat.add_le_add_left (Nat.zero_le _) _
      | storeUsing => exact Nat.add_le_add_left (h.room hs) _
      | storeFull => exact absurd hs hfull
  small m hm := by
    rcases List.mem_append.1 hm with hm | hm
    · exact h.small m hm
    · rw [List.mem_singleton.1 hm]
      exact hlen
  fits := by simpa [Sector.grown] using hfit
  empty_iff := by
    refine iff_of_false (fun hs => ?_) (by simp [Sector.grown])
    unfold Sector.grown at hs
    dsimp only at hs
    split at hs <;> cases hs
  room hs := by
    unfold Sector.grown at hs ⊢
    dsimp only at hs ⊢
    rw [used_append, used_cons, used_nil, Nat.add_zero]
    split at hs
    · rename_i hor
      rcases hor with he | hle
      · rw [h.empty_iff.1 he, used_nil, Nat.zero_add]
        exact hlen
      · exact hle
    · cases hs
  full hs := by
    unfold Sector.grown at hs ⊢
    dsimp only at hs ⊢
    rw [used_append, used_cons, used_nil, Nat.add_zero]
    split at hs
    · cases hs
    · rename_i hor
      exact not_le.1 (not_or.1 hor).2
  clean hd m hm := by
    rcases List.mem_append.1 hm with hm | hm
    · exact h.clean hd m hm
    · rw [List.mem_singleton.1 hm]
      exact hst
  fresh hnil := absurd hnil (by simp [Sector.grown])

/-! ## The search finds every node -/

theorem scanFrom_laid {stop : Option Nat} {start : Nat} {ns : List Node} (h : Laid start ns)
    (hoff : ∀ n ∈ ns, n.off ≤ sectorHdrDataSize + envMax) (hstop : ∀ e, stop = some e → start + used ns ≤ e) :
    scanFrom stop start ns = ns := by
  induction ns generalizing start with
  | nil => rfl
  | cons n ns ih =>
    have hpos := n.len_pos
    have hcur : stop ≠ some start := fun he => by
      have := hstop start he
      rw [used_cons] at this
      omega
    have hnear : n.off + envMagicOffset < sectorSize - sectorHdrDataSize :=
      (Nat.add_le_add_right (hoff n List.mem_cons_self) _).trans_lt (by decide)
    have hrest : scanFrom stop (n.off + n.len) ns = ns :=
      ih (h.1.symm ▸ h.2) (fun m hm => hoff m (List.mem_cons_of_mem _ hm)) fun e he => by
        have := hstop e he
        have := h.1
        rw [used_cons] at *
        omega
    rw [scanFrom, if_neg hcur, if_neg (by rw [h.1]; exact Nat.lt_irrefl _), if_pos hnear, hrest]

/-- A cached empty address is where the nodes end. -/
theorem found_eq {s : Ef} {j : Fin sectorNum} (h : (s.sectors j).Ok)
    (hc : ∀ e, getSectorFromCache s.sectorCacheTable j = some e → e = sectorHdrDataSize + used (s.sectors j).nodes) :
    s.found j = (s.sectors j).nodes := by
  unfold Ef.found
  have hlaid := h.laid
  have hstarts := h.starts
  revert hc hlaid hstarts
  cases (s.sectors j).nodes with
  | nil => exact fun _ _ _ => rfl
  | cons n ns =>
    intro hc hlaid hstarts
    have hstop : ∀ e, getSectorFromCache s.sectorCacheTable j = some e → n.off + n.len + used ns ≤ e := fun e he => by
      rw [hc e he, used_cons, hlaid.1, Nat.add_assoc]
    exact congrArg (n :: ·) (scanFrom_laid (hlaid.1.symm ▸ hlaid.2)
      (fun m hm => hstarts m (List.mem_cons_of_mem _ hm)) hstop)

theorem nodeAt_eq {s : Ef} {j : Fin sectorNum} (h : (s.sectors j).Ok) {n : Node} (hn : n ∈ (s.sectors j).nodes) :
    s.nodeAt ⟨j, n.off⟩ = some n := by
  cases hfind : s.nodeAt ⟨j, n.off⟩ with
  | none => exact absurd (List.find?_eq_none.1 hfind n hn) (by simp)
  | some m =>
    have hoff : m.off = n.off := by simpa using List.find?_some hfind
    rw [h.laid.eq_of_off (List.mem_of_find?_eq_some hfind) hn hoff]

end Petbox.Easyflash
