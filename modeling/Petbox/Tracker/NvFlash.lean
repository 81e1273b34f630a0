/-
The tracker's NV items on EasyFlash. Four names are in use, so the items never
fill the flash, and a run over the flash answers what a run over the map answers
that `Petbox.Tracker.Nv` takes the store to be. A read brings back no more than
the first 256 bytes of an item: `nv_item_read` has no longer buffer.
-/
import Petbox.Easyflash.Runs
import Petbox.Tracker.Nv

namespace Petbox.Tracker

open CStr Easyflash Log Machine

/-- The names of the stored sections. -/
def nvNames : List String := [nvBtIps, nvBtApn, nvBtScs, nvBtLss]

/-- With the name of the version number, all names on the flash. -/
def nvKeys : List Key := verNumEnvName :: nvNames.map ascii

/-- No item is longer. -/
def nvItemMax : Nat := 1024

inductive NvOp where
  | read (name : String) (valueLen : Nat)
  | write (name : String) (value : List UInt8)
  | init
  | reset
  deriving DecidableEq, Repr

/-- The bytes that `nv_item_read` copies, and how many `nv_item_write` says it wrote. -/
inductive NvAnswer where
  | value (bytes : List UInt8)
  | written (valueLen : Nat)
  | none
  deriving DecidableEq, Repr

/-- `nv_item_read`, `nv_item_write` and `nv_item_init` on the flash, and a reset. -/
def NvOp.onFlash (e : EfEnv) : Stale × NvOp → Option (EfEnv × NvAnswer)
  | (u, .read name valueLen) =>
    let r := Easyflash.efGetEnvBlob u (ascii name) efStrEnvValueMaxSize e
    some (r.1, .value (r.2.1.take valueLen))
  | (u, .write name value) =>
    let r := Easyflash.efSetEnvBlob u (ascii name) (some value) e
    some (r.1, .written (if r.2 = .noErr then value.length else 0))
  | (u, .init) => (efEnvInit u e).map fun e => (e, .none)
  | (_, .reset) => some (e.powerOn, .none)

/-- The map of the items, that is used once it was initialised. -/
structure NvStore where
  items : EnvStore
  ready : Bool

def NvStore.empty : NvStore := ⟨fun _ => none, false⟩

/-- The same on the map. -/
def NvOp.onMap (m : NvStore) : NvOp → NvStore × NvAnswer
  | .read name valueLen => (m, .value (if m.ready then nvItemRead m.items name valueLen else []))
  | .write name value =>
    if m.ready then ({ m with items := nvItemWrite m.items name value }, .written value.length) else (m, .written 0)
  | .init => ({ m with ready := true }, .none)
  | .reset => ({ m with ready := false }, .none)

def answersOnMap : NvStore → List NvOp → List NvAnswer
  | _, [] => []
  | m, op :: ops => (op.onMap m).2 :: answersOnMap (op.onMap m).1 ops

/-- The items are those of the sections. -/
def NvOp.Ok : NvOp → Prop
  | .read name _ => name ∈ nvNames
  | .write name value => name ∈ nvNames ∧ value.length ≤ nvItemMax
  | .init => True
  | .reset => True

/-! ## The names -/

theorem nvKeys_keys : Keys {k | k ∈ nvKeys} where
  text := (by decide : ∀ k ∈ nvKeys, Text k)
  short := (by decide : ∀ k ∈ nvKeys, k.length ≤ envNameMax)
  apart := (by decide : ∀ k ∈ nvKeys, ∀ k' ∈ nvKeys, k <+: k' → k = k')

theorem ascii_mem {name : String} (h : name ∈ nvNames) : ascii name ∈ nvKeys :=
  List.mem_cons_of_mem _ (List.mem_map_of_mem h)

theorem ascii_inj : ∀ name ∈ nvNames, ∀ name' ∈ nvNames, ascii name = ascii name' → name = name' := by decide

theorem ascii_ne_ver : ∀ name ∈ nvNames, ascii name ≠ verNumEnvName := by decide

/-! ## The flash is never full -/

/-- What the table of the items keeps to. -/
structure Small (st : Table) : Prop where
  named : ∀ e ∈ st.entries, e.1 ∈ nvKeys
  short : ∀ e ∈ st.entries, e.2.length ≤ nvItemMax

/-- The longest node of an item. -/
def nvNodeMax : Nat := envLen envNameMax nvItemMax

theorem envLen_le {key : Key} {value : Value} (hkey : key ∈ nvKeys) (hvalue : value.length ≤ nvItemMax) :
    envLen key.length value.length ≤ nvNodeMax := by
  have hshort : key.length ≤ envNameMax := nvKeys_keys.short key hkey
  unfold nvNodeMax envLen wgAlign
  omega

theorem stored_le {es : List ((_ : Key) × Value)} {b : Nat} (h : ∀ e ∈ es, envLen e.1.length e.2.length ≤ b) :
    stored es ≤ es.length * b := by
  induction es with
  | nil => exact Nat.zero_le _
  | cons e es ih =>
    obtain ⟨he, hes⟩ := List.forall_mem_cons.1 h
    rw [stored, List.length_cons, Nat.add_mul, Nat.one_mul, Nat.add_comm]
    exact Nat.add_le_add (ih hes) he

theorem Small.fits {st : Table} (h : Small st) {key : Key} {value : Value} (hkey : key ∈ nvKeys)
    (hvalue : value.length ≤ nvItemMax) : Fits st key value := by
  have hmax : nvNodeMax = 1096 := rfl
  have hlen := envLen_le hkey hvalue
  have hroom := sectorRoom_eq
  have hcount : st.entries.length ≤ nvKeys.length := by
    have hsub : st.entries.keys ⊆ nvKeys := fun k hk => by
      obtain ⟨e, he, rfl⟩ := List.mem_map.1 hk
      exact h.named e he
    have hlength : st.entries.keys.length = st.entries.length := List.length_map _
    rw [← hlength]
    exact (List.subperm_of_subset st.nodupKeys hsub).length_le
  have hstored : stored st.entries ≤ nvKeys.length * nvNodeMax :=
    (stored_le fun e he => envLen_le (h.named e he) (h.short e he)).trans (Nat.mul_le_mul_right _ hcount)
  have hnum : nvKeys.length * nvNodeMax = 5480 := by rw [hmax]; rfl
  refine ⟨hlen.trans (by rw [hmax]; decide), ?_⟩
  have hthreshold : secRemainThreshold = 72 := rfl
  have hsectors : sectorNum - 1 = 19 := rfl
  rw [hsectors]
  omega

theorem Small.insert {st : Table} (h : Small st) {key : Key} {value : Value} (hkey : key ∈ nvKeys)
    (hvalue : value.length ≤ nvItemMax) : Small (st.insert key value) := by
  have hmem : ∀ e ∈ (st.insert key value).entries, e = ⟨key, value⟩ ∨ e ∈ st.entries := fun e he => by
    rw [AList.entries_insert] at he
    exact (List.mem_cons.1 he).imp_right fun he => (List.kerase_sublist key st.entries).subset he
  refine ⟨fun e he => ?_, fun e he => ?_⟩
  · rcases hmem e he with rfl | he
    · exact hkey
    · exact h.named e he
  · rcases hmem e he with rfl | he
    · exact hvalue
    · exact h.short e he

/-! ## The flash and the map -/

/-- The flash holds what the map does, and no other version number. -/
structure Stores (s : Ef) (nv : EnvStore) (st : Table) : Prop where
  represents : s.Represents {k | k ∈ nvKeys} st
  small : Small st
  agrees : ∀ name ∈ nvNames, st.lookup (ascii name) = nv name
  version : st.lookup verNumEnvName = none ∨ st.lookup verNumEnvName = some efEnvVerNum

variable {s : Ef} {nv : EnvStore} {st : Table}

theorem stores_formatted : Stores Ef.formatted (fun _ => none) ∅ where
  represents := formatted_represents _
  small := ⟨fun _ he => absurd he List.not_mem_nil, fun _ he => absurd he List.not_mem_nil⟩
  agrees _ _ := rfl
  version := .inl rfl

theorem Stores.read (h : Stores s nv st) {name : String} (hname : name ∈ nvNames) (u : Stale) :
    ∃ s' len, getEnv u (ascii name) efStrEnvValueMaxSize s =
      (s', efGetEnvBlob nv name efStrEnvValueMaxSize, len) ∧ Stores s' nv st := by
  obtain ⟨s', hget, hr⟩ := getEnv_spec nvKeys_keys h.represents (ascii_mem hname) u efStrEnvValueMaxSize
  have hread : (readOf st (ascii name) efStrEnvValueMaxSize).1 = efGetEnvBlob nv name efStrEnvValueMaxSize := by
    rw [readOf, h.agrees name hname, efGetEnvBlob]
    cases nv name with
    | none => rfl
    | some value => rfl
  refine ⟨s', (readOf st (ascii name) efStrEnvValueMaxSize).2, ?_, hr, h.small, h.agrees, h.version⟩
  rw [hget, ← hread]

theorem Stores.write (h : Stores s nv st) {name : String} (hname : name ∈ nvNames) {value : List UInt8}
    (hvalue : value.length ≤ nvItemMax) (u : Stale) :
    ∃ s' st', setEnv u (ascii name) (some value) s = (s', .noErr) ∧ Stores s' (nvItemWrite nv name value) st' := by
  have hkey := ascii_mem hname
  obtain ⟨s', hset, hr⟩ := setEnv_some nvKeys_keys h.represents hkey (h.small.fits hkey hvalue) u
  refine ⟨s', st.insert (ascii name) value, hset, hr, h.small.insert hkey hvalue, fun name' hname' => ?_, ?_⟩
  · by_cases heq : name' = name
    · rw [heq, AList.lookup_insert, nvItemWrite_self]
    · rw [AList.lookup_insert_ne fun ha => heq (ascii_inj name' hname' name hname ha), nvItemWrite_ne heq]
      exact h.agrees name' hname'
  · rw [AList.lookup_insert_ne (ascii_ne_ver name hname).symm]
    exact h.version

theorem Stores.powerOn (h : Stores s nv st) : Stores s.powerOn nv st :=
  ⟨h.represents.powerOn, h.small, h.agrees, h.version⟩

/-- With no other version number the default items are left alone. -/
theorem Stores.init (h : Stores s nv st) (u : Stale) : ∃ s' st', envAutoUpdate u s = some s' ∧ Stores s' nv st' := by
  have hver : verNumEnvName ∈ nvKeys := List.mem_cons_self
  have hshort : efEnvVerNum.length ≤ nvItemMax := by decide
  have hupdate := envAutoUpdate_spec nvKeys_keys hver h.represents (h.small.fits hver hshort) u
  rcases h.version with hnone | hsame
  · have hversioned : versioned st = some (st.insert verNumEnvName efEnvVerNum) := by
      rw [versioned, readOf, hnone]
      exact if_pos rfl
    obtain ⟨s', hinit, hr⟩ := rel_some_right (hversioned ▸ hupdate)
    refine ⟨s', _, hinit, hr, h.small.insert hver hshort, fun name hname => ?_, .inr (AList.lookup_insert _)⟩
    rw [AList.lookup_insert_ne (ascii_ne_ver name hname)]
    exact h.agrees name hname
  · have hversioned : versioned st = some st := by
      rw [versioned, readOf, hsame]
      rfl
    obtain ⟨s', hinit, hr⟩ := rel_some_right (hversioned ▸ hupdate)
    exact ⟨s', st, hinit, hr, h.small, h.agrees, h.version⟩

/-- One operation on the flash and on the map. -/
theorem Stores.step (h : Stores s nv st) (ready : Bool) (u : Stale) {op : NvOp} (hop : op.Ok) :
    ∃ s' st', NvOp.onFlash ⟨s, ready⟩ (u, op) = some (⟨s', (op.onMap ⟨nv, ready⟩).1.ready⟩, (op.onMap ⟨nv, ready⟩).2) ∧
      Stores s' (op.onMap ⟨nv, ready⟩).1.items st' := by
  cases op with
  | read name valueLen =>
    cases ready with
    | false =>
      refine ⟨s, st, ?_, h⟩
      simp only [NvOp.onFlash, NvOp.onMap, Easyflash.efGetEnvBlob, Bool.false_eq_true, if_false, List.take_nil]
    | true =>
      obtain ⟨s', len, hget, h'⟩ := h.read hop u
      refine ⟨s', st, ?_, h'⟩
      simp only [NvOp.onFlash, NvOp.onMap, Easyflash.efGetEnvBlob, hget, if_true, nvItemRead]
  | write name value =>
    cases ready with
    | false => exact ⟨s, st, rfl, h⟩
    | true =>
      obtain ⟨s', st', hset, h'⟩ := h.write hop.1 hop.2 u
      refine ⟨s', st', ?_, h'⟩
      simp only [NvOp.onFlash, NvOp.onMap, Easyflash.efSetEnvBlob, hset, if_true]
  | init =>
    cases ready with
    | true => exact ⟨s, st, rfl, h⟩
    | false =>
      obtain ⟨s', st', hinit, h'⟩ := h.init u
      refine ⟨s', st', ?_, h'⟩
      simp only [NvOp.onFlash, NvOp.onMap, efEnvInit, hinit, Bool.false_eq_true, if_false, Option.map_some]
  | reset => exact ⟨s.powerOn, st, rfl, h.powerOn⟩

theorem Stores.run (ops : List (Stale × NvOp)) (h : Stores s nv st) (ready : Bool) (hops : ∀ p ∈ ops, p.2.Ok) :
    (execAnswers NvOp.onFlash ⟨s, ready⟩ ops).map Prod.snd = some (answersOnMap ⟨nv, ready⟩ (ops.map Prod.snd)) := by
  induction ops generalizing s nv st ready with
  | nil => rfl
  | cons p ops ih =>
    obtain ⟨u, op⟩ := p
    obtain ⟨hop, hops⟩ := List.forall_mem_cons.1 hops
    obtain ⟨s', st', hstep, h'⟩ := h.step ready u hop
    rw [execAnswers_cons hstep, Option.map_map]
    calc ((execAnswers NvOp.onFlash ⟨s', _⟩ ops).map fun r => (op.onMap ⟨nv, ready⟩).2 :: r.2)
        = ((execAnswers NvOp.onFlash ⟨s', _⟩ ops).map Prod.snd).map ((op.onMap ⟨nv, ready⟩).2 :: ·) :=
          (Option.map_map ..).symm
      _ = some (answersOnMap ⟨nv, ready⟩ (op :: ops.map Prod.snd)) := by rw [ih h' _ hops]; rfl

/-- From the formatted flash on, whatever items are written and read, before and
behind the initialisation and over every reset, the flash answers as the map. -/
theorem nv_items_kept (ops : List (Stale × NvOp)) (hops : ∀ p ∈ ops, p.2.Ok) :
    (execAnswers NvOp.onFlash .formatted ops).map Prod.snd = some (answersOnMap .empty (ops.map Prod.snd)) :=
  stores_formatted.run ops false hops

theorem nv_items_kept_restart :
    (execAnswers NvOp.onFlash .formatted [(unwritten, .write nvBtLss [3, 4]), (unwritten, .init),
      (unwritten, .write nvBtLss [3, 4]), (unwritten, .reset), (unwritten, .read nvBtLss 2), (unwritten, .init),
      (unwritten, .read nvBtLss 2)]).map Prod.snd =
      some [.written 0, .none, .written 2, .none, .value [], .none, .value [3, 4]] := by
  refine (nv_items_kept _ ?_).trans (by decide)
  have hwrite : nvBtLss ∈ nvNames ∧ [3, 4].length ≤ nvItemMax := by decide
  simp only [List.forall_mem_cons, NvOp.Ok]
  exact ⟨hwrite, trivial, hwrite, trivial, hwrite.1, trivial, hwrite.1, fun _ h => absurd h List.not_mem_nil⟩

end Petbox.Tracker
