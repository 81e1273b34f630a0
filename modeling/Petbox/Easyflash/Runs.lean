/-
Runs of the store. From the formatted flash on, whatever is set, deleted and
read, before and behind the initialisation and over every reset, each answer is
the one that a table of names and values gives.
-/
import Petbox.Easyflash.Store
import Petbox.Lib.Run

namespace Petbox.Easyflash

open Log CStr Machine

/-! ## What is done with the store -/

inductive Op where
  | set (key : Key) (value : Value)
  | delete (key : Key)
  | get (key : Key) (bufLen : Nat)
  | init
  | reset
  deriving DecidableEq, Repr

inductive Answer where
  | code (c : EfErrCode)
  | read (bytes : List UInt8) (valueLen : Option Nat)
  | none
  deriving DecidableEq, Repr

/-- `ef_set_env_blob`, `ef_del_env`, `ef_get_env_blob` and `ef_env_init`, and a
reset; nothing where the code reads a null pointer. Each operation finds other
bytes where the store has written none. -/
def EfEnv.perform (e : EfEnv) : Stale × Op → Option (EfEnv × Answer)
  | (u, .set key value) => let r := efSetEnvBlob u key (some value) e; some (r.1, .code r.2)
  | (u, .delete key) => let r := efDelEnv u key e; some (r.1, .code r.2)
  | (u, .get key bufLen) => let r := efGetEnvBlob u key bufLen e; some (r.1, .read r.2.1 r.2.2)
  | (u, .init) => (efEnvInit u e).map fun e => (e, .code .noErr)
  | (_, .reset) => some (e.powerOn, .none)

/-! ## What a table does -/

/-- A table of names and values, that is used once it was initialised. -/
structure TableStore where
  table : Table
  ready : Bool

def TableStore.empty : TableStore := ⟨∅, false⟩

/-- The version number that an initialisation leaves in the table. With another
number it would go on to the default items, which are not all there. -/
def versioned (st : Table) : Option Table :=
  if (readOf st verNumEnvName 4).1 = [] then some (st.insert verNumEnvName efEnvVerNum)
  else if (readOf st verNumEnvName 4).1 = efEnvVerNum then some st
  else none

/-- What an operation is to do to the table. -/
def TableStore.perform (t : TableStore) : Op → Option (TableStore × Answer)
  | .set key value =>
    if t.ready then some ({ t with table := t.table.insert key value }, .code .noErr)
    else some (t, .code .envInitFailed)
  | .delete key =>
    if t.ready then
      some ({ t with table := t.table.erase key }, .code (if key ∈ t.table then .noErr else .envNameErr))
    else some (t, .code .envInitFailed)
  | .get key bufLen =>
    if t.ready then some (t, .read (readOf t.table key bufLen).1 (readOf t.table key bufLen).2)
    else some (t, .read [] none)
  | .init =>
    if t.ready then some (t, .code .noErr) else (versioned t.table).map fun st => (⟨st, true⟩, .code .noErr)
  | .reset => some ({ t with ready := false }, .none)

/-- The names are in use, and what is written fits. -/
def Op.Fitting (K : Set Key) (t : TableStore) : Op → Prop
  | .set key value => key ∈ K ∧ Fits t.table key value
  | .delete key => key ∈ K
  | .get key _ => key ∈ K
  | .init => Fits t.table verNumEnvName efEnvVerNum
  | .reset => True

/-- Every operation of a run does. -/
def AllFitting (K : Set Key) : TableStore → List Op → Prop :=
  Along (fun t op => (t.perform op).map Prod.fst) (Op.Fitting K)

section

variable {K : Set Key} {s : Ef} {st : Table}

/-! ## The start -/

/-- The caches know nothing after a reset. -/
theorem Ef.Represents.powerOn (h : s.Represents K st) : s.powerOn.Represents K st where
  rests := {
    ok := {
      sectors := h.rests.ok.sectors
      known := by
        refine ⟨fun c hc j hj => ?_, List.pairwise_replicate.2 (.inr fun _ hj => nomatch hj)⟩
        rw [List.eq_of_mem_replicate hc] at hj
        cases hj
      names := by
        have htold : s.powerOn.envCacheTable.map EnvCacheNode.told = List.replicate envCacheTableSize (0, none) :=
          List.map_replicate
        refine ⟨fun p hp a ha => ?_, ?_⟩
        · rw [htold] at hp
          rw [List.eq_of_mem_replicate hp] at ha
          cases ha
        · rw [htold]
          exact List.pairwise_replicate.2 (.inr fun hne => absurd rfl hne)
      named := h.rests.ok.named }
    settled := h.rests.settled
    last := rfl
    spare := h.rests.spare }
  idle := rfl
  holds := h.holds

theorem formatted_represents (K : Set Key) : Ef.formatted.Represents K ∅ := by
  have hnodes : ∀ j, (Ef.formatted.sectors j).nodes = [] := fun _ => rfl
  have hcont : contents Ef.formatted.sectors = 0 := by
    rw [contents, held]
    exact Finset.sum_eq_zero fun j _ => by rw [hnodes j, items_nil]
  have h : Ef.Represents K { Ef.formatted with sectorCacheTable := [], envCacheTable := [] } ∅ := {
    rests := {
      ok := {
        sectors := fun _ => Sector.formatted_ok
        known := ⟨fun _ hc => absurd hc List.not_mem_nil, List.Pairwise.nil⟩
        names := ⟨fun _ hp => absurd hp List.not_mem_nil, List.Pairwise.nil⟩
        named := fun j n hn => absurd (hnodes j ▸ hn) List.not_mem_nil }
      settled := fun j n hn => absurd (hnodes j ▸ hn) List.not_mem_nil
      last := rfl
      spare := ⟨⟨0, by decide⟩, rfl⟩ }
    idle := rfl
    holds := hcont }
  exact h.powerOn

/-- The default items are never all added. -/
theorem addDefaults_defaultEnvSet (u : Stale) (s : Ef) : addDefaults u defaultEnvSet s = none := by
  have hnull : ∀ s, addDefaults u (List.replicate (efDefaultEnvItem - 1) none) s = none := fun _ => rfl
  unfold defaultEnvSet addDefaults
  split
  · exact hnull _
  · exact hnull _

theorem envAutoUpdate_spec (hK : Keys K) (hver : verNumEnvName ∈ K) (h : s.Represents K st)
    (hfits : Fits st verNumEnvName efEnvVerNum) (u : Stale) :
    Option.Rel (fun s st => s.Represents K st) (envAutoUpdate u s) (versioned st) := by
  obtain ⟨s₁, hget, hr⟩ := getEnv_spec hK h hver u 4
  unfold envAutoUpdate versioned
  rw [hget]
  by_cases hnone : (readOf st verNumEnvName 4).1 = []
  · obtain ⟨s₂, hset, hr₂⟩ := setEnv_some hK hr hver hfits u
    rw [if_pos hnone, if_pos hnone, hset]
    exact .some hr₂
  · rw [if_neg hnone, if_neg hnone]
    by_cases hsame : (readOf st verNumEnvName 4).1 = efEnvVerNum
    · rw [if_pos hsame, if_pos hsame]
      exact .some hr
    · rw [if_neg hsame, if_neg hsame, addDefaults_defaultEnvSet]
      exact .none

/-! ## Runs -/

/-- The store holds the table, and both were initialised or neither. -/
structure EfEnv.Represents (K : Set Key) (e : EfEnv) (t : TableStore) : Prop where
  ef : e.ef.Represents K t.table
  ready : e.initOk = t.ready

theorem EfEnv.formatted_represents (K : Set Key) : EfEnv.formatted.Represents K TableStore.empty :=
  ⟨Easyflash.formatted_represents K, rfl⟩

variable {e : EfEnv} {t : TableStore}

/-- One operation does to the flash what it is to do to the table. -/
theorem perform_spec (hK : Keys K) (hver : verNumEnvName ∈ K) (h : e.Represents K t) {op : Op}
    (hop : op.Fitting K t) (u : Stale) :
    Option.Rel (fun r r' => r.1.Represents K r'.1 ∧ r.2 = r'.2) (e.perform (u, op)) (t.perform op) := by
  obtain ⟨s, initOk⟩ := e
  obtain ⟨st, ready⟩ := t
  obtain ⟨hef, rfl : initOk = ready⟩ := h
  cases op with
  | set key value =>
    obtain ⟨s', heq, hr⟩ := setEnv_some hK hef hop.1 hop.2 u
    cases initOk with
    | false => exact .some ⟨⟨hef, rfl⟩, rfl⟩
    | true =>
      simp only [EfEnv.perform, TableStore.perform, efSetEnvBlob, heq, if_true]
      exact .some ⟨⟨hr, rfl⟩, rfl⟩
  | delete key =>
    obtain ⟨s', heq, hr⟩ := setEnv_none hK hef hop u
    have hdel : delEnv u key s = _ := heq
    cases initOk with
    | false => exact .some ⟨⟨hef, rfl⟩, rfl⟩
    | true =>
      simp only [EfEnv.perform, TableStore.perform, efDelEnv, hdel, if_true]
      exact .some ⟨⟨hr, rfl⟩, rfl⟩
  | get key bufLen =>
    obtain ⟨s', heq, hr⟩ := getEnv_spec hK hef hop u bufLen
    cases initOk with
    | false => exact .some ⟨⟨hef, rfl⟩, rfl⟩
    | true =>
      simp only [EfEnv.perform, TableStore.perform, efGetEnvBlob, heq, if_true]
      exact .some ⟨⟨hr, rfl⟩, rfl⟩
  | init =>
    have hupdate := envAutoUpdate_spec hK hver hef hop u
    cases initOk with
    | true => exact .some ⟨⟨hef, rfl⟩, rfl⟩
    | false =>
      simp only [EfEnv.perform, TableStore.perform, efEnvInit, Bool.false_eq_true, if_false, Option.map_map]
      exact rel_map hupdate fun _ _ hr => ⟨⟨hr, rfl⟩, rfl⟩
  | reset => exact .some ⟨⟨hef.powerOn, rfl⟩, rfl⟩

/-- From the formatted flash on the store answers as a table does, whatever it
collects and however its caches forget, and it always keeps a sector to spare. -/
theorem store_is_table (hK : Keys K) (hver : verNumEnvName ∈ K) (ops : List (Stale × Op))
    (hops : AllFitting K .empty (ops.map Prod.snd)) :
    Option.Rel
      (fun r r' => r.2 = r'.2 ∧ Shows (contents r.1.ef.sectors) r'.1.table ∧
        ∃ j, (r.1.ef.sectors j).store = .storeEmpty)
      (execAnswers EfEnv.perform .formatted ops) (execAnswers TableStore.perform .empty (ops.map Prod.snd)) := by
  have hrun := execAnswers_rel (R := EfEnv.Represents K) Prod.snd
    (fun _ _ p h hop => perform_spec hK hver h hop p.1) ops (EfEnv.formatted_represents K) hops
  revert hrun
  generalize execAnswers EfEnv.perform .formatted ops = r
  generalize execAnswers TableStore.perform .empty (ops.map Prod.snd) = r'
  rintro (⟨hr, hanswers⟩ | _)
  · exact .some ⟨hanswers, hr.ef.holds, hr.ef.rests.spare⟩
  · exact .none

end

/-- Names of which none begins with another. -/
def exampleKeys : Set Key := {k | k = verNumEnvName ∨ k = ascii "wifi"}

/-- Flash that was never written. -/
def unwritten : Stale := ⟨[], fun _ => List.replicate envNameMax 0xff⟩

/-- A value is set too early, then set, kept over a reset, and deleted. -/
def exampleOps : List Op :=
  [.set (ascii "wifi") [1, 2], .init, .set (ascii "wifi") [1, 2], .reset, .get (ascii "wifi") 8, .init,
    .get (ascii "wifi") 8, .delete (ascii "wifi")]

theorem store_is_table_restart :
    (execAnswers EfEnv.perform .formatted (exampleOps.map fun op => (unwritten, op))).map Prod.snd =
      some [.code .envInitFailed, .code .noErr, .code .noErr, .none, .read [] none, .code .noErr,
        .read [1, 2] (some 2), .code .noErr] := by
  have hK : Keys exampleKeys := by
    refine ⟨?_, ?_, ?_⟩
    · rintro k (rfl | rfl) <;> decide
    · rintro k (rfl | rfl) <;> decide
    · rintro k (rfl | rfl) k' (rfl | rfl) <;> decide
  have hfitting : AllFitting exampleKeys .empty exampleOps :=
    .cons rfl ⟨.inr rfl, by decide, by decide⟩ <| .cons rfl ⟨by decide, by decide⟩ <|
      .cons rfl ⟨.inr rfl, by decide, by decide⟩ <| .cons rfl trivial <| .cons rfl (.inr rfl) <|
      .cons rfl ⟨by decide, by decide⟩ <| .cons rfl (.inr rfl) <| .cons rfl (.inr rfl) trivial
  have hmap : (exampleOps.map fun op => (unwritten, op)).map Prod.snd = exampleOps := rfl
  have hrun := store_is_table hK (.inl rfl) (exampleOps.map fun op => (unwritten, op)) hfitting
  rw [hmap] at hrun
  have htable : (execAnswers TableStore.perform .empty exampleOps).map Prod.snd = some [.code .envInitFailed,
    .code .noErr, .code .noErr, .none, .read [] none, .code .noErr, .read [1, 2] (some 2), .code .noErr] := by decide
  rw [← htable]
  revert hrun
  generalize execAnswers EfEnv.perform .formatted (exampleOps.map fun op => (unwritten, op)) = r
  generalize execAnswers TableStore.perform .empty exampleOps = r'
  rintro (⟨hanswers, -⟩ | _)
  · exact congrArg some hanswers
  · rfl

end Petbox.Easyflash
