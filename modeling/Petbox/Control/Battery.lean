/-
The charge of the battery (`battery.c`): `battery_calc_percent` looks for the entry of
`battery_cap_map` that the voltage is above, and not above the next one. At the ends
of the table there is no such entry.
-/
import Petbox.Lib.Access

namespace Petbox.Control

open Access

/-! ## The code -/

/-- `T_BATTERY_CAP_MAP`. -/
structure BatteryCapMap where
  voltage : UInt16
  cap : UInt8
  deriving DecidableEq, Repr

/-- `battery_cap_map`. -/
def batteryCapMap : List BatteryCapMap :=
  [⟨3300, 0⟩, ⟨3400, 10⟩, ⟨3450, 20⟩, ⟨3500, 30⟩, ⟨3600, 40⟩, ⟨3700, 50⟩, ⟨3800, 60⟩, ⟨3900, 70⟩, ⟨4000, 80⟩,
    ⟨4100, 90⟩, ⟨4200, 100⟩]

def levelItems : Nat := 11

/-- What is not the code's: the memory behind the table, and what `cap` holds before
it is set. -/
structure BatteryEnv where
  behind : Nat → BatteryCapMap
  cap : UInt8

/-- An entry of `battery_cap_map`. -/
def tableEntry (i : Nat) : BatteryCapMap := batteryCapMap.getD i ⟨0, 0⟩

/-- `battery_cap_map[i]`. -/
def BatteryEnv.entry (env : BatteryEnv) (i : Nat) : BatteryCapMap :=
  if i < levelItems then tableEntry i else env.behind i

/-- The loop of `battery_calc_percent` with `n` passes to go, from the entry `i` on. -/
def calcLoop (env : BatteryEnv) (voltage : UInt16) : (n i : Nat) → Logged Nat UInt8
  | 0, _ => pure env.cap
  | n + 1, i => do
    let this ← read env.entry i
    if voltage > this.voltage then
      let next ← read env.entry (i + 1)
      if voltage ≤ next.voltage then
        let this ← read env.entry i
        return this.cap
      else calcLoop env voltage n (i + 1)
    else calcLoop env voltage n (i + 1)

/-- `battery_calc_percent`. -/
def batteryCalcPercent (env : BatteryEnv) (voltage : UInt16) : Logged Nat UInt8 := calcLoop env voltage levelItems 0

/-! ## The table -/

theorem entry_of_lt (env : BatteryEnv) {i : Nat} (h : i < levelItems) : env.entry i = tableEntry i := if_pos h

/-- The voltages and the charges of the table ascend. -/
theorem tableEntry_mono {i j : Nat} (hij : i ≤ j) (hj : j < levelItems) :
    (tableEntry i).voltage ≤ (tableEntry j).voltage ∧ (tableEntry i).cap ≤ (tableEntry j).cap := by
  have htable : ∀ j < levelItems, ∀ i ≤ j,
      (tableEntry i).voltage ≤ (tableEntry j).voltage ∧ (tableEntry i).cap ≤ (tableEntry j).cap := by decide
  exact htable j hj i hij

/-- The voltages of the table, but for the lowest. -/
def InTable (voltage : UInt16) : Prop := 3300 < voltage ∧ voltage ≤ 4200

/-- The entry `k` is the one that the voltage is above, and not above the next one. -/
def Between (voltage : UInt16) (k : Nat) : Prop :=
  k + 1 < levelItems ∧ (tableEntry k).voltage < voltage ∧ voltage ≤ (tableEntry (k + 1)).voltage

/-- A voltage further up is at an entry further up. -/
theorem Between.mono {v w : UInt16} {k l : Nat} (hk : Between v k) (hl : Between w l) (h : v ≤ w) : k ≤ l := by
  by_contra hlt
  have hstep := (tableEntry_mono (show l + 1 ≤ k by omega) (by have := hk.1; omega)).1
  have habove : (tableEntry k).voltage < (tableEntry (l + 1)).voltage :=
    UInt16.lt_of_lt_of_le hk.2.1 (UInt16.le_trans h hl.2.2)
  exact UInt16.lt_irrefl _ (UInt16.lt_of_lt_of_le habove hstep)

/-! ## The search -/

section Loop

variable {env : BatteryEnv} {voltage : UInt16} {n i : Nat}

/-- Inside the table the search ends at the entry, whatever is behind the table. -/
theorem calcLoop_inside (hn : i + n = levelItems) (hi : i < levelItems) (hlow : (tableEntry i).voltage < voltage)
    (hmax : voltage ≤ 4200) :
    ∃ k, Between voltage k ∧ Within (· < levelItems) (calcLoop env voltage n i) ∧
      (calcLoop env voltage n i).val = (tableEntry k).cap := by
  induction n generalizing i with
  | zero => omega
  | succ n ih =>
    have hnext : i + 1 < levelItems := by
      by_contra hlast
      have hten : i = 10 := by
        unfold levelItems at *
        omega
      rw [hten] at hlow
      exact UInt16.lt_irrefl _ (UInt16.lt_of_lt_of_le hlow hmax)
    by_cases hfound : voltage ≤ (tableEntry (i + 1)).voltage
    · refine ⟨i, ⟨hnext, hlow, hfound⟩, ?_, ?_⟩
      · simp [calcLoop, entry_of_lt, hi, hnext, hlow, hfound]
      · simp [calcLoop, entry_of_lt, hi, hnext, hlow, hfound]
    · obtain ⟨k, hk, hwithin, hval⟩ := ih (by omega) hnext (UInt16.not_le.1 hfound)
      refine ⟨k, hk, ?_, ?_⟩
      · simp [calcLoop, entry_of_lt, hi, hnext, hlow, hfound, hwithin]
      · simp [calcLoop, entry_of_lt, hi, hnext, hlow, hfound, hval]

/-- Below the table, and at its lowest voltage, nothing sets `cap`. -/
theorem calcLoop_low (hn : i + n = levelItems) (h : voltage ≤ 3300) : (calcLoop env voltage n i).val = env.cap := by
  induction n generalizing i with
  | zero => rfl
  | succ n ih =>
    have hi : i < levelItems := by omega
    have hlow : ¬ (tableEntry i).voltage < voltage :=
      UInt16.not_lt.2 (UInt16.le_trans h (tableEntry_mono (Nat.zero_le i) hi).1)
    simp [calcLoop, entry_of_lt, hi, hlow, ih (i := i + 1) (by omega)]

/-- Above the table the search reads behind its end. -/
theorem calcLoop_high (hn : i + n = levelItems) (hi : i < levelItems) (h : 4200 < voltage) :
    ¬ Within (· < levelItems) (calcLoop env voltage n i) := by
  induction n generalizing i with
  | zero => omega
  | succ n ih =>
    have hlow : (tableEntry i).voltage < voltage :=
      UInt16.lt_of_le_of_lt (tableEntry_mono (show i ≤ 10 by unfold levelItems at hi; omega) (by decide)).1 h
    by_cases hnext : i + 1 < levelItems
    · have hfound : ¬ voltage ≤ (tableEntry (i + 1)).voltage := by
        refine UInt16.not_le.2 (UInt16.lt_of_le_of_lt ?_ h)
        exact (tableEntry_mono (show i + 1 ≤ 10 by unfold levelItems at hnext; omega) (by decide)).1
      simpa [calcLoop, entry_of_lt, hi, hnext, hlow, hfound] using ih (by omega) hnext
    · simp [calcLoop, entry_of_lt, hi, hlow, hnext]

end Loop

/-! ## Which voltages are told -/

/-- Whatever is behind the table and in `cap`: only the table is read, the percentage
is the same, 0 at the lowest voltage and below it, 100 above the highest. -/
structure Told (voltage : UInt16) : Prop where
  within (env : BatteryEnv) : Within (· < levelItems) (batteryCalcPercent env voltage)
  determined (env env' : BatteryEnv) : (batteryCalcPercent env voltage).val = (batteryCalcPercent env' voltage).val
  low (env : BatteryEnv) : voltage ≤ 3300 → (batteryCalcPercent env voltage).val = 0
  high (env : BatteryEnv) : 4200 < voltage → (batteryCalcPercent env voltage).val = 100

/-- Both voltages are told, and the higher one has no lower percentage. -/
def ToldInOrder (v w : UInt16) : Prop :=
  Told v ∧ Told w ∧
    (v ≤ w → ∀ env env', (batteryCalcPercent env v).val ≤ (batteryCalcPercent env' w).val)

theorem InTable.percent {voltage : UInt16} (h : InTable voltage) (env : BatteryEnv) :
    ∃ k, Between voltage k ∧ Within (· < levelItems) (batteryCalcPercent env voltage) ∧
      (batteryCalcPercent env voltage).val = (tableEntry k).cap :=
  calcLoop_inside rfl (by decide) h.1 h.2

/-- Percentages ascend with the voltage. -/
theorem InTable.percent_mono {v w : UInt16} (hv : InTable v) (hw : InTable w) (h : v ≤ w) (env env' : BatteryEnv) :
    (batteryCalcPercent env v).val ≤ (batteryCalcPercent env' w).val := by
  obtain ⟨k, hk, -, hval⟩ := hv.percent env
  obtain ⟨l, hl, -, hval'⟩ := hw.percent env'
  rw [hval, hval']
  exact (tableEntry_mono (hk.mono hl h) (Nat.lt_of_succ_lt hl.1)).2

theorem told_iff {voltage : UInt16} : Told voltage ↔ InTable voltage := by
  constructor
  · intro h
    constructor
    · by_contra hlow
      have hcap (cap : UInt8) : (batteryCalcPercent ⟨fun _ => ⟨0, 0⟩, cap⟩ voltage).val = cap :=
        calcLoop_low rfl (UInt16.not_lt.1 hlow)
      have hsame := h.determined ⟨fun _ => ⟨0, 0⟩, 0⟩ ⟨fun _ => ⟨0, 0⟩, 1⟩
      rw [hcap, hcap] at hsame
      exact absurd hsame (by decide)
    · by_contra hhigh
      exact calcLoop_high rfl (by decide) (UInt16.not_le.1 hhigh) (h.within ⟨fun _ => ⟨0, 0⟩, 0⟩)
  · intro h
    refine ⟨fun env => ?_, fun env env' => ?_, fun env hlow => ?_, fun env hhigh => ?_⟩
    · obtain ⟨k, -, hwithin, -⟩ := h.percent env
      exact hwithin
    · exact UInt8.le_antisymm (h.percent_mono h (UInt16.le_refl _) env env')
        (h.percent_mono h (UInt16.le_refl _) env' env)
    · exact absurd (UInt16.lt_of_lt_of_le h.1 hlow) (UInt16.lt_irrefl _)
    · exact absurd (UInt16.lt_of_lt_of_le hhigh h.2) (UInt16.lt_irrefl _)

/-- **Which voltages are told, in order**: those above the lowest of the table that
are not above the highest. -/
theorem toldInOrder_iff (v w : UInt16) : ToldInOrder v w ↔ InTable v ∧ InTable w := by
  rw [ToldInOrder, told_iff, told_iff]
  constructor
  · intro h
    exact ⟨h.1, h.2.1⟩
  · intro h
    exact ⟨h.1, h.2, fun hle => h.1.percent_mono h.2 hle⟩

/-- A full battery: the voltage is compared with what is behind the table, and may get
any percentage. -/
theorem full_not_told : ¬ Told 4300 ∧
    (batteryCalcPercent ⟨fun _ => ⟨0, 0⟩, 7⟩ 4300).val = 7 ∧
    11 ∈ (batteryCalcPercent ⟨fun _ => ⟨0, 0⟩, 7⟩ 4300).log := by
  refine ⟨fun h => ?_, by decide, by decide⟩
  exact absurd (h.high ⟨fun _ => ⟨0, 0⟩, 7⟩ (by decide)) (by decide)

end Petbox.Control
