/-
The auto feeder (`FEED_FOOD_DET_HANDLER` in `hal/control.c`) and the software
timer of `utils/utils.c` that is to keep two of its feeds 30 minutes apart.

The timer compares two readings of a clock that wraps by their magnitude, so
it is right as long as the clock does not wrap between the deadline and the
reading. (`HAL_Timer_remain`, two functions further down, takes the signed
difference.) Time is counted in ticks since some moment before the device was
switched on; the clock shows their low bits.
-/
import Petbox.Lib.Run

namespace Petbox.Control

open Machine

/-! ## The timer -/

/-- `portTICK_PERIOD_MS`. -/
def portTickPeriodMs : UInt32 := 10

/-- The 32-bit tick counter of the operating system. -/
def osSysTickGet (tick : Nat) : UInt32 := UInt32.ofNat tick

/-- `HAL_GetTimeMs`. -/
def halGetTimeMs (tick : Nat) : UInt32 := osSysTickGet tick * portTickPeriodMs

/-- `struct Timer`: `uintptr_t` has 32 bits. -/
structure Timer where
  endTime : UInt32
  deriving DecidableEq, Repr

/-- `InitTimer`. -/
def initTimer : Timer := { endTime := 0 }

/-- `expired`, at a reading of the clock. -/
def expired (now : UInt32) (timer : Timer) : Bool := now > timer.endTime

/-- `countdown`, at a reading of the clock; `timeout` is in seconds. -/
def countdown (now timeout : UInt32) (timer : Timer) : Timer :=
  let timer := { timer with endTime := now }
  { timer with endTime := timer.endTime + timeout * 1000 }

/-- `FEED_FOOD_DET_HANDLER` between the masking of the pin and its unmasking:
the new `food_timer`, and what `control_feed_num` is called with. The clock is
read at `test` by `expired` and at `arm` by `countdown`. -/
def feedFoodDetHandler (autoFeed : Bool) (test arm : Nat) (foodTimer : Timer) : Timer × Option UInt32 :=
  if autoFeed then
    if expired (halGetTimeMs test) foodTimer then (countdown (halGetTimeMs arm) (30 * 60) initTimer, some 1)
    else (foodTimer, none)
  else (foodTimer, none)

/-! ## Histories of interrupts -/

/-- An interrupt of the food detector: the auto feed flag, the ticks since the
handler last returned, and the ticks between its two readings of the clock. -/
structure DetInterrupt where
  autoFeed : Bool
  wait : Nat
  run : Nat

/-- `food_timer`, the present tick, and the ticks at which feeds were started,
the last one first. -/
structure FoodDet where
  foodTimer : Timer
  now : Nat
  feeds : List Nat

/-- The device is switched on at any tick. -/
def FoodDet.start (boot : Nat) : FoodDet := { foodTimer := { endTime := 0 }, now := boot, feeds := [] }

/-- The tick at which the handler tests the timer. -/
def FoodDet.test (s : FoodDet) (i : DetInterrupt) : Nat := s.now + i.wait

/-- What the handler does. -/
def FoodDet.handle (s : FoodDet) (i : DetInterrupt) : Timer × Option UInt32 :=
  feedFoodDetHandler i.autoFeed (s.test i) (s.test i + i.run) s.foodTimer

/-- The handler starts a feed. -/
def FoodDet.StartsFeed (s : FoodDet) (i : DetInterrupt) : Prop := (s.handle i).2 = some 1

instance (s : FoodDet) (i : DetInterrupt) : Decidable (s.StartsFeed i) :=
  inferInstanceAs (Decidable ((s.handle i).2 = some 1))

def detStep (s : FoodDet) (i : DetInterrupt) : Option FoodDet :=
  some
    { foodTimer := (s.handle i).1
      now := s.test i + i.run
      feeds := if s.StartsFeed i then (s.test i + i.run) :: s.feeds else s.feeds }

/-! ## What is to hold, and when it does -/

/-- The milliseconds between two ticks. -/
def elapsedMs (t t' : Nat) : Nat := 10 * (t' - t)

/-- 30 minutes. -/
def spacingMs : Nat := 1800000

/-- The milliseconds in which the clock goes round. -/
def clockPeriodMs : Nat := 4294967296

/-- No feed within 30 minutes of an earlier one, and none refused that comes
later than that (and less than half the clock's period) after the last one. -/
def Spaced (s : FoodDet) (i : DetInterrupt) : Prop :=
  i.autoFeed = true →
    (s.StartsFeed i → ∀ u ∈ s.feeds, spacingMs ≤ elapsedMs u (s.test i)) ∧
    ∀ u, s.feeds.head? = some u → spacingMs < elapsedMs u (s.test i) →
      elapsedMs u (s.test i) < clockPeriodMs / 2 → s.StartsFeed i

/-- The clock has gone round as often at the interrupt as at the end of the 30
minutes after the last feed. -/
def SameTurn (s : FoodDet) (i : DetInterrupt) : Prop :=
  i.autoFeed = true → ∀ u, s.feeds.head? = some u → elapsedMs u (s.test i) < clockPeriodMs / 2 →
    10 * s.test i / clockPeriodMs = (10 * u + spacingMs) / clockPeriodMs

/-! ## The handler -/

theorem toNat_halGetTimeMs (tick : Nat) : (halGetTimeMs tick).toNat = 10 * tick % clockPeriodMs := by
  have h10 : portTickPeriodMs.toNat = 10 := rfl
  unfold halGetTimeMs osSysTickGet clockPeriodMs
  rw [UInt32.toNat_mul, UInt32.toNat_ofNat', h10]
  omega

theorem toNat_deadline (tick : Nat) :
    (countdown (halGetTimeMs tick) (30 * 60) initTimer).endTime.toNat = (10 * tick + spacingMs) % clockPeriodMs := by
  have hspacing : ((30 * 60 : UInt32) * 1000).toNat = spacingMs := by decide
  simp only [countdown]
  rw [UInt32.toNat_add, toNat_halGetTimeMs, hspacing]
  unfold clockPeriodMs
  omega

/-- With auto feed on, a feed is started when the timer has expired; the timer then runs again. -/
theorem FoodDet.handle_cases (s : FoodDet) {i : DetInterrupt} (h : i.autoFeed = true) :
    (s.StartsFeed i ∧ expired (halGetTimeMs (s.test i)) s.foodTimer = true ∧
      (s.handle i).1 = countdown (halGetTimeMs (s.test i + i.run)) (30 * 60) initTimer) ∨
    (¬ s.StartsFeed i ∧ expired (halGetTimeMs (s.test i)) s.foodTimer = false ∧ (s.handle i).1 = s.foodTimer) := by
  unfold FoodDet.StartsFeed FoodDet.handle feedFoodDetHandler
  rw [if_pos h]
  cases hx : expired (halGetTimeMs (s.test i)) s.foodTimer with
  | true => exact .inl ⟨rfl, rfl, rfl⟩
  | false => exact .inr ⟨by simp, rfl, rfl⟩

theorem FoodDet.handle_off (s : FoodDet) {i : DetInterrupt} (h : ¬ i.autoFeed = true) :
    ¬ s.StartsFeed i ∧ (s.handle i).1 = s.foodTimer := by
  unfold FoodDet.StartsFeed FoodDet.handle feedFoodDetHandler
  rw [if_neg h]
  exact ⟨by simp, rfl⟩

/-! ## Every history -/

/-- The timer holds the deadline of the last feed, in the low bits of the
clock, and no feed is later than the last one. -/
structure FoodDet.Ok (s : FoodDet) : Prop where
  deadline : ∀ u, s.feeds.head? = some u → s.foodTimer.endTime.toNat = (10 * u + spacingMs) % clockPeriodMs
  latest : ∀ u, s.feeds.head? = some u → u ≤ s.now ∧ ∀ v ∈ s.feeds, v ≤ u

theorem start_detOk (boot : Nat) : (FoodDet.start boot).Ok :=
  ⟨fun _ h => absurd h (by simp [FoodDet.start]), fun _ h => absurd h (by simp [FoodDet.start])⟩

theorem FoodDet.Ok.step {s s' : FoodDet} (h : s.Ok) {i : DetInterrupt} (hs : detStep s i = some s') : s'.Ok := by
  have hkeep : ∀ u, s.feeds.head? = some u → u ≤ s.test i + i.run ∧ ∀ v ∈ s.feeds, v ≤ u := by
    intro u hu
    obtain ⟨hnow, hall⟩ := h.latest u hu
    exact ⟨by unfold FoodDet.test; omega, hall⟩
  have hstay : ¬ s.StartsFeed i → (s.handle i).1 = s.foodTimer → s'.Ok := by
    intro hno htimer
    simp only [detStep, if_neg hno, htimer, Option.some.injEq] at hs
    subst hs
    exact ⟨h.deadline, hkeep⟩
  by_cases hauto : i.autoFeed = true
  · rcases s.handle_cases hauto with ⟨hyes, -, htimer⟩ | ⟨hno, -, htimer⟩
    · simp only [detStep, if_pos hyes, htimer, Option.some.injEq] at hs
      subst hs
      refine ⟨fun u hu => ?_, fun u hu => ?_⟩
      · obtain rfl := Option.some.inj hu
        exact toNat_deadline _
      · obtain rfl := Option.some.inj hu
        refine ⟨Nat.le_refl _, fun v hv => ?_⟩
        rcases List.mem_cons.1 hv with rfl | hv
        · exact Nat.le_refl _
        · cases hf : s.feeds with
          | nil => rw [hf] at hv; exact absurd hv List.not_mem_nil
          | cons u rest =>
            obtain ⟨hu, hall⟩ := hkeep u (by rw [hf]; rfl)
            exact Nat.le_trans (hall v hv) hu
    · exact hstay hno htimer
  · exact hstay (s.handle_off hauto).1 (s.handle_off hauto).2

/-- The timer has expired exactly when its low bits are smaller. -/
theorem expired_iff (tick : Nat) (timer : Timer) :
    expired (halGetTimeMs tick) timer = true ↔ timer.endTime.toNat < 10 * tick % clockPeriodMs := by
  unfold expired
  rw [decide_eq_true_eq, gt_iff_lt, UInt32.lt_iff_toNat_lt, toNat_halGetTimeMs]

/-- An interrupt is spaced as it is to be exactly when the clock has not gone
round between it and the deadline. -/
theorem spaced_iff {s : FoodDet} (h : s.Ok) (i : DetInterrupt) : Spaced s i ↔ SameTurn s i := by
  unfold Spaced SameTurn
  refine forall_congr' fun hauto => ?_
  cases hf : s.feeds with
  | nil => simp
  | cons u rest =>
    have hhead : s.feeds.head? = some u := by rw [hf]; rfl
    obtain ⟨hnow, hall⟩ := h.latest u hhead
    have hge : u ≤ s.test i := by unfold FoodDet.test; omega
    have hstart : s.StartsFeed i ↔ (10 * u + spacingMs) % clockPeriodMs < 10 * s.test i % clockPeriodMs := by
      rw [← h.deadline u hhead, ← expired_iff]
      rcases s.handle_cases hauto with ⟨hyes, hx, -⟩ | ⟨hno, hx, -⟩
      · simp [hyes, hx]
      · simp [hno, hx]
    have hdu := Nat.div_add_mod (10 * u + spacingMs) clockPeriodMs
    have hdt := Nat.div_add_mod (10 * s.test i) clockPeriodMs
    have hmu := Nat.mod_lt (10 * u + spacingMs) (show clockPeriodMs > 0 by decide)
    have hmt := Nat.mod_lt (10 * s.test i) (show clockPeriodMs > 0 by decide)
    simp only [List.head?_cons, Option.some.injEq, List.mem_cons, forall_eq_or_imp, forall_eq', hstart]
    unfold elapsedMs spacingMs clockPeriodMs at *
    constructor
    · intro hspaced hhalf
      -- in different turns of the clock the magnitudes compare the wrong way round
      rcases Nat.lt_trichotomy (10 * s.test i / 4294967296) ((10 * u + 1800000) / 4294967296) with hlt | heq | hgt
      · have hmag := hspaced.1 (by omega)
        omega
      · exact heq
      · have hmag := hspaced.2 (by omega) hhalf
        omega
    · intro hturn
      refine ⟨fun hmag => ⟨?_, fun v hv => ?_⟩, fun hlate hhalf => ?_⟩
      · by_cases hhalf : 10 * (s.test i - u) < 4294967296 / 2
        · have := hturn hhalf
          omega
        · omega
      · have hv := hall v (by rw [hf]; exact List.mem_cons_of_mem _ hv)
        by_cases hhalf : 10 * (s.test i - u) < 4294967296 / 2
        · have := hturn hhalf
          omega
        · omega
      · have := hturn hhalf
        omega

/-- **The auto feeder keeps its distance exactly while the clock does not wrap
under it.** For every tick at which the device is switched on and every history
of interrupts: no two feeds are started within 30 minutes and no later
interrupt is refused, if and only if, at every interrupt less than half a period
of the clock after the last feed, the clock has gone round as often as at the
end of the 30 minutes. -/
theorem autoFeed_spaced_iff (boot : Nat) (history : List DetInterrupt) :
    Along detStep Spaced (.start boot) history ↔ Along detStep SameTurn (.start boot) history :=
  along_iff (start_detOk boot) history (fun _ _ _ h _ hs => h.step hs) fun _ i h => spaced_iff h i

/-- A feed 16 minutes before the clock wraps, and another one tick later. -/
theorem autoFeed_not_spaced : ¬ ∀ boot history, Along detStep Spaced (.start boot) history := by
  intro h
  have hstep := (h 0 [⟨true, 429400000, 0⟩, ⟨true, 1, 0⟩]).2 _ rfl
  obtain ⟨hspaced, -⟩ := hstep.1 rfl
  exact absurd (hspaced (by decide) 429400000 (by decide)) (by decide)

end Petbox.Control
