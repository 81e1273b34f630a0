/-
`ReadKeyStatus` (`app/keyboard.c`) over any number of ticks: what the events it
sends for a key say about the samples of the key's pin.

A key that is pressed again in the tick after its UP keeps the event of that
tick, and the UP is sent once more.
-/
import Petbox.Control.Routing

namespace Petbox.Control

open Machine

/-- `T_KEY_VALUE`. -/
inductive KeyValue
  | config
  | feed
  deriving DecidableEq, Repr

def KeyValue.code : KeyValue → UInt16
  | .config => keyConfig
  | .feed => keyFeed

/-- `keyboard`. -/
abbrev Keyboard := KeyValue → Key

def Keyboard.start : Keyboard := fun _ => .start

/-- The levels of the pins at a tick. -/
abbrev Pins := KeyValue → Bool

/-- `ReadKeyStatus`. -/
def readKeyStatus (kb : Keyboard) (pins : Pins) : Keyboard := fun i => readKey (pins i) (kb i)

/-- The messages of a tick. -/
def keyboardSends (kb : Keyboard) : List Send :=
  keySends KeyValue.config.code (kb .config) ++ keySends KeyValue.feed.code (kb .feed)

def keyboardStep (kb : Keyboard) (pins : Pins) : Option Keyboard := some (readKeyStatus kb pins)

/-- The messages of a run, tick by tick. -/
def keyboardTrace (ticks : List Pins) : List (List Send) :=
  trace keyboardStep (fun kb pins => [keyboardSends (readKeyStatus kb pins)]) .start ticks

/-- The event that a tick's messages carry for a key. -/
def eventOf (i : KeyValue) (sends : List Send) : KeyEvent :=
  if .app ⟨customMsgKeyboard, i.code, KeyEvent.up.code⟩ ∈ sends then .up
  else if .app ⟨customMsgKeyboard, i.code, KeyEvent.down.code⟩ ∈ sends then .down
  else if .app ⟨customMsgKeyboard, i.code, KeyEvent.long.code⟩ ∈ sends then .long
  else .null

/-! ## One event per press -/

/-- The events sent are DOWN and then one of UP and LONG, again and again; the
flag says whether the last DOWN still stands alone. -/
inductive Presses : Bool → List KeyEvent → Prop
  | nil : Presses false []
  | down {es} : Presses false es → Presses true (es ++ [.down])
  | up {es} : Presses true es → Presses false (es ++ [.up])
  | long {es} : Presses true es → Presses false (es ++ [.long])

/-- The events that are sent. -/
def sent (es : List KeyEvent) : List KeyEvent := es.filter (· ≠ .null)

/-- The key is pressed at all ticks after `s` and before `t`. -/
def PressedBetween (ps : List Bool) (s t : Nat) : Prop := ∀ i, s < i → i < t → ps[i]? = some true

/-- The events `es` are those of a key with the samples `ps`: one UP or LONG for
each DOWN, a DOWN at the second of two pressed samples, a LONG when the key has
stayed pressed for `KEY_EVENT_LONG_COUNT` ticks after a DOWN, an UP at the first
released sample after a DOWN when that comes before. -/
structure OnePerPress (ps : List Bool) (es : List KeyEvent) : Prop where
  alternates : ∃ single, Presses single (sent es)
  down : ∀ t, es[t]? = some .down → ∃ s, t = s + 1 ∧ ps[s]? = some true ∧ ps[t]? = some true
  long : ∀ t, es[t]? = some .long ↔
    ∃ s, t = s + keyEventLongCount.toNat ∧ es[s]? = some .down ∧ PressedBetween ps s (t + 1)
  up : ∀ t, es[t]? = some .up ↔ ∃ s, s < t ∧ t ≤ s + keyEventLongCount.toNat ∧ es[s]? = some .down ∧
    PressedBetween ps s t ∧ ps[t]? = some false

/-! ## One tick of one key -/

/-- The settings every key keeps: read, and pressed at the low level. -/
def Key.Set (k : Key) : Prop := k.keyShield = true ∧ k.keyDownLevel = false

/-- Everything a tick can do to a key. -/
inductive Tick (k : Key) (pressed : Bool) (k' : Key) : Prop
  | idle (was : k.keyStatus ≠ .down) (status : k'.keyStatus ≠ .down) (event : k'.keyEvent = .null)
      (sure : k'.keyStatus = .sure → pressed = true)
  | down (was : k.keyStatus = .sure) (sample : pressed = true) (status : k'.keyStatus = .down)
      (event : k'.keyEvent = .down) (count : k'.keyCount = 0)
  | held (was : k.keyStatus = .down) (sample : pressed = true) (room : k.keyCount + 1 < keyEventLongCount)
      (status : k'.keyStatus = .down) (event : k'.keyEvent = .null) (count : k'.keyCount = k.keyCount + 1)
  | long (was : k.keyStatus = .down) (sample : pressed = true) (full : keyEventLongCount ≤ k.keyCount + 1)
      (status : k'.keyStatus = .long) (event : k'.keyEvent = .long)
  | up (was : k.keyStatus = .down) (sample : pressed = false) (status : k'.keyStatus = .up)
      (event : k'.keyEvent = .up)
  | again (was : k.keyStatus = .up) (sample : pressed = true) (status : k'.keyStatus = .up)
      (event : k'.keyEvent = k.keyEvent)

theorem keyReadLevel_eq {k : Key} (h : k.Set) (pin : Bool) : keyReadLevel pin k = { k with keyLevel := !pin } := by
  obtain ⟨hs, hl⟩ := h
  cases pin <;> simp [keyReadLevel, hs, hl]

theorem readKey_tick {k : Key} (h : k.Set) (pin : Bool) : (readKey pin k).Set ∧ Tick k (!pin) (readKey pin k) := by
  simp only [readKey, keyReadLevel_eq h]
  cases hst : k.keyStatus with
  | null =>
    cases hp : !pin with
    | true => exact ⟨h, .idle (by simp [hst]) (by simp) rfl fun _ => rfl⟩
    | false => exact ⟨h, .idle (by simp [hst]) (by simp) rfl (by simp)⟩
  | sure =>
    cases hp : !pin with
    | true => exact ⟨h, .down hst rfl rfl rfl rfl⟩
    | false => exact ⟨h, .idle (by simp [hst]) (by simp) rfl (by simp)⟩
  | down =>
    cases hp : !pin with
    | true =>
      by_cases hc : k.keyCount + 1 ≥ keyEventLongCount
      · simp only [not_true_eq_false, if_false, hc, if_true]
        exact ⟨h, .long hst rfl hc rfl rfl⟩
      · simp only [not_true_eq_false, if_false, hc]
        exact ⟨h, .held hst rfl (UInt8.not_le.1 hc) rfl rfl rfl⟩
    | false => exact ⟨h, .up hst rfl rfl rfl⟩
  | long =>
    cases hp : !pin with
    | true =>
      by_cases hc : k.keyCount ≥ keyEventLongCount
      · simp only [not_true_eq_false, if_false, hc, if_true]
        exact ⟨h, .idle (by simp [hst]) (by simp) rfl (by simp)⟩
      · simp only [not_true_eq_false, if_false, hc]
        exact ⟨h, .idle (by simp [hst]) (by simp) rfl (by simp)⟩
    | false => exact ⟨h, .idle (by simp [hst]) (by simp) rfl (by simp)⟩
  | up =>
    cases hp : !pin with
    | true => exact ⟨h, .again hst rfl rfl rfl⟩
    | false => exact ⟨h, .idle (by simp [hst]) (by simp) rfl (by simp)⟩

section Tick

variable {k k' : Key} {p : Bool} {es : List KeyEvent} (ht : Tick k p k')
  (hn : k.keyStatus = .up → p = true → k.keyEvent = .null)

include ht

theorem Tick.to_sure : k'.keyStatus = .sure → p = true := by
  intro hs
  cases ht with
  | idle was status event sure => exact sure hs
  | down was sample => exact sample
  | held was sample => exact sample
  | long was sample => exact sample
  | up was sample status => exact absurd (status.symm.trans hs) (by decide)
  | again was sample => exact sample

theorem Tick.to_down (hd : k'.keyStatus = .down) : (k'.keyEvent = .down ∧ k'.keyCount = 0) ∨
    (k.keyStatus = .down ∧ p = true ∧ k'.keyCount = k.keyCount + 1 ∧ k'.keyCount < keyEventLongCount) := by
  cases ht with
  | idle was status => exact absurd hd status
  | down was sample status event count => exact .inl ⟨event, count⟩
  | held was sample room status event count => exact .inr ⟨was, sample, count, by rwa [count]⟩
  | long was sample full status => exact absurd (status.symm.trans hd) (by decide)
  | up was sample status => exact absurd (status.symm.trans hd) (by decide)
  | again was sample status => exact absurd (status.symm.trans hd) (by decide)

/-- A key that is down stays so while it is pressed, up to the LONG. -/
theorem Tick.stays_down (hd : k.keyStatus = .down) (hp : p = true) (hroom : k.keyCount + 1 < keyEventLongCount) :
    k'.keyStatus = .down ∧ k'.keyCount = k.keyCount + 1 := by
  cases ht with
  | idle was => exact absurd hd was
  | down was => exact absurd (was.symm.trans hd) (by decide)
  | held was sample room status event count => exact ⟨status, count⟩
  | long was sample full => exact absurd hroom (UInt8.not_lt.2 full)
  | up was sample => exact absurd (sample.symm.trans hp) (by decide)
  | again was => exact absurd (was.symm.trans hd) (by decide)

include hn

theorem Tick.sends_down (he : k'.keyEvent = .down) :
    k.keyStatus = .sure ∧ p = true ∧ k'.keyStatus = .down ∧ k'.keyCount = 0 := by
  cases ht with
  | idle was status event => exact absurd (event.symm.trans he) (by decide)
  | down was sample status event count => exact ⟨was, sample, status, count⟩
  | held was sample room status event => exact absurd (event.symm.trans he) (by decide)
  | long was sample full status event => exact absurd (event.symm.trans he) (by decide)
  | up was sample status event => exact absurd (event.symm.trans he) (by decide)
  | again was sample status event => exact absurd ((event.trans (hn was sample)).symm.trans he) (by decide)

theorem Tick.sends_long_iff :
    k'.keyEvent = .long ↔ k.keyStatus = .down ∧ keyEventLongCount ≤ k.keyCount + 1 ∧ p = true := by
  cases ht with
  | idle was status event => simp [event, was]
  | down was sample status event => simp [event, was]
  | held was sample room status event => simp [event, UInt8.not_le.2 room]
  | long was sample full status event => simp [event, was, full, sample]
  | up was sample status event => simp [event, sample]
  | again was sample status event => simp [event, hn was sample, was]

theorem Tick.sends_up_iff : k'.keyEvent = .up ↔ k.keyStatus = .down ∧ p = false := by
  cases ht with
  | idle was status event => simp [event, was]
  | down was sample status event => simp [event, was]
  | held was sample room status event => simp [event, sample]
  | long was sample full status event => simp [event, sample]
  | up was sample status event => simp [event, was, sample]
  | again was sample status event => simp [event, hn was sample, was]

theorem Tick.to_up (hu : k'.keyStatus = .up) : k'.keyEvent = .null ∨ k'.keyEvent = .up := by
  cases ht with
  | idle was status event => exact .inl event
  | down was sample status => exact absurd (status.symm.trans hu) (by decide)
  | held was sample room status => exact absurd (status.symm.trans hu) (by decide)
  | long was sample full status => exact absurd (status.symm.trans hu) (by decide)
  | up was sample status event => exact .inr event
  | again was sample status event => exact .inl (event.trans (hn was sample))

/-- The events sent go on the way they should. -/
theorem Tick.presses (h : Presses (k.keyStatus == .down) (sent es)) :
    Presses (k'.keyStatus == .down) (sent (es ++ [k'.keyEvent])) := by
  have hsent : sent (es ++ [k'.keyEvent]) = sent es ++ sent [k'.keyEvent] := List.filter_append ..
  rw [hsent]
  have hquiet (was : k.keyStatus ≠ .down) (status : k'.keyStatus ≠ .down) (event : k'.keyEvent = .null) :
      Presses (k'.keyStatus == .down) (sent es ++ sent [k'.keyEvent]) := by
    rw [beq_eq_false_iff_ne.2 was] at h
    rw [event, beq_eq_false_iff_ne.2 status]
    simpa [sent] using h
  cases ht with
  | idle was status event => exact hquiet was status event
  | down was sample status event =>
    rw [was] at h
    rw [event, status]
    exact h.down
  | held was sample room status event =>
    rw [was] at h
    rw [event, status]
    simpa [sent] using h
  | long was sample full status event =>
    rw [was] at h
    rw [event, status]
    exact h.long
  | up was sample status event =>
    rw [was] at h
    rw [event, status]
    exact h.up
  | again was sample status event =>
    exact hquiet (by rw [was]; decide) (by rw [status]; decide) (event.trans (hn was sample))

end Tick

/-! ## The history of a key -/

/-- What holds of a key after the samples `ps` with the events `es`. -/
structure Follows (ps : List Bool) (es : List KeyEvent) (k : Key) : Prop where
  spec : OnePerPress ps es
  presses : Presses (k.keyStatus == .down) (sent es)
  length : es.length = ps.length
  set : k.Set
  sure : k.keyStatus = .sure → ∃ s, ps.length = s + 1 ∧ ps[s]? = some true
  down : k.keyStatus = .down → k.keyCount < keyEventLongCount ∧
    ∃ s, s + k.keyCount.toNat + 1 = ps.length ∧ es[s]? = some .down ∧ PressedBetween ps s ps.length
  up : k.keyStatus = .up → k.keyEvent = .null ∨ k.keyEvent = .up
  -- a DOWN since which the key was not released is the one the count runs from
  counts : ∀ s, es[s]? = some .down → PressedBetween ps s ps.length → ps.length ≤ s + keyEventLongCount.toNat →
    k.keyStatus = .down ∧ s + k.keyCount.toNat + 1 = ps.length

theorem pressedBetween_append {ps : List Bool} {p : Bool} {s t : Nat} (ht : t ≤ ps.length) :
    PressedBetween (ps ++ [p]) s t ↔ PressedBetween ps s t := by
  refine forall_congr' fun i => forall_congr' fun _ => forall_congr' fun hi => ?_
  rw [List.getElem?_append_left (by omega)]

theorem pressedBetween_snoc {ps : List Bool} {p : Bool} {s : Nat} (hs : s < ps.length) :
    PressedBetween (ps ++ [p]) s (ps.length + 1) ↔ PressedBetween ps s ps.length ∧ p = true := by
  rw [← pressedBetween_append (p := p) (Nat.le_refl _)]
  constructor
  · intro h
    have hlast := h ps.length hs (Nat.lt_succ_self _)
    rw [List.getElem?_concat_length, Option.some.injEq] at hlast
    exact ⟨fun i h1 h2 => h i h1 (by omega), hlast⟩
  · intro h i h1 h2
    rcases Nat.lt_or_eq_of_le (Nat.le_of_lt_succ h2) with hi | rfl
    · exact h.1 i h1 hi
    · rw [List.getElem?_concat_length, h.2]

theorem getElem?_snoc_eq {α : Type} {l : List α} {a b : α} {t : Nat} :
    (l ++ [a])[t]? = some b ↔ l[t]? = some b ∨ t = l.length ∧ a = b := by
  rcases Nat.lt_trichotomy t l.length with h | rfl | h
  · rw [List.getElem?_append_left h]
    exact ⟨.inl, fun h' => h'.resolve_right fun h'' => absurd h''.1 (Nat.ne_of_lt h)⟩
  · rw [List.getElem?_concat_length, List.getElem?_eq_none (Nat.le_refl _)]
    simp
  · rw [List.getElem?_eq_none (by simp; omega), List.getElem?_eq_none (by omega)]
    simp
    omega

theorem getElem?_lt {α : Type} {l : List α} {a : α} {t : Nat} (h : l[t]? = some a) : t < l.length :=
  (List.getElem?_eq_some_iff.1 h).1

section Snoc

variable {ps : List Bool} {es : List KeyEvent} {p : Bool} {e : KeyEvent}

/-- Where a list with one more element has a value, when that is known of the list. -/
theorem snoc_iff {α : Type} {l : List α} {a e : α} {P Q : Nat → Prop} (h : ∀ t, l[t]? = some a ↔ P t)
    (hold : ∀ t < l.length, Q t ↔ P t) (hnew : Q l.length ↔ e = a) (hlast : ∀ t, Q t → t ≤ l.length) (t : Nat) :
    (l ++ [e])[t]? = some a ↔ Q t := by
  rw [getElem?_snoc_eq]
  rcases Nat.lt_trichotomy t l.length with ht | rfl | ht
  · rw [h, hold t ht]
    exact or_iff_left fun h' => absurd h'.1 (Nat.ne_of_lt ht)
  · rw [hnew, List.getElem?_eq_none (Nat.le_refl _)]
    simp
  · rw [List.getElem?_eq_none (Nat.le_of_lt ht)]
    refine iff_of_false (fun h' => ?_) fun hq => absurd (hlast t hq) (Nat.not_le.2 ht)
    rcases h' with h' | h'
    · cases h'
    · exact absurd h'.1 (Nat.ne_of_gt ht)

/-- One more tick keeps the property, when its event is the right one. -/
theorem OnePerPress.snoc (h : OnePerPress ps es) (hlen : es.length = ps.length)
    (halt : ∃ single, Presses single (sent (es ++ [e])))
    (hdown : e = .down → ∃ s, ps.length = s + 1 ∧ ps[s]? = some true ∧ p = true)
    (hlong : e = .long ↔ ∃ s, ps.length = s + keyEventLongCount.toNat ∧ es[s]? = some .down ∧
      PressedBetween ps s ps.length ∧ p = true)
    (hup : e = .up ↔ ∃ s, s < ps.length ∧ ps.length ≤ s + keyEventLongCount.toNat ∧ es[s]? = some .down ∧
      PressedBetween ps s ps.length ∧ p = false) : OnePerPress (ps ++ [p]) (es ++ [e]) := by
  have hpos : 0 < keyEventLongCount.toNat := by decide
  have hinside {t : Nat} {q : Bool} (hq : (ps ++ [p])[t]? = some q) : t ≤ ps.length := by
    have := getElem?_lt hq
    rw [List.length_append, List.length_singleton] at this
    omega
  refine ⟨halt, fun t ht => ?_, ?_, ?_⟩
  · rcases getElem?_snoc_eq.1 ht with ht | ⟨rfl, he⟩
    · obtain ⟨s, rfl, h1, h2⟩ := h.down t ht
      exact ⟨s, rfl, getElem?_snoc_eq.2 (.inl h1), getElem?_snoc_eq.2 (.inl h2)⟩
    · obtain ⟨s, hs, h1, h2⟩ := hdown he
      exact ⟨s, hlen.trans hs, getElem?_snoc_eq.2 (.inl h1), getElem?_snoc_eq.2 (.inr ⟨hlen, h2⟩)⟩
  · refine snoc_iff h.long (fun t ht => ?_) ?_ fun t ht => ?_
    · refine exists_congr fun s => and_congr_right fun hs => ?_
      rw [List.getElem?_append_left (by omega), pressedBetween_append (by omega)]
    · rw [hlong, hlen]
      refine exists_congr fun s => and_congr_right fun hs => ?_
      rw [List.getElem?_append_left (by omega), pressedBetween_snoc (by omega)]
    · obtain ⟨s, rfl, -, hp⟩ := ht
      exact hlen ▸ hinside (hp (s + keyEventLongCount.toNat) (by omega) (by omega))
  · refine snoc_iff h.up (fun t ht => ?_) ?_ fun t ht => ?_
    · refine exists_congr fun s => and_congr_right fun hs => and_congr_right fun _ => ?_
      rw [List.getElem?_append_left (by omega), pressedBetween_append (by omega),
        List.getElem?_append_left (by omega)]
    · rw [hup, hlen]
      refine exists_congr fun s => and_congr_right fun hs => and_congr_right fun _ => ?_
      rw [List.getElem?_append_left (by omega), pressedBetween_append (Nat.le_refl _),
        List.getElem?_concat_length, Option.some.injEq]
    · obtain ⟨s, -, -, -, -, hr⟩ := ht
      exact hlen ▸ hinside hr

/-- The condition: a key whose UP has just been sent is not pressed. -/
def Settled (k : Key) (pressed : Bool) : Prop := ¬ (k.keyStatus = .up ∧ k.keyEvent = .up ∧ pressed = true)

theorem count_succ {c : UInt8} (h : c < keyEventLongCount) : (c + 1).toNat = c.toNat + 1 := by
  have h : c.toNat < 100 := h
  rw [UInt8.toNat_add]
  exact Nat.mod_eq_of_lt (by change c.toNat + 1 < 256; omega)

variable {k k' : Key}

/-- The DOWN that the key has been pressed since is the one its count runs from. -/
theorem Follows.standing_iff (h : Follows ps es k) {s : Nat} (hs : ps.length ≤ s + keyEventLongCount.toNat) :
    es[s]? = some .down ∧ PressedBetween ps s ps.length ↔
      k.keyStatus = .down ∧ s + k.keyCount.toNat + 1 = ps.length := by
  constructor
  · intro hd
    exact h.counts s hd.1 hd.2 hs
  · intro hd
    obtain ⟨-, s', hs', hdown, hp⟩ := h.down hd.1
    obtain rfl : s' = s := by omega
    exact ⟨hdown, hp⟩

theorem Follows.long_due_iff (h : Follows ps es k) : (∃ s, ps.length = s + keyEventLongCount.toNat ∧
    es[s]? = some .down ∧ PressedBetween ps s ps.length ∧ p = true) ↔
      k.keyStatus = .down ∧ keyEventLongCount ≤ k.keyCount + 1 ∧ p = true := by
  constructor
  · intro hd
    obtain ⟨s, hs, hdown, hpressed, hp⟩ := hd
    obtain ⟨hst, hcount⟩ := (h.standing_iff (Nat.le_of_eq hs)).1 ⟨hdown, hpressed⟩
    refine ⟨hst, UInt8.le_iff_toNat_le.2 ?_, hp⟩
    rw [count_succ (h.down hst).1]
    omega
  · intro hd
    obtain ⟨hst, hfull, hp⟩ := hd
    obtain ⟨hlt, s, hs, hdown, hpressed⟩ := h.down hst
    have hfull := UInt8.le_iff_toNat_le.1 hfull
    have hlt := UInt8.lt_iff_toNat_lt.1 hlt
    rw [count_succ (h.down hst).1] at hfull
    exact ⟨s, by omega, hdown, hpressed, hp⟩

theorem Follows.up_due_iff (h : Follows ps es k) : (∃ s, s < ps.length ∧ ps.length ≤ s + keyEventLongCount.toNat ∧
    es[s]? = some .down ∧ PressedBetween ps s ps.length ∧ p = false) ↔ k.keyStatus = .down ∧ p = false := by
  constructor
  · intro hd
    obtain ⟨s, -, hs, hdown, hpressed, hp⟩ := hd
    exact ⟨((h.standing_iff hs).1 ⟨hdown, hpressed⟩).1, hp⟩
  · intro hd
    obtain ⟨hst, hp⟩ := hd
    obtain ⟨hlt, s, hs, hdown, hpressed⟩ := h.down hst
    have hlt := UInt8.lt_iff_toNat_lt.1 hlt
    exact ⟨s, by omega, by omega, hdown, hpressed, hp⟩

/-- What a tick keeps. -/
theorem Follows.tick (h : Follows ps es k) (hset : k'.Set) (ht : Tick k p k') (hc : Settled k p) :
    Follows (ps ++ [p]) (es ++ [k'.keyEvent]) k' := by
  have hn : k.keyStatus = .up → p = true → k.keyEvent = .null := fun was sample =>
    (h.up was).resolve_right fun hu => hc ⟨was, hu, sample⟩
  have hpresses := ht.presses hn h.presses
  have hlength : (ps ++ [p]).length = ps.length + 1 := by rw [List.length_append, List.length_singleton]
  refine ⟨h.spec.snoc h.length ⟨_, hpresses⟩ (fun he => ?_) ?_ ?_, hpresses, by simp [h.length], hset, fun hs => ?_,
    fun hd => ?_, ht.to_up hn, fun s hd hp hle => ?_⟩
  · obtain ⟨was, sample, -⟩ := ht.sends_down hn he
    obtain ⟨s, hs, hp⟩ := h.sure was
    exact ⟨s, hs, hp, sample⟩
  · rw [ht.sends_long_iff hn, h.long_due_iff]
  · rw [ht.sends_up_iff hn, h.up_due_iff]
  · exact ⟨ps.length, hlength, by rw [List.getElem?_concat_length, ht.to_sure hs]⟩
  · rw [hlength]
    rcases ht.to_down hd with ⟨event, count⟩ | ⟨was, sample, count, hlt⟩
    · refine ⟨by rw [count]; decide, ps.length, by rw [count]; rfl, ?_, fun i h1 h2 => by omega⟩
      rw [← h.length, List.getElem?_concat_length, event]
    · obtain ⟨hlt', s, hs, hdown, hpressed⟩ := h.down was
      refine ⟨hlt, s, ?_, getElem?_snoc_eq.2 (.inl hdown), (pressedBetween_snoc (by omega)).2 ⟨hpressed, sample⟩⟩
      rw [count, count_succ hlt']
      omega
  · rw [hlength] at hp hle ⊢
    rcases getElem?_snoc_eq.1 hd with hd | ⟨rfl, he⟩
    · have hs : s < ps.length := h.length ▸ getElem?_lt hd
      rw [pressedBetween_snoc hs] at hp
      obtain ⟨was, hcount⟩ := (h.standing_iff (by omega)).1 ⟨hd, hp.1⟩
      have hsucc := count_succ (h.down was).1
      have hroom : k.keyCount + 1 < keyEventLongCount := UInt8.lt_iff_toNat_lt.2 (by omega)
      obtain ⟨status, count⟩ := ht.stays_down was hp.2 hroom
      rw [count, hsucc]
      exact ⟨status, by omega⟩
    · obtain ⟨-, -, status, count⟩ := ht.sends_down hn he
      rw [count, h.length]
      exact ⟨status, rfl⟩

end Snoc

/-! ## Runs of the keyboard -/

/-- The message of a key's event is on the queue, and no other of that key. -/
theorem eventOf_keyboardSends (kb : Keyboard) (i : KeyValue) : eventOf i (keyboardSends kb) = (kb i).keyEvent := by
  cases i <;> cases hc : (kb .config).keyEvent <;> cases hf : (kb .feed).keyEvent <;>
    simp [eventOf, keyboardSends, keySends, hc, hf, KeyValue.code, keyConfig, keyFeed, KeyEvent.code]

/-- The samples of a key: pressed is the low level. -/
def samples (i : KeyValue) (ticks : List Pins) : List Bool := ticks.map fun pins => !pins i

/-- The events sent for a key. -/
def events (i : KeyValue) (ticks : List Pins) : List KeyEvent := (keyboardTrace ticks).map (eventOf i)

theorem follows_start : Follows [] [] Key.start where
  spec :=
    { alternates := ⟨false, .nil⟩
      down := fun _ h => by cases h
      long := fun _ => ⟨fun h => (by cases h), fun ⟨_, _, h, _⟩ => (by cases h)⟩
      up := fun _ => ⟨fun h => (by cases h), fun ⟨_, _, _, h, _⟩ => (by cases h)⟩ }
  presses := .nil
  length := rfl
  set := ⟨rfl, rfl⟩
  sure h := by cases h
  down h := by cases h
  up h := by cases h
  counts _ h := by cases h

theorem exec_keyboard (kb : Keyboard) (ticks : List Pins) : ∃ kb', exec keyboardStep kb ticks = some kb' := by
  induction ticks generalizing kb with
  | nil => exact ⟨kb, rfl⟩
  | cons pins ticks ih => exact ih (readKeyStatus kb pins)

theorem events_snoc {i : KeyValue} {ticks : List Pins} {kb : Keyboard} (pins : Pins)
    (hx : exec keyboardStep .start ticks = some kb) :
    events i (ticks ++ [pins]) = events i ticks ++ [(readKey (pins i) (kb i)).keyEvent] := by
  rw [events, keyboardTrace, trace_append hx, List.map_append]
  congr 1
  exact congrArg (· :: []) (eventOf_keyboardSends (readKeyStatus kb pins) i)

theorem keyboard_follows {i : KeyValue} {ticks : List Pins} {kb : Keyboard}
    (hc : Along keyboardStep (fun kb pins => Settled (kb i) (!pins i)) .start ticks)
    (hx : exec keyboardStep .start ticks = some kb) : Follows (samples i ticks) (events i ticks) (kb i) := by
  have h₀ : Follows (samples i []) (events i []) (Keyboard.start i) := follows_start
  refine exec_history (H := fun ticks (kb : Keyboard) => Follows (samples i ticks) (events i ticks) (kb i)) h₀ ?_ hc hx
  intro ticks kb pins kb' hx h hc hs
  obtain rfl : readKeyStatus kb pins = kb' := Option.some.inj hs
  obtain ⟨hset, ht⟩ := readKey_tick h.set (pins i)
  rw [events_snoc pins hx, samples, List.map_append]
  exact h.tick hset ht hc

theorem keyboard_set {ticks : List Pins} {kb : Keyboard} (hx : exec keyboardStep .start ticks = some kb)
    (i : KeyValue) : (kb i).Set := by
  refine exec_inv (I := fun kb : Keyboard => (kb i).Set) (fun kb pins kb' h hs => ?_) ⟨rfl, rfl⟩ hx
  obtain rfl : readKeyStatus kb pins = kb' := Option.some.inj hs
  exact (readKey_tick h (pins i)).1

theorem length_events (i : KeyValue) (ticks : List Pins) : (events i ticks).length = ticks.length := by
  have key : ∀ (ticks : List Pins) (kb : Keyboard),
      (trace keyboardStep (fun kb pins => [keyboardSends (readKeyStatus kb pins)]) kb ticks).length = ticks.length := by
    intro ticks
    induction ticks with
    | nil => exact fun _ => rfl
    | cons pins ticks ih => exact fun kb => congrArg (· + 1) (ih (readKeyStatus kb pins))
  rw [events, List.length_map]
  exact key ticks .start

/-- The event of a tick in the middle of a run. -/
theorem getElem?_events {i : KeyValue} {pre post : List Pins} {pins : Pins} {kb : Keyboard}
    (hx : exec keyboardStep .start pre = some kb) :
    (events i (pre ++ pins :: post))[pre.length]? = some (readKey (pins i) (kb i)).keyEvent := by
  have hx' : exec keyboardStep .start (pre ++ [pins]) = some (readKeyStatus kb pins) := exec_snoc.2 ⟨kb, hx, rfl⟩
  have hlen := length_events i pre
  rw [List.append_cons, events, keyboardTrace, trace_append hx', List.map_append, ← keyboardTrace, ← events,
    events_snoc pins hx, List.append_assoc, List.getElem?_append_right (by omega), hlen, Nat.sub_self]
  rfl

/-- **The events sent for a key are one UP or LONG for each DOWN, at the right
ticks, exactly when the key is never pressed in the tick after its UP.** -/
theorem one_event_per_press_iff (ticks : List Pins) (i : KeyValue) :
    OnePerPress (samples i ticks) (events i ticks) ↔
      Along keyboardStep (fun kb pins => Settled (kb i) (!pins i)) .start ticks := by
  constructor
  · intro h
    refine along_of_forall fun pre pins post kb heq hx hbounce => ?_
    obtain ⟨hst, hev, hp⟩ := hbounce
    -- the event stays, so an UP is sent for a pressed sample
    have hstay : (readKey (pins i) (kb i)).keyEvent = .up := by
      simp only [readKey, keyReadLevel_eq (keyboard_set hx i), hst, hp]
      exact hev
    have hup := (h.up pre.length).1 (by rw [heq, getElem?_events hx, hstay])
    obtain ⟨-, -, -, -, -, hrel⟩ := hup
    rw [heq, samples, List.map_append, List.getElem?_append_right (by simp)] at hrel
    simp [hp] at hrel
  · intro hc
    obtain ⟨kb, hx⟩ := exec_keyboard .start ticks
    exact (keyboard_follows hc hx).spec

/-- A key pressed for two ticks, released for one, and pressed again. -/
def bounce : List Pins := [false, false, true, false].map fun pin _ => pin

/-- The UP of the third tick is sent again in the fourth. -/
theorem bounce_sends_up_twice : ¬ OnePerPress (samples .feed bounce) (events .feed bounce) := by
  intro h
  obtain ⟨-, -, -, -, -, hrel⟩ := (h.up 3).1 (by decide)
  exact absurd hrel (by decide)

end Petbox.Control
