/-
Cutting a stream into pieces, where a piece ends at the first byte at which a
condition on its own bytes holds.

The pieces of a stream and what is left of it are determined (`cut_iff`). A reader
that takes one byte at a time hands out the pieces when its state is a function of
the bytes it holds (`feed_cut`).
-/
import Mathlib.Tactic.Common

namespace Cut

variable {β σ τ : Type*} (stop : List β → Bool)

/-- No piece ends in these bytes. -/
def Open (p : List β) : Prop := ∀ q, q <+: p → q ≠ [] → stop q = false

/-- The bytes of one piece: it ends with them, and not before. -/
def Piece (p : List β) : Prop := ∃ q c, p = q ++ [c] ∧ Open stop q ∧ stop p = true

/-- The pieces that end in a stream, when some bytes of the first one are held
already, and the bytes that are held in the end. -/
def cut : List β → List β → List (List β) × List β
  | held, [] => ([], held)
  | held, c :: cs =>
    if stop (held ++ [c]) then ((held ++ [c]) :: (cut [] cs).1, (cut [] cs).2) else cut (held ++ [c]) cs

variable {stop} {p q held rest : List β} {c : β}

theorem open_nil : Open stop [] := fun _ hq hne => absurd (List.prefix_nil.1 hq) hne

theorem open_snoc : Open stop (p ++ [c]) ↔ Open stop p ∧ stop (p ++ [c]) = false := by
  constructor
  · intro h
    exact ⟨fun q hq => h q (hq.trans (List.prefix_append p [c])), h _ (List.prefix_refl _) (by simp)⟩
  · rintro ⟨hp, hc⟩ q hq hne
    rcases List.prefix_concat_iff.1 hq with rfl | hq
    · exact hc
    · exact hp q hq hne

theorem Open.append (h : Open stop (p ++ q)) : Open stop p := fun _ hr => h _ (hr.trans (List.prefix_append p q))

theorem Piece.ne_nil (h : Piece stop p) : p ≠ [] := by
  obtain ⟨q, c, rfl, -⟩ := h
  simp

theorem cut_append (held cs ds : List β) :
    cut stop held (cs ++ ds) =
      ((cut stop held cs).1 ++ (cut stop (cut stop held cs).2 ds).1, (cut stop (cut stop held cs).2 ds).2) := by
  induction cs generalizing held with
  | nil => rfl
  | cons c cs ih =>
    by_cases hstop : stop (held ++ [c]) = true
    · simp [cut, hstop, ih]
    · simp [cut, hstop, ih]

/-- Bytes in which no piece ends are held. -/
theorem cut_open (held : List β) {cs : List β} (h : Open stop (held ++ cs)) : cut stop held cs = ([], held ++ cs) := by
  induction cs generalizing held with
  | nil => simp [cut]
  | cons c cs ih =>
    have hopen : Open stop ((held ++ [c]) ++ cs) := by simpa using h
    rw [cut, if_neg (by simp [(open_snoc.1 hopen.append).2]), ih _ hopen]
    simp

theorem cut_piece (h : Piece stop p) (cs : List β) :
    cut stop [] (p ++ cs) = (p :: (cut stop [] cs).1, (cut stop [] cs).2) := by
  obtain ⟨q, c, rfl, hopen, hstop⟩ := h
  rw [List.append_assoc, cut_append, cut_open [] (by simpa using hopen)]
  simp [cut, hstop]

theorem cut_pieces {ps : List (List β)} (hps : ∀ p ∈ ps, Piece stop p) (hrest : Open stop rest) :
    cut stop [] (ps.flatten ++ rest) = (ps, rest) := by
  induction ps with
  | nil => simpa using cut_open [] (by simpa using hrest)
  | cons p ps ih =>
    rw [List.flatten_cons, List.append_assoc, cut_piece (hps p (by simp)), ih fun q hq => hps q (by simp [hq])]

/-- The pieces of a stream are pieces, and nothing is lost. -/
theorem cut_spec (hopen : Open stop held) (cs : List β) :
    held ++ cs = (cut stop held cs).1.flatten ++ (cut stop held cs).2 ∧
      (∀ p ∈ (cut stop held cs).1, Piece stop p) ∧ Open stop (cut stop held cs).2 := by
  induction cs generalizing held with
  | nil => simpa [cut] using hopen
  | cons c cs ih =>
    cases hstop : stop (held ++ [c]) with
    | true =>
      obtain ⟨heq, hpieces, hrest⟩ := ih open_nil
      simp only [cut, hstop, if_true, List.flatten_cons, List.mem_cons, forall_eq_or_imp]
      refine ⟨?_, ⟨⟨held, c, rfl, hopen, hstop⟩, hpieces⟩, hrest⟩
      rw [List.append_assoc, ← heq]
      simp
    | false =>
      simpa [cut, hstop] using ih (open_snoc.2 ⟨hopen, hstop⟩)

/-- **A stream is cut in one way.** -/
theorem cut_iff {cs : List β} {ps : List (List β)} :
    cut stop [] cs = (ps, rest) ↔ cs = ps.flatten ++ rest ∧ (∀ p ∈ ps, Piece stop p) ∧ Open stop rest := by
  constructor
  · intro h
    simpa [h] using cut_spec (open_nil : Open stop []) cs
  · rintro ⟨rfl, hps, hrest⟩
    exact cut_pieces hps hrest

/-! ## Readers -/

/-- What a reader hands out, and its state, when it takes the bytes of a stream. -/
def feed (push : σ → β → Option τ × σ) : σ → List β → List τ × σ
  | s, [] => ([], s)
  | s, c :: cs => ((push s c).1.toList ++ (feed push (push s c).2 cs).1, (feed push (push s c).2 cs).2)

/-- A reader whose state is that of the bytes it holds cuts the stream. -/
theorem feed_cut {push : σ → β → Option τ × σ} {state : List β → σ} {out : List β → τ}
    (hend : ∀ held c, Open stop held → stop (held ++ [c]) = true →
      push (state held) c = (some (out (held ++ [c])), state []))
    (hmore : ∀ held c, Open stop held → stop (held ++ [c]) = false →
      push (state held) c = (none, state (held ++ [c])))
    (hopen : Open stop held) (cs : List β) :
    feed push (state held) cs = ((cut stop held cs).1.map out, state (cut stop held cs).2) := by
  induction cs generalizing held with
  | nil => rfl
  | cons c cs ih =>
    cases hstop : stop (held ++ [c]) with
    | true => simp [feed, cut, hstop, hend held c hopen hstop, ih open_nil]
    | false => simp [feed, cut, hstop, hmore held c hopen hstop, ih (open_snoc.2 ⟨hopen, hstop⟩)]

end Cut
