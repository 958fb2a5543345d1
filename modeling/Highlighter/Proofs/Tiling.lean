import Highlighter.Scan.Run

/-!
The spans of a region tile it: they follow one another without gap or overlap, and none is
empty. The invariant is that what has been collected reaches from the start of the region to the
place from where text is yet to be collected. Every action keeps it, so every step does, and at
the end of the region there is nothing left to collect.
-/

namespace Highlighter

/-- The spans follow one another from the first position to the second, and none is empty. -/
def Tiles : List Span → Nat → Nat → Prop
  | [], a, b => a = b
  | span :: spans, a, b => span.start = a ∧ a < span.stop ∧ Tiles spans span.stop b

theorem tiles_append {xs ys : List Span} {a c : Nat} :
    Tiles (xs ++ ys) a c ↔ ∃ b, Tiles xs a b ∧ Tiles ys b c := by
  induction xs generalizing a with
  | nil => simp [Tiles]
  | cons x xs ih => simp [Tiles, ih, and_assoc]

theorem tiles_singleton {span : Span} {a b : Nat} :
    Tiles [span] a b ↔ span.start = a ∧ a < span.stop ∧ span.stop = b := by
  simp [Tiles]

theorem tiles_snoc {spans : List Span} {kind : Kind} {a b c : Nat} (h : Tiles spans a b)
    (hbc : b < c) : Tiles (spans ++ [⟨kind, b, c⟩]) a c :=
  tiles_append.2 ⟨b, h, tiles_singleton.2 ⟨rfl, hbc, rfl⟩⟩

theorem tiles_grow {spans : List Span} {span : Span} {a b c : Nat}
    (h : Tiles (spans ++ [span]) a b) (hbc : b ≤ c) :
    Tiles (spans ++ [{ span with stop := c }]) a c := by
  obtain ⟨middle, hspans, hspan⟩ := tiles_append.1 h
  obtain ⟨hstart, hlt, rfl⟩ := tiles_singleton.1 hspan
  exact tiles_append.2 ⟨middle, hspans, tiles_singleton.2 ⟨hstart, Nat.lt_of_lt_of_le hlt hbc, rfl⟩⟩

theorem le_of_tiles {spans : List Span} {a b : Nat} (h : Tiles spans a b) : a ≤ b := by
  induction spans generalizing a with
  | nil => exact Nat.le_of_eq h
  | cons span spans ih =>
    obtain ⟨-, hlt, hrest⟩ := h
    have := ih hrest
    omega

/-- Every span of a tiling lies inside of what is tiled. -/
theorem bounds_of_tiles {spans : List Span} {a b : Nat} (h : Tiles spans a b) :
    ∀ span ∈ spans, a ≤ span.start ∧ span.start < span.stop ∧ span.stop ≤ b := by
  induction spans generalizing a with
  | nil => simp
  | cons first spans ih =>
    obtain ⟨rfl, hlt, hrest⟩ := h
    have hle := le_of_tiles hrest
    intro span hspan
    rcases List.mem_cons.1 hspan with rfl | hspan
    · exact ⟨Nat.le_refl _, hlt, hle⟩
    · have := ih hrest span hspan
      omega

theorem start_of_tiles {spans : List Span} {a b : Nat} (h : Tiles spans a b) :
    ∀ span ∈ spans.head?, span.start = a := by
  cases spans with
  | nil => simp
  | cons first spans =>
    obtain ⟨hstart, -, -⟩ := h
    simpa using hstart

theorem stop_of_tiles {spans : List Span} {a b : Nat} (h : Tiles spans a b) :
    ∀ span ∈ spans.getLast?, span.stop = b := by
  intro span hlast
  obtain ⟨front, rfl⟩ := List.getLast?_eq_some_iff.1 hlast
  obtain ⟨_, -, hspan⟩ := tiles_append.1 h
  exact (tiles_singleton.1 hspan).2.2

/-- Neighbours in a tiling meet. -/
theorem adjacent_of_tiles {spans : List Span} {a b i : Nat} {x y : Span} (h : Tiles spans a b)
    (hx : spans[i]? = some x) (hy : spans[i + 1]? = some y) : y.start = x.stop := by
  induction spans generalizing a i with
  | nil => simp at hx
  | cons first spans ih =>
    obtain ⟨-, -, hrest⟩ := h
    cases i with
    | zero =>
      cases hx
      exact start_of_tiles hrest y (by simpa [List.head?_eq_getElem?] using hy)
    | succ i => exact ih hrest hx hy

namespace Emitter

/-- Everything collected, the span that may still grow last. -/
def spans (e : Emitter) : List Span := e.ready ++ e.growing.toList

@[simp] theorem spans_flush (e : Emitter) : e.flush.spans = e.spans := by
  unfold flush spans
  cases hg : e.growing <;> simp [hg]

theorem growing_flush (e : Emitter) : e.flush.growing = none := by
  unfold flush
  split
  · rfl
  · assumption

theorem ready_flush (e : Emitter) : e.flush.ready = e.spans := by
  rw [← spans_flush, spans, growing_flush]
  simp

theorem text_tiles {e : Emitter} {first a b : Nat} (h : Tiles e.spans first a) (hab : a ≤ b)
    (kind : Kind) : Tiles (e.text kind a b).spans first b := by
  unfold text
  split
  · rename_i hle
    rwa [Nat.le_antisymm hle hab]
  · rename_i hlt
    split
    · rename_i span hgrowing
      split
      · -- The growing span is the last one collected, and it ends where the new text begins.
        simp only [spans, hgrowing, Option.toList_some] at h ⊢
        exact tiles_grow h hab
      · simp only [spans, Option.toList_some, ready_flush]
        exact tiles_snoc h (by omega)
    · rename_i hgrowing
      simp only [spans, hgrowing, Option.toList_none, Option.toList_some, List.append_nil] at h ⊢
      exact tiles_snoc h (by omega)

theorem atom_tiles {e : Emitter} {first a b : Nat} (h : Tiles e.spans first a) (hab : a ≤ b)
    (kind : Kind) : Tiles (e.atom kind a b).spans first b := by
  unfold atom
  simp only
  split
  · rename_i hle
    rwa [spans_flush, Nat.le_antisymm hle hab]
  · simp only [spans, growing_flush, ready_flush, Option.toList_none, List.append_nil]
    exact tiles_snoc h (by omega)

end Emitter

namespace Scan.State

/-- What has been collected in a region from `first` on. The region is searched behind what has
been passed over, and when it is done there is nothing left to collect. -/
structure Covers (ctx : Context) (first : Nat) (s : State) : Prop where
  collected : Tiles s.emitter.spans first s.gap
  gap_le_cursor : s.gap ≤ s.cursor
  cursor_le_stop : s.cursor ≤ ctx.stop
  ended : s.done = true → s.gap = ctx.stop ∧ s.emitter.growing = none

variable {ctx : Context} {s : State} {first a b : Nat}

theorem covers_start (h : a ≤ ctx.stop) : Covers ctx a (start a) where
  collected := rfl
  gap_le_cursor := Nat.le_refl _
  cursor_le_stop := h
  ended := fun hdone => nomatch hdone

/-- After an action that collects everything up to where it leads. -/
theorem covers_of_toCourse {stack : List Frame} (hc : s.toCourse = ⟨b, b, stack, false⟩)
    (h : Tiles s.emitter.spans first b) (hb : b ≤ ctx.stop) : Covers ctx first s where
  collected := by rwa [hc]
  gap_le_cursor := by simp [hc]
  cursor_le_stop := by rwa [hc]
  ended := fun hdone => by
    rw [hc] at hdone
    cases hdone

theorem text_tiles (h : Tiles s.emitter.spans first a) (hab : a ≤ b) (kind : Kind) :
    Tiles (s.text kind a b).emitter.spans first b :=
  Emitter.text_tiles h hab kind

theorem atom_tiles (h : Tiles s.emitter.spans first a) (hab : a ≤ b) (kind : Kind) :
    Tiles (s.atom kind a b).emitter.spans first b :=
  Emitter.atom_tiles h hab kind

theorem flushIf_tiles (h : Tiles s.emitter.spans first a) (cut : Bool) :
    Tiles (s.flushIf cut).emitter.spans first a := by
  cases cut
  · exact h
  · rw [← Emitter.spans_flush] at h
    exact h

theorem emitter_recordIf (s : State) (happened : Bool) (e : Event) :
    (s.recordIf happened e).emitter = s.emitter := by
  cases happened <;> rfl

theorem emitter_countKeyword (s : State) (key : String) (relevance : Nat) :
    (s.countKeyword key relevance).emitter = s.emitter := by
  unfold countKeyword
  simp only
  split <;> rfl

theorem flushGap_tiles (ctx : Context) (h : Tiles s.emitter.spans first s.gap) (ha : s.gap ≤ a) :
    Tiles (s.flushGap ctx a).emitter.spans first a := by
  obtain ⟨t, plain, ht, hplain, hflush⟩ :=
    exists_flushGap (P := fun t plain => Tiles t.emitter.spans first plain) ctx s a
      (by
        intro _ t plain start last entry htiles hle hlt _ _
        rw [emitter_countKeyword]
        exact atom_tiles (text_tiles htiles hle _) (Nat.le_of_lt hlt) _)
      h
  rw [hflush]
  exact text_tiles ht (hplain ha) _

/-- What an embedded region makes is taken over as it is, or joined to what is around it. -/
theorem adopt_tiles {inner : Inner} (h : Tiles s.emitter.spans first a)
    (hinner : Tiles inner.spans a b) (kind : Kind) :
    Tiles (s.adopt kind inner).emitter.spans first b := by
  unfold adopt
  simp only
  generalize inner.spans = spans at hinner
  induction spans generalizing s a with
  | nil =>
    cases hinner
    exact h
  | cons span spans ih =>
    obtain ⟨rfl, hlt, hrest⟩ := hinner
    rw [List.foldl_cons]
    refine ih ?_ hrest
    split
    · exact text_tiles h (Nat.le_of_lt hlt) _
    · exact atom_tiles h (Nat.le_of_lt hlt) _

end Scan.State

end Highlighter
