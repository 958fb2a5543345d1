import Highlighter.Proofs.Tiling

/-!
Spans that cut a text just where its kind changes or there is a cut. What has been collected so far
is kept so: whether text joins the text in front of it is settled by the span that still grows.
-/

namespace Highlighter

/-- The spans cut the text between two positions just where its kind changes or there is a cut. -/
structure Divides (kind : Nat → Kind) (cut : Nat → Prop) (spans : List Span) (a b : Nat) :
    Prop where
  tiles : Tiles spans a b
  kinds : ∀ span ∈ spans, ∀ p, span.start ≤ p → p < span.stop → kind p = span.kind
  whole : ∀ span ∈ spans, ∀ p, span.start < p → p < span.stop → ¬cut p
  begins : ∀ span ∈ spans, a < span.start → kind (span.start - 1) ≠ span.kind ∨ cut span.start

theorem exists_of_tiles {spans : List Span} {a b p : Nat} (h : Tiles spans a b) (ha : a ≤ p)
    (hb : p < b) : ∃ span ∈ spans, span.start ≤ p ∧ p < span.stop := by
  induction spans generalizing a with
  | nil =>
    cases h
    omega
  | cons span spans ih =>
    obtain ⟨rfl, hlt, hrest⟩ := h
    rcases Nat.lt_or_ge p span.stop with hp | hp
    · exact ⟨span, List.mem_cons_self .., ha, hp⟩
    · obtain ⟨found, hfound, hin⟩ := ih hrest hp
      exact ⟨found, List.mem_cons_of_mem _ hfound, hin⟩

/-- A position is in one span of a tiling. -/
theorem eq_of_tiles {spans : List Span} {a b p : Nat} (h : Tiles spans a b) {x y : Span}
    (hx : x ∈ spans) (hy : y ∈ spans) (hxp : x.start ≤ p) (hpx : p < x.stop) (hyp : y.start ≤ p)
    (hpy : p < y.stop) : x = y := by
  induction spans generalizing a with
  | nil => cases hx
  | cons span spans ih =>
    obtain ⟨rfl, hlt, hrest⟩ := h
    rcases List.mem_cons.1 hx with rfl | hx' <;> rcases List.mem_cons.1 hy with rfl | hy'
    · rfl
    · have := bounds_of_tiles hrest y hy'
      omega
    · have := bounds_of_tiles hrest x hx'
      omega
    · exact ih hrest hx' hy'

/-- Where a span of a tiling stops, another begins, or all that is tiled stops. -/
theorem exists_next_of_tiles {spans : List Span} {a b : Nat} (h : Tiles spans a b) {x : Span}
    (hx : x ∈ spans) (hlt : x.stop < b) : ∃ y ∈ spans, y.start = x.stop := by
  have hbounds := bounds_of_tiles h x hx
  obtain ⟨y, hy, hle, hstop⟩ := exists_of_tiles h (by omega : a ≤ x.stop) hlt
  refine ⟨y, hy, Nat.le_antisymm hle (Nat.not_lt.1 fun hstart => ?_)⟩
  obtain rfl := eq_of_tiles h hx hy (p := x.stop - 1) (by omega) (by omega) (by omega) (by omega)
  omega

section Divides

variable {kind : Nat → Kind} {cut : Nat → Prop} {spans : List Span} {k : Kind} {a b c : Nat}

theorem divides_nil (a : Nat) : Divides kind cut [] a a := ⟨rfl, nofun, nofun, nofun⟩

theorem Divides.snoc (h : Divides kind cut spans a b) (hbc : b < c)
    (hkind : ∀ p, b ≤ p → p < c → kind p = k) (hcut : ∀ p, b < p → p < c → ¬cut p)
    (hbegin : a < b → kind (b - 1) ≠ k ∨ cut b) :
    Divides kind cut (spans ++ [⟨k, b, c⟩]) a c where
  tiles := tiles_snoc h.tiles hbc
  kinds := by
    simp only [List.forall_mem_append, List.forall_mem_singleton]
    exact ⟨h.kinds, hkind⟩
  whole := by
    simp only [List.forall_mem_append, List.forall_mem_singleton]
    exact ⟨h.whole, hcut⟩
  begins := by
    simp only [List.forall_mem_append, List.forall_mem_singleton]
    exact ⟨h.begins, hbegin⟩

/-- The last span grows by text of its kind that has no cut in front of it. -/
theorem Divides.grow {span : Span} (h : Divides kind cut (spans ++ [span]) a b) (hbc : b < c)
    (hkind : ∀ p, b ≤ p → p < c → kind p = span.kind) (hcut : ∀ p, b ≤ p → p < c → ¬cut p) :
    Divides kind cut (spans ++ [{ span with stop := c }]) a c := by
  obtain ⟨htiles, hkinds, hwhole, hbegins⟩ := h
  obtain rfl := stop_of_tiles htiles span (by simp)
  simp only [List.forall_mem_append, List.forall_mem_singleton] at hkinds hwhole hbegins
  refine ⟨tiles_grow htiles (Nat.le_of_lt hbc), ?_, ?_, ?_⟩
  all_goals simp only [List.forall_mem_append, List.forall_mem_singleton]
  · refine ⟨hkinds.1, fun p hp hpc => ?_⟩
    exact (Nat.lt_or_ge p span.stop).elim (hkinds.2 p hp) (hkind p · hpc)
  · refine ⟨hwhole.1, fun p hp hpc => ?_⟩
    exact (Nat.lt_or_ge p span.stop).elim (hwhole.2 p hp) (hcut p · hpc)
  · exact hbegins

end Divides

namespace Emitter

/-- What has been collected is divided as it should be, and where nothing is growing any more there
is a cut. -/
structure Drawn (kind : Nat → Kind) (cut : Nat → Prop) (first position : Nat) (e : Emitter) :
    Prop where
  divides : Divides kind cut e.spans first position
  edge : e.growing = none → first < position → cut position

variable {kind : Nat → Kind} {cut : Nat → Prop} {e : Emitter} {k : Kind} {first a b : Nat}

theorem Drawn.text (h : Drawn kind cut first a e) (hab : a ≤ b)
    (hkind : ∀ p, a ≤ p → p < b → kind p = k) (hcut : ∀ p, a < p → p < b → ¬cut p)
    (hjoin : a < b → cut a → e.growing = none) : Drawn kind cut first b (e.text k a b) := by
  have hdivides := h.divides
  unfold Emitter.text
  split
  · rename_i hle
    rwa [Nat.le_antisymm hle hab]
  · rename_i hnot
    have hlt := Nat.not_le.1 hnot
    cases hgrowing : e.growing with
    | none =>
      refine ⟨?_, by simp⟩
      have hspans : e.spans = e.ready := by simp [spans, hgrowing]
      rw [hspans] at hdivides
      exact hdivides.snoc hlt hkind hcut fun hfirst => .inr (h.edge hgrowing hfirst)
    | some span =>
      have hspans : e.spans = e.ready ++ [span] := by simp [spans, hgrowing]
      rw [hspans] at hdivides
      obtain rfl := stop_of_tiles hdivides.tiles span (by simp)
      simp only
      split
      · -- The text joins the growing span, which ends where there is no cut.
        rename_i hsame
        obtain ⟨rfl, -⟩ := hsame
        have hno : ¬cut span.stop := fun hc => by simpa [hgrowing] using hjoin hlt hc
        refine ⟨hdivides.grow hlt hkind fun p hp hpb => ?_, by simp⟩
        rcases Nat.eq_or_lt_of_le hp with rfl | hp
        · exact hno
        · exact hcut p hp hpb
      · rename_i hdiff
        have hkinds : span.kind ≠ k := fun heq => hdiff ⟨heq, trivial⟩
        have hbounds := bounds_of_tiles hdivides.tiles span (by simp)
        refine ⟨?_, by simp⟩
        simp only [spans, Option.toList_some, ready_flush, hgrowing]
        refine hdivides.snoc hlt hkind hcut fun _ => .inl ?_
        rw [hdivides.kinds span (by simp) (span.stop - 1) (by omega) (by omega)]
        exact hkinds

theorem Drawn.flush (h : Drawn kind cut first a e) (hcut : cut a) :
    Drawn kind cut first a e.flush :=
  ⟨by rw [spans_flush]; exact h.divides, fun _ _ => hcut⟩

/-- Where a scope that has a kind begins or ends, what has been collected grows no more. -/
theorem Drawn.flush_if (h : Drawn kind cut first a e) {edge : Bool} (hcut : edge = true → cut a) :
    Drawn kind cut first a (if edge then e.flush else e) := by
  cases edge with
  | false => exact h
  | true => exact h.flush (hcut rfl)

theorem growing_flush_if {edge : Bool} (h : edge = true ∨ e.growing = none) :
    (if edge then e.flush else e).growing = none := by
  cases edge with
  | false => exact h.resolve_left Bool.false_ne_true
  | true => exact growing_flush e

theorem Drawn.atom (h : Drawn kind cut first a e) (hab : a < b)
    (hkind : ∀ p, a ≤ p → p < b → kind p = k) (hcut : ∀ p, a < p → p < b → ¬cut p)
    (ha : cut a) (hb : cut b) : Drawn kind cut first b (e.atom k a b) := by
  refine ⟨?_, fun _ _ => hb⟩
  unfold Emitter.atom
  rw [if_neg (by omega)]
  simp only [spans, growing_flush, ready_flush, Option.toList_none, List.append_nil]
  exact h.divides.snoc hab hkind hcut fun _ => .inr ha

theorem growing_atom (e : Emitter) (k : Kind) (a b : Nat) : (e.atom k a b).growing = none := by
  unfold Emitter.atom
  simp only
  split <;> exact growing_flush e

end Emitter

end Highlighter
