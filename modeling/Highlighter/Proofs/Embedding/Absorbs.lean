import Highlighter.Proofs.Granularity.Divides

/-!
What a scope makes of the spans of an embedded region. Plain spans, and those of the kind of the
scope, become its text and are joined to it; the others are kept. The invariant is kept span by
span: what has been collected begins anew only at a span that is kept.
-/

namespace Highlighter

/-- A span is kept in a scope of some kind: it is neither plain nor of the kind of the scope. -/
def Span.KeptIn (kind : Kind) (span : Span) : Prop := span.kind ≠ .plain ∧ span.kind ≠ kind

/-- What has been collected behind a position is what a scope makes of the spans of a region. From
`joint` on spans begin only where they have to. -/
structure Absorbs (kind : Kind) (inner collected : List Span) (start joint : Nat) : Prop where
  /-- The spans of other kinds are kept. -/
  kept : ∀ span ∈ inner, span.KeptIn kind → span ∈ collected
  /-- Everything else is text of the scope. -/
  text : ∀ span ∈ collected, start < span.stop → span ∈ inner ∧ span.KeptIn kind ∨ span.kind = kind
  /-- Text of the scope is cut only by the spans that are kept. -/
  begins : ∀ span ∈ collected, joint ≤ span.start →
    ∃ cut ∈ inner, cut.KeptIn kind ∧ (span.start = cut.start ∨ span.start = cut.stop)

namespace Absorbs

variable {kind : Kind} {inner collected : List Span} {start joint : Nat} {span : Span}

/-- What has been collected stays what a scope makes of the spans so far, if the next is not kept. -/
theorem skip (h : Absorbs kind inner collected start joint) (hspan : ¬span.KeptIn kind) :
    Absorbs kind (inner ++ [span]) collected start joint where
  kept := by
    intro found hfound hkept
    rcases List.mem_append.1 hfound with hfound | hfound
    · exact h.kept found hfound hkept
    · cases List.mem_singleton.1 hfound
      exact absurd hkept hspan
  text := fun found hfound hlt =>
    (h.text found hfound hlt).imp_left fun hinner => ⟨List.mem_append_left _ hinner.1, hinner.2⟩
  begins := fun found hfound hle => by
    obtain ⟨cut, hcut, hrest⟩ := h.begins found hfound hle
    exact ⟨cut, List.mem_append_left _ hcut, hrest⟩

theorem snoc (h : Absorbs kind inner collected start joint)
    (htext : span ∈ inner ∧ span.KeptIn kind ∨ span.kind = kind)
    (hbegins : joint ≤ span.start →
      ∃ cut ∈ inner, cut.KeptIn kind ∧ (span.start = cut.start ∨ span.start = cut.stop)) :
    Absorbs kind inner (collected ++ [span]) start joint where
  kept := fun found hfound hkept => List.mem_append_left _ (h.kept found hfound hkept)
  text := by
    simp only [List.forall_mem_append, List.forall_mem_singleton]
    exact ⟨h.text, fun _ => htext⟩
  begins := by
    simp only [List.forall_mem_append, List.forall_mem_singleton]
    exact ⟨h.begins, hbegins⟩

theorem keep (h : Absorbs kind inner collected start joint) (hspan : span.KeptIn kind) :
    Absorbs kind (inner ++ [span]) (collected ++ [span]) start joint where
  kept := by
    intro found hfound hkept
    rcases List.mem_append.1 hfound with hfound | hfound
    · exact List.mem_append_left _ (h.kept found hfound hkept)
    · exact List.mem_append_right _ hfound
  text := by
    simp only [List.forall_mem_append, List.forall_mem_singleton]
    refine ⟨fun found hfound hlt => ?_, fun _ => .inl ⟨by simp, hspan⟩⟩
    exact (h.text found hfound hlt).imp_left fun hinner => ⟨List.mem_append_left _ hinner.1, hinner.2⟩
  begins := by
    simp only [List.forall_mem_append, List.forall_mem_singleton]
    refine ⟨fun found hfound hle => ?_, fun _ => ⟨span, by simp, hspan, .inl rfl⟩⟩
    obtain ⟨cut, hcut, hrest⟩ := h.begins found hfound hle
    exact ⟨cut, List.mem_append_left _ hcut, hrest⟩

/-- The last span, which is text of the scope, grows. -/
theorem grow (h : Absorbs kind inner (collected ++ [span]) start joint) (hspan : span.kind = kind)
    (stop : Nat) : Absorbs kind inner (collected ++ [{ span with stop }]) start joint where
  kept := by
    intro found hfound hkept
    rcases List.mem_append.1 (h.kept found hfound hkept) with hmem | hmem
    · exact List.mem_append_left _ hmem
    · cases List.mem_singleton.1 hmem
      exact absurd hspan hkept.2
  text := by
    simp only [List.forall_mem_append, List.forall_mem_singleton]
    exact ⟨fun found hfound => h.text found (List.mem_append_left _ hfound), fun _ => .inr hspan⟩
  begins := by
    simp only [List.forall_mem_append, List.forall_mem_singleton]
    exact ⟨fun found hfound => h.begins found (List.mem_append_left _ hfound),
      h.begins span (by simp)⟩

end Absorbs

namespace Emitter

/-- How text comes to what has been collected: the span that grows is longer then, or there is one
span more. -/
theorem spans_text {e : Emitter} {first a b : Nat} (h : Tiles e.spans first a) (hab : a < b)
    (kind : Kind) :
    (∃ span, e.growing = some span ∧ span.kind = kind ∧ span.stop = a ∧
      e.spans = e.ready ++ [span] ∧
      (e.text kind a b).spans = e.ready ++ [{ span with stop := b }]) ∨
    (∀ span, e.growing = some span → span.kind ≠ kind) ∧
      (e.text kind a b).spans = e.spans ++ [⟨kind, a, b⟩] := by
  unfold text
  rw [if_neg (by omega)]
  cases hg : e.growing with
  | none => exact .inr ⟨nofun, by simp [spans, hg]⟩
  | some span =>
    have hspans : e.spans = e.ready ++ [span] := by simp [spans, hg]
    rw [hspans] at h
    obtain ⟨middle, -, hspan⟩ := tiles_append.1 h
    obtain ⟨-, -, hstop⟩ := tiles_singleton.1 hspan
    by_cases hk : span.kind = kind
    · refine .inl ⟨span, rfl, hk, hstop, hspans, ?_⟩
      simp [hk, hstop, spans]
    · refine .inr ⟨?_, ?_⟩
      · rintro _ ⟨⟩
        exact hk
      · simp [hk, spans, ready_flush, hg]

theorem growing_text {a b : Nat} (e : Emitter) (hab : a < b) (kind : Kind) : ∃ span, (e.text kind a b).growing = some span ∧ span.kind = kind := by
  unfold text
  rw [if_neg (by omega)]
  split
  · split
    · rename_i span _ hjoin
      exact ⟨_, rfl, hjoin.1⟩
    · exact ⟨_, rfl, rfl⟩
  · exact ⟨_, rfl, rfl⟩

/-- Behind a cut a span begins. -/
theorem flush_text {a b : Nat} (e : Emitter) (hab : a < b) (kind : Kind) :
    e.flush.text kind a b = ⟨some ⟨kind, a, b⟩, e.spans⟩ := by
  unfold text
  rw [if_neg (Nat.not_le.2 hab), growing_flush, ready_flush]

theorem spans_atom {a b : Nat} (e : Emitter) (hab : a < b) (kind : Kind) :
    (e.atom kind a b).spans = e.spans ++ [⟨kind, a, b⟩] := by
  unfold atom
  rw [if_neg (by omega)]
  simp [spans, growing_flush, ready_flush]

/-- What holds while the spans of a region are absorbed: the span that grows is text of the scope,
and where nothing grows any more a span has been kept. -/
structure Absorbing (kind : Kind) (done : List Span) (first start joint position : Nat)
    (e : Emitter) : Prop where
  tiles : Tiles e.spans first position
  absorbs : Absorbs kind done e.spans start joint
  growing : joint ≤ position → ∀ span, e.growing = some span → span.kind = kind
  edge : joint ≤ position → e.growing = none → ∃ cut ∈ done, cut.KeptIn kind ∧ position = cut.stop

section Absorbing

variable {kind : Kind} {done : List Span} {first start joint position : Nat} {e : Emitter}

theorem absorbing_start (h : Tiles e.spans first start)
    (hjoint : start ≤ joint) (hgrowing : joint ≤ start → ∃ span, e.growing = some span ∧
      span.kind = kind) : Absorbing kind [] first start joint start e where
  tiles := h
  absorbs := by
    refine ⟨nofun, fun span hspan hlt => ?_, fun span hspan hle => ?_⟩ <;>
      have := bounds_of_tiles h span hspan <;> omega
  growing := by
    intro hle span hspan
    obtain ⟨grown, hgrown, hkind⟩ := hgrowing hle
    rw [hgrown] at hspan
    cases hspan
    exact hkind
  edge := by
    intro hle hnone
    obtain ⟨grown, hgrown, -⟩ := hgrowing hle
    rw [hgrown] at hnone
    cases hnone

/-- Text of the scope is absorbed. -/
theorem Absorbing.text (h : Absorbing kind done first start joint position e) (span : Span) (hspan : ¬span.KeptIn kind) {stop : Nat}
    (hlt : position < stop) :
    Absorbing kind (done ++ [span]) first start joint stop (e.text kind position stop) where
  tiles := text_tiles h.tiles (Nat.le_of_lt hlt) kind
  absorbs := by
    have habsorbs := h.absorbs.skip hspan
    rcases spans_text h.tiles hlt kind with ⟨grown, -, hkind, -, hold, hnew⟩ | ⟨hother, hnew⟩
    · rw [hnew]
      rw [hold] at habsorbs
      exact habsorbs.grow hkind stop
    · rw [hnew]
      refine habsorbs.snoc (.inr rfl) fun hle => ?_
      cases hgrowing : e.growing with
      | none =>
        obtain ⟨cut, hcut, hkept, heq⟩ := h.edge hle hgrowing
        exact ⟨cut, List.mem_append_left _ hcut, hkept, .inr heq⟩
      | some grown => exact absurd (h.growing hle grown hgrowing) (hother grown hgrowing)
  growing := by
    intro _ grown hgrown
    obtain ⟨grown', hgrown', hkind⟩ := e.growing_text hlt kind
    rw [hgrown'] at hgrown
    cases hgrown
    exact hkind
  edge := by
    intro _ hnone
    obtain ⟨grown, hgrown, -⟩ := e.growing_text hlt kind
    rw [hgrown] at hnone
    cases hnone

/-- A span of another kind is kept. -/
theorem Absorbing.atom (h : Absorbing kind done first start joint position e) {span : Span} (hspan : span.KeptIn kind)
    (hposition : span.start = position) (hlt : position < span.stop) :
    Absorbing kind (done ++ [span]) first start joint span.stop
      (e.atom span.kind position span.stop) where
  tiles := atom_tiles h.tiles (Nat.le_of_lt hlt) span.kind
  absorbs := by
    have hsame : (⟨span.kind, position, span.stop⟩ : Span) = span := by rw [← hposition]
    rw [e.spans_atom hlt, hsame]
    exact h.absorbs.keep hspan
  growing := by simp [growing_atom]
  edge := fun _ _ => ⟨span, by simp, hspan, rfl⟩

end Absorbing

end Emitter

namespace Scan.State

/-- A scope makes of the spans of an embedded region what it should. -/
theorem absorbs_adopt {kind : Kind} {inner : Inner} {s : State} {first start stop joint : Nat}
    (h : Tiles s.emitter.spans first start) (hinner : Tiles inner.spans start stop)
    (hjoint : start ≤ joint)
    (hgrowing : joint ≤ start → ∃ span, s.emitter.growing = some span ∧ span.kind = kind) :
    Absorbs kind inner.spans (s.adopt kind inner).emitter.spans start joint := by
  have hfold : ∀ (spans done : List Span) (s : State) (position : Nat),
      Tiles spans position stop →
      s.emitter.Absorbing kind done first start joint position →
        (spans.foldl (fun s span => if span.kind = .plain ∨ span.kind = kind then
            s.text kind span.start span.stop else s.atom span.kind span.start span.stop)
          s).emitter.Absorbing kind (done ++ spans) first start joint stop := by
    intro spans
    induction spans with
    | nil =>
      rintro done s position rfl hs
      simpa using hs
    | cons span rest ih =>
      rintro done s _ ⟨rfl, hlt, hrest⟩ hs
      rw [List.foldl_cons, ← List.singleton_append, ← List.append_assoc]
      apply ih _ _ _ hrest
      split
      · rename_i hspan
        exact hs.text span (fun hkept => hspan.elim hkept.1 hkept.2) hlt
      · rename_i hspan
        exact hs.atom (not_or.1 hspan) rfl hlt
  have hstart := Emitter.absorbing_start h hjoint hgrowing
  exact (hfold inner.spans [] s start hinner hstart).absorbs

end Scan.State

end Highlighter
