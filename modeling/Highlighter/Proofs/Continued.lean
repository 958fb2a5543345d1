import Highlighter.Proofs.Granularity.Replay
import Highlighter.Proofs.Trail

/-!
What has been collected stays. Spans that are finished stay as they are and where they are, and the
span that grows may only become longer. Every action keeps to that, so what has been collected in
some state of a run is found again among the spans of the region.
-/

namespace Highlighter

namespace Emitter

/-- What has been collected is kept: what is finished is in front, and what was growing follows it,
at least as long. -/
structure Continues (e e' : Emitter) : Prop where
  ready : e.ready <+: e'.ready
  growing : ∀ span ∈ e.growing, ∃ stop, span.stop ≤ stop ∧
    e.ready ++ [{ span with stop }] <+: e'.spans

theorem ready_prefix (e : Emitter) : e.ready <+: e.spans := List.prefix_append ..

namespace Continues

variable {e e' e'' : Emitter}

theorem refl (e : Emitter) : e.Continues e where
  ready := List.prefix_refl _
  growing := by
    intro span hspan
    refine ⟨span.stop, Nat.le_refl _, ?_⟩
    rw [spans, Option.mem_def.1 hspan]
    exact List.prefix_refl _

theorem trans (h : e.Continues e') (h' : e'.Continues e'') : e.Continues e'' where
  ready := h.ready.trans h'.ready
  growing := by
    intro span hspan
    obtain ⟨stop, hstop, hfront⟩ := h.growing span hspan
    unfold spans at hfront
    cases hgrowing : e'.growing with
    | none =>
      rw [hgrowing, Option.toList_none, List.append_nil] at hfront
      exact ⟨stop, hstop, (hfront.trans h'.ready).trans e''.ready_prefix⟩
    | some span' =>
      rw [hgrowing, Option.toList_some] at hfront
      rcases List.prefix_concat_iff.1 hfront with hsame | hfinished
      · -- The span that was growing still does.
        obtain ⟨hready, hlast⟩ := List.append_inj' hsame rfl
        cases hlast
        obtain ⟨stop', hstop', hfront'⟩ := h'.growing _ hgrowing
        exact ⟨stop', Nat.le_trans hstop hstop', hready ▸ hfront'⟩
      · exact ⟨stop, hstop, (hfinished.trans h'.ready).trans e''.ready_prefix⟩

/-- What has been taken out stays in front. -/
theorem behind (h : e.Continues e') (taken : List Span) :
    (e.behind taken).Continues (e'.behind taken) where
  ready := (List.prefix_append_right_inj taken).2 h.ready
  growing := by
    intro span hspan
    obtain ⟨stop, hstop, hfront⟩ := h.growing span hspan
    refine ⟨stop, hstop, ?_⟩
    rw [spans_behind]
    simpa [Emitter.behind] using hfront

end Continues

variable (e : Emitter) (kind : Kind) (start stop : Nat)

theorem continues_flush : e.Continues e.flush where
  ready := by
    rw [ready_flush]
    exact e.ready_prefix
  growing := by
    intro span hspan
    refine ⟨span.stop, Nat.le_refl _, ?_⟩
    rw [spans_flush, spans, Option.mem_def.1 hspan]
    exact List.prefix_refl _

theorem continues_atom : e.Continues (e.atom kind start stop) := by
  refine e.continues_flush.trans ?_
  unfold atom
  simp only
  split
  · exact .refl _
  · exact ⟨List.prefix_append .., by simp [growing_flush]⟩

theorem continues_text : e.Continues (e.text kind start stop) := by
  unfold text
  split
  · exact .refl e
  · rename_i hlt
    cases hgrowing : e.growing with
    | none => exact ⟨List.prefix_refl _, by simp [hgrowing]⟩
    | some span =>
      simp only
      split
      · rename_i hjoin
        refine ⟨List.prefix_refl _, fun span' hspan' => ?_⟩
        cases hgrowing.symm.trans hspan'
        exact ⟨stop, by omega, List.prefix_refl _⟩
      · exact e.continues_flush.trans
          ⟨List.prefix_refl _, by simp [growing_flush]⟩

end Emitter

namespace Scan

namespace State

variable {ctx : Context} {inside : Embedding ctx → Inner} {s t : State}

/-- What a state has collected is kept in another. -/
def Continues (s t : State) : Prop := s.emitter.Continues t.emitter

section Actions

variable (ctx) (inside) (s) (kind : Kind) (rule : Rule) (start stop : Nat)

theorem continues_text : s.Continues (s.text kind start stop) :=
  s.emitter.continues_text kind start stop

theorem continues_flushIf (cut : Bool) : s.Continues (s.flushIf cut) := by
  cases cut with
  | true => exact s.emitter.continues_flush
  | false => exact .refl _

theorem continues_flushGap (position : Nat) : s.Continues (s.flushGap ctx position) := by
  obtain ⟨t, plain, ht, -, hflush⟩ := exists_flushGap (P := fun t _ => s.Continues t)
    ctx s position
    (by
      intro _ t plain first last entry h _ _ _ _
      unfold Continues
      rw [emitter_countKeyword]
      exact (h.trans (t.emitter.continues_text ..)).trans (Emitter.continues_atom ..))
    (.refl _)
  rw [hflush]
  exact ht.trans (t.emitter.continues_text ..)

theorem flushGap_continues_closeScope :
    (s.flushGap ctx start).Continues (s.closeScope ctx start stop) := by
  unfold closeScope
  generalize s.flushGap ctx start = u
  simp only
  split
  · exact .refl _
  · rename_i frame stack hs
    let below := u.withStack stack
    let labelled := frame.rule.kind.isSome
    split
    · exact (continues_flushIf below labelled).trans
        (continues_text (below.flushIf labelled) below.kind start stop)
    · exact (continues_text below frame.kind start stop).trans
        (continues_flushIf (below.text frame.kind start stop) labelled)

theorem continues_closeScope : s.Continues (s.closeScope ctx start stop) :=
  (s.continues_flushGap ctx start).trans (s.flushGap_continues_closeScope ctx start stop)

theorem continues_finish : s.Continues (s.finish ctx) := by
  cases hdone : s.done with
  | true =>
    unfold finish
    rw [if_pos hdone]
    exact .refl _
  | false =>
    unfold Continues
    rw [emitter_finish hdone]
    exact (s.continues_flushGap ctx ctx.stop).trans (Emitter.continues_flush _)

theorem continues_skipChar (position : Nat) : s.Continues (s.skipChar ctx position) := by
  unfold skipChar
  split
  · exact .refl _
  · exact s.continues_finish ctx

theorem continues_markIllegal : s.Continues (s.markIllegal ctx start stop) := by
  unfold markIllegal
  split
  · exact s.continues_skipChar ctx start
  · have hgap := continues_flushGap ctx (s.recordIf (!s.outcome.illegal)
      (.metIllegal ctx.grammar.name (ctx.source.slice start stop) (ctx.source.byte start))) start
    unfold Continues at hgap
    rw [emitter_recordIf] at hgap
    exact hgap.trans (Emitter.continues_text ..)

theorem continues_adopt (inner : Inner) : s.Continues (s.adopt kind inner) := by
  unfold adopt Continues
  simp only
  induction inner.spans generalizing s with
  | nil => exact .refl _
  | cons span spans ih =>
    rw [List.foldl_cons]
    refine Emitter.Continues.trans ?_ (ih _)
    split
    · exact Emitter.continues_text ..
    · exact Emitter.continues_atom ..

theorem continues_openScope : s.Continues (s.openScope ctx rule start stop) := by
  let labelled := rule.kind.isSome
  unfold openScope
  cases rule.openingOutside with
  | true =>
    exact (s.continues_text s.kind start stop).trans
      (continues_flushIf (s.text s.kind start stop) labelled)
  | false =>
    exact (s.continues_flushIf labelled).trans
      (continues_text (s.flushIf labelled) (s.frame ctx rule start stop).kind start stop)

theorem continues_takeSingle : s.Continues (s.takeSingle rule start stop) := by
  unfold takeSingle
  simp only
  split
  · exact Emitter.continues_atom ..
  · exact Emitter.continues_text ..

end Actions

theorem CollectsBody.continues {kind : Kind} {language : String} {start stop : Nat}
    (collects : CollectsBody ctx inside s kind language start stop t) : s.Continues t := by
  cases collects with
  | unknown => exact Emitter.continues_text ..
  | adopted => exact continues_adopt ..
  | limited =>
    unfold Continues
    rw [← emitter_recordIf s]
    exact Emitter.continues_text ..
  | empty => exact .refl _

theorem Enters.continues {rule : Rule} {start stop : Nat}
    (enters : Enters ctx inside s rule start stop t) : s.Continues t := by
  refine (s.continues_openScope ctx rule start stop).trans ?_
  cases enters with
  | own => exact .refl _
  | @closed language body last next embedded collects =>
    exact collects.continues.trans (continues_closeScope ctx (body.advance last) last next)
  | unclosed embedded collects => exact collects.continues

theorem continues_takes {rule : Rule} {start stop : Nat}
    (takes : Takes ctx inside s rule start stop t) : s.Continues t := by
  cases takes with
  | skip empty => exact continues_skipChar ctx (s.record _) start
  | refuse lt opens full =>
    unfold Continues
    rw [emitter_refuse]
    exact .refl _
  | enter lt opens room =>
    exact (s.continues_flushGap ctx start).trans
      (enters_enterScope ctx inside (s.arrive ctx rule start) rule start stop).continues
  | single lt opens =>
    exact (s.continues_flushGap ctx start).trans
      (continues_takeSingle (s.arrive ctx rule start) rule start stop)

/-- A step keeps what has been collected. -/
theorem continues_step (ctx : Context) (inside : Embedding ctx → Inner) (s : State) :
    s.Continues (s.step ctx inside) := by
  have steps : Steps ctx inside s (s.step ctx inside) := steps_iff.2 rfl
  generalize s.step ctx inside = t at steps
  cases steps with
  | ended => exact s.continues_finish ctx
  | lost => exact s.continues_finish ctx
  | rule hit found takes => exact continues_takes takes
  | close hit => exact continues_closeScope ..
  | illegal hit => exact continues_markIllegal ..

/-- What has been collected is found again in what is drained. -/
theorem continues_drain (tiled : ∀ e : Embedding ctx, Tiles (inside e).spans e.start e.stop)
    (found : Array Span) (s : State) :
    ∀ first, Covers ctx first s → ∃ e, s.emitter.Continues e ∧
      (s.drain ctx inside found).1.toList = found.toList ++ e.spans := by
  fun_induction s.drain ctx inside found with
  | case1 found s found' hdone =>
    intro first covers
    refine ⟨s.emitter, .refl _, ?_⟩
    simp [found', Emitter.spans, (covers.ended hdone).2]
  | case2 found s found' going ih =>
    intro first covers
    obtain ⟨middle, -, hrest⟩ := emptied_covers covers
    obtain ⟨e, hcontinues, hdrain⟩ :=
      ih middle (step_covers tiled hrest (Bool.eq_false_iff.2 going))
    refine ⟨e.behind s.emitter.ready, ?_, ?_⟩
    · have hstep := ((continues_step ctx inside s.emptied).trans hcontinues).behind s.emitter.ready
      simpa [State.emptied, Emitter.behind] using hstep
    · rw [hdrain, Emitter.spans_behind]
      simp [found']

/-- What a run comes to is what it comes to behind any of its steps, with some spans in front. -/
theorem drain_of_mem_trail (hs : s ∈ t.trail ctx) :
    ∃ front : Array Span, t.drain ctx ctx.inside #[] =
      (front ++ ((s.takeStep ctx).drain ctx ctx.inside #[]).1,
        ((s.takeStep ctx).drain ctx ctx.inside #[]).2) := by
  fun_induction t.trail ctx with
  | case1 => cases hs
  | case2 t going ih =>
    have hdrain := drain_append ctx.inside t.emitter.ready.toArray #[] (t.emptied.takeStep ctx)
    rw [drain_of_going ctx.inside #[] (Bool.eq_false_iff.2 going), Array.empty_append]
    rw [Array.append_empty] at hdrain
    rcases List.mem_cons.1 hs with rfl | hs
    · exact ⟨t.emitter.ready.toArray, hdrain⟩
    · obtain ⟨front, hfront⟩ := ih hs
      refine ⟨t.emitter.ready.toArray ++ front, ?_⟩
      rw [Array.append_assoc]
      exact hdrain.trans (by rw [hfront])

/-- Every state of a run covers what it has collected. -/
theorem exists_covers_of_mem_trail {first : Nat} (covers : Covers ctx first t)
    (hs : s ∈ t.trail ctx) : ∃ middle, Covers ctx middle s := by
  fun_induction t.trail ctx generalizing first with
  | case1 => cases hs
  | case2 t going ih =>
    obtain ⟨middle, -, hrest⟩ := emptied_covers covers
    rcases List.mem_cons.1 hs with rfl | hs
    · exact ⟨middle, hrest⟩
    · exact ih (step_covers ctx.inside_tiles hrest (Bool.eq_false_iff.2 going)) hs

/-- What a step of a run has collected is found again in what the run comes to. -/
theorem continues_of_mem_trail {first : Nat} (covers : Covers ctx first t)
    (hs : s ∈ t.trail ctx) :
    ∃ front e, (s.takeStep ctx).emitter.Continues e ∧
      (t.drain ctx ctx.inside #[]).1.toList = front ++ e.spans := by
  obtain ⟨front, hdrain⟩ := drain_of_mem_trail hs
  obtain ⟨middle, hcovers⟩ := exists_covers_of_mem_trail covers hs
  obtain ⟨e, hcontinues, hspans⟩ := continues_drain ctx.inside_tiles #[] _ middle
    (step_covers ctx.inside_tiles hcovers (going_of_mem_trail hs))
  refine ⟨front.toList, e, hcontinues, ?_⟩
  rw [hdrain, Array.toList_append]
  exact congrArg (front.toList ++ ·) hspans

end State

end Scan

end Highlighter
