import Highlighter.Proofs.Scopes.Open
import Highlighter.Proofs.Steering.Sightings
import Mathlib

/-!
How a highlighting ends. A scope that is open to the end has no match of its end in the text that
was searched last, but for one case: at the very end of the text an empty match of a rule inside the
scope comes first, and ends the search. When no scope is open at the end, every scope was closed by
its own end.
-/

namespace Highlighter

namespace Scan

theorem Context.SameSearch.refl (ctx : Context) : ctx.SameSearch ctx where
  grammar := .refl ctx.grammar
  language name := by
    cases ctx.language? name with
    | none => exact .none
    | some g => exact .some (.refl g)
  cap := rfl
  source := rfl
  stop := rfl
  base := rfl

theorem forall₂_frames {frames : List Frame} (sound : ∀ frame ∈ frames, frame.rule.Sound)
    (opens : ∀ frame ∈ frames, frame.rule.opensScope = true) :
    List.Forall₂ Frame.SameSearch frames frames :=
  List.forall₂_same.2 fun frame hframe =>
    ⟨(sound frame hframe).sameSearch, opens frame hframe, rfl⟩

namespace State

variable {ctx : Context} {s t : State} {frame : Frame} {stack : List Frame} {rule : Rule}
  {start stop first last : Nat}

theorem incomplete_skipChar (going : s.done = false) (position : Nat) :
    (s.skipChar ctx position).outcome.incomplete =
      (s.outcome.incomplete || (s.skipChar ctx position).done && !s.stack.isEmpty) := by
  unfold skipChar
  split
  · simp [going]
  · rw [done_finish, Bool.true_and]
    exact congrArg Flags.incomplete (flags_finish going)

theorem CollectsBody.incomplete {inside : Embedding ctx → Inner} {kind : Kind} {language : String}
    (collects : CollectsBody ctx inside s kind language start stop t) :
    t.outcome.incomplete = s.outcome.incomplete := by
  cases collects with
  | unknown => rfl
  | adopted => exact congrArg Flags.incomplete (flags_adopt s kind _)
  | limited => exact congrArg Flags.incomplete (flags_recordIf s _ _)
  | empty => rfl

theorem Enters.incomplete {inside : Embedding ctx → Inner}
    (enters : Enters ctx inside s rule start stop t) :
    t.outcome.incomplete = s.outcome.incomplete := by
  have hopen : (s.openScope ctx rule start stop).outcome.incomplete = s.outcome.incomplete :=
    congrArg Flags.incomplete (flags_openScope ctx s rule start stop)
  cases enters with
  | own => exact hopen
  | closed embedded collects =>
    exact (congrArg Flags.incomplete (flags_closeScope ctx _ _ _)).trans
      (collects.incomplete.trans hopen)
  | unclosed embedded collects => exact collects.incomplete.trans hopen

/-- What is left open is told in the step that ends the region, and in no other. -/
theorem incomplete_takeStep (going : s.done = false) :
    (s.takeStep ctx).outcome.incomplete =
      (s.outcome.incomplete || (s.takeStep ctx).done && !s.stack.isEmpty) := by
  have hfinish : (s.finish ctx).outcome.incomplete =
      (s.outcome.incomplete || (s.finish ctx).done && !s.stack.isEmpty) := by
    rw [done_finish, Bool.true_and]
    exact congrArg Flags.incomplete (flags_finish going)
  have hgoes : ∀ {t : State}, t.done = s.done → t.outcome.flags.incomplete = s.outcome.incomplete →
      t.outcome.incomplete = (s.outcome.incomplete || t.done && !s.stack.isEmpty) := by
    intro t hdone hflag
    rw [hdone, going, Bool.false_and, Bool.or_false]
    exact hflag
  have hsteps : Steps ctx ctx.inside s (s.takeStep ctx) := steps_iff.2 rfl
  generalize s.takeStep ctx = t at hsteps
  cases hsteps with
  | ended => exact hfinish
  | lost => exact hfinish
  | @rule index start stop rule _ hit found takes =>
    have harrive : (s.arrive ctx rule start).outcome.incomplete = s.outcome.incomplete :=
      congrArg Flags.incomplete (flags_arrive ctx s rule start)
    cases takes with
    | skip =>
      exact incomplete_skipChar (s := s.record (.skippedEmptyOpening (ctx.source.byte start))) going
        start
    | refuse =>
      exact hgoes (by rw [toCourse_refuse])
        (congrArg Flags.incomplete (flags_refuse ctx s start stop))
    | enter lt opens room =>
      exact hgoes (by rw [done_enterScope, done_arrive])
        ((enters_enterScope ..).incomplete.trans harrive)
    | single =>
      exact hgoes (by rw [toCourse_takeSingle, done_arrive])
        ((congrArg Flags.incomplete (flags_takeSingle _ rule start stop)).trans harrive)
  | @close start stop hit =>
    obtain ⟨frame, stack, hs⟩ := List.exists_cons_of_ne_nil (opened_of_closing hit)
    exact hgoes (by rw [toCourse_closeScope ctx hs])
      (congrArg Flags.incomplete (flags_closeScope ctx s start stop))
  | @illegal start stop hit =>
    by_cases hlt : start < stop
    · exact hgoes (by rw [toCourse_markIllegal hlt])
        (congrArg Flags.incomplete (flags_markIllegal hlt))
    · rw [markIllegal_of_le (Nat.not_lt.1 hlt)]
      exact incomplete_skipChar going start

/-- A region ends where nothing comes next, or where nothing more than an empty match at its end. -/
theorem nextHit?_of_ends (framed : s.Framed) (going : s.done = false)
    (ends : (s.takeStep ctx).done = true) :
    s.nextHit? ctx = none ∨
      ∃ hit, hit ≠ .closing ∧ s.nextHit? ctx = some (hit, ctx.stop, ctx.stop) := by
  have hgoes : ∀ {t : State}, t.done = s.done → t.done = true → False := by
    intro t hsame hdone
    rw [hsame, going] at hdone
    cases hdone
  -- Passing over an empty match ends the region only where no character is left to be passed over.
  have hempty : ∀ {t : State} {hit : Hit} {start stop : Nat},
      s.nextHit? ctx = some (hit, start, stop) → hit ≠ .closing → stop ≤ start → t.done = s.done →
        (t.skipChar ctx start).done = true →
          ∃ hit, hit ≠ .closing ∧ s.nextHit? ctx = some (hit, ctx.stop, ctx.stop) := by
    intro t hit start stop hhit hne hle hsame hdone
    obtain ⟨-, hstart, hstop⟩ := nextHit?_bounds hhit
    have hend : ¬ start < ctx.stop := by
      intro hlt
      rw [toCourse_skipChar hlt] at hdone
      exact hgoes hsame hdone
    obtain rfl : stop = start := Nat.le_antisymm hle hstart
    obtain rfl : stop = ctx.stop := Nat.le_antisymm hstop (Nat.not_lt.1 hend)
    exact ⟨hit, hne, hhit⟩
  have hsteps : Steps ctx ctx.inside s (s.takeStep ctx) := steps_iff.2 rfl
  generalize s.takeStep ctx = t at hsteps ends
  cases hsteps with
  | ended none => exact .inl none
  | @lost index start stop hit none =>
    have hfits := framed.hit_fits hit
    rw [Hit.fits, decide_eq_true_eq] at hfits
    exact absurd hfits (Nat.not_lt.2 (List.getElem?_eq_none_iff.1 none))
  | @rule index start stop rule _ hit found takes =>
    cases takes with
    | skip empty =>
      exact .inr (hempty (t := s.record (.skippedEmptyOpening (ctx.source.byte start))) hit
        (by simp) empty rfl ends)
    | refuse => exact (hgoes (by rw [toCourse_refuse]) ends).elim
    | enter => exact (hgoes (by rw [done_enterScope, done_arrive]) ends).elim
    | single => exact (hgoes (by rw [toCourse_takeSingle, done_arrive]) ends).elim
  | @close start stop hit =>
    obtain ⟨frame, stack, hs⟩ := List.exists_cons_of_ne_nil (opened_of_closing hit)
    exact (hgoes (by rw [toCourse_closeScope ctx hs]) ends).elim
  | @illegal start stop hit =>
    by_cases hlt : start < stop
    · exact (hgoes (by rw [toCourse_markIllegal hlt]) ends).elim
    · rw [markIllegal_of_le (Nat.not_lt.1 hlt)] at ends
      exact .inr (hempty hit (by simp) (Nat.not_lt.1 hlt) rfl ends)

/-- Inside a scope of a compiled grammar what comes next is told candidate by candidate. -/
theorem findsFirst_of_stack {spec : GrammarSpec} {library : Library}
    (compiled : spec.compile library = .ok ctx.grammar)
    (alone : ∀ rule, Rule.Among ctx.grammar.rules rule → rule.StandsAlone)
    (belongs : ∀ frame ∈ s.stack, frame.BelongsTo ctx.grammar) (hs : s.stack = frame :: stack) :
    s.FindsFirst [] ctx := by
  have hframe := belongs frame (hs ▸ List.mem_cons_self ..)
  have hchecked : ∀ rule, Rule.Among ctx.grammar.rules rule → rule.Checked := fun rule =>
    Compile.checked_of_compile (Compile.compiles_of_compile compiled).rules
  have hpatterns : s.patterns [] ctx = frame.rule.alternatives := by
    unfold patterns rules
    rw [hs]
    rfl
  have hscanner : s.scanner ctx = frame.rule.scanner := by
    unfold scanner
    rw [hs]
  refine findsFirst_of_build? ?_ ?_ belongs
  · rw [hpatterns, hscanner]
    exact (hchecked _ hframe.among).scanner hframe.opensScope
  · rw [hpatterns]
    exact Rule.standsAlone_alternatives hchecked alone hframe.among

/-- What closes a scope is the leftmost match of its own end. -/
theorem FindsFirst.match?_of_closing (finds : s.FindsFirst [] ctx) (hs : s.stack = frame :: stack)
    {c : Candidate} (hc : frame.closers = [c])
    (hit : s.nextHit? ctx = some (.closing, first, last)) :
    c.match? ctx.haystack s.cursor = some (first, last) := by
  obtain ⟨before, found, after, hall, hhit, hmatch, -, -⟩ :=
    finds.earliest.comesFirst .closing first last hit
  have hmem : found ∈ s.candidates [] ctx := hall ▸ by simp
  unfold candidates at hmem
  rw [hs] at hmem
  simp only [hc, List.mem_append, List.mem_singleton] at hmem
  rcases hmem with hmem | rfl
  · obtain ⟨a, ha, rfl⟩ := List.mem_map.1 hmem
    obtain ⟨i, hi, rfl⟩ := List.mem_mapIdx.1 ha
    cases hhit
  · exact hmatch

theorem mem_candidates (hs : s.stack = frame :: stack) {c : Candidate} (hc : frame.closers = [c]) :
    c ∈ s.candidates [] ctx := by
  unfold candidates
  rw [hs]
  simp [hc]

/-- Where nothing is found, or something at the end of the region only, the end of the scope is not
met in front of that. -/
theorem FindsFirst.match?_of_late (finds : s.FindsFirst [] ctx) (hs : s.stack = frame :: stack)
    {c : Candidate} (hc : frame.closers = [c])
    (hclosing : ∀ h p, frame.closing? h p = c.match? h p) {hit : Hit}
    (late : s.nextHit? ctx = some (hit, ctx.stop, ctx.stop)) :
    c.match? ctx.haystack s.cursor = none ∨
      c.match? ctx.haystack s.cursor = some (ctx.stop, ctx.stop) := by
  cases hmatch : c.match? ctx.haystack s.cursor with
  | none => exact .inl rfl
  | some range =>
    have hle := (finds.earliest.comesFirst hit _ _ late).le (mem_candidates hs hc) hmatch
    have hbounds := Frame.closing?_bounds ((hclosing _ _).trans hmatch)
    rw [Context.stop_haystack] at hbounds
    refine .inr (congrArg some (Prod.ext ?_ ?_)) <;> simp only <;> omega

/-- A run that ends with no scope open has closed every scope that it has opened. -/
theorem StillOpen.exists_closing (still : StillOpen ctx s (s.frame ctx rule start stop) t)
    (going : t.done = false) :
    (∃ first last, s.ClosedBy ctx rule start stop first last) ∨
      ∃ last ∈ t.trail ctx, (last.takeStep ctx).done = true ∧ last.stack ≠ [] := by
  fun_induction t.trail ctx with
  | case1 t hdone => simp [hdone] at going
  | case2 t _ ih =>
    rcases still.emptied.next going with hdone | hopen | ⟨hinnermost, left, first, last, hit⟩
    · exact .inr ⟨t.emptied, List.mem_cons_self .., hdone, fun hnil => by
        simpa [hnil] using still.emptied.suffix⟩
    · cases hdone : (t.emptied.takeStep ctx).done with
      | true =>
        exact .inr ⟨t.emptied, List.mem_cons_self .., hdone, fun hnil => by
          simpa [hnil] using still.emptied.suffix⟩
      | false =>
        refine (ih hopen hdone).imp_right ?_
        rintro ⟨last, hlast, hends⟩
        exact ⟨last, List.mem_cons_of_mem _ hlast, hends⟩
    · exact .inl ⟨first, last, .later still.emptied going hinnermost hit left⟩

/-- Whether a run ends incomplete is told by the state from which its last step is taken. -/
theorem incomplete_drain (going : t.done = false) {last : State} (hlast : last ∈ t.trail ctx)
    (ends : (last.takeStep ctx).done = true) (found : Array Span) :
    (t.drain ctx ctx.inside found).2.outcome.incomplete =
      (t.outcome.incomplete || !last.stack.isEmpty) := by
  fun_induction t.trail ctx generalizing found with
  | case1 => cases hlast
  | case2 t _ ih =>
    have hstep : (t.emptied.takeStep ctx).outcome.incomplete =
        (t.outcome.incomplete || (t.emptied.takeStep ctx).done && !t.stack.isEmpty) :=
      incomplete_takeStep going
    rw [drain_of_going ctx.inside found going]
    rcases List.mem_cons.1 hlast with rfl | hlast
    · rw [drain_of_done (s := t.emptied.step ctx ctx.inside) ctx.inside _ ends]
      rw [ends] at hstep
      exact hstep
    · have going' : (t.emptied.takeStep ctx).done = false := by
        refine Bool.eq_false_iff.2 fun hdone => ?_
        rw [trail_of_done hdone] at hlast
        cases hlast
      rw [going'] at hstep
      refine (ih going' hlast _).trans (congrArg (· || !last.stack.isEmpty) ?_)
      rw [hstep, Bool.false_and, Bool.or_false]

end State

/-- Where the end of a scope is met first, it is met at once. -/
theorem Frame.closing?_self {frame : Frame} {h : Haystack} {p first last : Nat}
    (hc : frame.closing? h p = some (first, last)) : frame.closing? h first = some (first, last) := by
  rw [frame.closing?_eq_first?] at hc ⊢
  obtain ⟨-, hstop, hend, -⟩ := Haystack.first?_eq_some hc
  exact Haystack.first?_eq_some_iff.2 ⟨Nat.le_refl _, hstop, hend, fun r hle hlt => by omega⟩

theorem Reached.stillOpen {top ctx : Context} {start : Nat} {s t : State} {frame : Frame}
    (reached : Reached top ctx start s) (going : s.done = false)
    (still : State.StillOpen ctx s frame t) : Reached top ctx start t := by
  induction still with
  | opened => exact reached.step going
  | take still popped ih => exact ih.take popped
  | step still going stays ih => exact ih.step going

/-- A step leads on alike, whatever spans have been taken out. -/
theorem flags_drain_takeStep {s : State} (framed : s.Framed)
    (belongs : ∀ frame ∈ s.stack, frame.BelongsTo ctx.grammar) (going : s.done = false) :
    ((s.takeStep ctx).drain ctx ctx.inside #[]).2.outcome.flags =
      (s.drain ctx ctx.inside #[]).2.outcome.flags := by
  have hctx := Context.SameSearch.refl ctx
  have hinside : State.InsideSame ctx.inside ctx.inside := by
    intro e e' he
    unfold Context.inside
    rw [← he.start]
    exact flags_region he.context e.start
  have hsame : s.SameSearch s.emptied :=
    ⟨rfl, rfl, rfl, forall₂_frames framed fun frame hframe => (belongs frame hframe).opensScope, rfl⟩
  rw [State.drain_of_going ctx.inside #[] going]
  exact (hsame.step hctx hinside going).drain hctx hinside _ _

/-- Wherever highlighting has come to in the region of the whole text, it ends with the same flags. -/
theorem Reached.flags_drain {grammar : Grammar} {language? : String → Option Grammar}
    {maxDepth : Nat} {text : String} {ctx : Context} {first : Nat} {s : State}
    (reached : Reached (Highlighting.start grammar language? maxDepth text).ctx ctx first s)
    (outermost : ctx.base = 0) :
    (s.drain ctx ctx.inside #[]).2.outcome.flags =
      (Highlighting.start grammar language? maxDepth text).toHighlight.outcome.flags := by
  induction reached with
  | start => rfl
  | take reached popped ih =>
    rw [← ih outermost, State.drain_of_pop popped]
  | step reached going ih =>
    rw [← ih outermost]
    exact flags_drain_takeStep reached.placed.framed reached.belongsTo going
  | @embed ctx _ _ e reached going embeds ih =>
    have hbase := e.lt_base
    change e.base = 0 at outermost
    omega

end Scan

/-- How a highlighting ends, told by the state from which its last step is taken. -/
structure Highlighting.EndsFrom (h : Highlighting) (last : Scan.State) : Prop where
  mem : last ∈ h.state.trail h.ctx
  ends : (last.takeStep h.ctx).done = true
  /-- It is incomplete if a scope is open then. -/
  incomplete_iff : h.toHighlight.outcome.incomplete = true ↔ last.stack ≠ []
  /-- The end of the innermost of these is not met any more from where the last search begins, or it
  is met only at the end of the text, and an empty match of an inner rule hides it there. -/
  unterminated : ∀ frame outer, last.stack = frame :: outer → ∃ c, frame.closers = [c] ∧
    (c.match? h.ctx.haystack last.cursor = none ∨
      c.match? h.ctx.haystack last.cursor = some (h.ctx.stop, h.ctx.stop) ∧
        ∃ index, last.nextHit? h.ctx = some (.rule index, h.ctx.stop, h.ctx.stop))
  /-- Otherwise every scope that was opened has been closed by a match of its own end. -/
  terminated : last.stack = [] → ∀ s ∈ h.state.trail h.ctx, ∀ rule start stop,
    s.Opens h.ctx rule start stop → ∃ a b, s.ClosedBy h.ctx rule start stop a b ∧
      ∃ c, (s.frame h.ctx rule start stop).closers = [c] ∧ c.match? h.ctx.haystack a = some (a, b)

namespace Scan

variable {spec : GrammarSpec} {library : Library} {top ctx : Context} {start : Nat} {s : State}

/-- The scope that closes a run's search is closed by its own end. -/
theorem State.ClosedBy.match? (compiled : spec.compile library = .ok ctx.grammar)
    (alone : ∀ rule, Rule.Among ctx.grammar.rules rule → rule.StandsAlone)
    (reached : Reached top ctx start s) (going : s.done = false) {rule : Rule} {a b first last : Nat}
    (opens : s.Opens ctx rule a b) (closed : s.ClosedBy ctx rule a b first last) :
    ∃ c, (s.frame ctx rule a b).closers = [c] ∧ c.match? ctx.haystack first = some (first, last) := by
  obtain ⟨c, hc, hclosing⟩ := (opens.belongsTo reached.belongsTo).closing?_of_compile compiled
  suffices hmet : ∃ p, (s.frame ctx rule a b).closing? ctx.haystack p = some (first, last) by
    obtain ⟨p, hp⟩ := hmet
    exact ⟨c, hc, (hclosing _ _).symm.trans (Frame.closing?_self hp)⟩
  cases closed with
  | body embedded found => exact ⟨b, found⟩
  | @later t still _ innermost hit _ =>
    have hreached := reached.stillOpen going still
    have finds := State.findsFirst_of_stack compiled alone hreached.belongsTo innermost
    exact ⟨t.cursor, (hclosing _ _).trans (finds.match?_of_closing innermost hc hit)⟩

end Scan

/-- How the highlighting of a text ends in a compiled language: when it is incomplete, what is left
open has no end in the rest of the text, but for one that is hidden at the very end, and when it is
complete, everything was closed by its own end. -/
theorem exists_endsFrom {spec : GrammarSpec} {library : Library} {grammar : Grammar}
    (compiled : spec.compile library = .ok grammar)
    (alone : ∀ rule, Rule.Among grammar.rules rule → rule.StandsAlone)
    (language? : String → Option Grammar) (maxDepth : Nat) (text : String) :
    ∃ last, (Highlighting.start grammar language? maxDepth text).EndsFrom last := by
  generalize hstart : Highlighting.start grammar language? maxDepth text = h
  have hctx : h.ctx.grammar = grammar := by rw [← hstart]; rfl
  have hstate : h.state = Scan.State.start 0 := by rw [← hstart]; rfl
  subst hctx
  have going : h.state.done = false := by rw [hstate]; rfl
  have hreached : Scan.Reached (Highlighting.start h.ctx.grammar language? maxDepth text).ctx h.ctx 0
      h.state := by
    rw [hstart, hstate]
    exact .start
  obtain ⟨last, hlast, ends⟩ : ∃ last ∈ h.state.trail h.ctx, (last.takeStep h.ctx).done = true :=
    Scan.State.exists_last_of_trail going
  have hincomplete : ∀ u ∈ h.state.trail h.ctx, (u.takeStep h.ctx).done = true →
      h.toHighlight.outcome.incomplete = !u.stack.isEmpty := by
    intro u hu hends
    refine (Scan.State.incomplete_drain going hu hends #[]).trans ?_
    rw [hstate]
    rfl
  have hlastReached := hreached.of_mem_trail hlast
  refine ⟨last, hlast, ends, ?_, ?_, ?_⟩
  · rw [hincomplete last hlast ends]
    simp
  · intro frame outer hs
    have hframe := hlastReached.belongsTo frame (hs ▸ List.mem_cons_self ..)
    obtain ⟨c, hc, hclosing⟩ := hframe.closing?_eq
      (Compile.checked_of_compile (Compile.compiles_of_compile compiled).rules hframe.among)
    have finds := Scan.State.findsFirst_of_stack compiled alone hlastReached.belongsTo hs
    refine ⟨c, hc, ?_⟩
    rcases Scan.State.nextHit?_of_ends hlastReached.placed.framed
      (Scan.State.going_of_mem_trail hlast) ends with hnone | ⟨hit, hne, hit_eq⟩
    · exact .inl (finds.earliest.none_iff.1 hnone c (Scan.State.mem_candidates hs hc))
    · refine (finds.match?_of_late hs hc hclosing hit_eq).imp_right fun hmatch => ⟨hmatch, ?_⟩
      have hfits := hlastReached.placed.framed.hit_fits hit_eq
      rw [hs] at hfits
      cases hit with
      | rule index => exact ⟨index, hit_eq⟩
      | closing => exact absurd rfl hne
      | illegal => cases hfits
  · intro hnil s hs rule a b opens
    have hsReached := hreached.of_mem_trail hs
    have hgoing := Scan.State.going_of_mem_trail hs
    suffices hclosed : ∃ first last, s.ClosedBy h.ctx rule a b first last by
      obtain ⟨first, last, hclosed⟩ := hclosed
      exact ⟨first, last, hclosed, hclosed.match? compiled alone hsReached hgoing opens⟩
    rcases opens.closedBy_or_stillOpen with hclosed | ⟨hdone, still⟩
    · exact hclosed
    rcases still.exists_closing (hdone.trans hgoing) with hclosed | ⟨u, hu, hends, hopen⟩
    · exact hclosed
    -- A run in which the scope is open to the end would be incomplete.
    · have hcomplete := hincomplete last hlast ends
      rw [hincomplete u ((Scan.State.takeStep_trail_suffix_of_mem hs).subset hu) hends, hnil]
        at hcomplete
      simp [hopen] at hcomplete

/-- A text with a quote that nothing closes ends in one way. -/
theorem exists_endsFrom_quotes : ∃ g, GrammarSpec.quotes.compile .standard = .ok g ∧
    ∃ last, (Highlighting.start g (fun _ => none) 32 "bqa").EndsFrom last := by
  obtain ⟨g, hg, alone⟩ := Compile.compile_quotes
  exact ⟨g, hg, exists_endsFrom hg alone (fun _ => none) 32 "bqa"⟩

/-- Remarks go to the end of the line. A rule in them may match nothing. -/
def GrammarSpec.remarks : GrammarSpec where
  name := "remarks"
  rules := [{ opening := some "--", closing := some "$", inner := [{ opening := some "x*" }] }]

/-- What the grammar of remarks is compiled to. -/
structure Remarks (g : Grammar) (remark crosses : Rule) : Prop where
  compiled : GrammarSpec.remarks.compile .standard = .ok g
  rules : g.rules = [remark]
  remark : (remark.opening, remark.ending, remark.caseless, remark.language, remark.inner) =
    ("--", .pattern "$", false, none, [crosses])
  crosses : (crosses.opening, crosses.ending, crosses.caseless, crosses.inner) =
    ("x*", .single, false, [])
  scanner : Scanner.build? [⟨"--", false, .rule 0⟩] = some g.scanner

open Compile in
theorem exists_remarks : ∃ g remark crosses, Remarks g remark crosses := by
  let ctx : Context := ⟨.remarks, .standard⟩
  obtain ⟨crosses, hcrosses, hfields⟩ : ∃ rule, compileRule ctx maxReferences
      { opening := some "x*" } ((Place.root.child 0).child 0) false = .ok rule ∧
        (rule.opening, rule.ending, rule.caseless, rule.inner) = ("x*", .single, false, []) :=
    exists_compileRule maxReferences (by decide +kernel) rfl rfl (.inl rfl)
  have hscanner : (Scanner.build? [⟨crosses.opening, crosses.caseless, .rule 0⟩,
      ⟨"$", false, .closing⟩]).isSome := by
    have hc := hfields
    simp only [Prod.mk.injEq] at hc
    rw [hc.1, hc.2.2.1]
    decide +kernel
  obtain ⟨remark, hrule, hremark⟩ : ∃ rule, compileRule ctx maxReferences
      { opening := some "--", closing := some "$", inner := [{ opening := some "x*" }] }
        (Place.root.child 0) false = .ok rule ∧
      (rule.opening, rule.ending, rule.caseless, rule.language, rule.inner) =
        ("--", .pattern "$", false, none, [crosses]) :=
    exists_compileRule_around (by decide +kernel) rfl rfl hcrosses hscanner
  have hr := hremark
  simp only [Prod.mk.injEq] at hr
  have hbuild : (Scanner.build? [⟨remark.opening, remark.caseless, .rule 0⟩]).isSome := by
    rw [hr.1, hr.2.2.1]
    decide +kernel
  have hname : (Text.trim GrammarSpec.remarks.name).isEmpty = false := by decide +kernel
  have hillegal : illegalAlternatives ctx = .ok [] := rfl
  obtain ⟨g, hg, hrules, hroot⟩ := exists_compile_single hname rfl rfl rfl hrule hillegal hbuild
  rw [hr.1, hr.2.2.1] at hroot
  exact ⟨g, remark, crosses, hg, hrules, hremark, hfields, hroot⟩

namespace Remarks

variable {g : Grammar} {remark crosses : Rule} (remarks : Remarks g remark crosses)

include remarks

theorem opensScope : remark.opensScope = true := by
  have hremark := remarks.remark
  simp only [Prod.mk.injEq] at hremark
  simp [Rule.opensScope, hremark.2.1]

/-- The patterns of remarks stand alone in the patterns that are put together from them. -/
theorem standsAlone : ∀ rule, Rule.Among g.rules rule → rule.StandsAlone := by
  have hremark := remarks.remark
  have hcrosses := remarks.crosses
  simp only [Prod.mk.injEq] at hremark hcrosses
  obtain ⟨hopening, hending, -, -, hinner⟩ := hremark
  rw [remarks.rules]
  refine Rule.standsAlone_of_inner ?_ ?_
  · exact ⟨by rw [hopening]; decide +kernel, by simp [Rule.closers, hending]; decide +kernel⟩
  · rw [hinner, List.forall_mem_singleton]
    refine Rule.standsAlone_of_inner ?_ (by simp [hcrosses])
    exact ⟨by rw [hcrosses.1]; decide +kernel, by simp [Rule.closers, hcrosses.2.1]⟩

/-- Outside of remarks the opening of one is found. -/
theorem find?_opening : g.scanner.find? ⟨#['-', '-'], 2⟩ 0 = some (.rule 0, 0, 2) := by
  have hfind : (Scanner.build? [⟨"--", false, .rule 0⟩]).map
      (fun s => s.find? ⟨#['-', '-'], 2⟩ 0) = some (some (.rule 0, 0, 2)) := by cbv
  rw [remarks.scanner, Option.map_some, Option.some.injEq] at hfind
  exact hfind

/-- In a remark, an empty match of the rule in it is found before the end of the remark. -/
theorem find?_crosses : remark.scanner.find? ⟨#['-', '-'], 2⟩ 2 = some (.rule 0, 2, 2) := by
  have hremark := remarks.remark
  have hcrosses := remarks.crosses
  simp only [Prod.mk.injEq] at hremark hcrosses
  obtain ⟨-, hending, hcaseless, -, hinner⟩ := hremark
  have hamong : Rule.Among g.rules remark := .top (remarks.rules ▸ List.mem_singleton_self _)
  have hbuild := (Compile.checked_of_compile (Compile.compiles_of_compile remarks.compiled).rules
    hamong).scanner remarks.opensScope
  have hfind : (Scanner.build? [⟨"x*", false, .rule 0⟩, ⟨"$", false, .closing⟩]).map
      (fun s => s.find? ⟨#['-', '-'], 2⟩ 2) = some (some (.rule 0, 2, 2)) := by cbv
  simp only [Rule.alternatives, Rule.closers, Compile.openings, hinner, List.mapIdx_cons,
    List.mapIdx_nil, hcrosses, hending, hcaseless, List.cons_append, List.nil_append] at hbuild
  rw [hbuild, Option.map_some, Option.some.injEq] at hfind
  exact hfind

end Remarks

/-- An empty match of a rule inside a scope hides the end of the scope at the end of the text: the
remark is left open, though its end is met where the last search begins. -/
theorem hides_end_of_remark : ∃ g, GrammarSpec.remarks.compile .standard = .ok g ∧
    (∀ rule, Rule.Among g.rules rule → rule.StandsAlone) ∧
    let h := Highlighting.start g (fun _ => none) 32 "--"
    h.toHighlight.outcome.incomplete = true ∧ ∃ last ∈ h.state.trail h.ctx,
      (last.takeStep h.ctx).done = true ∧ last.cursor = 2 ∧ ∃ frame, last.stack = [frame] ∧
        frame.closers = [.pattern ⟨"$", false, .closing⟩] ∧
        (Candidate.pattern ⟨"$", false, .closing⟩).match? h.ctx.haystack last.cursor =
          some (2, 2) := by
  obtain ⟨g, remark, crosses, remarks⟩ := exists_remarks
  have hremark := remarks.remark
  simp only [Prod.mk.injEq] at hremark
  obtain ⟨-, hending, hcaseless, hlanguage, hinner⟩ := hremark
  let h := Highlighting.start g (fun _ => none) 32 "--"
  let start : Scan.State := .start 0
  let frame := start.frame h.ctx remark 0 2
  have opens : start.Opens h.ctx remark 0 2 :=
    Scan.State.opens_start remarks.find?_opening (by rw [remarks.rules]; rfl) Nat.two_pos
      remarks.opensScope (by decide)
  have hstep := start.toCourse_entered h.ctx remark 0 2
  rw [← opens.takeStep_of_own hlanguage] at hstep
  let last := (start.takeStep h.ctx).emptied
  have hcourse : last.toCourse = ⟨2, 2, [frame], false⟩ := hstep
  have hlast : last ∈ h.state.trail h.ctx := by
    have hdone : (start.takeStep h.ctx).done = false := by rw [hstep]; rfl
    change last ∈ start.trail h.ctx
    rw [Scan.State.trail_of_going (s := start) rfl]
    refine List.mem_cons_of_mem _ ?_
    change last ∈ (start.takeStep h.ctx).trail h.ctx
    rw [Scan.State.trail_of_going hdone]
    exact List.mem_cons_self ..
  have hhit : last.nextHit? h.ctx = some (.rule 0, 2, 2) := by
    have hclose : frame.close = none := by simp [frame, Scan.State.frame, hending]
    unfold Scan.State.nextHit?
    simp only [hcourse, Scan.Frame.literalHit?, hclose, Option.bind_none]
    exact remarks.find?_crosses
  have hfound : (last.rules h.ctx)[0]? = some crosses := by
    unfold Scan.State.rules
    simp only [hcourse]
    change remark.inner[0]? = some crosses
    rw [hinner]
    rfl
  have hends : (last.takeStep h.ctx).done = true := by
    have htake : last.takeStep h.ctx = (last.record _).skipChar h.ctx 2 :=
      Scan.State.steps_iff.1 (.rule hhit hfound (.skip (Nat.le_refl _)))
    rw [htake, Scan.State.skipChar, if_neg (show ¬ 2 < h.ctx.stop from Nat.lt_irrefl 2)]
    exact Scan.State.done_finish _ _
  have hend : (Candidate.pattern ⟨"$", false, .closing⟩).match? ⟨#['-', '-'], 2⟩ 2 = some (2, 2) := by
    change (Regex.ofRulePattern? "$" false).bind (·.find? ⟨#['-', '-'], 2⟩ 2) = some (2, 2)
    cbv
  refine ⟨g, remarks.compiled, remarks.standsAlone, ?_, last, hlast, hends, by rw [hcourse], frame,
    by rw [hcourse], ?_, ?_⟩
  · refine (Scan.State.incomplete_drain (t := start) rfl hlast hends #[]).trans ?_
    simp [hcourse]
  · simp [Scan.Frame.closers, Rule.closers, frame, Scan.State.frame, hending, hcaseless]
  · rw [hcourse]
    exact hend

end Highlighter
