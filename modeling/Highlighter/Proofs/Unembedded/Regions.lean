import Highlighter.Proofs.DepthCap
import Highlighter.Proofs.Granularity.Replay
import Highlighter.Proofs.Scopes.AsOpened
import Highlighter.Proofs.Scopes.Ends
import Highlighter.Proofs.Unembedded.Steps

/-!
A language that is not found leaves plain text. The step that opens a scope whose text is in such a
language looks for the end of the scope at once, collects the text in front of it, and closes the
scope. With the grammar that names no language the same is done in two steps: the scope is opened,
and its end is what comes next in it. Both come to the same spans and to the same outcome, also where
the scope has no end.
-/

namespace Highlighter

/-- What comes first of one candidate is its match. -/
theorem Candidate.Earliest.single {h : Haystack} {p : Nat} {c : Candidate}
    {found : Option (Hit × Nat × Nat)} (e : Candidate.Earliest h p [c] found) :
    found = (c.match? h p).map (c.hit, ·) := by
  cases found with
  | none => rw [e.none_iff.1 rfl c (List.mem_singleton_self c), Option.map_none]
  | some range =>
    obtain ⟨hit, start, stop⟩ := range
    obtain ⟨before, found, after, hall, rfl, hmatch, -⟩ := e.comesFirst hit start stop rfl
    have hmem : found ∈ [c] := hall ▸ List.mem_append_right _ (List.mem_cons_self ..)
    cases List.mem_singleton.1 hmem
    rw [hmatch, Option.map_some]

namespace Scan

theorem Frame.hit_of_mem_closers {frame : Frame} {c : Candidate} (h : c ∈ frame.closers) :
    c.hit = .closing := by
  unfold Frame.closers Rule.closers at h
  rcases List.mem_append.1 h with h | h
  · obtain ⟨a, ha, rfl⟩ := List.mem_map.1 h
    split at ha
    · cases List.mem_singleton.1 ha
      rfl
    · cases ha
    · cases ha
  · obtain ⟨text, -, rfl⟩ := List.mem_map.1 h
    rfl

namespace State

/-- The state with some spans in front of what has been collected. -/
def behind (taken : List Span) (s : State) : State := { s with emitter := s.emitter.behind taken }

variable {ctx ctx' : Context} {s t : State} {frame : Frame} {stack : List Frame} {first last : Nat}

section Behind

variable (taken : List Span)

theorem emptied_behind (s : State) : s.emptied.behind s.emitter.ready = s := by
  simp [behind, emptied, Emitter.behind]

theorem text_behind (s : State) (kind : Kind) (start stop : Nat) :
    (s.behind taken).text kind start stop = (s.text kind start stop).behind taken := by
  simp [behind, text]

theorem flushIf_behind (s : State) (cut : Bool) :
    (s.behind taken).flushIf cut = (s.flushIf cut).behind taken := by
  cases cut
  · rfl
  · simp [behind, flushIf, flush]

/-- Spans in front of what has been collected are taken out first. -/
theorem drain_behind (inside : Embedding ctx → Inner) (found : Array Span) (s : State) :
    (s.behind taken).drain ctx inside found = s.drain ctx inside (found ++ taken.toArray) := by
  have hready : (found ++ taken.toArray) ++ s.emitter.ready.toArray =
      found ++ (s.behind taken).emitter.ready.toArray := by
    simp [behind, Emitter.behind, Array.append_assoc]
  cases hdone : s.done with
  | true =>
    rw [drain_of_done inside _ hdone, hready]
    exact drain_of_done (s := s.behind taken) inside found hdone
  | false =>
    rw [drain_of_going inside _ hdone, hready]
    exact drain_of_going (s := s.behind taken) inside found hdone

theorem flushGap_behind (hs : s.stack = frame :: stack) (position : Nat) :
    (s.behind taken).flushGap ctx position = (s.flushGap ctx position).behind taken := by
  rw [flushGap_inside hs, flushGap_inside (s := s.behind taken) hs, text_behind]
  rfl

theorem closeScope_behind (hs : s.stack = frame :: stack) (first last : Nat) :
    (s.behind taken).closeScope ctx first last = (s.closeScope ctx first last).behind taken := by
  unfold closeScope
  rw [flushGap_behind taken hs]
  generalize s.flushGap ctx first = t
  dsimp only
  rw [show (t.behind taken).stack = t.stack from rfl]
  cases t.stack with
  | nil => rfl
  | cons frame stack =>
    have hstack : (t.behind taken).withStack stack = (t.withStack stack).behind taken := rfl
    simp only [hstack, text_behind, flushIf_behind]
    split <;> rfl

end Behind

/-- A scope is closed behind the text in it, whether that has been collected or not. -/
theorem closeScope_text (ctx : Context) (hs : s.stack = frame :: stack) (h : s.gap ≤ first)
    (last : Nat) :
    ((s.text frame.kind s.gap first).advance first).closeScope ctx first last =
      s.closeScope ctx first last := by
  have hcollected : ((s.text frame.kind s.gap first).advance first).flushGap ctx first =
      (s.text frame.kind s.gap first).advance first := flushGap_of_le (Nat.le_refl first)
  unfold closeScope
  rw [hcollected, flushGap_inside hs, Nat.max_eq_right h]
  simp only [advance, text, hs]
  cases frame.rule.closingOutside <;> cases frame.rule.kind <;> rfl

/-- A closing in the next step may as well be made before the spans are taken out. -/
theorem drain_of_closing (going : s.done = false) (hs : s.stack = frame :: stack)
    (closes : s.emptied.takeStep ctx = s.emptied.closeScope ctx first last) (found : Array Span) :
    s.drain ctx ctx.inside found = (s.closeScope ctx first last).drain ctx ctx.inside found := by
  have hclose : s.closeScope ctx first last =
      (s.emptied.closeScope ctx first last).behind s.emitter.ready := by
    rw [← closeScope_behind (s := s.emptied) _ hs, emptied_behind]
  rw [drain_of_going ctx.inside found going, hclose, drain_behind, ← closes]
  rfl

/-- A scope that is open at the end of the region is told of. -/
theorem outcome_finish (going : s.done = false) (hs : s.stack = frame :: stack) :
    (s.finish ctx).outcome = { s.outcome with incomplete := true } := by
  have hflush : (s.flushGap ctx ctx.stop).outcome = s.outcome := by
    rw [flushGap_inside hs]
    rfl
  unfold finish
  rw [going]
  simp only [Bool.false_eq_true, ↓reduceIte, stack_flushGap, hs, List.isEmpty_cons, hflush]
  rfl

/-- Where the next step ends the region inside a scope, the rest of the text is text of the
scope. -/
theorem drain_of_finish (ctx : Context) (going : s.done = false) (hs : s.stack = frame :: stack)
    (ends : s.emptied.takeStep ctx = s.emptied.finish ctx ∨
      ∃ e, s.emptied.takeStep ctx = (s.emptied.record e).finish ctx) (found : Array Span) :
    (s.drain ctx ctx.inside found).1 =
        found ++ (s.emitter.text frame.kind s.gap ctx.stop).flush.ready.toArray ∧
      (s.drain ctx ctx.inside found).2.outcome = { s.outcome with incomplete := true } := by
  have hfinish : ∀ t : State, t.toCourse = s.toCourse → (t.finish ctx).done = true ∧
      (t.finish ctx).emitter = (t.emitter.text frame.kind s.gap ctx.stop).flush ∧
      (t.finish ctx).outcome = { t.outcome with incomplete := true } := by
    intro t hcourse
    have going' : t.done = false := by rw [hcourse, going]
    have hs' : t.stack = frame :: stack := by rw [hcourse, hs]
    have hgap : t.gap = s.gap := by rw [hcourse]
    exact ⟨done_finish ctx t, by rw [emitter_finish going', flushGap_inside hs', text, hgap],
      outcome_finish going' hs'⟩
  have hend : (s.emptied.takeStep ctx).done = true ∧ (s.emptied.takeStep ctx).emitter =
      (s.emptied.emitter.text frame.kind s.gap ctx.stop).flush ∧
      (s.emptied.takeStep ctx).outcome = { s.outcome with incomplete := true } := by
    rcases ends with h | ⟨e, h⟩
    · rw [h]
      exact hfinish s.emptied rfl
    · rw [h]
      exact hfinish (s.emptied.record e) rfl
  have hemitter : (s.emitter.text frame.kind s.gap ctx.stop).flush =
      (s.emptied.takeStep ctx).emitter.behind s.emitter.ready := by
    rw [hend.2.1, ← Emitter.flush_behind, ← Emitter.text_behind]
    exact congrArg (fun t : State => (t.emitter.text _ _ _).flush) (emptied_behind s).symm
  rw [drain_of_going ctx.inside found going, hemitter,
    drain_of_done (s := s.emptied.step ctx ctx.inside) ctx.inside _ hend.1]
  refine ⟨?_, hend.2.2⟩
  simp [Emitter.behind, Array.append_assoc, takeStep]

section Missing

variable {rule : Rule} {language : String} {start stop : Nat}

/-- A step that opens a scope whose language is not found closes it at its end. If it has none, the
rest of the region is text of the scope. -/
theorem Opens.takeStep_of_missing (opens : s.Opens ctx rule start stop)
    (embedded : rule.language = some language) (missing : ctx.language? language = none) :
    s.takeStep ctx =
      match (s.frame ctx rule start stop).closing? ctx.haystack stop with
      | some (first, last) =>
        ((s.entered ctx rule start stop).record (.missedLanguage language)).closeScope ctx
          first last
      | none => (((s.entered ctx rule start stop).record (.missedLanguage language)).text
          (s.frame ctx rule start stop).kind stop ctx.stop).advance ctx.stop := by
  have hcourse := s.toCourse_entered ctx rule start stop
  have hgap : (s.entered ctx rule start stop).gap = stop := by rw [hcourse]
  cases hclosing : (s.frame ctx rule start stop).closing? ctx.haystack stop with
  | none => exact opens.takeStep_of_unclosed embedded (.unknown missing) hclosing
  | some range =>
    have hclose := closeScope_text ctx
      (s := (s.entered ctx rule start stop).record (.missedLanguage language))
      (congrArg Course.stack hcourse) (hgap ▸ (Frame.closing?_bounds hclosing).1) range.2
    rw [toCourse_record, hgap] at hclose
    exact (opens.takeStep_of_closed embedded (.unknown missing) hclosing).trans hclose

/-- In the scope of a rule written without the language of its text nothing comes but its end. -/
theorem nextHit?_unembedded {g : Grammar} (checked : ∀ rule, Rule.Among g.rules rule → rule.Checked)
    (alone : ∀ rule, Rule.Among g.rules rule → rule.StandsAlone) (belongs : frame.BelongsTo g)
    (embedded : frame.rule.language = some language) (hs : t.stack = frame.unembedded :: stack) :
    t.nextHit? ctx = (frame.closing? ctx.haystack t.cursor).map (.closing, ·) := by
  have hrule := Rule.unembedded_of_some embedded
  have halone := Rule.standsAlone_alternatives checked alone belongs.among
  have hbuilt := (checked _ belongs.among).scanner belongs.opensScope
  obtain ⟨scanner, hscanner⟩ := Option.isSome_iff_exists.1
    (Rule.isSome_build?_closers halone (Option.isSome_of_eq_some hbuilt))
  have hrules : t.rules ctx = [] := by
    unfold rules
    rw [hs]
    exact congrArg Rule.inner hrule
  have hclosers : frame.unembedded.rule.closers = frame.rule.closers := by
    unfold Frame.unembedded
    rw [hrule]
    rfl
  have hpatterns : t.patterns [] ctx = frame.rule.closers := by
    unfold patterns
    rw [hrules, hs]
    exact hclosers
  have hcandidates : t.candidates [] ctx = frame.closers := by
    unfold candidates
    rw [hrules, hs]
    unfold Frame.closers
    rw [← hclosers]
    rfl
  have hfound : t.scanner ctx = scanner := by
    unfold State.scanner
    rw [hs]
    exact (congrArg Rule.scanner hrule).trans (by rw [hscanner, Option.getD_some])
  have hearliest : Candidate.Earliest ctx.haystack t.cursor (t.candidates [] ctx)
      (t.nextHit? ctx) := by
    refine earliest_of_build? ?_ ?_ <;> rw [hpatterns]
    · rw [hscanner, hfound]
    · exact fun a ha => halone a (List.mem_append_right _ ha)
  obtain ⟨c, hc, hclosing⟩ := belongs.closing?_eq (checked _ belongs.among)
  have hhit := Frame.hit_of_mem_closers (hc ▸ List.mem_singleton_self c)
  rw [hcandidates, hc] at hearliest
  rw [hearliest.single, hhit, hclosing]

/-- At the end of the region a scope that has no end there is not closed. -/
theorem takeStep_of_endless {spec : GrammarSpec} {library : Library}
    (compiled : spec.compile library = .ok ctx.grammar)
    (alone : ∀ rule, Rule.Among ctx.grammar.rules rule → rule.StandsAlone)
    (belongs : ∀ frame ∈ t.stack, frame.BelongsTo ctx.grammar) (hs : t.stack = frame :: stack)
    (hcursor : t.cursor = ctx.stop) (endless : frame.closing? ctx.haystack ctx.stop = none) :
    t.takeStep ctx = t.finish ctx ∨ ∃ e, t.takeStep ctx = (t.record e).finish ctx := by
  rcases takeStep_of_cursor hcursor with hstep | hstep | ⟨first, last, hit, -⟩
  · exact .inl hstep
  · exact .inr hstep
  · have hframe := belongs frame (hs ▸ List.mem_cons_self ..)
    obtain ⟨c, hc, hclosing⟩ := hframe.closing?_of_compile compiled
    have finds := findsFirst_of_stack compiled alone belongs hs
    have hmatch := (hclosing _ _).trans (finds.match?_of_closing hs hc hit)
    rw [hcursor, endless] at hmatch
    cases hmatch

end Missing

section Runs

variable {spec : GrammarSpec} {library : Library} (h : ctx.Unembedded ctx')
  (compiled : spec.compile library = .ok ctx.grammar)
  (alone : ∀ rule, Rule.Among ctx.grammar.rules rule → rule.StandsAlone)

include h compiled alone

section Opened

variable {rule : Rule} {language : String} {start stop : Nat} (own : s.OwnText)
  (belongs : ∀ frame ∈ s.stack, frame.BelongsTo ctx.grammar)
  (opens : s.Opens ctx rule start stop) (embedded : rule.language = some language)
  (going : s.done = false)

include own belongs opens embedded

/-- Behind the opening of the scope with the grammar that names no language, its end is what comes
next. -/
theorem nextHit?_of_opened :
    (s.unembedded.takeStep ctx').emptied.nextHit? ctx' =
      ((s.frame ctx rule start stop).closing? ctx.haystack stop).map (.closing, ·) := by
  have hcourse := s.toCourse_entered ctx rule start stop
  have hchecked : ∀ rule, Rule.Among ctx.grammar.rules rule → rule.Checked := fun rule =>
    Compile.checked_of_compile (Compile.compiles_of_compile compiled).rules
  have hcursor : (s.entered ctx rule start stop).unembedded.emptied.cursor = stop :=
    congrArg Course.cursor hcourse
  have hstack : (s.entered ctx rule start stop).unembedded.emptied.stack =
      (s.frame ctx rule start stop).unembedded :: s.stack.map Frame.unembedded :=
    congrArg (fun c : Course => c.stack.map Frame.unembedded) hcourse
  rw [own.takeStep_of_opens h opens,
    nextHit?_unembedded hchecked alone (opens.belongsTo belongs) embedded hstack, hcursor,
    h.haystack]

include going

/-- Where the scope has an end, both come to the state behind it. -/
theorem drain_of_closed {first last : Nat}
    (closed : (s.frame ctx rule start stop).closing? ctx.haystack stop = some (first, last))
    (found : Array Span) :
    (s.unembedded.takeStep ctx').drain ctx' ctx'.inside found =
      (s.takeStep ctx).unembedded.drain ctx' ctx'.inside found := by
  have hcourse := s.toCourse_entered ctx rule start stop
  have hnext := nextHit?_of_opened h compiled alone own belongs opens embedded
  have hopened := own.takeStep_of_opens h opens
  have hdone : (s.entered ctx rule start stop).unembedded.done = false := by
    rw [done_unembedded, hcourse, going]
  have hstack : (s.entered ctx rule start stop).unembedded.stack =
      (s.frame ctx rule start stop).unembedded :: s.stack.map Frame.unembedded := by
    rw [stack_unembedded, hcourse]
    rfl
  rw [hopened, closed] at hnext
  rw [opens.takeStep_of_missing embedded (h.missing language), closed, hopened]
  dsimp only
  rw [unembedded_closeScope h, unembedded_record_missed]
  exact drain_of_closing hdone hstack (steps_iff.1 (.close hnext)) found

/-- Where it has none, the rest of the region is text of the scope in both. -/
theorem drain_of_endless (endless : (s.frame ctx rule start stop).closing? ctx.haystack stop = none)
    (stop_le : stop ≤ ctx.stop) (found : Array Span) :
    ((s.takeStep ctx).drain ctx ctx.inside found).1 =
        ((s.unembedded.takeStep ctx').drain ctx' ctx'.inside found).1 ∧
      ((s.takeStep ctx).drain ctx ctx.inside found).2.outcome =
        ((s.unembedded.takeStep ctx').drain ctx' ctx'.inside found).2.outcome := by
  obtain ⟨u, hu⟩ : ∃ u, s.entered ctx rule start stop = u := ⟨_, rfl⟩
  have hentered := s.toCourse_entered ctx rule start stop
  have hcourse := opens.toCourse_of_embedded embedded
  have hstep := opens.takeStep_of_missing embedded (h.missing language)
  have hnext := nextHit?_of_opened h compiled alone own belongs opens embedded
  rw [own.takeStep_of_opens h opens] at hnext ⊢
  rw [hu] at hentered hstep hnext ⊢
  rw [endless] at hcourse hstep hnext
  dsimp only at hcourse hstep
  obtain ⟨t, ht⟩ : ∃ t, s.takeStep ctx = t := ⟨_, rfl⟩
  have hbelongs : ∀ frame ∈ t.stack, frame.BelongsTo ctx.grammar :=
    ht ▸ belongsTo_step ctx.inside belongs
  rw [ht] at hcourse hstep ⊢
  have hfinish := drain_of_finish ctx (s := t) (by rw [hcourse, going]) (by rw [hcourse])
    (takeStep_of_endless (t := t.emptied) compiled alone hbelongs (congrArg Course.stack hcourse)
      (congrArg Course.cursor hcourse) (Frame.closing?_eq_none_of_le endless stop_le)) found
  have hfinish' := drain_of_finish ctx' (s := u.unembedded)
    (by rw [done_unembedded, hentered, going]) (by rw [stack_unembedded, hentered, List.map_cons])
    (.inl (steps_iff.1 (.ended hnext))) found
  -- What is collected behind the opening is collected before the end of the region, or there.
  have hemitter : t.emitter.text (s.frame ctx rule start stop).kind t.gap ctx.stop =
      u.emitter.text (s.frame ctx rule start stop).kind stop ctx.stop := by
    rw [hcourse, hstep]
    exact Emitter.text_of_le _ (Nat.le_refl ctx.stop)
  have hgap : u.unembedded.gap = stop := congrArg Course.gap hentered
  rw [hfinish.1, hfinish'.1, hfinish.2, hfinish'.2, hemitter, hgap, h.stop, hstep]
  exact ⟨rfl, rfl⟩

end Opened

/-- Runs with the two grammars side by side. -/
theorem drain_unembedded (found : Array Span) (s : State) (own : s.OwnText)
    (belongs : ∀ frame ∈ s.stack, frame.BelongsTo ctx.grammar) :
    (s.drain ctx ctx.inside found).1 = (s.unembedded.drain ctx' ctx'.inside found).1 ∧
      (s.drain ctx ctx.inside found).2.outcome =
        (s.unembedded.drain ctx' ctx'.inside found).2.outcome := by
  fun_induction s.drain ctx ctx.inside found with
  | case1 found s found' hdone =>
    rw [drain_of_done (s := s.unembedded) ctx'.inside found hdone]
    exact ⟨rfl, rfl⟩
  | case2 found s found' hdone ih =>
    have going : s.emptied.done = false := Bool.eq_false_iff.2 hdone
    have hown : s.emptied.OwnText := own
    have hbelongs : ∀ frame ∈ (s.emptied.takeStep ctx).stack, frame.BelongsTo ctx.grammar :=
      belongsTo_step ctx.inside belongs
    rw [drain_of_going (s := s.unembedded) ctx'.inside found going]
    change ((s.emptied.takeStep ctx).drain ctx ctx.inside found').1 =
        ((s.emptied.unembedded.takeStep ctx').drain ctx' ctx'.inside found').1 ∧
      ((s.emptied.takeStep ctx).drain ctx ctx.inside found').2.outcome =
        ((s.emptied.unembedded.takeStep ctx').drain ctx' ctx'.inside found').2.outcome
    by_cases plain : ∀ rule start stop, s.emptied.Opens ctx rule start stop → rule.language = none
    · rw [← hown.takeStep h plain]
      exact ih (hown.takeStep_ownText plain) hbelongs
    · obtain ⟨rule, start, stop, opens, hlanguage⟩ : ∃ rule start stop,
          s.emptied.Opens ctx rule start stop ∧ rule.language ≠ none := by
        simpa using plain
      obtain ⟨language, embedded⟩ := Option.ne_none_iff_exists'.1 hlanguage
      cases hclosing : (s.emptied.frame ctx rule start stop).closing? ctx.haystack stop with
      | none =>
        exact drain_of_endless h compiled alone hown belongs opens embedded going hclosing
          opens.bounds.2.2 found'
      | some range =>
        have hcourse := opens.toCourse_of_embedded embedded
        rw [hclosing] at hcourse
        rw [drain_of_closed h compiled alone hown belongs opens embedded going hclosing found']
        refine ih (fun frame hframe => ?_) hbelongs
        rw [State.takeStep] at hcourse
        rw [hcourse] at hframe
        exact hown frame hframe

end Runs

end State

/-- Regions in the two grammars come to the same spans and to the same outcome. -/
theorem region_unembedded {ctx ctx' : Context} {spec : GrammarSpec} {library : Library}
    (h : ctx.Unembedded ctx') (compiled : spec.compile library = .ok ctx.grammar)
    (alone : ∀ rule, Rule.Among ctx.grammar.rules rule → rule.StandsAlone) (start : Nat) :
    (region ctx start).spans = (region ctx' start).spans ∧
      (region ctx start).outcome = (region ctx' start).outcome := by
  have hnone : ∀ {P : Frame → Prop}, ∀ frame ∈ (State.start start).stack, P frame :=
    fun _ hframe => nomatch hframe
  obtain ⟨hspans, houtcome⟩ :=
    State.drain_unembedded h compiled alone #[] (State.start start) hnone hnone
  rw [region_eq, region_eq]
  exact ⟨congrArg Array.toList hspans, houtcome⟩

end Scan

/-- Passages between two marks are in a language of their own. Where that is found, the rule for
what is in a passage has no say. -/
def GrammarSpec.passages : GrammarSpec where
  name := "passages"
  rules := [
    { label := some .string, opening := some "<", closing := some ">",
      inner := [{ opening := some "x*" }], language := some "other" }]

open Compile in
theorem Compile.compile_passages : ∃ g, GrammarSpec.passages.compile .standard = .ok g ∧
    ∀ rule, Rule.Among g.rules rule → rule.StandsAlone := by
  let ctx : Context := ⟨.passages, .standard⟩
  obtain ⟨crosses, hcrosses, hfields⟩ : ∃ rule, compileRule ctx maxReferences
      { opening := some "x*" } ((Place.root.child 0).child 0) false = .ok rule ∧
        (rule.opening, rule.ending, rule.caseless, rule.inner) = ("x*", .single, false, []) :=
    exists_compileRule maxReferences (by decide +kernel) rfl rfl (.inl rfl)
  simp only [Prod.mk.injEq] at hfields
  have hscanner : (Scanner.build? [⟨crosses.opening, crosses.caseless, .rule 0⟩,
      ⟨">", false, .closing⟩]).isSome := by
    rw [hfields.1, hfields.2.2.1]
    decide +kernel
  obtain ⟨passage, hrule, hpassage⟩ : ∃ rule, compileRule ctx maxReferences
      { label := some .string, opening := some "<", closing := some ">",
        inner := [{ opening := some "x*" }], language := some "other" }
        (Place.root.child 0) false = .ok rule ∧
      (rule.opening, rule.ending, rule.caseless, rule.language, rule.inner) =
        ("<", .pattern ">", false, some "other", [crosses]) :=
    exists_compileRule_around (by decide +kernel) rfl rfl hcrosses hscanner
  simp only [Prod.mk.injEq] at hpassage
  have hbuild : (Scanner.build? [⟨passage.opening, passage.caseless, .rule 0⟩]).isSome := by
    rw [hpassage.1, hpassage.2.2.1]
    decide +kernel
  have hname : (Text.trim GrammarSpec.passages.name).isEmpty = false := by decide +kernel
  have hillegal : illegalAlternatives ctx = .ok [] := rfl
  obtain ⟨g, hg, hrules, -⟩ := exists_compile_single hname rfl rfl rfl hrule hillegal hbuild
  refine ⟨g, hg, ?_⟩
  rw [hrules]
  refine Rule.standsAlone_of_inner ?_ ?_
  · exact ⟨by rw [hpassage.1]; decide +kernel,
      by simp [Rule.closers, hpassage.2.1]; decide +kernel⟩
  · rw [hpassage.2.2.2.2, List.forall_mem_singleton]
    refine Rule.standsAlone_of_inner ?_ (by simp [hfields])
    exact ⟨by rw [hfields.1]; decide +kernel, by simp [Rule.closers, hfields.2.1]⟩

end Highlighter
