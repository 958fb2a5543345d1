import Highlighter.Proofs.Granularity.Replay

/-!
A whole run collects what its story draws. A step draws what it says happens in it, and a region in
which nothing is embedded is a run of such steps.
-/

namespace Highlighter

namespace Rule

theorem effectiveKind_cons (rule : Rule) (stack : List Rule) :
    effectiveKind (rule :: stack) = rule.kind.getD (effectiveKind stack) := by
  cases hk : rule.kind <;> simp [effectiveKind, hk]

theorem languages_of_mem {rules : List Rule} {rule : Rule} (h : languagesOf rules = [])
    (hrule : rule ∈ rules) : rule.languages = [] := by
  induction rules with
  | nil => cases hrule
  | cons first rest ih =>
    rw [languagesOf, List.append_eq_nil_iff] at h
    rcases List.mem_cons.1 hrule with rfl | hrule
    · exact h.1
    · exact ih h.2 hrule

/-- Where no language is named, no rule names one. -/
theorem Among.languages_eq_nil {rules : List Rule} {rule : Rule} (h : languagesOf rules = [])
    (hrule : Among rules rule) : rule.language = none ∧ languagesOf rule.inner = [] := by
  have hnone : ∀ {rule : Rule}, rule.languages = [] →
      rule.language = none ∧ languagesOf rule.inner = [] := by
    intro rule hrule
    cases rule
    simpa [languages] using hrule
  induction hrule with
  | top mem => exact hnone (languages_of_mem h mem)
  | inner outer mem ih => exact hnone (languages_of_mem ih.2 mem)

theorem Among.sound {rules : List Rule} {rule : Rule} (h : ∀ rule ∈ rules, rule.Sound)
    (hrule : Among rules rule) : rule.Sound := by
  induction hrule with
  | top mem => exact h _ mem
  | inner outer mem ih => exact ih.inner _ mem

end Rule

namespace Scan

namespace State

variable {ctx : Context} {s t : State} {start stop : Nat}

/-- A step, told by what happens in it: that is drawn, and at the end of the region also the text
behind it. -/
structure Plays (ctx : Context) (s t : State) (incidents : List Incident) : Prop where
  ordered : Incident.Ordered incidents s.gap t.gap
  labelled : Labelled t.stack
  drawn : t.done = false → t.canvas = incidents.foldl Canvas.draw s.canvas
  ended : t.done = true →
    t.emitter = ((incidents.foldl Canvas.draw s.canvas).reach ctx.stop).emitter.flush

/-- A match is drawn behind what has been passed over. -/
theorem plays_of_match (i : Incident) {stack : List Frame} (h : Labelled s.stack)
    (hgap : s.gap ≤ i.start) (hle : i.start ≤ i.stop)
    (hne : i.mayBeEmpty = false → i.start < i.stop)
    (hcourse : t.toCourse = ⟨i.stop, i.stop, stack, false⟩)
    (hstack : stack.map Frame.rule = i.turn (s.stack.map Frame.rule)) (hlabelled : Labelled stack)
    (hemitter : t.emitter = (s.flushGap ctx i.start).canvas.match? i) :
    Plays ctx s t (s.keywords ctx i.start ++ [i]) where
  ordered := by
    rw [hcourse]
    exact Incident.ordered_append.2
      ⟨i.start, ordered_keywords hgap, Nat.le_refl _, hle, hne, Nat.le_refl _⟩
  labelled := by rwa [hcourse]
  drawn := by
    intro _
    have hturn : ((s.keywords ctx i.start).foldl Canvas.draw s.canvas).stack =
        s.stack.map Frame.rule := Canvas.stack_draw turn_of_mem_keywords
    rw [List.foldl_append, List.foldl_cons, List.foldl_nil, Canvas.draw,
      ← canvas_flushGap h ctx i.start, hturn, ← hstack, ← hemitter]
    simp [canvas, hcourse]
  ended := by simp [hcourse]

theorem plays_finish {first : Nat} (h : Labelled s.stack) (hcovers : Covers ctx first s)
    (hdone : s.done = false) : Plays ctx s (s.finish ctx) (s.keywords ctx ctx.stop) where
  ordered := by
    rw [gap_finish hcovers hdone]
    exact ordered_keywords (Nat.le_trans hcovers.gap_le_cursor hcovers.cursor_le_stop)
  labelled := by
    unfold finish
    rw [hdone]
    simp only [Bool.false_eq_true, ↓reduceIte]
    split
    · exact s.stack_flushGap ctx ctx.stop ▸ h
    · trivial
  drawn := by simp [done_finish]
  ended := by
    intro _
    rw [emitter_finish hdone, ← canvas_flushGap h]
    rfl

theorem plays_skipChar {first : Nat} (h : Labelled s.stack) (hcovers : Covers ctx first s)
    (hdone : s.done = false) (position : Nat) :
    Plays ctx s (s.skipChar ctx position) (s.passing ctx position) := by
  unfold skipChar passing
  split
  · exact ⟨Nat.le_refl _, h, fun _ => rfl, fun h => by simp [hdone] at h⟩
  · exact plays_finish h hcovers hdone

theorem emitter_closeScope {frame : Frame} {stack : List Frame} (hs : s.stack = frame :: stack)
    (h : Labelled (frame :: stack)) (start stop : Nat) :
    (s.closeScope ctx start stop).emitter =
      (s.flushGap ctx start).canvas.match? (.closed frame.rule start stop) := by
  have hflush := (s.stack_flushGap ctx start).trans hs
  unfold closeScope
  generalize s.flushGap ctx start = u at hflush
  have hkind : u.canvas.kind = frame.kind := by
    rw [kind_canvas (hflush ▸ h), kind, hflush]
  have houter : Rule.effectiveKind u.canvas.stack.tail = (u.withStack stack).kind := by
    rw [← kind_canvas (s := u.withStack stack) h.2]
    simp [Canvas.kind, canvas, withStack, hflush]
  simp only [hflush, Canvas.match?, hkind, houter]
  cases frame.rule.closingOutside <;> cases frame.rule.kind.isSome <;> rfl

theorem plays_closeScope {frame : Frame} {stack : List Frame} (hs : s.stack = frame :: stack)
    (h : Labelled s.stack) (hdone : s.done = false) (hgap : s.gap ≤ start) (hle : start ≤ stop) :
    Plays ctx s (s.closeScope ctx start stop) [.closed frame.rule start stop] := by
  have hkeywords : s.keywords ctx start = [] := by simp [keywords, hs]
  have hcourse := toCourse_closeScope ctx hs start stop
  rw [hdone] at hcourse
  rw [hs] at h
  have hplays : Plays ctx s (s.closeScope ctx start stop)
      (s.keywords ctx start ++ [.closed frame.rule start stop]) :=
    plays_of_match (.closed frame.rule start stop) (hs ▸ h) hgap hle (fun hne => nomatch hne)
      hcourse (by simp [Incident.turn, hs]) h.2 (emitter_closeScope hs h start stop)
  rwa [hkeywords] at hplays

theorem emitter_takeSingle (h : Labelled s.stack) (rule : Rule) (start stop : Nat) :
    (s.takeSingle rule start stop).emitter = s.canvas.match? (.single rule start stop) := by
  unfold takeSingle
  simp only [Canvas.match?, kind_canvas h]
  cases rule.kind <;> rfl

theorem plays_takeSingle {rule : Rule} (h : Labelled s.stack) (hdone : s.done = false)
    (hgap : s.gap ≤ start) (hlt : start < stop) :
    Plays ctx s ((s.arrive ctx rule start).takeSingle rule start stop)
      (s.keywords ctx start ++ [.single rule start stop]) := by
  have hcourse := (s.arrive ctx rule start).toCourse_takeSingle rule start stop
  rw [stack_arrive, done_arrive, hdone] at hcourse
  exact plays_of_match (.single rule start stop) h hgap (Nat.le_of_lt hlt) (fun _ => hlt) hcourse
    rfl h (emitter_takeSingle ((s.stack_arrive ctx rule start).symm ▸ h) rule start stop)

/-- The scope that a rule opens has the kind of the nearest rule that has one. -/
theorem kind_frame (h : Labelled s.stack) (rule : Rule) (start stop : Nat) :
    (s.frame ctx rule start stop).kind =
      Rule.effectiveKind (rule :: s.stack.map Frame.rule) := by
  have hkind : Rule.effectiveKind (s.stack.map Frame.rule) = s.kind := kind_canvas h
  rw [Rule.effectiveKind_cons, hkind]
  rfl

theorem emitter_openScope (h : Labelled s.stack) (rule : Rule) (start stop : Nat) :
    (s.openScope ctx rule start stop).emitter = s.canvas.match? (.opened rule start stop) := by
  have hinner : Rule.effectiveKind (rule :: s.canvas.stack) = (s.frame ctx rule start stop).kind :=
    (kind_frame h rule start stop).symm
  unfold openScope
  simp only [Canvas.match?, kind_canvas h, hinner]
  cases rule.openingOutside <;> cases rule.kind.isSome <;> rfl

theorem plays_openScope {rule : Rule} (h : Labelled s.stack) (hdone : s.done = false)
    (hgap : s.gap ≤ start) (hlt : start < stop) :
    Plays ctx s ((s.arrive ctx rule start).openScope ctx rule start stop)
      (s.keywords ctx start ++ [.opened rule start stop]) := by
  have hstack := s.stack_arrive ctx rule start
  have hcourse := (s.arrive ctx rule start).toCourse_openScope ctx rule start stop
  rw [hstack, done_arrive, hdone, frame_congr ctx hstack] at hcourse
  exact plays_of_match (.opened rule start stop) h hgap (Nat.le_of_lt hlt) (fun _ => hlt) hcourse
    rfl ⟨kind_frame h rule start stop, h⟩ (emitter_openScope (hstack.symm ▸ h) rule start stop)

theorem emitter_markIllegal (hstack : s.stack = []) (hlt : start < stop) :
    (s.markIllegal ctx start stop).emitter =
      (s.flushGap ctx start).canvas.match? (.illegal start stop) := by
  have hflush : ∀ (happened : Bool) (e : Event), ((s.recordIf happened e).flushGap ctx start).canvas =
      (s.flushGap ctx start).canvas := by
    intro happened e
    have hempty : Labelled [] := trivial
    rw [canvas_flushGap (by simpa [hstack] using hempty), canvas_flushGap (by rwa [hstack])]
    cases happened <;> rfl
  have hkind : (s.flushGap ctx start).canvas.kind = .plain := by
    simp [Canvas.kind, canvas, stack_flushGap, hstack, Rule.effectiveKind]
  unfold markIllegal
  rw [if_neg (Nat.not_le.2 hlt)]
  simp only [Canvas.match?, hkind]
  rw [← hflush]
  rfl

theorem plays_markIllegal {first : Nat} (hstack : s.stack = []) (hcovers : Covers ctx first s)
    (hdone : s.done = false) (hgap : s.gap ≤ start) :
    Plays ctx s (s.markIllegal ctx start stop)
      (if stop ≤ start then s.passing ctx start
        else s.keywords ctx start ++ [.illegal start stop]) := by
  have h : Labelled s.stack := by
    rw [hstack]
    trivial
  split
  · rename_i hempty
    rw [markIllegal_of_le hempty]
    exact plays_skipChar h hcovers hdone start
  · rename_i hlt
    have hlt := Nat.lt_of_not_le hlt
    have hcourse := @toCourse_markIllegal ctx s _ _ hlt
    rw [hdone] at hcourse
    exact plays_of_match (.illegal start stop) h hgap (Nat.le_of_lt hlt) (fun _ => hlt) hcourse rfl
      h (emitter_markIllegal hstack hlt)

/-- What is kept in every state of a region: what has been collected is a tiling, and every open
scope is of the grammar and has its kind. -/
structure Playing (ctx : Context) (s : State) : Prop where
  covers : ∃ first, Covers ctx first s
  labelled : Labelled s.stack
  belongs : ∀ frame ∈ s.stack, frame.BelongsTo ctx.grammar

theorem Playing.framed (h : s.Playing ctx) : s.Framed :=
  fun frame hframe => (h.belongs frame hframe).among.sound ctx.grammar.rules_sound

theorem Playing.plays_meeting (h : s.Playing ctx) (alone : Rule.languagesOf ctx.grammar.rules = [])
    (hdone : s.done = false) {index : Nat} {rule : Rule}
    (hit : s.nextHit? ctx = some (.rule index, start, stop))
    (found : (s.rules ctx)[index]? = some rule) (takes : Takes ctx ctx.inside s rule start stop t) :
    Plays ctx s t (s.meeting ctx rule start stop) := by
  obtain ⟨first, hcovers⟩ := h.covers
  obtain ⟨hcursor, -, hstop⟩ := nextHit?_bounds hit
  have hgap := Nat.le_trans hcovers.gap_le_cursor hcursor
  unfold meeting
  cases takes with
  | skip empty =>
    rw [if_pos empty]
    -- What is recorded has no say in what is drawn.
    have hskip := plays_skipChar (s := s.record (.skippedEmptyOpening (ctx.source.byte start)))
      h.labelled ⟨hcovers.collected, hcovers.gap_le_cursor, hcovers.cursor_le_stop, hcovers.ended⟩
      hdone start
    exact ⟨hskip.ordered, hskip.labelled, hskip.drawn, hskip.ended⟩
  | refuse lt opens full =>
    have hcourse := s.toCourse_refuse ctx start stop
    rw [if_neg (Nat.not_le.2 lt), if_pos opens, if_neg (Nat.not_lt.2 full)]
    refine ⟨?_, ?_, fun _ => ?_, fun h => ?_⟩
    · rw [hcourse]
      exact Nat.le_refl _
    · rw [hcourse]
      exact h.labelled
    · simp [canvas, hcourse, emitter_refuse]
    · rw [hcourse] at h
      simp [hdone] at h
  | enter lt opens room =>
    rw [if_neg (Nat.not_le.2 lt), if_pos opens, if_pos room]
    have hlanguage : rule.language = none :=
      (Rule.Among.languages_eq_nil alone
        (among_rules rfl h.belongs rule (List.mem_of_getElem? found))).1
    rw [enterScope_of_own ctx.inside hlanguage]
    exact plays_openScope h.labelled hdone hgap lt
  | single lt opens =>
    rw [if_neg (Nat.not_le.2 lt), if_neg (by simp [opens])]
    exact plays_takeSingle h.labelled hdone hgap lt

/-- A step in which nothing is embedded draws what happens in it. -/
theorem Playing.plays (h : s.Playing ctx) (alone : Rule.languagesOf ctx.grammar.rules = [])
    (hdone : s.done = false) : Plays ctx s (s.takeStep ctx) (s.incidents ctx) := by
  obtain ⟨first, hcovers⟩ := h.covers
  have hsteps : Steps ctx ctx.inside s (s.takeStep ctx) := steps_iff.2 rfl
  generalize s.takeStep ctx = t at hsteps
  unfold incidents
  cases hsteps with
  | ended none =>
    rw [none]
    exact plays_finish h.labelled hcovers hdone
  | lost hit none =>
    simp only [hit, none]
    exact plays_finish h.labelled hcovers hdone
  | rule hit found takes =>
    simp only [hit, found]
    exact h.plays_meeting alone hdone hit found takes
  | close hit =>
    obtain ⟨hcursor, hle, -⟩ := nextHit?_bounds hit
    obtain ⟨frame, stack, hs⟩ := List.exists_cons_of_ne_nil (opened_of_closing hit)
    simp only [hit, hs]
    exact plays_closeScope hs h.labelled hdone (Nat.le_trans hcovers.gap_le_cursor hcursor) hle
  | illegal hit =>
    obtain ⟨hcursor, -, -⟩ := nextHit?_bounds hit
    have hstack : s.stack = [] := by simpa [Hit.fits] using h.framed.hit_fits hit
    simp only [hit]
    exact plays_markIllegal hstack hcovers hdone (Nat.le_trans hcovers.gap_le_cursor hcursor)

theorem Playing.step (h : s.Playing ctx) (alone : Rule.languagesOf ctx.grammar.rules = [])
    (hdone : s.done = false) : (s.takeStep ctx).Playing ctx where
  covers := by
    obtain ⟨first, hcovers⟩ := h.covers
    exact ⟨first, step_covers ctx.inside_tiles hcovers hdone⟩
  labelled := (h.plays alone hdone).labelled
  belongs := belongsTo_step ctx.inside h.belongs

theorem Playing.emptied (h : s.Playing ctx) : s.emptied.Playing ctx := by
  obtain ⟨first, hcovers⟩ := h.covers
  obtain ⟨middle, -, hrest⟩ := emptied_covers hcovers
  exact ⟨⟨middle, hrest⟩, h.labelled, h.belongs⟩

/-- What happens in a region follows one another up to its end. -/
theorem ordered_story (alone : Rule.languagesOf ctx.grammar.rules = []) (h : s.Playing ctx) :
    Incident.Ordered (s.story ctx) s.gap ctx.stop := by
  fun_induction s.story ctx with
  | case1 s hdone =>
    obtain ⟨first, hcovers⟩ := h.covers
    exact Nat.le_trans hcovers.gap_le_cursor hcovers.cursor_le_stop
  | case2 s hdone ih =>
    have hdone : s.done = false := Bool.eq_false_iff.2 hdone
    exact Incident.ordered_append.2 ⟨_, (h.emptied.plays alone hdone).ordered,
      ih (h.emptied.step alone hdone)⟩

/-- What is drawn from a state on, up to the end of the region. -/
def drawing (ctx : Context) (s : State) (incidents : List Incident) : List Span :=
  ((incidents.foldl Canvas.draw s.canvas).reach ctx.stop).emitter.spans

/-- What is drawn behind a step is drawn behind what the step draws. -/
theorem Plays.drawing_eq {incidents rest : List Incident} (h : Plays ctx s t incidents)
    (hrest : t.done = true → rest = [])
    (hdone : t.done = true → t.gap = ctx.stop) :
    t.drawing ctx rest = s.drawing ctx (incidents ++ rest) := by
  unfold drawing
  cases hd : t.done with
  | false => rw [List.foldl_append, h.drawn hd]
  | true =>
    have hreach : (t.canvas.reach ctx.stop).emitter = t.emitter := by
      simp [Canvas.reach, Emitter.text, canvas, hdone hd]
    rw [hrest hd, List.append_nil, List.foldl_nil, hreach, h.ended hd, Emitter.spans_flush]

/-- Spans taken out before are in front of what is drawn. -/
theorem drawing_emptied (incidents : List Incident) :
    s.drawing ctx incidents = s.emitter.ready ++ s.emptied.drawing ctx incidents := by
  have hcanvas : s.canvas = s.emptied.canvas.behind s.emitter.ready := by
    simp [canvas, emptied, Canvas.behind, Emitter.behind]
  unfold drawing
  rw [hcanvas, Canvas.draw_behind, Canvas.reach_behind]
  exact Emitter.spans_behind ..

theorem story_of_done (hdone : s.done = true) : s.story ctx = [] := by
  rw [story, dif_pos hdone]

/-- A run collects what its story draws. -/
theorem spans_drain (alone : Rule.languagesOf ctx.grammar.rules = []) (found : Array Span)
    (h : s.Playing ctx) :
    (s.drain ctx ctx.inside found).1.toList = found.toList ++ s.drawing ctx (s.story ctx) := by
  fun_induction s.drain ctx ctx.inside found with
  | case1 found s found' hdone =>
    obtain ⟨first, hcovers⟩ := h.covers
    obtain ⟨hgap, hgrowing⟩ := hcovers.ended hdone
    rw [story_of_done hdone]
    simp [found', drawing, Canvas.reach, Emitter.text, canvas, hgap, Emitter.spans, hgrowing]
  | case2 found s found' hdone ih =>
    have hdone : s.done = false := Bool.eq_false_iff.2 hdone
    have hstep := h.emptied.step alone hdone
    obtain ⟨first, hcovers⟩ := hstep.covers
    have hstory : s.story ctx = s.incidents ctx ++ (s.emptied.takeStep ctx).story ctx := by
      rw [story, dif_neg (by simp [hdone])]
    calc
      _ = found'.toList ++ (s.emptied.takeStep ctx).drawing ctx
          ((s.emptied.takeStep ctx).story ctx) := ih hstep
      _ = found'.toList ++ s.emptied.drawing ctx (s.story ctx) := by
        rw [(h.emptied.plays alone hdone).drawing_eq story_of_done fun hd => (hcovers.ended hd).1,
          hstory]
        rfl
      _ = found.toList ++ s.drawing ctx (s.story ctx) := by
        rw [drawing_emptied (s := s)]
        simp [found']

end State

end Scan

end Highlighter
