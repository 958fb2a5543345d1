import Highlighter.Scan.Cases

/-!
How a step moves a highlighting on. What it collects has no say in that: where each action leads
is told by where the highlighting stood. A step ends the region, or it leaves less text to be
searched, or as much text and fewer open scopes.
-/

namespace Highlighter.Scan

namespace Course

theorem left_lt_of_cursor {c d : Course} {stop : Nat} (h : c.cursor < d.cursor)
    (hd : d.cursor ≤ stop) : Prod.Lex (· < ·) (· < ·) (d.left stop) (c.left stop) :=
  .left _ _ (by omega)

theorem left_lt_of_stack {c d : Course} {stop : Nat} (h : c.cursor ≤ d.cursor)
    (hs : d.stack.length < c.stack.length) :
    Prod.Lex (· < ·) (· < ·) (d.left stop) (c.left stop) := by
  rcases Nat.lt_or_eq_of_le (Nat.sub_le_sub_left h stop) with hlt | heq
  · exact .left _ _ hlt
  · unfold left
    rw [heq]
    exact .right _ hs

end Course

namespace State

theorem done_finish (ctx : Context) (s : State) : (s.finish ctx).done = true := by
  unfold finish
  split
  · assumption
  · rfl

theorem toCourse_skipChar {ctx : Context} {s : State} {position : Nat} (h : position < ctx.stop) :
    (s.skipChar ctx position).toCourse = { s.toCourse with cursor := position + 1 } := by
  simp [skipChar, h]

theorem toCourse_closeScope (ctx : Context) {s : State} {frame : Frame} {stack : List Frame}
    (hs : s.stack = frame :: stack) (start stop : Nat) :
    (s.closeScope ctx start stop).toCourse = ⟨stop, stop, stack, s.done⟩ := by
  have hflush := (s.stack_flushGap ctx start).trans hs
  have hdone : (s.flushGap ctx start).done = s.done := s.done_flushGap ctx start
  unfold closeScope
  simp only [hflush, advance]
  split <;> simp [withStack, hdone]

theorem toCourse_markIllegal {ctx : Context} {s : State} {start stop : Nat} (h : start < stop) :
    (s.markIllegal ctx start stop).toCourse = ⟨stop, stop, s.stack, s.done⟩ := by
  simp [markIllegal, Nat.not_le.2 h, advance, toCourse_flushGap]

@[simp] theorem toCourse_adopt (s : State) (kind : Kind) (inner : Inner) :
    (s.adopt kind inner).toCourse = s.toCourse := by
  unfold adopt
  simp only
  induction inner.spans generalizing s with
  | nil => rfl
  | cons span spans ih =>
    rw [List.foldl_cons, ih]
    split <;> simp

theorem CollectsBody.toCourse_eq {ctx : Context} {inside : Embedding ctx → Inner} {s t : State}
    {kind : Kind} {language : String} {start stop : Nat}
    (h : CollectsBody ctx inside s kind language start stop t) : t.toCourse = s.toCourse := by
  cases h with
  | unknown => rfl
  | adopted => exact toCourse_adopt ..
  | limited => simp
  | empty => rfl

@[simp] theorem toCourse_collectBody (ctx : Context) (inside : Embedding ctx → Inner) (s : State)
    (frame : Frame) (language : String) (opened : s.stack ≠ []) :
    (s.collectBody ctx inside frame language opened).toCourse = s.toCourse :=
  (collectsBody_collectBody ..).toCourse_eq

/-- A scope that is entered stays open, unless its text is in another language and it has an end. -/
theorem toCourse_enterScope (ctx : Context) (inside : Embedding ctx → Inner) (s : State)
    (rule : Rule) (start stop : Nat) :
    (s.enterScope ctx inside rule start stop).toCourse =
      if rule.language = none then ⟨stop, stop, s.frame ctx rule start stop :: s.stack, s.done⟩
      else match (s.frame ctx rule start stop).closing? ctx.haystack stop with
        | some (_, last) => ⟨last, last, s.stack, s.done⟩
        | none => ⟨ctx.stop, ctx.stop, s.frame ctx rule start stop :: s.stack, s.done⟩ := by
  have hopen := s.toCourse_openScope ctx rule start stop
  have henters := enters_enterScope ctx inside s rule start stop
  generalize s.enterScope ctx inside rule start stop = t at henters
  cases henters with
  | own own => rw [if_pos own, hopen]
  | @closed language body first last embedded collects found =>
    have hbody := collects.toCourse_eq.trans hopen
    have hstack : (body.advance first).stack = s.frame ctx rule start stop :: s.stack :=
      congrArg Course.stack hbody
    have hdone : (body.advance first).done = s.done := by simp [advance, hbody]
    rw [if_neg (by simp [embedded]), toCourse_closeScope ctx hstack, found, hdone]
  | unclosed embedded collects endless =>
    have hbody := collects.toCourse_eq.trans hopen
    rw [if_neg (by simp [embedded]), endless]
    simp [advance, hbody]

theorem toCourse_takeSingle (s : State) (rule : Rule) (start stop : Nat) :
    (s.takeSingle rule start stop).toCourse = ⟨stop, stop, s.stack, s.done⟩ := by
  unfold takeSingle
  simp only [advance]
  split <;> simp

theorem toCourse_refuse (ctx : Context) (s : State) (start stop : Nat) :
    (s.refuse ctx start stop).toCourse = { s.toCourse with cursor := stop } := by
  simp [refuse]

theorem toCourse_arrive (ctx : Context) (s : State) (rule : Rule) (start : Nat) :
    (s.arrive ctx rule start).toCourse = { s.toCourse with gap := max s.gap start } :=
  s.toCourse_flushGap ctx start

theorem stack_arrive (ctx : Context) (s : State) (rule : Rule) (start : Nat) :
    (s.arrive ctx rule start).stack = s.stack :=
  s.stack_flushGap ctx start

theorem done_arrive (ctx : Context) (s : State) (rule : Rule) (start : Nat) :
    (s.arrive ctx rule start).done = s.done :=
  s.done_flushGap ctx start

/-- What comes next lies behind the place from where it was searched, and inside the region. -/
theorem nextHit?_bounds {ctx : Context} {s : State} {hit : Hit} {start stop : Nat}
    (h : s.nextHit? ctx = some (hit, start, stop)) :
    s.cursor ≤ start ∧ start ≤ stop ∧ stop ≤ ctx.stop := by
  unfold nextHit? at h
  split at h
  · obtain ⟨h1, h2, h3, _⟩ := Scanner.find?_eq_some h
    exact ⟨h1, h2, h3⟩
  · rename_i frame stack hs
    have hfound : ∀ {hit start stop},
        frame.rule.scanner.find? ctx.haystack s.cursor = some (hit, start, stop) →
          s.cursor ≤ start ∧ start ≤ stop ∧ stop ≤ ctx.stop := fun hf => by
      obtain ⟨h1, h2, h3, _⟩ := Scanner.find?_eq_some hf
      exact ⟨h1, h2, h3⟩
    simp only at h
    split at h
    · rename_i hl hf
      split at h
      · cases h
        exact hfound hf
      · cases h
        exact Frame.literalHit?_bounds hl
    · rename_i hl hf
      cases h
      exact Frame.literalHit?_bounds hl
    · exact hfound h

/-- Outside all scopes nothing is closed. -/
theorem opened_of_closing {ctx : Context} {s : State} {start stop : Nat}
    (h : s.nextHit? ctx = some (.closing, start, stop)) : s.stack ≠ [] := by
  intro hs
  unfold nextHit? at h
  rw [hs] at h
  obtain ⟨_, _, _, hmem⟩ := Scanner.find?_eq_some h
  have hfit := ctx.grammar.hits_fit _ hmem
  cases hfit

variable {ctx : Context} {inside : Embedding ctx → Inner} {s t : State}

/-- A move that ends the region, or leaves less of it. -/
def Progress (ctx : Context) (c d : Course) : Prop :=
  d.done = true ∨ Prod.Lex (· < ·) (· < ·) (d.left ctx.stop) (c.left ctx.stop)

theorem skipChar_progress {position : Nat} (h : s.cursor ≤ position) :
    Progress ctx s.toCourse (s.skipChar ctx position).toCourse := by
  by_cases hp : position < ctx.stop
  · right
    rw [toCourse_skipChar hp]
    exact Course.left_lt_of_cursor (Nat.lt_succ_of_le h) hp
  · left
    rw [skipChar, if_neg hp]
    exact done_finish ctx s

theorem enterScope_progress (ctx : Context) (inside : Embedding ctx → Inner) {s : State}
    (rule : Rule) (start : Nat) {stop : Nat} (h : s.cursor < stop) (hstop : stop ≤ ctx.stop) :
    Progress ctx s.toCourse (s.enterScope ctx inside rule start stop).toCourse := by
  right
  rw [toCourse_enterScope]
  split
  · exact Course.left_lt_of_cursor h hstop
  · split
    · rename_i last found
      have hbounds := Frame.closing?_bounds found
      exact Course.left_lt_of_cursor (by simp only at hbounds ⊢; omega) hbounds.2.2
    · exact Course.left_lt_of_cursor (by simp only; omega) (Nat.le_refl _)

theorem takes_progress {rule : Rule} {start stop : Nat} (h : Takes ctx inside s rule start stop t)
    (hstart : s.cursor ≤ start) (hstop : stop ≤ ctx.stop) : Progress ctx s.toCourse t.toCourse := by
  cases h with
  | skip empty => exact skipChar_progress hstart
  | refuse lt opens full =>
    right
    rw [toCourse_refuse]
    exact Course.left_lt_of_cursor (Nat.lt_of_le_of_lt hstart lt) hstop
  | enter lt opens room =>
    have hcursor : (s.arrive ctx rule start).cursor < stop := by
      rw [toCourse_arrive]
      exact Nat.lt_of_le_of_lt hstart lt
    have hp := enterScope_progress ctx inside rule start hcursor hstop
    rw [toCourse_arrive] at hp
    exact hp
  | single lt opens =>
    right
    rw [toCourse_takeSingle]
    exact Course.left_lt_of_cursor (Nat.lt_of_le_of_lt hstart lt) hstop

theorem markIllegal_progress {start stop : Nat} (hstart : s.cursor ≤ start)
    (hstop : stop ≤ ctx.stop) :
    Progress ctx s.toCourse (s.markIllegal ctx start stop).toCourse := by
  by_cases hlt : start < stop
  · right
    rw [toCourse_markIllegal hlt]
    exact Course.left_lt_of_cursor (Nat.lt_of_le_of_lt hstart hlt) hstop
  · rw [markIllegal_of_le (Nat.not_lt.1 hlt)]
    exact skipChar_progress hstart

theorem steps_progress (h : Steps ctx inside s t) : Progress ctx s.toCourse t.toCourse := by
  cases h with
  | ended => exact .inl (done_finish ctx s)
  | lost => exact .inl (done_finish ctx s)
  | rule hit found takes =>
    obtain ⟨hstart, -, hstop⟩ := nextHit?_bounds hit
    exact takes_progress takes hstart hstop
  | @close start stop hit =>
    obtain ⟨hstart, hle, -⟩ := nextHit?_bounds hit
    obtain ⟨frame, stack, hs⟩ := List.exists_cons_of_ne_nil (opened_of_closing hit)
    right
    rw [toCourse_closeScope ctx hs start stop]
    exact Course.left_lt_of_stack (Nat.le_trans hstart hle) (by simp [hs])
  | illegal hit =>
    obtain ⟨hstart, -, hstop⟩ := nextHit?_bounds hit
    exact markIllegal_progress hstart hstop

/-- Each step ends the region, or leaves less text to be searched, or as much and fewer scopes. -/
theorem step_progress (ctx : Context) (inside : Embedding ctx → Inner) (s : State) :
    Progress ctx s.toCourse (s.step ctx inside).toCourse :=
  steps_progress (steps_iff.2 rfl)

end State

end Highlighter.Scan
