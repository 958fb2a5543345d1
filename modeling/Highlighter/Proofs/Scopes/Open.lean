import Highlighter.Proofs.Trail

/-!
A scope from its opening to its end. An open scope stays open until a match of an end comes while no
other scope is open inside it, or until the region ends.
-/

namespace Highlighter.Scan

namespace State

variable {ctx : Context} {s t : State} {frame : Frame} {rule : Rule} {start stop : Nat}

theorem stack_skipChar (ctx : Context) (s : State) (position : Nat) :
    (s.skipChar ctx position).done = true ∨ (s.skipChar ctx position).stack = s.stack := by
  unfold skipChar
  split
  · exact .inr rfl
  · exact .inl (done_finish ctx s)

theorem done_enterScope (ctx : Context) (inside : Embedding ctx → Inner) (s : State) (rule : Rule)
    (start stop : Nat) : (s.enterScope ctx inside rule start stop).done = s.done := by
  rw [toCourse_enterScope]
  split
  · rfl
  · split <;> rfl

/-- A step ends the region, or the scopes that are open stay open, or the innermost of them is closed
at a match of an end. -/
theorem stack_takeStep (ctx : Context) (s : State) :
    (s.takeStep ctx).done = true ∨ s.stack <:+ (s.takeStep ctx).stack ∨
      ∃ frame start stop, s.nextHit? ctx = some (.closing, start, stop) ∧
        s.stack = frame :: (s.takeStep ctx).stack := by
  have hsame : ∀ {t : State}, t.stack = s.stack → s.stack <:+ t.stack := fun h => ⟨[], h.symm⟩
  have hsteps : Steps ctx ctx.inside s (s.takeStep ctx) := steps_iff.2 rfl
  generalize s.takeStep ctx = t at hsteps
  cases hsteps with
  | ended => exact .inl (done_finish ctx s)
  | lost => exact .inl (done_finish ctx s)
  | @rule index start stop rule _ hit found takes =>
    cases takes with
    | skip => exact (stack_skipChar ctx _ start).imp_right fun h => .inl (hsame h)
    | refuse => exact .inr (.inl (hsame (by rw [toCourse_refuse])))
    | enter =>
      rw [← s.stack_arrive ctx rule start]
      rcases stack_enterScope ctx ctx.inside (s.arrive ctx rule start) rule start stop with h | h
      · exact .inr (.inl ⟨[], h.symm⟩)
      · exact .inr (.inl ⟨[_], h.symm⟩)
    | single => exact .inr (.inl (hsame (by rw [toCourse_takeSingle, stack_arrive])))
  | @close start stop hit =>
    obtain ⟨frame, stack, hs⟩ := List.exists_cons_of_ne_nil (opened_of_closing hit)
    exact .inr (.inr ⟨frame, start, stop, hit, by rw [toCourse_closeScope ctx hs, hs]⟩)
  | @illegal start stop hit =>
    by_cases hlt : start < stop
    · exact .inr (.inl (hsame (by rw [toCourse_markIllegal hlt])))
    · rw [markIllegal_of_le (Nat.not_lt.1 hlt)]
      exact (stack_skipChar ctx s start).imp_right fun h => .inl (hsame h)

/-- The first match in a text opens a scope, unless no nesting at all is allowed. -/
theorem opens_start {grammar : Grammar} {language? : String → Option Grammar} {maxDepth : Nat}
    {text : String} {index : Nat}
    (hit : grammar.scanner.find? (Highlighting.start grammar language? maxDepth text).ctx.haystack 0 =
      some (.rule index, start, stop))
    (found : grammar.rules[index]? = some rule) (lt : start < stop)
    (opensScope : rule.opensScope = true) (positive : 1 ≤ maxDepth) :
    (State.start 0).Opens (Highlighting.start grammar language? maxDepth text).ctx rule start stop where
  hit := ⟨index, hit, found⟩
  start_lt_stop := lt
  opensScope := opensScope
  depth_lt_cap := by
    change 0 < min maxDepth maxDepthLimit
    exact Nat.lt_min.2 ⟨positive, by decide⟩

/-- A step that opens such a scope enters it. -/
theorem Opens.takeStep_of_own (opens : s.Opens ctx rule start stop) (own : rule.language = none) :
    s.takeStep ctx = s.entered ctx rule start stop := by
  rw [opens.takeStep_eq, enterScope_of_own ctx.inside own]
  rfl

/-- A scope whose text is in another language is left at once, if it has an end. -/
theorem Opens.toCourse_of_embedded {language : String} (opens : s.Opens ctx rule start stop)
    (embedded : rule.language = some language) :
    (s.takeStep ctx).toCourse =
      match (s.frame ctx rule start stop).closing? ctx.haystack stop with
      | some (_, last) => ⟨last, last, s.stack, s.done⟩
      | none => ⟨ctx.stop, ctx.stop, s.frame ctx rule start stop :: s.stack, s.done⟩ := by
  have hcourse := toCourse_enterScope ctx ctx.inside (s.arrive ctx rule start) rule start stop
  rw [if_neg (by simp [embedded]), stack_arrive, done_arrive,
    frame_congr ctx (s.stack_arrive ctx rule start), ← opens.takeStep_eq] at hcourse
  exact hcourse

/-- The states in which a scope is still open that a step has opened. -/
inductive StillOpen (ctx : Context) (s : State) (frame : Frame) : State → Prop
  | opened (opens : (s.takeStep ctx).stack = frame :: s.stack) :
      StillOpen ctx s frame (s.takeStep ctx)
  | take {t : State} {span : Span} {emitter : Emitter} (still : StillOpen ctx s frame t)
      (popped : t.emitter.pop? = some (span, emitter)) : StillOpen ctx s frame { t with emitter }
  | step {t : State} (still : StillOpen ctx s frame t) (going : t.done = false)
      (stays : frame :: s.stack <:+ (t.takeStep ctx).stack) :
      StillOpen ctx s frame (t.takeStep ctx)

/-- A match closes the scope that a step opens: in that step, behind the text of the scope, when that
is in another language, or in a later one. -/
inductive ClosedBy (ctx : Context) (s : State) (rule : Rule) (start stop first last : Nat) : Prop
  | body (embedded : rule.language.isSome)
      (found : (s.frame ctx rule start stop).closing? ctx.haystack stop = some (first, last))
      (left : (s.takeStep ctx).stack = s.stack)
  | later {t : State} (still : StillOpen ctx s (s.frame ctx rule start stop) t)
      (going : t.done = false) (innermost : t.stack = s.frame ctx rule start stop :: s.stack)
      (hit : t.nextHit? ctx = some (.closing, first, last))
      (left : (t.takeStep ctx).stack = s.stack)

/-- A scope is closed in the step that opens it, or it is open behind that step. -/
theorem Opens.closedBy_or_stillOpen (opens : s.Opens ctx rule start stop) :
    (∃ first last, s.ClosedBy ctx rule start stop first last) ∨
      (s.takeStep ctx).done = s.done ∧
        StillOpen ctx s (s.frame ctx rule start stop) (s.takeStep ctx) := by
  cases hlanguage : rule.language with
  | none =>
    have hcourse := s.toCourse_entered ctx rule start stop
    rw [← opens.takeStep_of_own hlanguage] at hcourse
    exact .inr ⟨by rw [hcourse], .opened (by rw [hcourse])⟩
  | some language =>
    have hcourse := opens.toCourse_of_embedded hlanguage
    cases hclosing : (s.frame ctx rule start stop).closing? ctx.haystack stop with
    | some range =>
      rw [hclosing] at hcourse
      exact .inl ⟨range.1, range.2, .body (by simp [hlanguage]) hclosing (by rw [hcourse])⟩
    | none =>
      rw [hclosing] at hcourse
      exact .inr ⟨by rw [hcourse], .opened (by rw [hcourse])⟩

theorem StillOpen.suffix (h : StillOpen ctx s frame t) : frame :: s.stack <:+ t.stack := by
  induction h with
  | opened opens => exact opens ▸ List.suffix_refl _
  | take still popped ih => exact ih
  | step still going stays ih => exact stays

theorem StillOpen.emptied (h : StillOpen ctx s frame t) : StillOpen ctx s frame t.emptied :=
  emptied_of_take (fun _ _ _ popped still => still.take popped) h

/-- An open scope stays open in a step, unless the step ends the region or closes the scope. -/
theorem StillOpen.next (h : StillOpen ctx s frame t) (going : t.done = false) :
    (t.takeStep ctx).done = true ∨ StillOpen ctx s frame (t.takeStep ctx) ∨
      t.stack = frame :: s.stack ∧ (t.takeStep ctx).stack = s.stack ∧
        ∃ first last, t.nextHit? ctx = some (.closing, first, last) := by
  rcases stack_takeStep ctx t with hdone | hsuffix | ⟨top, first, last, hit, hstack⟩
  · exact .inl hdone
  · exact .inr (.inl (h.step going (h.suffix.trans hsuffix)))
  · have hopen := h.suffix
    rw [hstack, List.suffix_cons_iff] at hopen
    rcases hopen with hclosed | hopen
    · refine .inr (.inr ⟨hstack.trans hclosed.symm, (List.cons.inj hclosed).2.symm, first, last, hit⟩)
    · exact .inr (.inl (h.step going hopen))

end State

end Highlighter.Scan
