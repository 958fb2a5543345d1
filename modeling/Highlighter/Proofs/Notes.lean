import Highlighter.Highlighting

/-!
What an action notes: the flags that it sets, and what it records. Text is collected, split into words
and scored without a note, so everything that is noted comes from the few actions below that note
something.
-/

namespace Highlighter

/-- The flags of an outcome: something was left open, something illegal was met, nesting was cut
off. -/
structure Flags where
  incomplete : Bool
  illegal : Bool
  depthLimited : Bool
  deriving DecidableEq

/-- An outcome without the score. -/
def Outcome.flags (o : Outcome) : Flags := ⟨o.incomplete, o.illegal, o.depthLimited⟩

namespace Scan

/-- What has been noted: the flags, and what happened, the latest first. -/
structure Notes where
  flags : Flags
  events : List Event

namespace State

def notes (s : State) : Notes := ⟨s.outcome.flags, s.events⟩

section Collecting

variable (ctx : Context) (s : State)

theorem notes_countKeyword (key : String) (relevance : Nat) :
    (s.countKeyword key relevance).notes = s.notes := by
  unfold countKeyword
  simp only
  split <;> rfl

theorem notes_flushGap (position : Nat) : (s.flushGap ctx position).notes = s.notes := by
  obtain ⟨t, plain, ht, -, hflush⟩ := exists_flushGap (P := fun t _ => t.notes = s.notes)
    ctx s position (fun _ t plain first last entry h _ _ _ _ => (notes_countKeyword ..).trans h) rfl
  rw [hflush]
  exact ht

theorem notes_arrive (rule : Rule) (start : Nat) : (s.arrive ctx rule start).notes = s.notes :=
  notes_flushGap ctx s start

theorem notes_takeSingle (rule : Rule) (start stop : Nat) :
    (s.takeSingle rule start stop).notes = s.notes := by
  unfold takeSingle
  cases rule.kind <;> rfl

end Collecting

section Noting

variable (ctx : Context) (s : State)

theorem notes_recordIf (happened : Bool) (e : Event) : (s.recordIf happened e).notes =
    ⟨s.outcome.flags, (if happened then [e] else []) ++ s.events⟩ := by
  cases happened <;> rfl

/-- A region that ends with scopes open is incomplete. -/
theorem notes_finish (going : s.done = false) : (s.finish ctx).notes =
    ⟨{ s.outcome.flags with incomplete := s.outcome.incomplete || !s.stack.isEmpty },
      (if s.stack.isEmpty then [] else [.endedOpen ctx.grammar.name s.stack.length]) ++
        s.events⟩ := by
  have hgap := notes_flushGap ctx s ctx.stop
  unfold finish
  rw [going]
  simp only [Bool.false_eq_true, ↓reduceIte, stack_flushGap]
  cases s.stack.isEmpty with
  | true =>
    refine hgap.trans ?_
    simp [notes, Outcome.flags]
  | false =>
    simp only [Bool.not_false, Bool.or_true]
    exact congrArg (fun noted => Notes.mk { noted.flags with incomplete := true }
      (.endedOpen ctx.grammar.name s.stack.length :: noted.events)) hgap

theorem notes_closeScope (start stop : Nat) : (s.closeScope ctx start stop).notes =
    ⟨s.outcome.flags, (s.stack.head?.map fun frame =>
      .closedScope frame.kind (ctx.source.byte stop)).toList ++ s.events⟩ := by
  have hgap := notes_flushGap ctx s start
  unfold closeScope
  simp only [stack_flushGap]
  cases s.stack with
  | nil => exact hgap
  | cons frame stack =>
    refine .trans ?_ (congrArg (fun noted => Notes.mk noted.flags
      (.closedScope frame.kind (ctx.source.byte stop) :: noted.events)) hgap)
    simp only
    cases frame.rule.closingOutside <;> cases frame.rule.kind.isSome <;> rfl

theorem notes_openScope (rule : Rule) (start stop : Nat) : (s.openScope ctx rule start stop).notes =
    ⟨s.outcome.flags,
      .openedScope (s.frame ctx rule start stop).kind (ctx.source.byte start) :: s.events⟩ := by
  unfold openScope
  cases rule.openingOutside <;> cases rule.kind.isSome <;> rfl

/-- Only the first of what is illegal is recorded. -/
theorem notes_markIllegal {start stop : Nat} (h : start < stop) :
    (s.markIllegal ctx start stop).notes = ⟨{ s.outcome.flags with illegal := true },
      (if s.outcome.illegal then [] else [.metIllegal ctx.grammar.name
        (ctx.source.slice start stop) (ctx.source.byte start)]) ++ s.events⟩ := by
  let t := s.recordIf (!s.outcome.illegal)
    (.metIllegal ctx.grammar.name (ctx.source.slice start stop) (ctx.source.byte start))
  have hnotes := (notes_flushGap ctx t start).trans (notes_recordIf s _ _)
  unfold markIllegal
  rw [if_neg (Nat.not_le.2 h)]
  refine (congrArg (fun noted =>
    Notes.mk { noted.flags with illegal := true } noted.events) hnotes).trans ?_
  cases s.outcome.illegal <;> rfl

/-- Only the first scope that is nested too deeply is recorded. -/
theorem notes_refuse (start stop : Nat) : (s.refuse ctx start stop).notes =
    ⟨{ s.outcome.flags with depthLimited := true },
      (if s.outcome.depthLimited then [] else [.reachedDepth ctx.grammar.name ctx.cap
        (ctx.source.byte start)]) ++ s.events⟩ := by
  unfold refuse
  cases s.outcome.depthLimited <;> rfl

/-- What an embedded region made is collected; beside that, its score is added, what happened there
happened, and of its flags the last is taken over. -/
theorem exists_adopt (kind : Kind) (inner : Inner) : ∃ emitter, s.adopt kind inner =
    { s with
      emitter
      events := inner.events ++ s.events
      outcome := { s.outcome with
        relevance := s.outcome.relevance + inner.outcome.relevance
        depthLimited := s.outcome.depthLimited || inner.outcome.depthLimited } } := by
  have hfold : ∀ (spans : List Span) (s : State), ∃ emitter, spans.foldl
      (fun s span => if span.kind = .plain ∨ span.kind = kind then
        s.text kind span.start span.stop else s.atom span.kind span.start span.stop) s =
      { s with emitter } := by
    intro spans
    induction spans with
    | nil => exact fun s => ⟨s.emitter, rfl⟩
    | cons span spans ih =>
      intro s
      rw [List.foldl_cons]
      split
      · exact ih (s.text kind span.start span.stop)
      · exact ih (s.atom span.kind span.start span.stop)
  obtain ⟨emitter, hemitter⟩ := hfold inner.spans s
  refine ⟨emitter, ?_⟩
  unfold adopt
  simp only [hemitter]

theorem notes_adopt (kind : Kind) (inner : Inner) : (s.adopt kind inner).notes =
    ⟨{ s.outcome.flags with
        depthLimited := s.outcome.depthLimited || inner.outcome.depthLimited },
      inner.events ++ s.events⟩ := by
  obtain ⟨emitter, hadopt⟩ := s.exists_adopt kind inner
  rw [hadopt]
  rfl

end Noting

end State

end Scan

end Highlighter
