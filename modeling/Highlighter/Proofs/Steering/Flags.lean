import Highlighter.Proofs.Notes

/-!
Where each action leads, and what it does to the flags. Both are told by where the highlighting
stood: nothing that is collected, no score and no kind has a say in it.
-/

namespace Highlighter.Scan.State

variable {ctx : Context} {s : State}

/-- What is left when a region ends: nothing is open any more. -/
theorem toCourse_finish (going : s.done = false) :
    (s.finish ctx).toCourse = ⟨ctx.stop, max s.gap ctx.stop, [], true⟩ := by
  have hcourse := s.toCourse_flushGap ctx ctx.stop
  unfold finish
  rw [going]
  simp only [Bool.false_eq_true, ↓reduceIte]
  split
  · rename_i hempty
    rw [stack_flushGap, List.isEmpty_iff] at hempty
    simp [flush, hcourse, hempty]
  · simp [flush, record, hcourse]

theorem flags_recordIf (s : State) (happened : Bool) (e : Event) :
    (s.recordIf happened e).outcome.flags = s.outcome.flags :=
  congrArg Notes.flags (s.notes_recordIf happened e)

theorem flags_finish (going : s.done = false) :
    (s.finish ctx).outcome.flags =
      { s.outcome.flags with incomplete := s.outcome.incomplete || !s.stack.isEmpty } :=
  congrArg Notes.flags (s.notes_finish ctx going)

theorem flags_closeScope (ctx : Context) (s : State) (start stop : Nat) :
    (s.closeScope ctx start stop).outcome.flags = s.outcome.flags :=
  congrArg Notes.flags (s.notes_closeScope ctx start stop)

theorem flags_markIllegal {start stop : Nat} (h : start < stop) :
    (s.markIllegal ctx start stop).outcome.flags = { s.outcome.flags with illegal := true } :=
  congrArg Notes.flags (s.notes_markIllegal ctx h)

theorem flags_arrive (ctx : Context) (s : State) (rule : Rule) (start : Nat) :
    (s.arrive ctx rule start).outcome.flags = s.outcome.flags :=
  congrArg Notes.flags (s.notes_arrive ctx rule start)

theorem flags_takeSingle (s : State) (rule : Rule) (start stop : Nat) :
    (s.takeSingle rule start stop).outcome.flags = s.outcome.flags :=
  congrArg Notes.flags (s.notes_takeSingle rule start stop)

theorem flags_refuse (ctx : Context) (s : State) (start stop : Nat) :
    (s.refuse ctx start stop).outcome.flags = { s.outcome.flags with depthLimited := true } :=
  congrArg Notes.flags (s.notes_refuse ctx start stop)

theorem flags_openScope (ctx : Context) (s : State) (rule : Rule) (start stop : Nat) :
    (s.openScope ctx rule start stop).outcome.flags = s.outcome.flags :=
  congrArg Notes.flags (s.notes_openScope ctx rule start stop)

/-- Of the flags of an embedded region only the last is taken over. -/
theorem flags_adopt (s : State) (kind : Kind) (inner : Inner) :
    (s.adopt kind inner).outcome.flags =
      { s.outcome.flags with
        depthLimited := s.outcome.depthLimited || inner.outcome.depthLimited } :=
  congrArg Notes.flags (s.notes_adopt kind inner)

end Highlighter.Scan.State
