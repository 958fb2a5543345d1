import Highlighter.Scan.Progress

/-!
Highlighting a whole region, either at once or token by token. Both take the same steps:
`State.drain` goes on until the region is done, `State.next` until a token is ready.
-/

namespace Highlighter.Scan

namespace State

/-- Takes the finished spans out. -/
def emptied (s : State) : State := { s with emitter := { s.emitter with ready := [] } }

/-- What is still to come: the end of the region, and before that what is left of it. -/
def ahead (ctx : Context) (s : State) : Nat × Nat × Nat :=
  (if s.done then 0 else 1, s.left ctx.stop)

theorem step_ahead_lt (ctx : Context) (inside : Embedding ctx → Inner) {s : State}
    (h : s.done = false) :
    Prod.Lex (· < ·) (Prod.Lex (· < ·) (· < ·)) ((s.step ctx inside).ahead ctx) (s.ahead ctx) := by
  unfold ahead
  rw [h]
  cases hd : (s.step ctx inside).done with
  | true => exact .left _ _ Nat.one_pos
  | false =>
    rcases step_progress ctx inside s with hdone | hlex
    · rw [hd] at hdone
      cases hdone
    · exact .right _ hlex

/-- Steps until the region is done. `found` holds the spans taken out so far. -/
def drain (ctx : Context) (inside : Embedding ctx → Inner) (found : Array Span) (s : State) :
    Array Span × State :=
  let found := found ++ s.emitter.ready.toArray
  if _h : s.done then (found, s.emptied)
  else drain ctx inside found (s.emptied.step ctx inside)
termination_by s.ahead ctx
decreasing_by
  exact step_ahead_lt ctx inside (s := s.emptied) (Bool.eq_false_iff.2 _h)

end State

/-- Highlights a region from its start on. -/
def region (ctx : Context) (start : Nat) : Inner :=
  let (spans, s) := (State.start start).drain ctx (fun e => region e.context e.start) #[]
  ⟨spans.toList, s.outcome, s.events⟩
termination_by ctx.cap - ctx.base
decreasing_by
  have := e.lt_base
  have := e.base_lt_cap
  simp only [Embedding.context]
  omega

/-- What the regions embedded in a region come to. -/
def Context.inside (ctx : Context) (e : Embedding ctx) : Inner := region e.context e.start

/-- A region comes to what its run comes to. -/
theorem region_eq (ctx : Context) (start : Nat) :
    let run := (State.start start).drain ctx ctx.inside #[]
    region ctx start = ⟨run.1.toList, run.2.outcome, run.2.events⟩ := by
  rw [region]
  rfl

namespace State

/-- One step, which highlights an embedded region as a whole. -/
def takeStep (ctx : Context) (s : State) : State := s.step ctx ctx.inside

/-- Steps until a span is ready, and takes it. There is none once the region is done. -/
def next (ctx : Context) (s : State) : Option Span × State :=
  match s.emitter.pop? with
  | some (span, emitter) => (some span, { s with emitter })
  | none => if _h : s.done then (none, s) else (s.takeStep ctx).next ctx
termination_by s.ahead ctx
decreasing_by exact step_ahead_lt ctx ctx.inside (Bool.eq_false_iff.2 _h)

end State

end Highlighter.Scan
