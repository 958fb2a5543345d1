import Highlighter.Kind

/-!
Collecting spans. Neighbouring texts of one kind grow into one span until something cuts
them apart; an atom is a span of its own.
-/

namespace Highlighter

/-- A stretch of text with its kind. Positions count characters. -/
structure Span where
  kind : Kind
  start : Nat
  stop : Nat
  deriving DecidableEq, Repr, Inhabited

/-- The span that may still grow, and the finished ones, the oldest first. -/
structure Emitter where
  growing : Option Span := none
  ready : List Span := []
  deriving DecidableEq, Repr, Inhabited

namespace Emitter

/-- Cuts: what comes next will not join what came before. -/
def flush (e : Emitter) : Emitter :=
  match e.growing with
  | some span => { growing := none, ready := e.ready ++ [span] }
  | none => e

/-- Adds text, which joins the text before it if that has the same kind. -/
def text (e : Emitter) (kind : Kind) (start stop : Nat) : Emitter :=
  if stop ≤ start then e
  else match e.growing with
    | some span =>
      if span.kind = kind ∧ span.stop = start then { e with growing := some { span with stop } }
      else { e.flush with growing := some ⟨kind, start, stop⟩ }
    | none => { e with growing := some ⟨kind, start, stop⟩ }

theorem text_of_le (e : Emitter) {kind : Kind} {start stop : Nat} (h : stop ≤ start) :
    e.text kind start stop = e := if_pos h

/-- Adds a span that joins nothing. -/
def atom (e : Emitter) (kind : Kind) (start stop : Nat) : Emitter :=
  let e := e.flush
  if stop ≤ start then e else { e with ready := e.ready ++ [⟨kind, start, stop⟩] }

/-- Takes the oldest finished span. -/
def pop? (e : Emitter) : Option (Span × Emitter) :=
  match e.ready with
  | span :: ready => some (span, { e with ready })
  | [] => none

end Emitter

end Highlighter
