import Highlighter.Scan.Run

/-!
Highlighting a text in a language. `Highlighting.rest` gives everything at once,
`Highlighting.next` one token after the other.
-/

namespace Highlighter

/-- How deep scopes and embedded regions may be nested unless told otherwise. -/
def defaultMaxDepth : Nat := 32

/-- No setting allows deeper nesting than this. -/
def maxDepthLimit : Nat := 256

/-- The depth that a setting comes to. -/
def effectiveMaxDepth (maxDepth : Nat) : Nat := min maxDepth maxDepthLimit

/-- The token that a span of a text makes. -/
def Source.token (source : Source) (span : Span) : Token :=
  ⟨span.kind, source.slice span.start span.stop, source.byte span.start, source.byte span.stop⟩

/-- The highlighting of a text, as far as it has come. -/
structure Highlighting where
  ctx : Scan.Context
  state : Scan.State

namespace Highlighting

/-- Starts highlighting a text. `language?` finds the grammars of embedded languages. -/
def start (grammar : Grammar) (language? : String → Option Grammar) (maxDepth : Nat)
    (text : String) : Highlighting :=
  let source := Source.ofString text
  let cap := effectiveMaxDepth maxDepth
  ⟨{ grammar, language?, cap, source, stop := source.size, base := 0 }, Scan.State.start 0⟩

/-- The outcome so far. -/
def outcome (h : Highlighting) : Outcome := h.state.outcome

/-- What has happened so far, in order. -/
def events (h : Highlighting) : List Scan.Event := h.state.events.reverse

/-- The next token, if there is one more. -/
def next (h : Highlighting) : Option Token × Highlighting :=
  let (span, state) := h.state.next h.ctx
  (span.map h.ctx.source.token, { h with state })

/-- The tokens still to come, and the highlighting at its end. -/
def rest (h : Highlighting) : List Token × Highlighting :=
  let (spans, state) := h.state.drain h.ctx h.ctx.inside #[]
  (spans.toList.map h.ctx.source.token, { h with state })

/-- The tokens still to come together with the final outcome. -/
def toHighlight (h : Highlighting) : Highlight :=
  let (tokens, h) := h.rest
  ⟨h.ctx.grammar.name, tokens, h.outcome⟩

end Highlighting

/-- Highlights a text. Without a way to find other grammars, embedded languages are left as
the text of the scope around them. -/
def Grammar.highlight (grammar : Grammar) (text : String)
    (language? : String → Option Grammar := fun _ => none)
    (maxDepth : Nat := defaultMaxDepth) : Highlight :=
  (Highlighting.start grammar language? maxDepth text).toHighlight

end Highlighter
