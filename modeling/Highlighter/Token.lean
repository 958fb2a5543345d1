import Highlighter.Kind
import Highlighter.Text.Quoted

/-!
Tokens, and what highlighting a text comes to: its tokens, a score, and three diagnostics.
-/

namespace Highlighter

/-- A span of a text with its kind. `start` and `stop` count bytes. -/
structure Token where
  kind : Kind
  text : String
  start : Nat
  stop : Nat
  deriving DecidableEq, Repr, Inhabited

namespace Token

def isPlain (t : Token) : Bool := t.kind == .plain

/-- A token on one line. -/
def render (t : Token) : String :=
  t.kind.label ++ " " ++ toString t.start ++ ".." ++ toString t.stop ++ " " ++ Text.quoted t.text

end Token

/-- A score for ranking grammars against each other, and three diagnostics: a construct is
still open at the end, something illegal was met, nesting was cut off. -/
structure Outcome where
  relevance : Nat := 0
  incomplete : Bool := false
  illegal : Bool := false
  depthLimited : Bool := false
  deriving DecidableEq, Repr, Inhabited

/-- Everything that highlighting a text in some language comes to. -/
structure Highlight where
  language : String
  tokens : List Token
  outcome : Outcome
  deriving DecidableEq, Repr, Inhabited

namespace Highlight

/-- The highlighted text. -/
def text (h : Highlight) : String := String.join (h.tokens.map Token.text)

/-- The highlight without its plain tokens. -/
def withoutPlain (h : Highlight) : Highlight :=
  { h with tokens := h.tokens.filter (!·.isPlain) }

/-- Kind and text of every token. -/
def kinds (h : Highlight) : List (Kind × String) := h.tokens.map fun t => (t.kind, t.text)

/-- Kind and text of every token that is not plain. -/
def classified (h : Highlight) : List (Kind × String) := h.withoutPlain.kinds

end Highlight

end Highlighter
