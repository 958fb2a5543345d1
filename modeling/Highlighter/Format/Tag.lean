import Highlighter.Token

/-!
The tag format: a line with language, score and raised flags, then a line for each token.
-/

namespace Highlighter.Format

/-- The flags of an outcome with their names. -/
def flags (o : Outcome) : List (String × Bool) :=
  [("incomplete", o.incomplete), ("illegal", o.illegal), ("depth_limited", o.depthLimited)]

/-- The first line, without its end. -/
def tagHeader (h : Highlight) : String :=
  let raised := (flags h.outcome).filter Prod.snd
  "# " ++ h.language ++ " relevance=" ++ toString h.outcome.relevance
    ++ String.join (raised.map fun (name, _) => " " ++ name)

/-- A highlight in the tag format. -/
def tag (h : Highlight) : String :=
  tagHeader h ++ "\n" ++ String.join (h.tokens.map fun t => t.render ++ "\n")

end Highlighter.Format
