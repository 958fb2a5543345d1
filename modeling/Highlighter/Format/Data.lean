import Highlighter.Data.Json.Printer
import Highlighter.Data.Yaml.Printer
import Highlighter.Format.Tag

/-!
Highlights as documents, which the formats for data write.
-/

namespace Highlighter.Format

def tokenDoc (t : Token) : Doc :=
  .ofFields [("kind", .string t.kind.label), ("text", .string t.text),
    ("range", .ofFields [("start", .nat t.start), ("end", .nat t.stop)])]

/-- Everything a highlight holds. -/
def highlightDoc (h : Highlight) : Doc :=
  .ofFields ([("language", .string h.language), ("tokens", .ofList (h.tokens.map tokenDoc)),
      ("relevance", .nat h.outcome.relevance)]
    ++ (flags h.outcome).map fun (name, raised) => (name, .bool raised))

/-- A highlight as indented JSON. -/
def json (h : Highlight) : String := Json.pretty 0 (highlightDoc h)

/-- A highlight as YAML. -/
def yaml (h : Highlight) : String := Yaml.render (highlightDoc h)

end Highlighter.Format
