import Highlighter.Data.Yaml.Document
import Highlighter.Grammar.Decode
import Highlighter.Grammar.Registry
import Highlighter.Files

/-!
Grammars from the text of their sources, which are written in JSON or in YAML.
-/

namespace Highlighter

/-- The document in a source. -/
def Decode.Dialect.read : Decode.Dialect → String → Doc.Source
  | .json => Json.read
  | .yaml => Yaml.read

/-- Reads a grammar. -/
def GrammarSpec.read (d : Decode.Dialect) (source : String) : Except GrammarError GrammarSpec :=
  (Decode.source d (d.read source)).mapError fun fault => .unreadableSource fault.message?

/-- What a file's name says of its notation: JSON if it ends so, in whatever case, else YAML. -/
def Decode.Dialect.ofPath (path : String) : Decode.Dialect :=
  let name := ((Folder.names path).filter fun n => n != "" && n != ".").getLast?.getD ""
  let stem := name.toList.reverse.dropWhile (· != '.')
  let suffix := name.toList.drop stem.length
  if stem.length > 1 && String.ofList (suffix.map Char.toLower) == "json" then .json else .yaml

/-- The grammar in a file, which was read or could not be. -/
def GrammarSpec.ofFile (path : String) (content : Except ReadFault String) :
    Except GrammarError GrammarSpec := do
  let source ← content.mapError fun fault => .unreadableFile path fault.message
  GrammarSpec.read (.ofPath path) source

/-- Registers the grammar in a file. -/
def Registry.load (r : Registry) (path : String) (content : Except ReadFault String) :
    Except GrammarError (Registry × Grammar) := do
  r.registerSpec (← GrammarSpec.ofFile path content)

end Highlighter
