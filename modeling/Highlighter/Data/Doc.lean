import Highlighter.Data.Double
import Highlighter.Data.Yaml.Word

/-!
Structured data as a reader finds it in a source. A source that is not well formed gives a
document that breaks off at the fault: whatever was complete in front of the fault is
there, so what is wrong with it is found first.
-/

namespace Highlighter

/-- A single value. -/
inductive Scalar
  | null
  | bool (b : Bool)
  | int (n : Int)
  | float (x : Double)
  | string (s : String)
  deriving DecidableEq, Repr, Inhabited

/-- A document. A scalar is a value or, where only its use shows what value it is, a word. A list
or a map is `whole` unless the source breaks off in it. -/
inductive Doc
  | scalar (value : Scalar)
  | word (word : Yaml.Word)
  | list (items : List Doc) (whole : Bool)
  | map (entries : List (Doc × Doc)) (whole : Bool)
  | fault
  /-- A list or a map with a tag that its author chose. -/
  | tagged (name : String) (doc : Doc)
  deriving Repr, Inhabited

namespace Doc

def null : Doc := scalar .null

def bool (b : Bool) : Doc := scalar (.bool b)

def int (n : Int) : Doc := scalar (.int n)

def nat (n : Nat) : Doc := int n

def string (s : String) : Doc := scalar (.string s)

def ofList (items : List Doc) : Doc := list items true

/-- A map with texts as keys. -/
def ofFields (fields : List (String × Doc)) : Doc :=
  map (fields.map fun (key, value) => (string key, value)) true

end Doc

/-- A reader's view of a source: the document at its beginning, and whether anything that
does not belong there follows it. -/
structure Doc.Source where
  root : Doc
  clean : Bool
  deriving Repr, Inhabited

end Highlighter
