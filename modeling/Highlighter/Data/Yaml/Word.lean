/-!
The scalars of a YAML source as they are written: a text, how it is set, and its tag. What a
scalar stands for is known only where it is known what is to be read.
-/

namespace Highlighter.Yaml

/-- How the text of a scalar is set. Blocks of lines are literal or folded. -/
inductive Style
  | plain
  | quoted
  | literal
  | folded
  deriving DecidableEq, Repr, Inhabited

/-- The tags of the kinds of scalars. -/
def tagOf (kind : String) : String := "tag:yaml.org,2002:" ++ kind

/-- What a tag says: one of the standard kinds that are told apart, a name that its author
chose, or something that makes no difference. -/
inductive Tag
  | bool
  | int
  | float
  | null
  | own (name : String)
  /-- A name that is no text. -/
  | garbled
  | other
  deriving DecidableEq, Repr, Inhabited

namespace Tag

/-- The tag with a text. -/
def ofString (s : String) : Tag :=
  if s == tagOf "bool" then bool
  else if s == tagOf "int" then int
  else if s == tagOf "float" then float
  else if s == tagOf "null" then null
  else other

/-- The tag with some bytes. A name stands behind an exclamation mark; a mark with nothing
behind it is a name itself. -/
def ofBytes (bytes : List UInt8) : Tag :=
  let text? (bytes : List UInt8) : Option String := String.fromUTF8? ⟨bytes.toArray⟩
  match bytes with
  | 0x21 :: name =>
    match text? (if name.isEmpty then bytes else name) with
    | some name => own name
    | none => garbled
  | _ => ((text? bytes).map ofString).getD other

/-- Whether a tag is not one of the standard ones. -/
def isOwn : Tag → Bool
  | own _ | garbled => true
  | _ => false

end Tag

/-- A scalar. -/
structure Word where
  style : Style := .plain
  tag : Option Tag := none
  text : String
  deriving DecidableEq, Repr, Inhabited

namespace Word

/-- Whether nothing is written. -/
def isBlank (w : Word) : Bool := w.style == .plain && w.text.isEmpty

/-- Whether a scalar may be of some kind where that kind is expected: if it is plain, or a
literal block with the tag of the kind. -/
def admits (w : Word) (tag : Tag) : Bool :=
  w.style == .plain || (w.style == .literal && w.tag == some tag)

end Word

end Highlighter.Yaml
