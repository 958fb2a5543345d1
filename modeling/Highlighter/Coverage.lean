import Highlighter.Token
import Highlighter.Text.Source

/-!
Checks on token lists: whether they cover a text exactly, and whether they are the ones
expected.
-/

namespace Highlighter

/-- Why a list of tokens does not cover a text. -/
inductive CoverageFault
  | misplaced (index : Nat) (token : Token)
  | emptyText (index : Nat) (token : Token)
  | otherText (index : Nat)
  | noSuchRange
  | stopsAt (reached size : Nat)
  deriving DecidableEq, Repr, Inhabited

/-- A range that is none of the text has no stable wording. -/
def CoverageFault.message? : CoverageFault → Option String
  | misplaced i t => some (s!"token #{i} (" ++ t.render
      ++ ") does not start where the previous one ended")
  | emptyText i t => some (s!"token #{i} (" ++ t.render ++ ") is empty")
  | otherText i => some s!"token #{i} text does not match its range"
  | noSuchRange => none
  | stopsAt reached size => some s!"tokens stop at byte {reached} of {size}"

/-- The text between two byte offsets, if both lie on characters and in order. -/
def Source.bytes? (s : Source) (start stop : Nat) : Option String := do
  let first ← s.offsets.findIdx? (· == start)
  let last ← s.offsets.findIdx? (· == stop)
  if start ≤ stop then some (s.slice first last) else none

/-- Checks the tokens from number `index` on, where the ones before reach to byte `reached`. -/
def coversFrom (s : Source) (size : Nat) (index reached : Nat) :
    List Token → Except CoverageFault Unit
  | [] => if reached = size then .ok () else .error (.stopsAt reached size)
  | t :: ts =>
    if t.start ≠ reached then .error (.misplaced index t)
    else if t.text.isEmpty then .error (.emptyText index t)
    else match s.bytes? t.start t.stop with
      | none => .error .noSuchRange
      | some text =>
        if text ≠ t.text then .error (.otherText index)
        else coversFrom s size (index + 1) t.stop ts

/-- Checks that the tokens are a text cut into pieces. -/
def covers (text : String) (tokens : List Token) : Except CoverageFault Unit :=
  coversFrom (Source.ofString text) text.utf8ByteSize 0 0 tokens

/-- Kinds with their texts, one to a line. -/
def renderKinds (items : List (Kind × String)) : String :=
  "\n".intercalate (items.map fun (kind, text) =>
    "  " ++ kind.label ++ " " ++ Text.quoted text)

/-- Checks that the tokens have the expected kinds and texts; otherwise shows both. -/
def checkKinds (tokens : List Token) (expected : List (Kind × String)) : Except String Unit :=
  let actual := tokens.map fun t => (t.kind, t.text)
  if actual = expected then .ok ()
  else .error ("token streams differ\nexpected:\n" ++ renderKinds expected
    ++ "\nactual:\n" ++ renderKinds actual)

end Highlighter
