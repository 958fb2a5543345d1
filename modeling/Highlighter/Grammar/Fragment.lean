import Highlighter.Grammar.Spec
import Highlighter.Regex.Reader
import Highlighter.Text.Basic

/-!
References to named fragments inside patterns. A reference is a name in double braces; it
is replaced by the fragment in a group of its own. Fragments may refer to fragments, up to
a fixed depth, so that expansion ends also when they refer to each other in circles.
-/

namespace Highlighter

namespace FragmentSpec

/-- A text as a pattern that matches just this text. -/
def escapePattern (s : String) : String :=
  String.ofList (s.toList.flatMap fun c =>
    if Regex.Reader.metaCharacters.contains c then ['\\', c] else [c])

/-- The pattern of a fragment. Words match literally. -/
def toPattern : FragmentSpec → String
  | pattern source => source
  | words list => "|".intercalate (list.map fun w => escapePattern (Text.trim w))

end FragmentSpec

namespace Fragment

/-- References nested deeper than this are refused. -/
def maxNesting : Nat := 8

/-- Why a pattern cannot be expanded: a name without a fragment, or nesting without end. -/
inductive Fault
  | undefined (name : String)
  | recursive (name : String)
  deriving DecidableEq, Repr, Inhabited

def isNameStart (c : Char) : Bool := c.isAlpha || c == '_'

def isNameChar (c : Char) : Bool := c.isAlphanum || c == '_'

/-- The rest of a text behind two closing braces. -/
def closed? : List Char → Option (List Char)
  | '}' :: '}' :: rest => some rest
  | _ => none

/-- A reference at the beginning of a text: its name, and what follows it. -/
def reference? : List Char → Option (String × List Char)
  | '{' :: '{' :: rest =>
    match rest.dropWhile Text.isSpace with
    | c :: cs =>
      if isNameStart c then
        (closed? ((cs.dropWhile isNameChar).dropWhile Text.isSpace)).map fun rest =>
          (String.ofList (c :: cs.takeWhile isNameChar), rest)
      else none
    | [] => none
  | _ => none

/-- A pattern is made of characters and references. -/
inductive Piece
  | char (c : Char)
  | reference (name : String)
  deriving DecidableEq, Repr, Inhabited

/-- The pieces of a pattern. References are found from left to right and do not overlap. -/
def pieces (cs : List Char) : List Piece :=
  match cs with
  | [] => []
  | c :: rest =>
    match reference? (c :: rest) with
    | some (name, behind) =>
      if behind.length < (c :: rest).length then .reference name :: pieces behind
      else .char c :: pieces rest
    | none => .char c :: pieces rest
termination_by cs.length
decreasing_by all_goals grind

/-- Expands the references of a pattern, where `nesting` more levels are allowed. The first
reference that cannot be expanded is reported, from left to right and in depth first. -/
def expand (source? : String → Option String) (nesting : Nat) (pattern : String) :
    Except Fault String :=
  let expandPiece : Piece → Except Fault String
    | .char c => .ok (String.singleton c)
    | .reference name =>
      match nesting with
      | 0 => .error (.recursive name)
      | nesting + 1 =>
        match source? name with
        | none => .error (.undefined name)
        | some source => (expand source? nesting source).map fun s => "(?:" ++ s ++ ")"
  ((pieces pattern.toList).mapM expandPiece).map String.join

end Fragment

end Highlighter
