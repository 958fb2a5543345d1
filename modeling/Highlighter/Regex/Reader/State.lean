import Highlighter.Regex.Factor

/-!
What is known while a pattern is read, character by character: the flags in force, the
groups that are open, the pieces of the current branch, and the construct in whose
middle the reading stands.
-/

namespace Highlighter.Regex.Reader

/-- The flags of a pattern: `i`, `m`, `s`, `U`, `R` and `x`. -/
structure Flags where
  caseless : Bool := false
  multiLine : Bool := false
  dotAll : Bool := false
  lazyFirst : Bool := false
  crlf : Bool := false
  spaced : Bool := false
  deriving DecidableEq, Repr, Inhabited

/-- Turns one flag on or off. Unicode classes (`u`) cannot be turned off. -/
def Flags.set? (flags : Flags) (letter : Char) (value : Bool) : Option Flags :=
  match letter with
  | 'i' => some { flags with caseless := value }
  | 'm' => some { flags with multiLine := value }
  | 's' => some { flags with dotAll := value }
  | 'U' => some { flags with lazyFirst := value }
  | 'R' => some { flags with crlf := value }
  | 'x' => some { flags with spaced := value }
  | 'u' => if value then some flags else none
  | _ => none

/-- An expression that has been read, and how deep the constructs in its spelling nest. -/
structure Piece where
  regex : Regex
  depth : Nat := 0
  deriving DecidableEq, Repr, Inhabited

/-- The depth of several constructs that stand in one. -/
def depthOf (depths : List Nat) : Nat :=
  match depths with
  | [] => 0
  | [depth] => depth
  | _ => depths.foldl max 0 + 1

/-- One item of a branch. A directive such as `(?i)` stands between pieces and cannot
be repeated. -/
inductive Item
  | directive
  | piece (p : Piece)
  deriving DecidableEq, Repr, Inhabited

namespace Item

def regex? : Item → Option Regex
  | directive => none
  | piece p => some p.regex

def depth : Item → Nat
  | directive => 0
  | piece p => p.depth

end Item

/-- The branch made of some items, the latest first. -/
def sequenceOf (items : List Item) : Piece :=
  ⟨sequence (items.reverse.filterMap Item.regex?), depthOf (items.map Item.depth)⟩

/-- The choice between some branches, the latest first. -/
def choiceOf (branches : List Piece) : Piece :=
  ⟨factored (branches.reverse.map Piece.regex), depthOf (branches.map Piece.depth)⟩

/-- What a group captures: nothing, or its match, perhaps under a name. -/
inductive Capture
  | nothing
  | unnamed
  | named (name : String)
  deriving DecidableEq, Repr, Inhabited

/-- An open group: what it captures, the flags in force outside it, and what had been read of
the enclosing group, the latest first. -/
structure Group where
  capture : Capture
  flags : Flags
  branches : List Piece
  items : List Item
  deriving DecidableEq, Repr, Inhabited

/-- What one escape or one plain character of a bracketed class stands for. -/
inductive Atom
  | char (c : Char)
  | set (s : CharSet)
  | anchor (a : Anchor)
  deriving DecidableEq, Repr, Inhabited

/-- An operation between two parts of a bracketed class. -/
inductive SetOp
  | inter
  | diff
  | symmDiff
  deriving DecidableEq, Repr, Inhabited

/-- Some members of a bracketed class, with the depths of their spellings. -/
structure Members where
  set : CharSet := .none
  depths : List Nat := []
  deriving DecidableEq, Repr, Inhabited

/-- An open bracketed class: what has been read since the last operator, and what stands in
front of that operator. -/
structure Bracket where
  negated : Bool := false
  members : Members := {}
  waiting : Option (SetOp × CharSet × Nat) := none
  deriving DecidableEq, Repr, Inhabited

/-- The place inside a bracketed class. -/
inductive Place
  /-- Right after the bracket. -/
  | opening
  /-- After the bracket and a caret. -/
  | negating
  /-- After hyphens that open the class. -/
  | hyphens
  /-- Between members. -/
  | members
  /-- After a first operator character. -/
  | doubling (c : Char)
  /-- After something that may begin a range. -/
  | after (low : Atom)
  /-- After such a beginning and a hyphen, of which it is not yet known whether it makes a
  range: whether anything was passed over since, whether a comment began there, and whether
  the comment is still open. -/
  | ranging (low : Atom) (spaced hash inComment : Bool)
  /-- In a range, in front of its upper end. -/
  | upper (low : Atom)
  /-- After an inner bracket that may begin a named class; the characters since. -/
  | naming (read : List Char)
  deriving DecidableEq, Repr, Inhabited

/-- Where an escape stands: among the pieces of a branch, in a bracketed class, or at the
upper end of a range. -/
inductive Site
  | branch
  | member (open_ : List Bracket)
  | upper (low : Atom) (open_ : List Bracket)
  deriving DecidableEq, Repr, Inhabited

/-- The construct in whose middle the reading stands. -/
inductive Mode
  /-- Between pieces. -/
  | ready
  /-- After a repetition that a question mark may make lazy. -/
  | repeated (body : Piece) (low : Nat) (high : Option Nat) (spaced : Bool)
  /-- In the lower bound of a repetition: its digits, and whether they have ended. -/
  | lower (body : Piece) (digits : List Char) (ended : Bool)
  /-- Right after the comma of a repetition. -/
  | comma (body : Piece) (low : Nat)
  /-- In the upper bound of a repetition. -/
  | upper (body : Piece) (low : Nat) (digits : List Char) (ended : Bool)
  /-- After an opening parenthesis. -/
  | group
  /-- After `(?`. -/
  | groupMark
  /-- After `(?P`. -/
  | groupLetter
  /-- After `(?<`. -/
  | groupAngle
  /-- In the name of a group, the latest character first. -/
  | groupName (read : List Char)
  /-- In a list of flags: the flags so far, the letters so far, whether a hyphen was read,
  and whether it was the last character. -/
  | flagList (flags : Flags) (letters : List Char) (off : Bool) (dangling : Bool)
  /-- After a backslash. -/
  | escape (site : Site)
  /-- After `\x`, `\u` or `\U`, which want so many digits. -/
  | hexStart (site : Site) (width : Nat)
  /-- In a number of fixed width: the digits still missing and the value so far. -/
  | hexDigits (site : Site) (missing : Nat) (value : Nat)
  /-- In a number in braces, which needs a digit. -/
  | hexBraced (site : Site) (bare : Bool) (value : Nat)
  /-- After `\b`, where a brace may name another edge. -/
  | edge
  /-- After `\b` and a brace. -/
  | edgeBrace
  /-- In the name of an edge, the latest character first. -/
  | edgeName (read : List Char)
  /-- In a bracketed class, the innermost open one first. -/
  | bracket (open_ : List Bracket) (place : Place)
  deriving DecidableEq, Repr, Inhabited

/-- Whether blanks and comments between tokens are passed over here, given the flag `x`. -/
def Mode.passesBlanks : Mode → Bool
  | repeated _ _ _ spaced => spaced
  | ready | lower .. | comma .. | upper .. | group => true
  | hexStart .. | hexDigits .. | hexBraced .. | edgeBrace | edgeName _ => true
  | bracket _ (.doubling _) | bracket _ (.naming _) | bracket _ (.ranging ..) => false
  | bracket .. => true
  | groupMark | groupLetter | groupAngle | groupName _ | flagList .. | escape _ | edge => false

end Highlighter.Regex.Reader

namespace Highlighter.Regex

/-- The state of reading a pattern. -/
structure Reader where
  flags : Reader.Flags
  groups : List Reader.Group
  branches : List Reader.Piece
  items : List Reader.Item
  names : List String
  inComment : Bool
  mode : Reader.Mode
  deriving DecidableEq, Repr, Inhabited

/-- The state before the first character. -/
def Reader.start : Reader := ⟨{}, [], [], [], [], false, .ready⟩

end Highlighter.Regex
