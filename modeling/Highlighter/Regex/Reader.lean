import Highlighter.Regex.Reader.Bracket

/-!
Reading a pattern. `Reader.step?` takes one character; a pattern is well formed when every
character can be taken and nothing is left open at the end. A pattern placed inside a
larger one is therefore read the same way as by itself, as long as it does not reach for
what surrounds it.
-/

namespace Highlighter.Regex.Reader

/-- Adds a piece to the current branch. -/
def push (s : Reader) (r : Regex) (depth : Nat := 0) : Reader :=
  { s with items := .piece ⟨r, depth⟩ :: s.items, mode := .ready }

/-- A character as a piece. -/
def charPiece (s : Reader) (c : Char) : Regex :=
  .char (if s.flags.caseless then tidied (.caseless (.one c)) else .one c)

/-- An atom as a piece. -/
def atomPiece (s : Reader) : Atom → Regex
  | .char c => s.charPiece c
  | .set set => .char set
  | .anchor a => .look a

/-- What a full stop stands for. -/
def dot (flags : Flags) : CharSet :=
  if flags.dotAll then .all
  else if flags.crlf then .compl (.union (.one '\r') (.one '\n'))
  else .compl (.one '\n')

/-- What a caret stands for. -/
def caret (flags : Flags) : Anchor :=
  if flags.multiLine then .lineStart flags.crlf else .textStart

/-- What a dollar sign stands for. -/
def dollar (flags : Flags) : Anchor :=
  if flags.multiLine then .lineEnd flags.crlf else .textEnd

/-- Adds the repetition that has just been read. -/
def pushRepeated (s : Reader) (body : Piece) (low : Nat) (high : Option Nat) (isLazy : Bool) :
    Reader :=
  s.push (bounded (isLazy == s.flags.lazyFirst) body.regex low high) (body.depth + 1)

/-- Takes the latest piece off, to repeat it. -/
def popPiece? (s : Reader) : Option (Piece × Reader) :=
  match s.items with
  | .piece p :: items => some (p, { s with items })
  | _ => none

/-- Starts a repetition of the latest piece. -/
def repeat? (s : Reader) (low : Nat) (high : Option Nat) : Option Reader :=
  s.popPiece?.map fun (p, s) => { s with mode := .repeated p low high false }

/-- Opens a group under some flags. -/
def openGroup (s : Reader) (capture : Capture) (flags : Flags) : Reader :=
  { s with
    flags
    groups := ⟨capture, s.flags, s.branches, s.items⟩ :: s.groups
    branches := []
    items := []
    names := match capture with
      | .named name => name :: s.names
      | _ => s.names
    mode := .ready }

/-- Everything read since the innermost group was opened. -/
def inner (s : Reader) : Piece := choiceOf (sequenceOf s.items :: s.branches)

/-- Closes the innermost group. -/
def closeGroup? (s : Reader) : Option Reader :=
  match s.groups with
  | [] => none
  | g :: groups =>
    let body := s.inner
    let regex := match g.capture with
      | .nothing => body.regex
      | .unnamed => .group none body.regex
      | .named name => .group (some name) body.regex
    let outer := { s with flags := g.flags, groups, branches := g.branches, items := g.items }
    some (outer.push regex (body.depth + 1))

/-- Goes on in or behind a bracketed class. -/
def bracketed (s : Reader) : InClass → Reader
  | .inside open_ place inComment => { s with mode := .bracket open_ place, inComment }
  | .escape site => { s with mode := .escape site }
  | .closed set depth => s.push (.char (tidied set)) depth

/-- Reads a character between pieces. -/
def ready? (s : Reader) (c : Char) : Option Reader :=
  match c with
  | '(' => some { s with mode := .group }
  | ')' => s.closeGroup?
  | '|' => some { s with branches := sequenceOf s.items :: s.branches, items := [], mode := .ready }
  | '[' => some { s with mode := .bracket [{}] .opening }
  | '?' => s.repeat? 0 (some 1)
  | '*' => s.repeat? 0 none
  | '+' => s.repeat? 1 none
  | '{' => s.popPiece?.map fun (p, s) => { s with mode := .lower p [] false }
  | '\\' => some { s with mode := .escape .branch }
  | '.' => some (s.push (.char (dot s.flags)))
  | '^' => some (s.push (.look (caret s.flags)))
  | '$' => some (s.push (.look (dollar s.flags)))
  | _ => some (s.push (s.charPiece c))

/-- Puts an escaped atom where it belongs. -/
def place? (s : Reader) (site : Site) (a : Atom) : Option Reader :=
  match site, a with
  | .branch, _ => some (s.push (s.atomPiece a))
  | .member _, .anchor _ => none
  | .member open_, _ => some { s with mode := .bracket open_ (.after a) }
  | .upper low open_, _ =>
    (insertRange? open_ low a).map fun open_ => { s with mode := .bracket open_ .members }

/-- Bounds of repetitions are 32-bit numbers. -/
def bound? (digits : List Char) : Option Nat :=
  let n := digits.foldl (fun n c => 10 * n + (c.toNat - '0'.toNat)) 0
  if digits.isEmpty || n ≥ UInt32.size then none else some n

/-- Reads a character of a lower bound. -/
def lower? (s : Reader) (body : Piece) (digits : List Char) (ended : Bool) (c : Char) :
    Option Reader :=
  if Text.isSpace c then some { s with mode := .lower body digits (!digits.isEmpty) }
  else if c.isDigit && !ended then some { s with mode := .lower body (digits ++ [c]) false }
  else (bound? digits).bind fun low =>
    if c == ',' then some { s with mode := .comma body low }
    else if c == '\x7d' then some { s with mode := .repeated body low (some low) true }
    else none

/-- Reads a character of an upper bound. -/
def upper? (s : Reader) (body : Piece) (low : Nat) (digits : List Char) (ended : Bool) (c : Char) :
    Option Reader :=
  if Text.isSpace c then some { s with mode := .upper body low digits (!digits.isEmpty) }
  else if c.isDigit && !ended then some { s with mode := .upper body low (digits ++ [c]) false }
  else (bound? digits).bind fun high =>
    if c == '\x7d' && low ≤ high then
      some { s with mode := .repeated body low (some high) true }
    else none

/-- Reads a character in a list of flags. -/
def flag? (s : Reader) (flags : Flags) (letters : List Char) (off dangling : Bool) (c : Char) :
    Option Reader :=
  if c == ':' then if dangling then none else some (s.openGroup .nothing flags)
  else if c == ')' then
    if dangling || letters.isEmpty then none
    else some { s with flags, items := .directive :: s.items, mode := .ready }
  else if c == '-' then
    if off then none else some { s with mode := .flagList flags ('-' :: letters) true true }
  else if letters.contains c then none
  else (flags.set? c (!off)).map fun flags =>
    { s with mode := .flagList flags (c :: letters) off false }

/-- Whether a character may stand in the name of a group. -/
def isNameChar (first : Bool) (c : Char) : Bool :=
  if first then c == '_' || Text.isAlphabetic c
  else c == '_' || c == '.' || c == '[' || c == ']' || Text.isAlphabetic c || Text.isNumeric c

/-- Reads a character in the name of a group. No two groups have one name. -/
def groupName? (s : Reader) (read : List Char) (c : Char) : Option Reader :=
  if c == '>' then
    let name := String.ofList read.reverse
    if read.isEmpty || s.names.contains name then none
    else some (s.openGroup (.named name) s.flags)
  else if isNameChar read.isEmpty c then some { s with mode := .groupName (c :: read) }
  else none

/-- Takes one more digit of a number of fixed width. -/
def hexDigit? (s : Reader) (site : Site) (missing value : Nat) (c : Char) : Option Reader :=
  (hexValue? c).bind fun d =>
    let value := 16 * value + d
    if missing ≤ 1 then (character? value).bind fun c => s.place? site (.char c)
    else some { s with mode := .hexDigits site (missing - 1) value }

/-- Reads one character that is not passed over. -/
def take? (s : Reader) (c : Char) : Option Reader :=
  match s.mode with
  | .ready => s.ready? c
  | .repeated body low high _ =>
    if c == '?' then some (s.pushRepeated body low high true)
    else (s.pushRepeated body low high false).ready? c
  | .lower body digits ended => s.lower? body digits ended c
  | .comma body low =>
    if c == '\x7d' then some { s with mode := .repeated body low none true }
    else s.upper? body low [] false c
  | .upper body low digits ended => s.upper? body low digits ended c
  | .group =>
    if c == '?' then some { s with mode := .groupMark }
    else (s.openGroup .unnamed s.flags).ready? c
  | .groupMark =>
    if c == '<' then some { s with mode := .groupAngle }
    else if c == 'P' then some { s with mode := .groupLetter }
    else s.flag? s.flags [] false false c
  | .groupLetter => if c == '<' then some { s with mode := .groupName [] } else none
  | .groupAngle => s.groupName? [] c
  | .groupName read => s.groupName? read c
  | .flagList flags letters off dangling => s.flag? flags letters off dangling c
  | .escape site =>
    match hexWidth? c with
    | some width => some { s with mode := .hexStart site width }
    | none =>
      if c == 'b' && site == .branch then some { s with mode := .edge }
      else (escaped? c).bind (s.place? site)
  | .hexStart site width =>
    if c == '\x7b' then some { s with mode := .hexBraced site true 0 }
    else s.hexDigit? site width 0 c
  | .hexDigits site missing value => s.hexDigit? site missing value c
  | .hexBraced site bare value =>
    if c == '\x7d' then
      if bare then none else (character? value).bind fun c => s.place? site (.char c)
    else (hexValue? c).map fun d => { s with mode := .hexBraced site false (16 * value + d) }
  | .edge => some { s with mode := .edgeBrace }
  | .edgeBrace =>
    if c.isAlpha || c == '-' then some { s with mode := .edgeName [c] }
    else s.lower? ⟨.look .wordEdge, 0⟩ [] false c
  | .edgeName read =>
    if c.isAlpha || c == '-' then some { s with mode := .edgeName (c :: read) }
    else if c == '\x7d' then
      (namedEdge? (String.ofList read.reverse)).map fun a => s.push (.look a)
    else none
  | .bracket open_ (.naming read) => (inClassName? s.flags.caseless open_ read c).map s.bracketed
  | .bracket open_ place =>
    (inClass? s.flags.caseless s.flags.spaced open_ place c).map s.bracketed

/-- What is settled once it is known that `c` comes next: a repetition that `c` does not
make lazy, an edge that `c` gives no name, an operator character that stands alone, an inner
bracket that begins no named class. -/
def settle (s : Reader) (c : Char) : Reader :=
  match s.mode with
  | .repeated body low high false => if c == '?' then s else s.pushRepeated body low high false
  | .edge => if c == '\x7b' then s else s.push (.look .wordEdge)
  | .bracket open_ (.doubling d) =>
    if c == d then s else { s with mode := .bracket open_ (.after (.char d)) }
  | .bracket open_ (.naming read) =>
    if mayName (read ++ [c]) then s
    else
      let (open_, place) := unnamed s.flags.caseless open_ read
      { s with mode := .bracket open_ place }
  | _ => s

/-- Reads one character. Under the flag `x` blanks and comments are passed over. -/
def step? (s : Reader) (c : Char) : Option Reader :=
  if s.inComment then some { s with inComment := c != '\n' }
  else
    let s := s.settle c
    if s.flags.spaced && (Text.isSpace c || c == '#') && s.mode.passesBlanks then
      some { s with inComment := c == '#' }
    else s.take? c

/-- How deep the constructs in a pattern may nest. -/
def maxDepth : Nat := 250

/-- The regular expression read, if nothing is left open and nothing nests too deep. -/
def finish? (s : Reader) : Option Regex :=
  let s := match s.mode with
    | .repeated body low high _ => s.pushRepeated body low high false
    | .edge => s.push (.look .wordEdge)
    | _ => s
  if s.mode == .ready && s.groups.isEmpty && s.inner.depth ≤ maxDepth then some s.inner.regex
  else none

end Highlighter.Regex.Reader

namespace Highlighter.Regex

/-- The regular expression that a pattern denotes, if it is well formed. -/
def ofPattern? (pattern : String) : Option Regex :=
  (pattern.toList.foldlM Reader.step? Reader.start).bind Reader.finish?

end Highlighter.Regex
