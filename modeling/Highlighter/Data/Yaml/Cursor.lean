/-!
Classes of characters in YAML, and places in a source with their line and column.
-/

namespace Highlighter.Yaml

def isBlank (c : Char) : Bool := c == ' ' || c == '\t'

/-- Carriage return, line feed, next line, line separator and paragraph separator. -/
def isBreak (c : Char) : Bool :=
  c == '\r' || c == '\n' || c == '\u0085' || c == '\u2028' || c == '\u2029'

def isGap (c : Char) : Bool := isBlank c || isBreak c

/-- The characters of anchors and of the names of directives and tags. -/
def isNameChar (c : Char) : Bool := c.isAlphanum || c == '_' || c == '-'

/-- The brackets and commas of lists and maps that are written on one line. -/
def isFlowIndicator (c : Char) : Bool :=
  c == ',' || c == '[' || c == ']' || c == '\x7b' || c == '\x7d'

/-- Whether a character may stand in a source at all. -/
def isAllowed (c : Char) : Bool :=
  c == '\t' || c == '\n' || c == '\r' || (' ' ≤ c && c ≤ '~') || c == '\u0085'
    || ('\u00a0' ≤ c && c.toNat ≤ 0xfffd) || 0x10000 ≤ c.toNat

/-- A place in a source: the text from there on and where it is. The index counts bytes, the
column characters. -/
structure Cursor where
  rest : List Char
  index : Nat := 0
  line : Nat := 0
  column : Nat := 0
  deriving Repr, Inhabited

namespace Cursor

def atEnd (c : Cursor) : Bool := c.rest.isEmpty

/-- Whether the character at a distance is of some class. -/
def ahead (c : Cursor) (distance : Nat) (p : Char → Bool) : Bool :=
  (c.rest[distance]?).any p

/-- Whether the next character is of some class. -/
def next (c : Cursor) (p : Char → Bool) : Bool := c.ahead 0 p

def nextIs (c : Cursor) (ch : Char) : Bool := c.next (· == ch)

/-- Whether there is a blank, a line break or the end at a distance. -/
def gapAhead (c : Cursor) (distance : Nat) : Bool :=
  match c.rest[distance]? with
  | none => true
  | some ch => isGap ch

/-- Whether the line ends here. -/
def atLineEnd (c : Cursor) : Bool := c.atEnd || c.next isBreak

/-- The place where a line begins if the one here ends. -/
def lineEnded (c : Cursor) : Cursor :=
  if c.column = 0 then c else { c with line := c.line + 1, column := 0 }

/-- The number of bytes of some characters. -/
def bytes (cs : List Char) : Nat := (String.ofList cs).utf8ByteSize

/-- The place behind some characters of the line. -/
def skip (c : Cursor) (count : Nat) : Cursor :=
  { c with
    rest := c.rest.drop count
    index := c.index + bytes (c.rest.take count)
    column := c.column + count }

/-- The characters of a class that come next. -/
def taken (c : Cursor) (p : Char → Bool) : List Char := c.rest.takeWhile p

/-- The place behind the characters of a class. -/
def skipAll (c : Cursor) (p : Char → Bool) : Cursor := c.skip (c.taken p).length

/-- The place behind the rest of the line. -/
def skipToLineEnd (c : Cursor) : Cursor := c.skipAll (!isBreak ·)

private def behindBreak (c : Cursor) (count : Nat) : Cursor :=
  { rest := c.rest.drop count
    index := c.index + bytes (c.rest.take count)
    line := c.line + 1
    column := 0 }

/-- The line break at a place as it counts in a text, and the place behind it. There may be
none. -/
def takeBreak (c : Cursor) : List Char × Cursor :=
  match c.rest with
  | '\r' :: '\n' :: _ => (['\n'], c.behindBreak 2)
  | ch :: _ =>
    if ch == '\r' || ch == '\n' || ch == '\u0085' then (['\n'], c.behindBreak 1)
    else if isBreak ch then ([ch], c.behindBreak 1)
    else ([], c)
  | [] => ([], c)

/-- The place behind a line break, if there is one. -/
def skipBreak (c : Cursor) : Cursor := c.takeBreak.2

/-- Whether a line begins here with three of a character and nothing close behind them. -/
def marksWith (c : Cursor) (ch : Char) : Bool :=
  c.column == 0 && c.nextIs ch && c.ahead 1 (· == ch) && c.ahead 2 (· == ch) && c.gapAhead 3

/-- Whether the mark of a document's beginning or end is here. -/
def atMark (c : Cursor) : Bool := c.marksWith '-' || c.marksWith '.'

/-- The place behind what may stand behind a header on its line: blanks, a comment, and
the line break. Nothing else may. -/
def restOfHeader? (c : Cursor) : Option Cursor :=
  let c := c.skipAll isBlank
  let c := if c.nextIs '#' then c.skipToLineEnd else c
  if c.atLineEnd then some c.skipBreak else none

end Cursor

end Highlighter.Yaml
