import Highlighter.Data.Json.Reader
import Highlighter.Data.Yaml.Cursor

/-!
The texts of scalars: plain, between quotes, and as blocks of lines. Where a text goes over
several lines, a line break counts as a blank and further line breaks count as themselves.
-/

namespace Highlighter.Yaml

/-- A stretch of blanks and line breaks in a text. -/
structure Gap where
  /-- The blanks in front of the first line break. -/
  blanks : List Char := []
  /-- The first line break. -/
  firstBreak : List Char := []
  laterBreaks : List Char := []
  /-- Whether a line ends in the stretch. -/
  endsLine : Bool := false
  deriving Repr, Inhabited

namespace Gap

/-- What a stretch counts as. -/
def text (g : Gap) : List Char :=
  if !g.endsLine then g.blanks
  else if g.firstBreak == ['\n'] then
    if g.laterBreaks.isEmpty then [' '] else g.laterBreaks
  else g.firstBreak ++ g.laterBreaks

/-- Goes on with a stretch up to its end. Behind a line break, no tab may stand left of a
column. -/
def readFrom? (column : Nat) (fuel : Nat) (g : Gap) (c : Cursor) : Option (Gap × Cursor) :=
  match fuel, c.rest with
  | fuel + 1, ch :: _ =>
    if isBlank ch then
      if g.endsLine then
        if ch == '\t' && c.column < column then none
        else readFrom? column fuel g (c.skip 1)
      else readFrom? column fuel { g with blanks := g.blanks ++ [ch] } (c.skip 1)
    else if isBreak ch then
      let (br, c) := c.takeBreak
      if g.endsLine then readFrom? column fuel { g with laterBreaks := g.laterBreaks ++ br } c
      else readFrom? column fuel { g with firstBreak := br, endsLine := true } c
    else some (g, c)
  | _, _ => some (g, c)

def read? (column : Nat) (g : Gap) (c : Cursor) : Option (Gap × Cursor) :=
  g.readFrom? column c.rest.length c

end Gap

/-- A text and the place behind it. -/
structure Found where
  text : List Char
  behind : Cursor
  deriving Repr, Inhabited

/-- The number that some hexadecimal digits make. -/
def hexNumber? (count : Nat) (cs : List Char) : Option Nat :=
  if (cs.take count).length < count then none
  else (cs.take count).foldlM (fun n c => (Json.hexDigit? c).map (16 * n + ·)) 0

/-- The character with a number, unless there is none. -/
def charOf? (n : Nat) : Option Char :=
  if h : n.isValidChar then some (Char.ofNatAux n h) else none

/-- The character that a backslash and what follows stand for, and how many characters
that is. -/
def escape? (cs : List Char) : Option (Char × Nat) :=
  let coded (digits : Nat) (rest : List Char) : Option (Char × Nat) := do
    return (← charOf? (← hexNumber? digits rest), digits + 2)
  match cs with
  | 'x' :: rest => coded 2 rest
  | 'u' :: rest => coded 4 rest
  | 'U' :: rest => coded 8 rest
  | '0' :: _ => some ('\x00', 2)
  | 'a' :: _ => some ('\x07', 2)
  | 'b' :: _ => some ('\x08', 2)
  | 't' :: _ => some ('\t', 2)
  | '\t' :: _ => some ('\t', 2)
  | 'n' :: _ => some ('\n', 2)
  | 'v' :: _ => some ('\x0b', 2)
  | 'f' :: _ => some ('\x0c', 2)
  | 'r' :: _ => some ('\r', 2)
  | 'e' :: _ => some ('\x1b', 2)
  | ' ' :: _ => some (' ', 2)
  | '"' :: _ => some ('"', 2)
  | '/' :: _ => some ('/', 2)
  | '\\' :: _ => some ('\\', 2)
  | 'N' :: _ => some ('\u0085', 2)
  | '_' :: _ => some ('\u00a0', 2)
  | 'L' :: _ => some ('\u2028', 2)
  | 'P' :: _ => some ('\u2029', 2)
  | _ => none

/-- The rest of a text between single quotes, in which a quote is written twice. -/
def singleQuotedFrom? (fuel : Nat) (read : List Char) (c : Cursor) : Option Found :=
  match fuel, c.rest with
  | fuel + 1, ch :: rest =>
    if c.atMark then none
    else if ch == '\'' then
      if rest.head? == some '\'' then singleQuotedFrom? fuel ('\'' :: read) (c.skip 2)
      else some ⟨read.reverse, c.skip 1⟩
    else if isGap ch then do
      let (gap, c) ← Gap.read? 0 {} c
      singleQuotedFrom? fuel (gap.text.reverse ++ read) c
    else singleQuotedFrom? fuel (ch :: read) (c.skip 1)
  | _, _ => none

/-- The rest of a text between double quotes, in which a backslash makes escapes. A line
break behind a backslash counts for nothing. -/
def doubleQuotedFrom? (fuel : Nat) (read : List Char) (c : Cursor) : Option Found :=
  match fuel, c.rest with
  | fuel + 1, ch :: rest =>
    if ch == '"' then some ⟨read.reverse, c.skip 1⟩
    else if c.atMark then none
    else if ch == '\\' then
      if (rest.head?).any isBreak then do
        let (gap, c) ← Gap.read? 0 { endsLine := true } (c.skip 1).skipBreak
        doubleQuotedFrom? fuel (gap.text.reverse ++ read) c
      else do
        let (ch, length) ← escape? rest
        doubleQuotedFrom? fuel (ch :: read) (c.skip length)
    else if isGap ch then do
      let (gap, c) ← Gap.read? 0 {} c
      doubleQuotedFrom? fuel (gap.text.reverse ++ read) c
    else doubleQuotedFrom? fuel (ch :: read) (c.skip 1)
  | _, _ => none

/-- A text that begins with a quote. -/
def quoted? (c : Cursor) : Option Found :=
  if c.nextIs '"' then doubleQuotedFrom? c.rest.length [] (c.skip 1)
  else singleQuotedFrom? c.rest.length [] (c.skip 1)

/-- Whether a plain text ends in front of some characters. Inside brackets it may not go
on behind a colon with a bracket, a comma or a question mark. -/
def endsPlain? (inFlow : Bool) (cs : List Char) : Option Bool :=
  match cs with
  | [] => some true
  | ':' :: rest =>
    match rest with
    | [] => some true
    | ch :: _ =>
      if isGap ch then some true
      else if inFlow && (isFlowIndicator ch || ch == '?') then none
      else some false
  | ch :: _ => some (isGap ch || (inFlow && isFlowIndicator ch))

/-- A plain text up to the first blank, line break or end. -/
def plainWord? (inFlow : Bool) (fuel : Nat) (read : List Char) (c : Cursor) : Option Found :=
  match fuel, c.rest with
  | fuel + 1, ch :: _ => do
    if ← endsPlain? inFlow c.rest then return ⟨read.reverse, c⟩
    plainWord? inFlow fuel (ch :: read) (c.skip 1)
  | _, _ => some ⟨read.reverse, c⟩

/-- The rest of a plain text behind what was read of it and a stretch of blanks. The answer
says also whether a line ended behind the text. -/
def plainFrom? (inFlow : Bool) (column fuel : Nat) (read : List Char) (gap : Gap) (c : Cursor) :
    Option (Found × Bool) :=
  match fuel with
  | 0 => some (⟨read, c⟩, gap.endsLine)
  | fuel + 1 =>
    if c.atMark || c.nextIs '#' then some (⟨read, c⟩, gap.endsLine)
    else do
      let word ← plainWord? inFlow c.rest.length [] c
      if word.text.isEmpty then return (⟨read, c⟩, gap.endsLine)
      let read := read ++ gap.text ++ word.text
      if !word.behind.next isGap then return (⟨read, word.behind⟩, false)
      let (gap, c) ← Gap.read? column {} word.behind
      if !inFlow && c.column < column then return (⟨read, c⟩, gap.endsLine)
      plainFrom? inFlow column fuel read gap c

/-- A plain text. Outside brackets its further lines begin at a column or behind it. -/
def plain? (inFlow : Bool) (column : Nat) (c : Cursor) : Option (Found × Bool) :=
  plainFrom? inFlow column (c.rest.length + 1) [] {} c

/-- What becomes of the line breaks at the end of a block. -/
inductive Chomping
  | strip
  | clip
  | keep
  deriving DecidableEq, Repr, Inhabited

/-- What stands in the header of a block. -/
structure BlockHeader where
  folded : Bool
  chomping : Chomping := .clip
  /-- How far the block is indented, if the header says it. -/
  increment : Option Nat := none
  deriving Repr, Inhabited

private def chomping? (c : Cursor) : Option Chomping :=
  if c.nextIs '+' then some .keep else if c.nextIs '-' then some .strip else none

/-- A digit from 1 to 9, or a failure where there is a zero. -/
private def increment? (c : Cursor) : Option (Option Nat) :=
  match c.rest with
  | ch :: _ =>
    if ch == '0' then none
    else some (if ch.isDigit then some (ch.toNat - '0'.toNat) else none)
  | [] => some none

/-- The header of a block, up to the end of its line. -/
def blockHeader? (c : Cursor) : Option (BlockHeader × Cursor) := do
  let folded := c.nextIs '>'
  let c := c.skip 1
  let step (found : Bool) (c : Cursor) : Cursor := if found then c.skip 1 else c
  let before := chomping? c
  let c := step before.isSome c
  let increment ← increment? c
  let c := step increment.isSome c
  let behind := if before.isNone && increment.isSome then chomping? c else none
  let c := step behind.isSome c
  return (⟨folded, (before <|> behind).getD .clip, increment⟩, ← c.restOfHeader?)

/-- Where the empty lines at a place end. -/
structure EmptyLines where
  breaks : List Char := []
  /-- The farthest column that is reached in them. -/
  widest : Nat := 0
  deriving Repr, Inhabited

/-- Empty lines, and the indentation of the line behind them. No tab may stand in it. -/
def emptyLines? (indent : Option Nat) (fuel : Nat) (lines : EmptyLines) (c : Cursor) :
    Option (EmptyLines × Cursor) :=
  let blanks := (c.taken (· == ' ')).length
  let c := c.skip (match indent with
    | some n => min blanks (n - c.column)
    | none => blanks)
  let lines := { lines with widest := max lines.widest c.column }
  if c.nextIs '\t' && indent.all (c.column < ·) then none
  else match fuel with
    | 0 => some (lines, c)
    | fuel + 1 =>
      if c.next isBreak then
        let (br, c) := c.takeBreak
        emptyLines? indent fuel { lines with breaks := lines.breaks ++ br } c
      else some (lines, c)

/-- The lines of a block from one of its lines on. `lastBreak` is the line break in front
of the line, `breaks` are those of the empty lines between, and `blankBefore` says that the line
before began with a blank. -/
def blockLines? (header : BlockHeader) (indent fuel : Nat) (read lastBreak breaks : List Char)
    (blankBefore : Bool) (c : Cursor) : Option Found :=
  match fuel with
  | 0 => none
  | fuel + 1 =>
    if c.column != indent || c.atEnd then
      let kept := match header.chomping with
        | .strip => []
        | .clip => lastBreak
        | .keep => lastBreak ++ breaks
      some ⟨read ++ kept, c⟩
    else do
      let blank := c.next isBlank
      let joined :=
        if header.folded && lastBreak == ['\n'] && !blankBefore && !blank then
          if breaks.isEmpty then [' '] else breaks
        else lastBreak ++ breaks
      let line := c.taken (!isBreak ·)
      let (lastBreak, c) := c.skipToLineEnd.takeBreak
      let (empty, c) ← emptyLines? (some indent) c.rest.length {} c
      blockLines? header indent fuel (read ++ joined ++ line) lastBreak empty.breaks blank c

/-- A block. Its lines are indented farther than `parent`, which is the column of the list
or map around it. -/
def block? (parent : Option Nat) (c : Cursor) : Option Found := do
  let (header, c) ← blockHeader? c
  let least := (parent.map (· + 1)).getD 0
  let (empty, c) ← emptyLines? (header.increment.map ((parent.getD 0) + ·)) c.rest.length {} c
  let indent := (header.increment.map ((parent.getD 0) + ·)).getD (max (max empty.widest least) 1)
  blockLines? header indent (c.rest.length + 1) [] [] empty.breaks false c

end Highlighter.Yaml
