import Highlighter.Data.Yaml.Token

/-!
The tokens of a source from its layout. Only a colon shows that what stands in front of it
is a key, so the places where a key may have begun are remembered, and the tokens of the
keys that were found are put among the others at the end.
-/

namespace Highlighter.Yaml

/-- A place where a key may have begun. -/
structure KeyPlace where
  /-- The number of the token there. -/
  token : Nat
  cursor : Cursor
  /-- Whether nothing but a key may begin there. -/
  required : Bool
  deriving Repr, Inhabited

/-- What is known of a source up to a place. -/
structure Layout where
  cursor : Cursor
  tokens : Array Token := #[]
  /-- The numbers of the tokens that keys begin with, and whether a map begins with the key. -/
  keys : List (Nat × Bool) := []
  /-- The columns of the lists and maps around the place, the innermost first. -/
  indents : List Nat := []
  /-- The place where a key may have begun, for each bracket around and outside them. -/
  candidates : List (Option KeyPlace) := [none]
  /-- Whether a key may begin here. -/
  keyAllowed : Bool := true
  deriving Inhabited

namespace Layout

/-- Whether there are brackets around. -/
def inFlow (s : Layout) : Bool := s.candidates.length > 1

def emit (s : Layout) (t : Token) : Layout := { s with tokens := s.tokens.push t }

def goTo (s : Layout) (c : Cursor) : Layout := { s with cursor := c }

/-- A token for some characters of the line. -/
def take (s : Layout) (t : Token) (count : Nat) : Layout :=
  (s.emit t).goTo (s.cursor.skip count)

def allowKey (s : Layout) (allowed : Bool) : Layout := { s with keyAllowed := allowed }

/-- No key began inside the innermost bracket. -/
def forgetKey? (s : Layout) : Option Layout :=
  match s.candidates with
  | some k :: rest => if k.required then none else some { s with candidates := none :: rest }
  | _ => some s

/-- A key may begin here. -/
def noteKey? (s : Layout) : Option Layout := do
  if !s.keyAllowed then return s
  let required := !s.inFlow && s.indents.head? == some s.cursor.column
  let s ← s.forgetKey?
  return { s with candidates := some ⟨s.tokens.size, s.cursor, required⟩ :: s.candidates.drop 1 }

/-- A key stays on one line and is not longer than 1024 bytes. -/
def dropStaleKeys? (s : Layout) : Option Layout := do
  let check (k : Option KeyPlace) : Option (Option KeyPlace) :=
    match k with
    | none => some none
    | some k =>
      if k.cursor.line < s.cursor.line || k.cursor.index + 1024 < s.cursor.index then
        if k.required then none else some none
      else some (some k)
  return { s with candidates := ← s.candidates.mapM check }

/-- Whether a column is farther than the lists and maps around. -/
def isDeeper (s : Layout) (column : Nat) : Bool := s.indents.head?.all (· < column)

/-- A list or map begins at a column, unless it has begun already. -/
def indent (s : Layout) (t : Token) (column : Nat) : Layout :=
  if !s.inFlow && s.isDeeper column then { s.emit t with indents := column :: s.indents } else s

/-- The lists and maps for which a test holds end, from the innermost on. -/
def dedent (s : Layout) (ends : Nat → Bool) : Layout :=
  if s.inFlow then s
  else
    let closed := s.indents.takeWhile ends
    { s with
      tokens := s.tokens ++ Array.replicate closed.length .blockEnd
      indents := s.indents.drop closed.length }

/-- The place of the next token: blanks, comments and line ends come before it, and at the
beginning of a line a byte order mark. Where a key may begin outside brackets, no tab stands in
front of it. -/
def skipGaps (fuel : Nat) (s : Layout) : Layout :=
  let c := s.cursor
  let c := if c.column == 0 && c.nextIs '\ufeff' then c.skip 1 else c
  let c := c.skipAll fun ch => ch == ' ' || (ch == '\t' && (s.inFlow || !s.keyAllowed))
  let c := if c.nextIs '#' then c.skipToLineEnd else c
  match fuel with
  | 0 => s.goTo c
  | fuel + 1 =>
    if c.next isBreak then
      skipGaps fuel { s with cursor := c.skipBreak, keyAllowed := s.keyAllowed || !s.inFlow }
    else s.goTo c

/-- The end of the source or of a document ends all lists and maps. -/
def closeAll? (s : Layout) : Option Layout := do
  return (← (s.dedent fun _ => true).forgetKey?).allowKey false

def openFlow? (s : Layout) (t : Token) : Option Layout := do
  let s ← s.noteKey?
  return ({ s with candidates := none :: s.candidates }.allowKey true).take t 1

def closeFlow? (s : Layout) (t : Token) : Option Layout := do
  let s ← s.forgetKey?
  let candidates := if s.inFlow then s.candidates.drop 1 else s.candidates
  return ({ s with candidates }.allowKey false).take t 1

def comma? (s : Layout) : Option Layout := do
  return ((← s.forgetKey?).allowKey true).take .comma 1

/-- The dash of an item, or the question mark of a key, begins a list or a map. -/
def entry? (s : Layout) (start : Token) : Option Layout := do
  if !s.inFlow && !s.keyAllowed then none
  (s.indent start s.cursor.column).forgetKey?

def dash? (s : Layout) : Option Layout := do
  return ((← s.entry? .listStart).allowKey true).take .dash 1

def key? (s : Layout) : Option Layout := do
  return ((← s.entry? .mapStart).allowKey !s.inFlow).take .key 1

/-- A colon: what may have been a key in front of it was one. -/
def value? (s : Layout) : Option Layout := do
  match s.candidates with
  | some k :: rest =>
    let opens := !s.inFlow && s.isDeeper k.cursor.column
    let s :=
      { s with
        keys := (k.token, opens) :: s.keys
        indents := if opens then k.cursor.column :: s.indents else s.indents
        candidates := none :: rest }
    return (s.allowKey false).take .value 1
  | _ =>
    if !s.inFlow && !s.keyAllowed then none
    return ((s.indent .mapStart s.cursor.column).allowKey !s.inFlow).take .value 1

/-- An anchor, an alias, a tag or a scalar, which may be a key or belong to one. -/
def node? (s : Layout) (read : Cursor → Option (Token × Cursor)) : Option Layout := do
  let s ← s.noteKey?
  let (t, c) ← read s.cursor
  return ((s.allowKey false).emit t).goTo c

def plain? (s : Layout) : Option Layout := do
  let s ← s.noteKey?
  let column := (s.indents.head?.map (· + 1)).getD 0
  let (found, endsLine) ← Yaml.plain? s.inFlow column s.cursor
  return ((s.allowKey endsLine).emit (.scalar .plain (String.ofList found.text))).goTo found.behind

def block? (s : Layout) : Option Layout := do
  let s ← s.forgetKey?
  let found ← Yaml.block? s.indents.head? s.cursor
  let style : Style := if s.cursor.nextIs '>' then .folded else .literal
  return ((s.allowKey true).emit (.scalar style (String.ofList found.text))).goTo found.behind

private def anchor? (make : String → Token) (c : Cursor) : Option (Token × Cursor) :=
  (Token.anchorName? c).map fun (name, c) => (make name, c)

private def quotedToken? (c : Cursor) : Option (Token × Cursor) :=
  (Yaml.quoted? c).map fun found => (.scalar .quoted (String.ofList found.text), found.behind)

/-- The characters that no plain text begins with. -/
private def isIndicator (ch : Char) : Bool :=
  "-?:,[]\x7b\x7d#&*!|>'\"%@".toList.contains ch || ch.toNat == 0x60

/-- Whether a plain text begins at a place. -/
def beginsPlain (s : Layout) : Bool :=
  let c := s.cursor
  c.next fun ch =>
    !(isGap ch || isIndicator ch) || (ch == '-' && !c.ahead 1 isBlank)
      || (!s.inFlow && (ch == '?' || ch == ':') && !c.gapAhead 1)

/-- Adds the next token, and the ends of the lists and maps in front of it. -/
def step? (s : Layout) : Option Layout := do
  let s ← (s.skipGaps s.cursor.rest.length).dropStaleKeys?
  let s := s.dedent (s.cursor.column < ·)
  let c := s.cursor
  match c.rest.head? with
  | none => return ((← s.closeAll?).emit .sourceEnd).goTo c.lineEnded
  | some ch =>
    if c.column == 0 && ch == '%' then
      let s ← s.closeAll?
      let (t, c) ← Token.directive? c
      return (s.emit t).goTo c
    else if c.marksWith '-' then return (← s.closeAll?).take .documentStart 3
    else if c.marksWith '.' then return (← s.closeAll?).take .documentEnd 3
    else if ch == '[' then s.openFlow? .openBracket
    else if ch == '\x7b' then s.openFlow? .openBrace
    else if ch == ']' then s.closeFlow? .closeBracket
    else if ch == '\x7d' then s.closeFlow? .closeBrace
    else if ch == ',' then s.comma?
    else if ch == '-' && c.gapAhead 1 then s.dash?
    else if ch == '?' && (s.inFlow || c.gapAhead 1) then s.key?
    else if ch == ':' && (s.inFlow || c.gapAhead 1) then s.value?
    else if ch == '*' then s.node? (anchor? .alias)
    else if ch == '&' then s.node? (anchor? .anchor)
    else if ch == '!' then s.node? (Token.tag? s.inFlow)
    else if (ch == '|' || ch == '>') && !s.inFlow then s.block?
    else if ch == '\'' || ch == '"' then s.node? quotedToken?
    else if s.beginsPlain then s.plain?
    else none

/-- How many tokens are certain: a key may still be found in front of the others. -/
def certain (s : Layout) : Nat :=
  s.candidates.foldl (fun n k => match k with
    | some k => min n k.token
    | none => n) s.tokens.size

/-- Some of the tokens with those of the keys among them. -/
def spliced (s : Layout) (count : Nat) : List Token :=
  (List.range count).flatMap fun n =>
    let inserted := match s.keys.lookup n with
      | some opens => if opens then [.mapStart, .key] else [.key]
      | none => []
    inserted ++ (s.tokens[n]?).toList

/-- The tokens from a place on. They break off where the source is not well formed. -/
def run (fuel : Nat) (s : Layout) : List Token :=
  match fuel with
  | 0 => s.spliced s.certain
  | fuel + 1 =>
    match s.step?.bind dropStaleKeys? with
    | none => s.spliced s.certain
    | some next =>
      if next.tokens.back? == some .sourceEnd then next.spliced next.tokens.size
      else run fuel next

end Layout

/-- The tokens of a source. -/
def tokens (source : String) : List Token :=
  let cs := source.toList
  if cs.all isAllowed then Layout.run (cs.length + 1) { cursor := { rest := cs } } else []

end Highlighter.Yaml
