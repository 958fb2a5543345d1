import Highlighter.Data.Yaml.Scalar
import Highlighter.Data.Yaml.Text

/-!
The tokens of a YAML source. Indentation gives tokens of its own: a list or map that is
written on several lines begins where its first entry stands and ends in front of the first
line that is indented less.
-/

namespace Highlighter.Yaml

inductive Token
  | version (major minor : Nat)
  | tagHandle (name : String) (replacement : List UInt8)
  | documentStart
  | documentEnd
  | sourceEnd
  | listStart
  | mapStart
  | blockEnd
  | openBracket
  | closeBracket
  | openBrace
  | closeBrace
  | comma
  | dash
  | key
  | value
  | alias (name : String)
  | anchor (name : String)
  | tag (handle : String) (suffix : List UInt8)
  | scalar (style : Style) (text : String)
  deriving DecidableEq, Repr, Inhabited

namespace Token

/-- The name behind the sign of an anchor or an alias. -/
def anchorName? (c : Cursor) : Option (String × Cursor) :=
  let c := c.skip 1
  let name := c.taken isNameChar
  let c := c.skipAll isNameChar
  let closes (ch : Char) : Bool :=
    ch == '?' || ch == ':' || ch == ',' || ch == ']' || ch == '\x7d' || ch == '%' || ch == '@'
      || ch.toNat == 0x60
  if !name.isEmpty && (c.gapAhead 0 || c.next closes) then some (String.ofList name, c) else none

/-- How many bytes a character has that begins with a byte. -/
private def encodedLength (first : Nat) : Nat :=
  if first < 0x80 then 1
  else if 0xc0 ≤ first && first < 0xe0 then 2
  else if 0xe0 ≤ first && first < 0xf0 then 3
  else if 0xf0 ≤ first && first < 0xf8 then 4
  else 0

/-- The bytes that escapes with a percent sign stand for: a first one, and as many others as it
announces. Whether they make up a character does not matter. -/
private def escapedBytes? (c : Cursor) : Option (List UInt8 × Cursor) :=
  let byte? (c : Cursor) : Option (Nat × Cursor) := do
    if !c.nextIs '%' then none
    return (← hexNumber? 2 (c.rest.drop 1), c.skip 3)
  do
    let (first, c) ← byte? c
    let length := encodedLength first
    if length = 0 then none
    (List.range (length - 1)).foldlM
      (fun (bytes, c) _ => do
        let (b, c) ← byte? c
        if 0x80 ≤ b && b < 0xc0 then return (bytes ++ [UInt8.ofNat b], c) else none)
      ([UInt8.ofNat first], c)

private def isUriChar (verbatim : Bool) (c : Char) : Bool :=
  isNameChar c || ";/?:@&=+$.%!~*'()".toList.contains c
    || (verbatim && (c == ',' || c == '[' || c == ']'))

private def uriFrom? (verbatim : Bool) (fuel : Nat) (read : List UInt8) (c : Cursor) :
    Option (List UInt8 × Cursor) :=
  match fuel, c.rest with
  | fuel + 1, ch :: _ =>
    if ch == '%' then do
      let (bytes, c) ← escapedBytes? c
      uriFrom? verbatim fuel (read ++ bytes) c
    else if isUriChar verbatim ch then
      uriFrom? verbatim fuel (read ++ [UInt8.ofNat ch.toNat]) (c.skip 1)
    else some (read, c)
  | _, _ => some (read, c)

/-- The characters of a tag. More are allowed where it is written out in full. -/
def uri? (verbatim : Bool) (c : Cursor) : Option (List UInt8 × Cursor) :=
  uriFrom? verbatim c.rest.length [] c

/-- The bytes of a tag that count: those in front of a zero. -/
def meant (bytes : List UInt8) : List UInt8 := bytes.takeWhile (· != 0)

/-- The handle of a tag: a word between two exclamation marks, or what there is of it. -/
def handleWord (c : Cursor) : List Char × Cursor :=
  let word := (c.skip 1).taken isNameChar
  let c := (c.skip 1).skipAll isNameChar
  if c.nextIs '!' then ('!' :: word ++ ['!'], c.skip 1) else ('!' :: word, c)

/-- A tag without a check of what follows. -/
private def tagItself? (c : Cursor) : Option (Token × Cursor) := do
  if c.ahead 1 (· == '<') then
    let (suffix, c) ← uri? true (c.skip 2)
    if !suffix.isEmpty && c.nextIs '>' then return (.tag "" (meant suffix), c.skip 1) else none
  else
    let (handle, c) := handleWord c
    let (suffix, c) ← uri? false c
    if handle.length > 1 && handle.getLast? == some '!' then
      if suffix.isEmpty then none else return (.tag (String.ofList handle) (meant suffix), c)
    else
      match meant ((handle.drop 1).map (fun ch => UInt8.ofNat ch.toNat) ++ suffix) with
      | [] => return (.tag "" [0x21], c)
      | suffix => return (.tag "!" suffix, c)

/-- A tag. A blank follows it or, inside brackets, a comma. -/
def tag? (inFlow : Bool) (c : Cursor) : Option (Token × Cursor) := do
  let (t, c) ← tagItself? c
  if c.gapAhead 0 || (inFlow && c.nextIs ',') then return (t, c) else none

/-- A number of at most nine digits. -/
private def shortNumber? (c : Cursor) : Option (Nat × Cursor) :=
  let ds := c.taken Char.isDigit
  if ds.isEmpty || ds.length > 9 then none
  else some (Json.valueOf ds, c.skipAll Char.isDigit)

private def version? (c : Cursor) : Option (Token × Cursor) := do
  let (major, c) ← shortNumber? c
  if !c.nextIs '.' then none
  let (minor, c) ← shortNumber? (c.skip 1)
  return (.version major minor, c)

private def handle? (c : Cursor) : Option (Token × Cursor) := do
  if !c.nextIs '!' then none
  let (name, c) := handleWord c
  if name.length > 1 && name.getLast? != some '!' then none
  if !c.next isBlank then none
  let (replacement, c) ← uri? true (c.skipAll isBlank)
  if replacement.isEmpty || !c.gapAhead 0 then none
  return (.tagHandle (String.ofList name) (meant replacement), c)

/-- A directive up to the end of its line: the version of the notation, or a handle for
tags. -/
def directive? (c : Cursor) : Option (Token × Cursor) := do
  let c := c.skip 1
  let name := String.ofList (c.taken isNameChar)
  let c := c.skipAll isNameChar
  if !c.gapAhead 0 then none
  let c := c.skipAll isBlank
  let (t, c) ← if name == "YAML" then version? c else if name == "TAG" then handle? c else none
  return (t, ← c.restOfHeader?)

end Token

end Highlighter.Yaml
