import Highlighter.Data.Doc

/-!
Reading JSON. Lists and maps nested deeper than `Json.maxDepth` break off.
-/

namespace Highlighter.Json

/-- Lists and maps may be nested so deep. -/
def maxDepth : Nat := 127

def isBlank (c : Char) : Bool := c == ' ' || c == '\n' || c == '\t' || c == '\r'

/-- The value of a hexadecimal digit. -/
def hexDigit? (c : Char) : Option Nat :=
  if c.isDigit then some (c.toNat - '0'.toNat)
  else if 'a' ≤ c && c ≤ 'f' then some (c.toNat - 'a'.toNat + 10)
  else if 'A' ≤ c && c ≤ 'F' then some (c.toNat - 'A'.toNat + 10)
  else none

/-- Four hexadecimal digits at the beginning of a text. -/
def hexUnit? : List Char → Option (Nat × List Char)
  | a :: b :: c :: d :: rest => do
    let a ← hexDigit? a
    let b ← hexDigit? b
    let c ← hexDigit? c
    let d ← hexDigit? d
    return (((a * 16 + b) * 16 + c) * 16 + d, rest)
  | _ => none

/-- The character after `\u`, which two such escapes make if the first is a surrogate. -/
def unicode? (cs : List Char) : Option (Char × List Char) := do
  let (n, rest) ← hexUnit? cs
  if 0xDC00 ≤ n && n ≤ 0xDFFF then none
  else if 0xD800 ≤ n && n ≤ 0xDBFF then
    match rest with
    | '\\' :: 'u' :: rest =>
      let (low, rest) ← hexUnit? rest
      if 0xDC00 ≤ low && low ≤ 0xDFFF then
        some (Char.ofNat (0x10000 + (n - 0xD800) * 0x400 + (low - 0xDC00)), rest)
      else none
    | _ => none
  else some (Char.ofNat n, rest)

/-- The character that one letter after a backslash stands for. -/
def escaped? (c : Char) : Option Char :=
  match c with
  | '"' => some '"'
  | '\\' => some '\\'
  | '/' => some '/'
  | 'b' => some '\x08'
  | 'f' => some '\x0c'
  | 'n' => some '\n'
  | 'r' => some '\r'
  | 't' => some '\t'
  | _ => none

/-- The rest of a string behind its opening quote. -/
def string? (fuel : Nat) (read : List Char) (cs : List Char) : Option (String × List Char) :=
  match fuel, cs with
  | _, '"' :: rest => some (String.ofList read.reverse, rest)
  | fuel + 1, '\\' :: 'u' :: rest =>
    (unicode? rest).bind fun (c, rest) => string? fuel (c :: read) rest
  | fuel + 1, '\\' :: c :: rest => (escaped? c).bind fun c => string? fuel (c :: read) rest
  | fuel + 1, c :: rest =>
    if c.toNat < 0x20 || c == '\\' then none else string? fuel (c :: read) rest
  | _, _ => none

/-- Decimal digits at the beginning of a text. -/
def digits (cs : List Char) : List Char × List Char :=
  (cs.takeWhile Char.isDigit, cs.dropWhile Char.isDigit)

/-- The value of decimal digits. -/
def valueOf (ds : List Char) : Nat := ds.foldl (fun n c => 10 * n + (c.toNat - '0'.toNat)) 0

/-- The exponent at the beginning of a text, zero if there is none. -/
def exponent? (cs : List Char) : Option (Bool × Int × List Char) :=
  match cs with
  | c :: rest =>
    if c == 'e' || c == 'E' then
      let (negative, rest) := match rest with
        | '-' :: rest => (true, rest)
        | '+' :: rest => (false, rest)
        | rest => (false, rest)
      let (ds, rest) := digits rest
      if ds.isEmpty then none
      else some (true, if negative then -(valueOf ds : Int) else valueOf ds, rest)
    else some (false, 0, cs)
  | [] => some (false, 0, cs)

/-- Takes digits into a significand as long as it has room for them in 64 bits. The digits
without room are left. -/
def significand (n : Nat) : List Char → Nat × List Char
  | [] => (n, [])
  | c :: cs =>
    let m := 10 * n + (c.toNat - '0'.toNat)
    if m < UInt64.size then significand m cs else (n, c :: cs)

/-- A number times a power of ten. A negative power goes in steps of at most 308 places,
each of which rounds the number again. What is too great for a number is none. -/
def scaled? (x : Double) (exponent : Int) : Option Double :=
  if x.bits == 0 then some x
  else if exponent < -308 then scaled? (x.div (.ofDecimal 1 308)) (exponent + 308)
  else if exponent < 0 then some (x.div (.ofDecimal 1 (-exponent)))
  else if exponent ≤ 308 then
    let y := x.mul (.ofDecimal 1 exponent)
    if y.isFinite then some y else none
  else none
termination_by (-exponent).toNat

/-- A number: an integer if it is written as one and fits in 64 bits. Of any other number as
many digits count as fit in 64 bits. -/
def number? (cs : List Char) : Option (Scalar × List Char) := do
  let (negative, cs) := match cs with
    | '-' :: rest => (true, rest)
    | cs => (false, cs)
  let (whole, rest) := digits cs
  if whole.isEmpty || (whole.length > 1 && whole.head? == some '0') then none
  let (fraction, rest) ← match rest with
    | '.' :: rest =>
      let (ds, rest) := digits rest
      if ds.isEmpty then none else some (ds, rest)
    | rest => some ([], rest)
  let (scaled, exponent, rest) ← exponent? rest
  let n := valueOf whole
  if fraction.isEmpty && !scaled && !negative && n < UInt64.size then
    return (.int n, rest)
  else if fraction.isEmpty && !scaled && negative && 0 < n && n ≤ UInt64.size / 2 then
    return (.int (-(n : Int)), rest)
  else
    let (n, uncounted) := significand 0 whole
    let (m, lost) := significand n fraction
    let x ← scaled? (.ofNat m) (exponent + uncounted.length - (fraction.length - lost.length))
    return (.float (if negative then x.neg else x), rest)

/-- A value that is neither a list nor a map. -/
def scalar? (cs : List Char) : Option (Scalar × List Char) :=
  match cs with
  | 'n' :: 'u' :: 'l' :: 'l' :: rest => some (.null, rest)
  | 't' :: 'r' :: 'u' :: 'e' :: rest => some (.bool true, rest)
  | 'f' :: 'a' :: 'l' :: 's' :: 'e' :: rest => some (.bool false, rest)
  | '"' :: rest => (string? rest.length [] rest).map fun (s, rest) => (.string s, rest)
  | cs => number? cs

/-- The text behind the blanks at its beginning. -/
def skip (cs : List Char) : List Char := cs.dropWhile isBlank

mutual

/-- A value, and the text behind it unless the source breaks off in it. -/
def value (fuel depth : Nat) (cs : List Char) : Doc × Option (List Char) :=
  match fuel, skip cs with
  | fuel + 1, '[' :: rest =>
    match depth with
    | 0 => (.list [] false, none)
    | depth + 1 =>
      match skip rest with
      | ']' :: rest => (.list [] true, some rest)
      | rest =>
        let (items, behind) := items fuel depth rest
        (.list items behind.isSome, behind)
  | fuel + 1, '{' :: rest =>
    match depth with
    | 0 => (.map [] false, none)
    | depth + 1 =>
      match skip rest with
      | '}' :: rest => (.map [] true, some rest)
      | rest =>
        let (entries, behind) := entries fuel depth rest
        (.map entries behind.isSome, behind)
  | _ + 1, cs =>
    match scalar? cs with
    | some (s, rest) => (.scalar s, some rest)
    | none => (.fault, none)
  | 0, _ => (.fault, none)

/-- The items of a list, up to its end. -/
def items (fuel depth : Nat) (cs : List Char) : List Doc × Option (List Char) :=
  match fuel with
  | 0 => ([], none)
  | fuel + 1 =>
    let (first, behind) := value fuel depth cs
    match behind.map skip with
    | some (',' :: rest) =>
      let (others, behind) := items fuel depth rest
      (first :: others, behind)
    | some (']' :: rest) => ([first], some rest)
    | _ => ([first], none)

/-- The entries of a map, up to its end. -/
def entries (fuel depth : Nat) (cs : List Char) : List (Doc × Doc) × Option (List Char) :=
  match fuel, skip cs with
  | fuel + 1, '"' :: rest =>
    match string? rest.length [] rest with
    | none => ([], none)
    | some (key, rest) =>
      match skip rest with
      | ':' :: rest =>
        let (first, behind) := value fuel depth rest
        match behind.map skip with
        | some (',' :: rest) =>
          let (others, behind) := entries fuel depth rest
          ((.string key, first) :: others, behind)
        | some ('}' :: rest) => ([(.string key, first)], some rest)
        | _ => ([(.string key, first)], none)
      | _ => ([(.string key, .fault)], none)
  | _, _ => ([], none)

end

/-- Reads a source. -/
def read (source : String) : Doc.Source :=
  let cs := source.toList
  let (root, behind) := value (2 * cs.length + 2) maxDepth cs
  ⟨root, behind.any fun rest => (skip rest).isEmpty⟩

end Highlighter.Json
