import Highlighter.Data.Json.Reader
import Highlighter.Data.Yaml.Text

/-!
The strings, numbers and dates of TOML sources.
-/

namespace Highlighter.Toml

def isBlank (c : Char) : Bool := c == ' ' || c == '\t'

/-- Whether a character may stand in comments and on the lines of strings. -/
def isPrintable (c : Char) : Bool := c == '\t' || (' ' ≤ c && c ≤ '~') || '\u0080' ≤ c

def isBareKeyChar (c : Char) : Bool := c.isAlphanum || c == '_' || c == '-'

/-- The text behind a line end. -/
def newline? : List Char → Option (List Char)
  | '\n' :: rest => some rest
  | '\r' :: '\n' :: rest => some rest
  | _ => none

def skipBlanks (cs : List Char) : List Char := cs.dropWhile isBlank

/-- The text behind blanks, and behind a comment if there is one. -/
def skipComment (cs : List Char) : List Char :=
  match skipBlanks cs with
  | '#' :: rest => rest.dropWhile isPrintable
  | rest => rest

/-- The text behind the rest of a line, on which there is nothing but a comment. -/
def lineEnd? (cs : List Char) : Option (List Char) :=
  match skipComment cs with
  | [] => some []
  | rest => newline? rest

/-- The text behind blanks, comments and line ends. -/
def skipLines (fuel : Nat) (cs : List Char) : List Char :=
  match fuel, newline? (skipComment cs) with
  | fuel + 1, some rest => skipLines fuel rest
  | _, _ => skipBlanks cs

/-- The character that a backslash and what follows stand for. -/
def escape? (cs : List Char) : Option (Char × List Char) :=
  let coded (digits : Nat) (rest : List Char) : Option (Char × List Char) := do
    return (← Yaml.charOf? (← Yaml.hexNumber? digits rest), rest.drop digits)
  match cs with
  | 'u' :: rest => coded 4 rest
  | 'U' :: rest => coded 8 rest
  | '/' :: _ => none
  | c :: rest => (Json.escaped? c).map (·, rest)
  | [] => none

/-- The rest of a string on one line, in which a backslash makes escapes if `escapes`. -/
def lineString? (escapes : Bool) (quote : Char) (fuel : Nat) (read cs : List Char) :
    Option (String × List Char) :=
  match fuel, cs with
  | fuel + 1, c :: rest =>
    if c == quote then some (String.ofList read.reverse, rest)
    else if c == '\\' && escapes then do
      let (c, rest) ← escape? rest
      lineString? escapes quote fuel (c :: read) rest
    else if isPrintable c then lineString? escapes quote fuel (c :: read) rest
    else none
  | _, _ => none

/-- The text behind blanks and line ends, of which the first one comes before anything else. -/
def skipBrokenLine? (cs : List Char) : Option (List Char) :=
  let isGap (c : Char) : Bool := isBlank c || c == '\n' || c == '\r'
  (newline? (skipBlanks cs)).bind fun rest =>
    let gap := rest.takeWhile isGap
    if (gap.zip (gap.drop 1 ++ [' '])).all fun (a, b) => a != '\r' || b == '\n' then
      some (rest.dropWhile isGap)
    else none

/-- The rest of a string over several lines, which three quotes close. Up to two more quotes
in front of them belong to the string, and a backslash at the end of a line leaves out the
line break and the blanks behind it. -/
def blockString? (escapes : Bool) (quote : Char) (fuel : Nat) (read cs : List Char) :
    Option (String × List Char) :=
  match fuel, cs with
  | fuel + 1, c :: rest =>
    if c == quote then
      let quotes := (cs.takeWhile (· == quote)).length
      if quotes < 3 then
        blockString? escapes quote fuel (List.replicate quotes quote ++ read) (cs.drop quotes)
      else
        let kept := min (quotes - 3) 2
        some (String.ofList (read.reverse ++ List.replicate kept quote), cs.drop (kept + 3))
    else if c == '\\' && escapes then
      match skipBrokenLine? rest with
      | some rest => blockString? escapes quote fuel read rest
      | none => do
        let (c, rest) ← escape? rest
        blockString? escapes quote fuel (c :: read) rest
    else match newline? cs with
      | some rest => blockString? escapes quote fuel ('\n' :: read) rest
      | none => if isPrintable c then blockString? escapes quote fuel (c :: read) rest else none
  | _, _ => none

/-- A string with its quotes. -/
def string? (cs : List Char) : Option (String × List Char) :=
  match cs with
  | quote :: a :: b :: rest =>
    let escapes := quote == '"'
    if a == quote && b == quote then
      blockString? escapes quote (rest.length + 1) [] ((newline? rest).getD rest)
    else lineString? escapes quote (rest.length + 3) [] (a :: b :: rest)
  | [quote, a] => lineString? (quote == '"') quote 2 [] [a]
  | _ => none

/-- Digits, between which there may be single underscores. -/
def digits? (isDigit : Char → Bool) (cs : List Char) : Option (List Char × List Char) :=
  let run := cs.takeWhile fun c => isDigit c || c == '_'
  let paired := (run.zip (run.drop 1 ++ ['_'])).all fun (a, b) => a != '_' || b != '_'
  if (run.head?).any (· != '_') && paired then
    some (run.filter (· != '_'), cs.dropWhile fun c => isDigit c || c == '_')
  else none

/-- A whole number that fits in 64 bits. -/
def intOf? (negative : Bool) (n : Nat) : Option Scalar :=
  if negative then (if n ≤ UInt64.size / 2 then some (.int (-(n : Int))) else none)
  else if n < UInt64.size / 2 then some (.int n) else none

/-- A number to a base other than ten, behind the mark of the base. -/
def based? (base : Nat) (cs : List Char) : Option (Scalar × List Char) := do
  let isDigit (c : Char) : Bool := (Json.hexDigit? c).any (· < base)
  let (ds, rest) ← digits? isDigit cs
  let n := ds.foldl (fun n c => base * n + (Json.hexDigit? c).getD 0) 0
  return (← intOf? false n, rest)

/-- The fraction and the exponent behind the digits of a number. -/
def floatRest? (negative : Bool) (whole cs : List Char) : Option (Scalar × List Char) := do
  let (fraction, rest) ← match cs with
    | '.' :: rest => digits? Char.isDigit rest
    | rest => some ([], rest)
  let (exponent, rest) ← match rest with
    | c :: rest =>
      if c == 'e' || c == 'E' then
        let (below, rest) := match rest with
          | '-' :: rest => (true, rest)
          | '+' :: rest => (false, rest)
          | rest => (false, rest)
        (digits? Char.isDigit rest).map fun (ds, rest) =>
          (if below then -(Json.valueOf ds : Int) else Json.valueOf ds, rest)
      else some ((0 : Int), c :: rest)
    | [] => some (0, [])
  let x := Double.ofDecimal (Json.valueOf (whole ++ fraction)) (exponent - fraction.length)
  if negative then return (.float x.neg, rest)
  else if x.isFinite then return (.float x, rest)
  else none

/-- A number. -/
def number? (cs : List Char) : Option (Scalar × List Char) := do
  match cs with
  | '0' :: 'x' :: rest => based? 16 rest
  | '0' :: 'o' :: rest => based? 8 rest
  | '0' :: 'b' :: rest => based? 2 rest
  | _ =>
    let (negative, unsigned) := match cs with
      | '-' :: rest => (true, rest)
      | '+' :: rest => (false, rest)
      | rest => (false, rest)
    match unsigned with
    | 'i' :: 'n' :: 'f' :: rest =>
      return (.float (if negative then Double.neg .infinity else .infinity), rest)
    | 'n' :: 'a' :: 'n' :: rest => return (.float .nan, rest)
    | _ =>
      let (whole, rest) ← match unsigned with
        | '0' :: rest => some (['0'], rest)
        | unsigned => digits? Char.isDigit unsigned
      match rest with
      | '.' :: _ | 'e' :: _ | 'E' :: _ => floatRest? negative whole rest
      | _ => return (← intOf? negative (Json.valueOf whole), rest)

/-- A number of so many digits, from a least value to a greatest. -/
def field? (count least greatest : Nat) (cs : List Char) : Option (Nat × List Char) :=
  let ds := cs.take count
  let n := Json.valueOf ds
  if ds.length = count ∧ ds.all Char.isDigit ∧ least ≤ n ∧ n ≤ greatest then
    some (n, cs.drop count)
  else none

/-- Two numbers with a character between them. -/
private def behind? (c : Char) (cs : List Char) : Option (List Char) :=
  match cs with
  | d :: rest => if d == c then some rest else none
  | [] => none

def daysIn (year month : Nat) : Nat :=
  if month = 2 then
    if year % 4 = 0 ∧ (year % 100 ≠ 0 ∨ year % 400 = 0) then 29 else 28
  else if month = 4 ∨ month = 6 ∨ month = 9 ∨ month = 11 then 30 else 31

/-- Whether a date begins here. -/
def beginsDate (cs : List Char) : Bool := (field? 4 0 9999 cs).any fun (_, r) => r.head? == some '-'

/-- Whether a time of day begins here. -/
def beginsTime (cs : List Char) : Bool := (field? 2 0 23 cs).any fun (_, r) => r.head? == some ':'

/-- A date as it is written. -/
def date? (cs : List Char) : Option (List Char × List Char) := do
  let (year, rest) ← field? 4 0 9999 cs
  let (month, rest) ← field? 2 1 12 (← behind? '-' rest)
  let (_, rest) ← field? 2 1 (daysIn year month) (← behind? '-' rest)
  return (cs.take 10, rest)

/-- A time of day as it is written, with its fraction cut to nine places and without zeros
at its end. -/
def time? (cs : List Char) : Option (List Char × List Char) := do
  let (_, rest) ← field? 2 0 23 cs
  let (_, rest) ← field? 2 0 59 (← behind? ':' rest)
  let (_, rest) ← field? 2 0 60 (← behind? ':' rest)
  match rest with
  | '.' :: behind =>
    let (ds, behind) := Json.digits behind
    if ds.isEmpty then return (cs.take 8, rest)
    let kept := ((ds.take 9).reverse.dropWhile (· == '0')).reverse
    return (cs.take 8 ++ (if kept.isEmpty then [] else '.' :: kept), behind)
  | _ => return (cs.take 8, rest)

/-- A difference to universal time. -/
def offset? (cs : List Char) : Option (List Char × List Char) := do
  match cs with
  | 'Z' :: rest | 'z' :: rest => return (['Z'], rest)
  | sign :: rest =>
    if sign == '+' || sign == '-' then
      let (hours, behind) ← field? 2 0 23 rest
      let (minutes, behind) ← field? 2 0 59 (← behind? ':' behind)
      let sign := if hours = 0 ∧ minutes = 0 then '+' else sign
      return (sign :: rest.take 5, behind)
    else return ([], cs)
  | [] => return ([], [])

/-- A date, a time of day, or both. -/
def moment? (cs : List Char) : Option (Scalar × List Char) := do
  let text (parts : List Char) : Scalar := .string (String.ofList parts)
  if beginsDate cs then
    let (date, rest) ← date? cs
    match rest with
    | c :: behind =>
      if (c == 'T' || c == 't' || c == ' ') && beginsTime behind then
        let (time, rest) ← time? behind
        let (offset, rest) ← offset? rest
        return (text (date ++ 'T' :: time ++ offset), rest)
      else return (text date, rest)
    | [] => return (text date, [])
  else
    let (time, rest) ← time? cs
    return (text time, rest)

end Highlighter.Toml
