import Highlighter.Data.Yaml.Cursor
import Highlighter.Data.Yaml.Scalar

/-!
Writing YAML over several lines. A text is written without quotes if it can be, as a block if
it has line feeds in it, and otherwise between the quotes that it can be written in.
-/

namespace Highlighter.Yaml

/-- How a text is written. -/
inductive Quoting
  | plain
  | single
  | double
  | block
  deriving DecidableEq, Repr, Inhabited

/-- Whether a character may stand outside double quotes. -/
def isPrintable (c : Char) : Bool :=
  c == '\n' || (isAllowed c && c != '\t' && c != '\r' && c != '\u0085' && c != '\ufeff')

/-- Whether two neighbours in a text are of two classes. -/
def hasPair (p q : Char → Bool) : List Char → Bool
  | a :: b :: rest => (p a && q b) || hasPair p q (b :: rest)
  | _ => false

/-- Whether a text would be taken for something else at its beginning. -/
def beginsLikeMarkup (cs : List Char) : Bool :=
  match cs with
  | '-' :: '-' :: '-' :: _ => true
  | '.' :: '.' :: '.' :: _ => true
  | c :: rest =>
    "#,[]\x7b\x7d&*!|>'\"%@".toList.contains c || c.toNat == 0x60
      || ((c == '-' || c == '?' || c == ':') && (rest.head?).all isGap)
  | [] => false

/-- Whether a colon in a text would make a key, or a number sign a comment. -/
def hasMarkup (cs : List Char) : Bool :=
  hasPair (· == ':') isGap cs || cs.getLast? == some ':' || hasPair isGap (· == '#') cs

/-- How a text can be written. -/
def quoting (s : String) : Quoting :=
  let cs := s.toList
  let isSpace (c : Char) : Bool := c == ' '
  let special := cs.any (!isPrintable ·) || hasPair isSpace isBreak cs
  let outer (p : Char → Bool) : Bool := (cs.head?).any p || (cs.getLast?).any p
  if cs.contains '\n' then
    if special || (cs.getLast?).any isSpace then .double else .block
  else if special || hasPair isBreak isSpace cs then .double
  else if ofPlain s != .string s || hasLeadingZero cs || cs.any isBreak || outer isSpace
      || beginsLikeMarkup cs || hasMarkup cs then .single
  else .plain

/-- The blanks in front of a line. -/
def margin (indent : Nat) : List Char := List.replicate indent ' '

/-- Lines with blanks put in front of all but those that are empty; a line break precedes the
text if `fresh`. -/
def indentLines (indent : Nat) (fresh : Bool) : List Char → List Char
  | [] => []
  | c :: rest =>
    if isBreak c then c :: indentLines indent true rest
    else (if fresh then margin indent else []) ++ c :: indentLines indent false rest

/-- A text between single quotes, in which a quote is written twice. -/
def singleQuoted (indent : Nat) (cs : List Char) : List Char :=
  let body := (indentLines indent false cs).flatMap fun c => if c == '\'' then ['\'', '\''] else [c]
  '\'' :: body ++ (if (cs.getLast?).any isBreak then margin indent else []) ++ ['\'']

/-- A number in hexadecimal digits, with zeros in front. -/
def hexDigits (count n : Nat) : List Char :=
  let ds := (Nat.toDigits 16 n).map Char.toUpper
  List.replicate (count - ds.length) '0' ++ ds

/-- How one character stands between double quotes. -/
def escape (c : Char) : List Char :=
  if isPrintable c && !isBreak c && c != '"' && c != '\\' then [c]
  else
    let named : List (Char × Char) :=
      [('\x00', '0'), ('\x07', 'a'), ('\x08', 'b'), ('\t', 't'), ('\n', 'n'), ('\x0b', 'v'),
        ('\x0c', 'f'), ('\r', 'r'), ('\x1b', 'e'), ('"', '"'), ('\\', '\\'), ('\u0085', 'N'),
        ('\u2028', 'L'), ('\u2029', 'P')]
    match named.lookup c with
    | some name => ['\\', name]
    | none =>
      if c.toNat ≤ 0xff then ['\\', 'x'] ++ hexDigits 2 c.toNat
      else if c.toNat ≤ 0xffff then ['\\', 'u'] ++ hexDigits 4 c.toNat
      else ['\\', 'U'] ++ hexDigits 8 c.toNat

def doubleQuoted (cs : List Char) : List Char := '"' :: cs.flatMap escape ++ ['"']

/-- The header of a block: the indentation if the text begins with a blank or an empty line, and
what to do with the line breaks at its end. -/
def blockHints (cs : List Char) : List Char :=
  let increment := if (cs.head?).any fun c => c == ' ' || isBreak c then ['2'] else []
  let chomping :=
    match cs.reverse with
    | c :: before =>
      if !isBreak c then ['-']
      else if (before.head?).all isBreak then ['+']
      else []
    | [] => ['-']
  increment ++ chomping

/-- A text as a block, up to the end of its last line. -/
def block (indent : Nat) (cs : List Char) : List Char :=
  '|' :: blockHints cs ++ '\n' :: indentLines indent true cs

/-- A text up to the end of its line, where further lines of it are indented. -/
def textLine (indent : Nat) (s : String) : String :=
  let cs := s.toList
  match quoting s with
  | .plain => s ++ "\n"
  | .single => String.ofList (singleQuoted indent cs) ++ "\n"
  | .double => String.ofList (doubleQuoted cs) ++ "\n"
  | .block =>
    String.ofList (block indent cs) ++ (if (cs.getLast?).any isBreak then "" else "\n")

/-- A single value up to the end of its line. -/
def scalarLine (indent : Nat) : Scalar → String
  | .null => "null\n"
  | .bool b => if b then "true\n" else "false\n"
  | .int n => toString n ++ "\n"
  | .float x =>
    if x.isNaN then ".nan\n"
    else if !x.isFinite then (if x.isNegative then "-.inf\n" else ".inf\n")
    else x.withPoint ++ "\n"
  | .string s => textLine indent s

/-- The key of an entry. Keys are short texts. -/
def keyText : Doc → String
  | .scalar s => String.ofList ((scalarLine 0 s).toList.takeWhile (· != '\n'))
  | _ => "''"

private def marginText (indent : Nat) : String := String.ofList (margin indent)

mutual

/-- A document from a column on, up to the end of its last line. -/
def lines (indent : Nat) (doc : Doc) : String :=
  match doc with
  | .scalar s => scalarLine (indent + 2) s
  | .word w => textLine (indent + 2) w.text
  | .list [] _ => "[]\n"
  | .list items _ => (marginText indent).intercalate (itemLines indent items)
  | .map [] _ => "\x7b\x7d\n"
  | .map entries _ => (marginText indent).intercalate (entryLines indent entries)
  | .fault => "null\n"
  | .tagged _ doc => lines indent doc

/-- The items of a list, each behind a dash. -/
def itemLines (indent : Nat) : List Doc → List String
  | [] => []
  | doc :: docs =>
    ("- " ++ match doc with
      | .scalar s => scalarLine (indent + 2) s
      | doc => lines (indent + 2) doc) :: itemLines indent docs

/-- The entries of a map. The items of a list are not indented under its key. -/
def entryLines (indent : Nat) : List (Doc × Doc) → List String
  | [] => []
  | (key, value) :: rest =>
    (keyText key ++ ":" ++ match value with
      | .list (item :: items) whole =>
        "\n" ++ marginText indent ++ lines indent (.list (item :: items) whole)
      | .map (entry :: entries) whole =>
        "\n" ++ marginText (indent + 2) ++ lines (indent + 2) (.map (entry :: entries) whole)
      | .scalar s => " " ++ scalarLine (indent + 2) s
      | value => " " ++ lines indent value) :: entryLines indent rest

end

/-- A document. -/
def render (doc : Doc) : String := lines 0 doc

end Highlighter.Yaml
