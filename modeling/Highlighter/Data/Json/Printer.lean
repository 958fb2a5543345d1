import Highlighter.Data.Doc

/-!
Writing JSON, on one line or indented.
-/

namespace Highlighter.Json

/-- How one character stands in a string. -/
def escape (c : Char) : List Char :=
  if c == '"' then ['\\', '"']
  else if c == '\\' then ['\\', '\\']
  else if c == '\x08' then ['\\', 'b']
  else if c == '\x0c' then ['\\', 'f']
  else if c == '\n' then ['\\', 'n']
  else if c == '\r' then ['\\', 'r']
  else if c == '\t' then ['\\', 't']
  else if c.toNat < 0x20 then
    let ds := Nat.toDigits 16 c.toNat
    ['\\', 'u'] ++ List.replicate (4 - ds.length) '0' ++ ds
  else [c]

def quote (s : String) : String := String.ofList ('"' :: s.toList.flatMap escape ++ ['"'])

/-- A single value. -/
def scalar : Scalar → String
  | .null => "null"
  | .bool b => if b then "true" else "false"
  | .int n => toString n
  | .float x => x.scientific
  | .string s => quote s

/-- The key of an entry. Keys are texts. -/
def key : Doc → String
  | .scalar (.string s) => quote s
  | .scalar s => quote (scalar s)
  | _ => quote ""

private def commas (parts : List String) : String := ",".intercalate parts

mutual

/-- A document on one line. -/
def compact (doc : Doc) : String :=
  match doc with
  | .scalar s => scalar s
  | .word w => quote w.text
  | .list items _ => "[" ++ commas (compactItems items) ++ "]"
  | .map entries _ => "\x7b" ++ commas (compactEntries entries) ++ "\x7d"
  | .fault => "null"
  | .tagged _ doc => compact doc

def compactItems : List Doc → List String
  | [] => []
  | doc :: docs => compact doc :: compactItems docs

def compactEntries : List (Doc × Doc) → List String
  | [] => []
  | (k, v) :: rest => (key k ++ ":" ++ compact v) :: compactEntries rest

end

/-- A line break and the indentation of a level. -/
private def newline (level : Nat) : String :=
  String.ofList ('\n' :: List.replicate (2 * level) ' ')

/-- Parts between brackets, each on a line of its own. -/
private def block (level : Nat) (opening closing : String) (parts : List String) : String :=
  if parts.isEmpty then opening ++ closing
  else opening ++ newline (level + 1) ++ ("," ++ newline (level + 1)).intercalate parts
    ++ newline level ++ closing

mutual

/-- A document over several lines, indented by two blanks to a level. -/
def pretty (level : Nat) (doc : Doc) : String :=
  match doc with
  | .scalar s => scalar s
  | .word w => quote w.text
  | .list items _ => block level "[" "]" (prettyItems (level + 1) items)
  | .map entries _ => block level "\x7b" "\x7d" (prettyEntries (level + 1) entries)
  | .fault => "null"
  | .tagged _ doc => pretty level doc

def prettyItems (level : Nat) : List Doc → List String
  | [] => []
  | doc :: docs => pretty level doc :: prettyItems level docs

def prettyEntries (level : Nat) : List (Doc × Doc) → List String
  | [] => []
  | (k, v) :: rest => (key k ++ ": " ++ pretty level v) :: prettyEntries level rest

end

end Highlighter.Json
