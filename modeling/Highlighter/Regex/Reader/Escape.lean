import Highlighter.Regex.Reader.State

/-!
What the characters after a backslash stand for.
-/

namespace Highlighter.Regex.Reader

/-- The characters that mean something by themselves. -/
def metaCharacters : List Char :=
  ['\\', '.', '+', '*', '?', '(', ')', '|', '[', ']', '{', '}', '^', '$', '#', '&', '-', '~']

/-- Whether a backslash in front of a character makes it stand for itself: any ASCII
character will do that is no letter, no digit and no angle. -/
def isEscapable (c : Char) : Bool :=
  c.toNat < 0x80 && !c.isAlphanum && c != '<' && c != '>'

/-- The atom of a one-letter escape. -/
def escaped? (c : Char) : Option Atom :=
  match c with
  | 'd' => some (.set .digit)
  | 's' => some (.set .space)
  | 'w' => some (.set .word)
  | 'D' => some (.set (.compl .digit))
  | 'S' => some (.set (.compl .space))
  | 'W' => some (.set (.compl .word))
  | 'a' => some (.char '\x07')
  | 'f' => some (.char '\x0c')
  | 't' => some (.char '\t')
  | 'n' => some (.char '\n')
  | 'r' => some (.char '\r')
  | 'v' => some (.char '\x0b')
  | 'A' => some (.anchor .textStart)
  | 'z' => some (.anchor .textEnd)
  | 'b' => some (.anchor .wordEdge)
  | 'B' => some (.anchor .notWordEdge)
  | '<' => some (.anchor .wordStart)
  | '>' => some (.anchor .wordEnd)
  | _ => if isEscapable c then some (.char c) else none

/-- How many digits a number needs after the letter that announces it. -/
def hexWidth? (c : Char) : Option Nat :=
  match c with
  | 'x' => some 2
  | 'u' => some 4
  | 'U' => some 8
  | _ => none

/-- The value of a hexadecimal digit. -/
def hexValue? (c : Char) : Option Nat :=
  if c.isDigit then some (c.toNat - '0'.toNat)
  else if 'a' ≤ c && c ≤ 'f' then some (c.toNat - 'a'.toNat + 10)
  else if 'A' ≤ c && c ≤ 'F' then some (c.toNat - 'A'.toNat + 10)
  else none

/-- The character with a number, if there is one. -/
def character? (n : Nat) : Option Char :=
  if n.isValidChar then some (Char.ofNat n) else none

/-- The edge with a name in braces. -/
def namedEdge? (name : String) : Option Anchor :=
  match name with
  | "start" => some .wordStart
  | "end" => some .wordEnd
  | "start-half" => some .wordStartHalf
  | "end-half" => some .wordEndHalf
  | _ => none

/-- The classes that have a name inside brackets. -/
def namedClasses : List (String × CharSet) :=
  let digits := CharSet.range '0' '9'
  let lower := CharSet.range 'a' 'z'
  let upper := CharSet.range 'A' 'Z'
  let alpha := CharSet.union lower upper
  let punct := CharSet.union (.union (.range '!' '/') (.range ':' '@'))
    (.union (.range '[' (Char.ofNat 0x60)) (.range '\x7b' '~'))
  [("alnum", .union alpha digits), ("alpha", alpha), ("ascii", .range '\x00' '\x7f'),
    ("blank", .ofList ['\t', ' ']), ("cntrl", .union (.range '\x00' '\x1f') (.one '\x7f')),
    ("digit", digits), ("graph", .range '!' '~'), ("lower", lower), ("print", .range ' ' '~'),
    ("punct", punct), ("space", .ofList ['\t', '\n', '\x0b', '\x0c', '\r', ' ']),
    ("upper", upper), ("word", .union (.union alpha digits) (.one '_')),
    ("xdigit", .union (.union (.range 'a' 'f') (.range 'A' 'F')) digits)]

/-- The spelling of each named class behind its opening bracket, plain and negated. -/
def classSpellings : List (List Char × Bool × CharSet) :=
  namedClasses.flatMap fun (name, set) =>
    [(':' :: name.toList ++ [':', ']'], false, set),
      (':' :: '^' :: name.toList ++ [':', ']'], true, set)]

end Highlighter.Regex.Reader
