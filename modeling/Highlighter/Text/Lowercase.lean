import Highlighter.Text.Basic

/-!
The lower case of a text. Two letters need more than a table: a capital sigma becomes a
final one at the end of a word, and the dotted capital I becomes two characters.
-/

namespace Highlighter.Text

/-- The lower case of one character by itself. -/
def lowerChar (c : Char) : Char :=
  if c.toNat < 0x80 then c.toLower
  else match lowering.find? fun r => r.moves c.toNat with
    | some r => Char.ofNat (r.image c.toNat)
    | none => c

/-- Whether the first character that is not passed over has a case. -/
def startsCased (cs : List Char) : Bool :=
  match cs.dropWhile isCaseIgnorable with
  | c :: _ => isCased c
  | [] => false

/-- The lower case of `cs`, where `before` is the text in front of it read backwards. -/
def lowerAfter (before : List Char) : List Char → List Char
  | [] => []
  | c :: rest =>
    let lowered :=
      if c == '\u03a3' then
        [if startsCased before && !startsCased rest then '\u03c2' else '\u03c3']
      else if c == '\u0130' then ['i', '\u0307']
      else [lowerChar c]
    lowered ++ lowerAfter (c :: before) rest

/-- The text in lower case. -/
def lowercase (s : String) : String := String.ofList (lowerAfter [] s.toList)

/-- The text with its ASCII letters in lower case. -/
def asciiLowercase (s : String) : String := s.map Char.toLower

end Highlighter.Text
