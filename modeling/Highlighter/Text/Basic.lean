import Highlighter.Text.Alphabetic
import Highlighter.Text.Numeric
import Highlighter.Text.Printable
import Highlighter.Text.Cases
import Highlighter.Text.Recent

/-!
Classes of characters: letters, digits, words, white space, and what prints.
-/

namespace Highlighter.Text

/-- Letters of every script. -/
def isAlphabetic (c : Char) : Bool :=
  if c.toNat < 0x80 then c.isAlpha else alphabetic.has c

/-- Digits and every other number. -/
def isNumeric (c : Char) : Bool :=
  if c.toNat < 0x80 then c.isDigit
  else decimals.has c || otherNumbers.has c

/-- Decimal digits of every script, as patterns know them. -/
def isDecimal (c : Char) : Bool :=
  if c.toNat < 0x80 then c.isDigit else decimals.has c && !recent.has c

/-- The characters words are made of: letters, marks, digits, connectors and the two joiners,
as patterns know them. -/
def isWord (c : Char) : Bool :=
  if c.toNat < 0x80 then c.isAlphanum || c == '_'
  else (alphabetic.has c || marks.has c || decimals.has c || connectors.has c
    || c == '\u200c' || c == '\u200d') && !recent.has c

/-- White space of every script. -/
def isSpace (c : Char) : Bool := spaces.has c

/-- Whether a character has a case. -/
def isCased (c : Char) : Bool := cased.has c

/-- Whether a character is passed over when its neighbours are looked through for case. -/
def isCaseIgnorable (c : Char) : Bool := caseIgnorable.has c

/-- Whether a quoted text shows the character as it is. -/
def isPrintable (c : Char) : Bool :=
  if 0x20 ≤ c.toNat && c.toNat < 0x7F then true
  else !extending.has c && !unprintable.has c

/-- The words of a text: its maximal runs without white space. -/
def words (s : String) : List String :=
  let step (c : Char) (acc : List Char × List String) : List Char × List String :=
    if isSpace c then
      ([], if acc.1.isEmpty then acc.2 else String.ofList acc.1 :: acc.2)
    else (c :: acc.1, acc.2)
  let acc := s.toList.foldr step ([], [])
  if acc.1.isEmpty then acc.2 else String.ofList acc.1 :: acc.2

/-- A text without the white space at its two ends. -/
def trim (s : String) : String :=
  String.ofList (((s.toList.dropWhile isSpace).reverse.dropWhile isSpace).reverse)

end Highlighter.Text
