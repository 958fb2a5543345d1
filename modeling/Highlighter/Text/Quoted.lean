import Highlighter.Text.Basic

/-!
Texts in double quotes, on one line, with everything that does not print as an escape; and
names and values between grave accents, as messages show them.
-/

namespace Highlighter.Text

/-- How one character stands in a quoted text. -/
def escape (c : Char) : List Char :=
  if c == '\x00' then ['\\', '0']
  else if c == '\t' then ['\\', 't']
  else if c == '\r' then ['\\', 'r']
  else if c == '\n' then ['\\', 'n']
  else if c == '\\' then ['\\', '\\']
  else if c == '"' then ['\\', '"']
  else if isPrintable c then [c]
  else ['\\', 'u', '\x7b'] ++ Nat.toDigits 16 c.toNat ++ ['\x7d']

/-- A text in quotes. -/
def quoted (s : String) : String :=
  String.ofList ('"' :: s.toList.flatMap escape ++ ['"'])

/-- A text between grave accents. -/
def code (s : String) : String :=
  let accent := String.singleton (Char.ofNat 0x60)
  accent ++ s ++ accent

end Highlighter.Text
