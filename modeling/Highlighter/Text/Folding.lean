import Highlighter.Text.Basic

/-!
Simple case folding: which characters are one letter in different cases. Folding takes
each of them to one representative, so two characters match without regard to case
exactly when they fold alike.
-/

namespace Highlighter.Text

/-- The representative of a character among those that differ from it in case only. -/
def fold (c : Char) : Char :=
  if c.toNat < 0x80 then c.toLower
  else match folding.find? fun r => r.moves c.toNat with
    | some r => Char.ofNat (r.image c.toNat)
    | none => c

/-- The characters that fold to a representative. -/
def folded (c : Char) : List Char :=
  if c == 'k' then ['k', 'K', '\u212a']
  else if c == 's' then ['s', 'S', '\u017f']
  else if c.toNat < 0x80 then
    if c.isLower then [c, c.toUpper] else [c]
  else c :: folding.filterMap fun r => (r.source? c.toNat).map Char.ofNat

/-- The characters that match `c` without regard to case, `c` itself among them. -/
def caseMates (c : Char) : List Char := folded (fold c)

/-- Characters that fold alike have the same mates. -/
theorem caseMates_eq_of_fold_eq {c d : Char} (h : fold c = fold d) :
    caseMates c = caseMates d := by
  simp [caseMates, h]

end Highlighter.Text
