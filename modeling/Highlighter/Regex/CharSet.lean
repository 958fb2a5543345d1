import Highlighter.Text.Folding

/-!
Sets of characters as patterns write them.
-/

namespace Highlighter.Regex

/-- A set of characters. `caseless` is the closure of a set under case. -/
inductive CharSet
  | all
  | one (c : Char)
  | range (low high : Char)
  | word
  | digit
  | space
  | union (s t : CharSet)
  | inter (s t : CharSet)
  | diff (s t : CharSet)
  | compl (s : CharSet)
  | caseless (s : CharSet)
  deriving DecidableEq, Repr, Inhabited

namespace CharSet

/-- Whether a character is in the set. -/
def has : CharSet → Char → Bool
  | all, _ => true
  | one d, c => c == d
  | range low high, c => low ≤ c && c ≤ high
  | word, c => Text.isWord c
  | digit, c => Text.isDecimal c
  | space, c => Text.isSpace c
  | union s t, c => s.has c || t.has c
  | inter s t, c => s.has c && t.has c
  | diff s t, c => s.has c && !t.has c
  | compl s, c => !s.has c
  | caseless s, c => (Text.caseMates c).any s.has

/-- The empty set. -/
def none : CharSet := compl all

/-- The characters in exactly one of two sets. -/
def symmDiff (s t : CharSet) : CharSet := diff (union s t) (inter s t)

/-- The set of some characters. -/
def ofList (cs : List Char) : CharSet := cs.foldr (fun c s => union (one c) s) none

/-- A closed set does not tell characters of different case apart. -/
theorem has_caseless_eq (s : CharSet) {c d : Char} (h : Text.fold c = Text.fold d) :
    (caseless s).has c = (caseless s).has d := by
  simp [has, Text.caseMates_eq_of_fold_eq h]

end CharSet

end Highlighter.Regex
