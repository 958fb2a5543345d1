/-!
Sets of characters given by ranges of code points, and maps given by runs of them.
-/

namespace Highlighter.Text

/-- Inclusive ranges of code points. -/
abbrev Ranges := List (Nat × Nat)

/-- Whether some range holds the character. -/
def Ranges.has (ranges : Ranges) (c : Char) : Bool :=
  ranges.any fun r => r.1 ≤ c.toNat && c.toNat ≤ r.2

/-- Every `step`-th code point from `first` to `last`, moved so that `first` goes to `target`. -/
structure Run where
  first : Nat
  last : Nat
  step : Nat
  target : Nat

/-- Whether the run moves this code point. -/
def Run.moves (r : Run) (n : Nat) : Bool :=
  r.first ≤ n && n ≤ r.last && (n - r.first) % r.step == 0

/-- The image of a code point that the run moves. -/
def Run.image (r : Run) (n : Nat) : Nat := r.target + (n - r.first)

/-- The code point that the run moves to `n`, if there is one. -/
def Run.source? (r : Run) (n : Nat) : Option Nat :=
  let m := r.first + (n - r.target)
  if r.target ≤ n && r.moves m then some m else none

end Highlighter.Text
