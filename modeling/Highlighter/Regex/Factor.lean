import Highlighter.Regex.Basic

/-!
Choices as they are searched. Choices inside a choice are dissolved, a choice between single
characters or between sets becomes a set, and what all branches begin with is taken out in
front of them. The last also settles which match is preferred: where the common beginning
matches in more than one way, its ways come first and the branches second.
-/

namespace Highlighter.Regex

/-- The only character of a set, if its spelling shows that there is just one. -/
def onlyChar? : CharSet → Option Char
  | .one c => some c
  | .union s t =>
    if s = .none ∨ onlyChar? s = onlyChar? t then onlyChar? t
    else if t = .none then onlyChar? s
    else none
  | .caseless s => (onlyChar? s).filter fun c => (Text.caseMates c).length ≤ 1
  | _ => none

/-- A set of one character as just that. -/
def tidied (set : CharSet) : CharSet :=
  match onlyChar? set with
  | some c => .one c
  | none => set

/-- Whether the expression is one certain character. -/
def isLetter : Regex → Bool
  | char set => (onlyChar? set).isSome
  | _ => false

/-- Whether the expression captures something. -/
def captures : Regex → Bool
  | group .. => true
  | opt _ body | plus _ body | star _ body => body.captures
  | seq r s | alt r s => r.captures || s.captures
  | empty | char _ | look _ => false

/-- The pieces of a sequence. -/
def pieces : Regex → List Regex
  | seq r s => r.pieces ++ s.pieces
  | empty => []
  | r => [r]

/-- The pieces of a sequence, where a run of certain characters is one piece. -/
def runs (r : Regex) : List (List Regex) := r.pieces.splitBy fun a b => a.isLetter && b.isLetter

/-- What two lists begin with alike, captures apart. -/
def commonRuns : List (List Regex) → List (List Regex) → List (List Regex)
  | x :: xs, y :: ys => if x = y ∧ !x.any captures then x :: commonRuns xs ys else []
  | _, _ => []

/-- The set that a choice between single characters, or one between other sets, comes to. -/
def unionOf? (branches : List Regex) : Option CharSet :=
  if branches.all isLetter || !branches.any isLetter then
    branches.foldr
      (fun r set => match r, set with
        | char s, some t => some (.union s t)
        | _, _ => none)
      (some .none)
  else none

/-- A choice whose branches begin with nothing in common. -/
def choiceOf (branches : List Regex) : Regex :=
  match unionOf? branches with
  | some set => if branches.length = 1 then choice branches else char (tidied set)
  | none => choice branches

/-- A choice, with what its branches begin with in front. A branch of a single piece has no
beginning of its own. -/
def factored (rs : List Regex) : Regex :=
  let rs := rs.flatMap branches
  match rs.map runs with
  | first :: second :: others =>
    let shared := (second :: others).foldl commonRuns first
    if shared.isEmpty || (first :: second :: others).any fun runs => runs.length ≤ 1 then
      choiceOf rs
    else
      let rests := (first :: second :: others).map fun runs =>
        sequence (runs.drop shared.length).flatten
      sequence (shared.flatten ++ [choiceOf (rests.flatMap branches)])
  | _ => choiceOf rs

end Highlighter.Regex
