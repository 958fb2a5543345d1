import Highlighter.Regex.CharSet

/-!
Regular expressions as trees. What a group captures is not kept: only the range of a match
is ever asked for, and the names of the groups. Counted repetitions are built from sequence,
`opt`, `plus` and `star`.
-/

namespace Highlighter

/-- A condition on a position that consumes nothing. With `crlf` a line ends before a
carriage return, before a line feed, and not between the two. -/
inductive Regex.Anchor
  | textStart
  | textEnd
  | lineStart (crlf : Bool)
  | lineEnd (crlf : Bool)
  | wordEdge
  | notWordEdge
  | wordStart
  | wordEnd
  | wordStartHalf
  | wordEndHalf
  deriving DecidableEq, Repr, Inhabited

/-- A regular expression. `opt` takes its body at most once, `plus` one or more times, and
`star` any number of times; a choice prefers its first branch, and where a repetition is
greedy it prefers more rounds. A group captures what its body matches. -/
inductive Regex
  | empty
  | char (set : Regex.CharSet)
  | look (anchor : Regex.Anchor)
  | seq (first second : Regex)
  | alt (first second : Regex)
  | opt (greedy : Bool) (body : Regex)
  | plus (greedy : Bool) (body : Regex)
  | star (greedy : Bool) (body : Regex)
  | group (name : Option String) (body : Regex)
  deriving DecidableEq, Repr, Inhabited

namespace Regex

/-- The pieces one after the other. -/
def sequence : List Regex → Regex
  | [] => empty
  | [r] => r
  | r :: rs => seq r (sequence rs)

/-- The first of the branches that matches. -/
def choice : List Regex → Regex
  | [] => char CharSet.none
  | [r] => r
  | r :: rs => alt r (choice rs)

/-- The branches of a choice. -/
def branches : Regex → List Regex
  | alt r s => r :: s.branches
  | r => [r]

/-- Whether nothing needs to be consumed for a match. -/
def nullable : Regex → Bool
  | empty | look _ | opt .. | star .. => true
  | char _ => false
  | seq r s => r.nullable && s.nullable
  | alt r s => r.nullable || s.nullable
  | plus _ body | group _ body => body.nullable

/-- Whether a match can consume nothing at all. -/
def weightless : Regex → Bool
  | empty | look _ => true
  | char _ => false
  | seq r s | alt r s => r.weightless && s.weightless
  | opt _ body | plus _ body | star _ body | group _ body => body.weightless

/-- Exactly `n` matches of the body. -/
def times (body : Regex) (n : Nat) : Regex := sequence (List.replicate n body)

/-- At most `n` matches of the body, each possible only after the one before it. -/
def upTo (greedy : Bool) (body : Regex) : Nat → Regex
  | 0 => empty
  | 1 => opt greedy body
  | n + 1 => opt greedy (seq body (upTo greedy body n))

/-- Any number of matches of the body. A `star` is for bodies that consume something. -/
def anyNumber (greedy : Bool) (body : Regex) : Regex :=
  if body.nullable then opt greedy (plus greedy body) else star greedy body

/-- The body at least `low` times and, if there is a bound, at most `high` times. A body that
consumes nothing is not tried more than once. -/
def bounded (greedy : Bool) (body : Regex) (low : Nat) (high : Option Nat) : Regex :=
  if body.weightless then
    if high = some 0 then empty else if low = 0 then opt greedy body else body
  else match high with
  | some high =>
    if high ≤ low then times body low
    else if low = 0 then upTo greedy body high
    else seq (times body low) (upTo greedy body (high - low))
  | none =>
    if low = 0 then anyNumber greedy body
    else if low = 1 then plus greedy body
    else seq (times body (low - 1)) (plus greedy body)

/-- The names of the groups, from left to right. -/
def groupNames : Regex → List String
  | group name body => name.toList ++ body.groupNames
  | opt _ body | plus _ body | star _ body => body.groupNames
  | seq r s | alt r s => r.groupNames ++ s.groupNames
  | empty | char _ | look _ => []

end Regex

end Highlighter
