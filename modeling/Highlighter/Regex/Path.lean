import Highlighter.Regex.Haystack

/-!
Paths through a regular expression. All paths of a search stand at one position of the text,
listed in order of preference. `settle` follows them as far as they go without a character,
and `pass?` takes them behind one.

No part of the expression is taken up twice at one position: a path ends where one that is
preferred to it has been. That cuts rounds short that consume nothing, and it bounds the work
at a position by the size of the expression.
-/

namespace Highlighter.Regex

/-- How many parts of an expression are told apart: characters, conditions, and the places where
there are two ways to go on. -/
def parts : Regex → Nat
  | empty => 0
  | char _ | look _ => 1
  | seq r s => r.parts + s.parts
  | alt r s => r.parts + s.parts + 1
  | opt _ body | plus _ body | star _ body => body.parts + 1
  | group _ body => body.parts

/-- Something on a path that is still to be done: to match an expression whose parts are
numbered from `number` on, or to decide about one more round of a body. -/
inductive Task
  | part (r : Regex) (number : Nat)
  | again (greedy : Bool) (body : Regex) (number : Nat)
  deriving DecidableEq, Repr, Inhabited

/-- A path as what is still to be done on it, in order. The empty path is at its end. -/
abbrev Path := List Task

/-- The path that has all of an expression in front of it. -/
def start (r : Regex) : Path := [.part r 0]

/-- How often an expression can be taken apart. -/
def size : Regex → Nat
  | empty | char _ | look _ => 1
  | seq r s | alt r s => r.size + s.size + 1
  | plus _ body | star _ body => body.size + 2
  | opt _ body | group _ body => body.size + 1

def Task.size : Task → Nat
  | part r _ => r.size
  | again .. => 1

/-- A measure of what is still to be done on a path. -/
def weight : Path → Nat
  | [] => 1
  | task :: tasks => task.size + weight tasks

/-- A measure of what is still to be done on some paths. -/
def pending : List Path → Nat
  | [] => 0
  | path :: paths => weight path + pending paths

/-- Which parts of an expression have been taken up. -/
structure Marks where
  taken : Array Bool

namespace Marks

/-- No marks on an expression with some number of parts. -/
def none (parts : Nat) : Marks := ⟨Array.replicate parts false⟩

/-- How many marks are still to be made. -/
def room (m : Marks) : Nat := m.taken.count false

/-- Whether a part can still be taken up. -/
def isFree (m : Marks) (number : Nat) : Bool := m.taken[number]? == some false

/-- Marks a part. -/
def mark (m : Marks) (number : Nat) : Marks := ⟨m.taken.setIfInBounds number true⟩

theorem room_mark_lt {m : Marks} {number : Nat} (h : m.isFree number) :
    (m.mark number).room < m.room := by
  simp only [isFree, beq_iff_eq] at h
  obtain ⟨hlt, hfalse⟩ := Array.getElem?_eq_some_iff.1 h
  have hpos : 0 < m.taken.count false :=
    Array.count_pos_iff.2 (hfalse ▸ Array.getElem_mem hlt)
  have hne : (true == false) = false := rfl
  simp only [room, mark, Array.setIfInBounds, hlt, ↓reduceDIte, Array.count_set hlt, hfalse,
    beq_self_eq_true, hne, Bool.false_eq_true, ↓reduceIte]
  omega

end Marks

/-- The two ways to go on in front of a round, the preferred one first. -/
def ways (greedy : Bool) (round leave : Path) : List Path :=
  if greedy then [round, leave] else [leave, round]

/-- Follows paths to where they need a character. Those behind a path at its end are given up. If
`stays`, none is given up, and paths stop at every condition, before they go on from there if it is
known to hold. -/
def settle (known : Anchor → Bool) (stays : Bool) (paths : List Path) (m : Marks) : List Path :=
  match paths with
  | [] => []
  | [] :: rest => if stays then [] :: settle known stays rest m else [[]]
  | (.again greedy body number :: tasks) :: rest =>
    if _h : m.isFree number then
      let round := .part body (number + 1) :: .again greedy body number :: tasks
      settle known stays (ways greedy round tasks ++ rest) (m.mark number)
    else settle known stays rest m
  | (.part r number :: tasks) :: rest =>
    match r with
    | empty => settle known stays (tasks :: rest) m
    | char set =>
      if _h : m.isFree number then
        (.part (char set) number :: tasks) :: settle known stays rest (m.mark number)
      else settle known stays rest m
    | look anchor =>
      if _h : m.isFree number then
        let paths := if known anchor then tasks :: rest else rest
        let stops := settle known stays paths (m.mark number)
        if stays then (.part (look anchor) number :: tasks) :: stops else stops
      else settle known stays rest m
    | seq r s =>
      settle known stays ((.part r number :: .part s (number + r.parts) :: tasks) :: rest) m
    | alt r s =>
      if _h : m.isFree number then
        settle known stays ((.part r (number + 1) :: tasks)
          :: (.part s (number + 1 + r.parts) :: tasks) :: rest) (m.mark number)
      else settle known stays rest m
    | opt greedy body =>
      if _h : m.isFree number then
        let round := .part body (number + 1) :: tasks
        settle known stays (ways greedy round tasks ++ rest) (m.mark number)
      else settle known stays rest m
    | plus greedy body =>
      settle known stays ((.part body (number + 1) :: .again greedy body number :: tasks) :: rest) m
    | star greedy body => settle known stays ((.again greedy body number :: tasks) :: rest) m
    | group _ body => settle known stays ((.part body number :: tasks) :: rest) m
termination_by (m.room, pending paths)
decreasing_by
  all_goals first
    | (apply Prod.Lex.left; exact Marks.room_mark_lt _h)
    | (apply Prod.Lex.right; simp only [pending, weight, Task.size, size]; omega)

/-- Whether one of some paths is at its end. -/
def isOver (paths : List Path) : Bool := paths.any List.isEmpty

/-- A path behind the character at a position, if it asks for that character. -/
def pass? (h : Haystack) (p : Nat) : Path → Option Path
  | .part (char set) _ :: tasks => if set.hasAt h p then some tasks else none
  | _ => none

/-- Takes the character at a position. Paths behind one at its end are given up. -/
def pass (h : Haystack) (p : Nat) (paths : List Path) : List Path :=
  (paths.takeWhile (!·.isEmpty)).filterMap (pass? h p)

end Highlighter.Regex
