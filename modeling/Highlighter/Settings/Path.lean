import Highlighter.Settings.Error
import Highlighter.Settings.Tree

/-!
Paths to a setting: names with points between them, each of which may have indices in
brackets behind it. A negative index counts from the end, and may not go past the beginning.
-/

namespace Highlighter.Settings

inductive Step
  | key (name : String)
  | index (i : Int)
  deriving DecidableEq, Repr, Inhabited

/-- A step whose name, if it has one, is in lower case. -/
def Step.Lowered : Step → Prop
  | key name => ∃ s, name = Text.lowercase s
  | index _ => True

abbrev Path := List Step

namespace Path

private def isNameChar (c : Char) : Bool := c.isAlphanum || c == ' ' || c == '_' || c == '-'

private def name? (cs : List Char) : Option (Step × List Char) :=
  let name := cs.takeWhile isNameChar
  if name.isEmpty then none
  else some (.key (Text.lowercase (String.ofList name)), cs.dropWhile isNameChar)

private def skipBlanks (cs : List Char) : List Char := cs.dropWhile fun c => c == ' ' || c == '\t'

/-- An index that fits in 64 bits, up to the bracket behind it. -/
private def index? (cs : List Char) : Option (Step × List Char) :=
  let cs := skipBlanks cs
  let (negative, cs) := match cs with
    | '-' :: rest => (true, rest)
    | cs => (false, cs)
  let ds := cs.takeWhile Char.isDigit
  let n := ds.foldl (fun n c => 10 * n + (c.toNat - '0'.toNat)) 0
  match skipBlanks (cs.dropWhile Char.isDigit) with
  | ']' :: rest =>
    let i : Int := if negative then -n else n
    if ds.isEmpty || n > UInt64.size / 2 || i = UInt64.size / 2 then none
    else some (.index i, rest)
  | _ => none

private def stepsFrom? (fuel : Nat) (cs : List Char) : Option Path :=
  match fuel, cs with
  | _, [] => some []
  | fuel + 1, '.' :: rest => do
    let (step, rest) ← name? rest
    return step :: (← stepsFrom? fuel rest)
  | fuel + 1, '[' :: rest => do
    let (step, rest) ← index? rest
    return step :: (← stepsFrom? fuel rest)
  | _, _ => none

/-- Reads a path. -/
def ofString? (s : String) : Option Path := do
  let (first, rest) ← name? s.toList
  return first :: (← stepsFrom? rest.length rest)

private theorem lowered_of_name? {cs rest : List Char} {step : Step}
    (h : name? cs = some (step, rest)) : step.Lowered := by
  unfold name? at h
  dsimp only at h
  split at h
  · cases h
  · cases h
    exact ⟨_, rfl⟩

private theorem lowered_of_index? {cs rest : List Char} {step : Step}
    (h : index? cs = some (step, rest)) : step.Lowered := by
  cases step with
  | index i => trivial
  | key name =>
    unfold index? at h
    dsimp only at h
    -- whatever the sign and the digits are, there is an index or nothing
    repeat' split at h
    all_goals cases h

private theorem lowered_of_stepsFrom? {fuel : Nat} {cs : List Char} {path : Path}
    (h : stepsFrom? fuel cs = some path) : ∀ step ∈ path, step.Lowered := by
  fun_induction stepsFrom? fuel cs generalizing path with
  | case1 => cases h; exact List.forall_mem_nil _
  | case2 fuel cs ih =>
    obtain ⟨⟨step, rest⟩, hstep, h⟩ := Option.bind_eq_some_iff.1 h
    obtain ⟨steps, hsteps, h⟩ := Option.bind_eq_some_iff.1 h
    cases h
    exact List.forall_mem_cons.2 ⟨lowered_of_name? hstep, ih rest hsteps⟩
  | case3 fuel cs ih =>
    obtain ⟨⟨step, rest⟩, hstep, h⟩ := Option.bind_eq_some_iff.1 h
    obtain ⟨steps, hsteps, h⟩ := Option.bind_eq_some_iff.1 h
    cases h
    exact List.forall_mem_cons.2 ⟨lowered_of_index? hstep, ih rest hsteps⟩
  | case4 => cases h

/-- The names in a path are in lower case. -/
theorem lowered_of_ofString? {s : String} {path : Path} (h : ofString? s = some path) :
    ∀ step ∈ path, step.Lowered := by
  obtain ⟨⟨first, rest⟩, hfirst, h⟩ := Option.bind_eq_some_iff.1 h
  obtain ⟨steps, hsteps, h⟩ := Option.bind_eq_some_iff.1 h
  cases h
  exact List.forall_mem_cons.2 ⟨lowered_of_name? hfirst, lowered_of_stepsFrom? hsteps⟩

end Path

namespace Tree

/-- A list has fewer items than this. -/
def maxLength : Nat := UInt32.size

/-- The place that an index means in a list of some length. -/
def place (length : Nat) (i : Int) : Except Error Nat :=
  let n : Int := if i < 0 then length + i else i
  if 0 ≤ n && n < maxLength then .ok n.toNat else .error .badIndex

/-- The items with one of them changed, and nothing in the places that had to be added. -/
def changeItem (items : List Tree) (i : Int) (change : Tree → Except Error Tree) :
    Except Error (List Tree) := do
  let n ← place items.length i
  let items := items ++ List.replicate (n + 1 - items.length) null
  return items.set n (← change (items.getD n null))

/-- Sets what a path leads to. What stands in the way of the path gives way to it. -/
def setAt (value : Tree) : Path → Tree → Except Error Tree
  | [], _ => .ok value
  | [.key name], t => .ok (t.set name value)
  | .key name :: rest, t => return t.put name (← setAt value rest ((t.get? name).getD null))
  | .index i :: rest, t => do
    let origin := match t with
      | list o _ => o
      | _ => none
    return list origin (← changeItem t.items i (setAt value rest))

end Tree

end Highlighter.Settings
