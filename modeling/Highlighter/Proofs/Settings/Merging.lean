import Highlighter.Proofs.Lowercase
import Highlighter.Settings.Path

/-!
How trees are merged. What stands under a key afterwards depends only on what stood there before and
on what was given for that key.
-/

namespace Highlighter.Settings

namespace Tree

def isTable : Tree → Bool
  | table .. => true
  | _ => false

/-- A tree in place of another. A table is put into the other one entry by entry. -/
def upon (old : Tree) : Tree → Tree
  | table _ entries => old.setAll entries
  | new => new

theorem upon_of_not_isTable {new : Tree} (h : new.isTable = false) (old : Tree) :
    old.upon new = new := by
  cases new with
  | scalar => rfl
  | list => rfl
  | table => cases h

theorem set_eq_put (t : Tree) (key : String) (value : Tree) :
    t.set key value =
      t.put (Text.lowercase key) (((t.get? (Text.lowercase key)).getD empty).upon value) := by
  cases value with
  | scalar o s => rw [set, upon]; nofun
  | list o items => rw [set, upon]; nofun
  | table o entries => rw [set, upon]

section Lookup

variable {t old value : Tree} {key name : String} {entries : List (String × Tree)}

theorem isTable_put : (t.put key value).isTable = true := by
  unfold put
  split
  · split <;> rfl
  · rfl

theorem isTable_set : (t.set key value).isTable = true := by
  rw [set_eq_put]
  exact isTable_put

theorem isTable_setAll (h : t.isTable = true) : (t.setAll entries).isTable = true := by
  induction entries generalizing t with
  | nil => rwa [setAll]
  | cons e entries ih => exact ih isTable_set

/-- Entries whose value for one key is replaced. -/
theorem lookup_replace :
    (entries.map fun e => if e.1 == key then (key, value) else e).lookup name =
      if name = key then (entries.lookup name).map fun _ => value else entries.lookup name := by
  induction entries with
  | nil => simp
  | cons e entries ih =>
    rw [List.map_cons, List.lookup_cons, List.lookup_cons, ih]
    by_cases hname : name = key
    · by_cases he : e.1 = key
      · simp [he, hname]
      · have hne : (key == e.1) = false := beq_false_of_ne (Ne.symm he)
        simp [he, hname, hne]
    · have hne : (name == key) = false := beq_false_of_ne hname
      by_cases he : e.1 = key <;> simp [he, hname, hne]

theorem get?_put_self : (t.put key value).get? key = some value := by
  cases t with
  | table o es =>
    unfold put get?
    dsimp only
    split
    · rename_i h
      obtain ⟨old, hold⟩ := Option.isSome_iff_exists.1 h
      rw [entries, lookup_replace, if_pos rfl, hold, Option.map_some]
    · rename_i h
      rw [entries, List.lookup_append, Option.not_isSome_iff_eq_none.1 h, Option.none_or,
        List.lookup_cons_self]
  | scalar => exact List.lookup_cons_self
  | list => exact List.lookup_cons_self

theorem get?_put_of_ne (h : name ≠ key) : (t.put key value).get? name = t.get? name := by
  have hkey : (name == key) = false := beq_false_of_ne h
  have halone : [(key, value)].lookup name = none := by rw [List.lookup_cons, hkey]; rfl
  cases t with
  | table o es =>
    unfold put get?
    dsimp only
    split
    · rw [entries, lookup_replace, if_neg h]
      rfl
    · rw [entries, List.lookup_append, halone, Option.or_none]
      rfl
  | scalar => exact halone
  | list => exact halone

theorem get?_set (h : t.get? name = some old) :
    (t.set key value).get? name =
      some (if Text.lowercase key = name then old.upon value else old) := by
  rw [set_eq_put]
  by_cases hname : Text.lowercase key = name
  · rw [if_pos hname, hname, get?_put_self, h, Option.getD_some]
  · rw [if_neg hname, get?_put_of_ne (Ne.symm hname), h]

/-- What some entries give for a name. -/
def named (name : String) (entries : List (String × Tree)) : List Tree :=
  entries.filterMap fun e => if Text.lowercase e.1 = name then some e.2 else none

theorem get?_setAll (h : t.get? name = some old) :
    (t.setAll entries).get? name = some ((named name entries).foldl upon old) := by
  induction entries generalizing t old with
  | nil => rwa [setAll]
  | cons e entries ih =>
    rw [setAll, ih (get?_set h)]
    by_cases hname : Text.lowercase e.1 = name <;> simp [named, hname]

end Lookup

/-- The tree that a path to a value stands for, unless there is an index in the path. -/
def nest? : Path → Tree → Option Tree
  | [], value => some value
  | .key name :: rest, value => (nest? rest value).map fun t => table none [(name, t)]
  | .index _ :: _, _ => none

theorem null_set (key : String) (value : Tree) : null.set key value = empty.set key value := by
  rw [set_eq_put, set_eq_put]
  rfl

theorem lowercase_of_lowered {name : String} (h : (Step.key name).Lowered) :
    Text.lowercase name = name := by
  obtain ⟨s, rfl⟩ := h
  exact Text.lowercase_lowercase s

/-- To set what a path leads to is to set the tree that it stands for. -/
theorem setAt_eq_set {name : String} {rest : Path} {value tree : Tree}
    (h : nest? rest value = some tree) (lowered : ∀ step ∈ Step.key name :: rest, step.Lowered)
    (t : Tree) : setAt value (.key name :: rest) t = .ok (t.set name tree) := by
  induction rest generalizing name tree t with
  | nil =>
    cases h
    rfl
  | cons step rest ih =>
    cases step with
    | index i => cases h
    | key next =>
      obtain ⟨inner, hinner, rfl⟩ := Option.map_eq_some_iff.1 h
      obtain ⟨hname, hrest⟩ := List.forall_mem_cons.1 lowered
      -- The one way leaves nothing where a table was missing, the other an empty table.
      have hset : ((t.get? name).getD null).set next inner =
          ((t.get? name).getD empty).set next inner := by
        cases t.get? name with
        | none => exact null_set next inner
        | some old => rfl
      rw [setAt, ih hinner hrest, hset, set_eq_put t, lowercase_of_lowered hname, upon, setAll,
        setAll]
      · rfl
      · nofun

end Tree

end Highlighter.Settings
