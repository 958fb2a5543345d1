import Highlighter.Data.Doc

/-!
Tables as a TOML source builds them up. A table may be mentioned on the way to another one
before it gets its own header, but nothing is defined twice.
-/

namespace Highlighter.Toml

/-- What stands under a key: a value, a table, or a list of tables, the last one first. A
table is `implicit` while it has only been mentioned, and `dotted` if that was in a dotted
key. -/
inductive Item
  | value (doc : Doc)
  | table (implicit dotted : Bool) (entries : List (String × Item))
  | tables (tables : List (List (String × Item)))
  deriving Inhabited

structure Table where
  implicit : Bool := false
  dotted : Bool := false
  entries : List (String × Item) := []
  deriving Inhabited

namespace Table

def toItem (t : Table) : Item := .table t.implicit t.dotted t.entries

def get? (t : Table) (key : String) : Option Item := t.entries.lookup key

/-- Puts something under a key, in place of what was there. -/
def put (t : Table) (key : String) (item : Item) : Table :=
  if (t.get? key).isSome then
    { t with entries := t.entries.map fun e => if e.1 == key then (key, item) else e }
  else { t with entries := t.entries ++ [(key, item)] }

/-- Changes the table that a path leads to. Tables that are not there yet are made. A dotted
key does not lead into tables that have a header. -/
def within? (dotted : Bool) (change : Table → Option Table) : List String → Table → Option Table
  | [], t => change t
  | key :: path, t =>
    match t.get? key with
    | none => (within? dotted change path ⟨true, dotted, []⟩).map fun u => t.put key u.toItem
    | some (.value _) => none
    | some (.tables []) => none
    | some (.tables (last :: others)) =>
      (within? dotted change path ⟨false, false, last⟩).map fun u =>
        t.put key (.tables (u.entries :: others))
    | some (.table implicit isDotted entries) =>
      if dotted && !implicit then none
      else (within? dotted change path ⟨implicit, isDotted, entries⟩).map fun u =>
        t.put key u.toItem

/-- Sets the value of a dotted key. -/
def set? (path : List String) (key : String) (value : Doc) (t : Table) : Option Table :=
  t.within? true (fun u =>
    if u.dotted == path.isEmpty || (u.get? key).isSome then none
    else some (u.put key (.value value))) path

/-- Opens a table by its header. -/
def openTable? (path : List String) (key : String) (t : Table) : Option Table :=
  t.within? false (fun u =>
    match u.get? key with
    | none => some (u.put key (.table false false []))
    | some (.table true false entries) => some (u.put key (.table false false entries))
    | some _ => none) path

/-- Adds a table to a list of tables by its header. -/
def addTable? (path : List String) (key : String) (t : Table) : Option Table :=
  t.within? false (fun u =>
    match u.get? key with
    | none => some (u.put key (.tables [[]]))
    | some (.tables others) => some (u.put key (.tables ([] :: others)))
    | some _ => none) path

/-- Sets the value of a dotted key in the table whose header came last. -/
def setIn? (header path : List String) (key : String) (value : Doc) (t : Table) : Option Table :=
  t.within? false (set? path key value) header

end Table

mutual

/-- A finished item. -/
def Item.doc : Item → Doc
  | .value doc => doc
  | .table _ _ entries => .map (docEntries entries) true
  | .tables ts => .list (docTables ts).reverse true

def docEntries : List (String × Item) → List (Doc × Doc)
  | [] => []
  | (key, item) :: rest => (.string key, item.doc) :: docEntries rest

def docTables : List (List (String × Item)) → List Doc
  | [] => []
  | entries :: rest => .map (docEntries entries) true :: docTables rest

end

end Highlighter.Toml
