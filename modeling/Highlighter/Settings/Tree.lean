import Highlighter.Data.Doc
import Highlighter.Text.Lowercase

/-!
Settings before they are checked: a tree of tables. Keys are in lower case. Each node may say
which file it comes from.
-/

namespace Highlighter.Settings

inductive Tree
  | scalar (origin : Option String) (value : Scalar)
  | list (origin : Option String) (items : List Tree)
  | table (origin : Option String) (entries : List (String × Tree))
  deriving Inhabited

namespace Tree

def null : Tree := scalar none .null

def empty : Tree := table none []

def origin : Tree → Option String
  | scalar o _ => o
  | list o _ => o
  | table o _ => o

def entries : Tree → List (String × Tree)
  | table _ entries => entries
  | _ => []

def items : Tree → List Tree
  | list _ items => items
  | _ => []

def get? (t : Tree) (key : String) : Option Tree := t.entries.lookup key

/-- Puts a tree under a key, in place of what was there. Anything but a table gives way to
one. -/
def put (t : Tree) (key : String) (value : Tree) : Tree :=
  match t with
  | table o entries =>
    if (entries.lookup key).isSome then
      table o (entries.map fun e => if e.1 == key then (key, value) else e)
    else table o (entries ++ [(key, value)])
  | _ => table none [(key, value)]

mutual

/-- Sets a key. A table is merged key by key into the one that is there; anything else takes
its place. -/
def set (t : Tree) (key : String) (value : Tree) : Tree :=
  match value with
  | table _ entries =>
    let name := Text.lowercase key
    t.put name (setAll ((t.get? name).getD empty) entries)
  | scalar o s => t.put (Text.lowercase key) (scalar o s)
  | list o items => t.put (Text.lowercase key) (list o items)

def setAll (t : Tree) (entries : List (String × Tree)) : Tree :=
  match entries with
  | [] => t
  | (key, value) :: rest => setAll (t.set key value) rest

end

mutual

/-- A document as a tree. -/
def ofDoc (origin : Option String) (doc : Doc) : Tree :=
  match doc with
  | .scalar s => scalar origin s
  | .word w => scalar origin (.string w.text)
  | .list items _ => list origin (ofDocs origin items)
  | .map entries _ => table origin (ofEntries origin entries)
  | .fault => scalar origin .null
  | .tagged _ doc => ofDoc origin doc

def ofDocs (origin : Option String) : List Doc → List Tree
  | [] => []
  | doc :: docs => ofDoc origin doc :: ofDocs origin docs

def ofEntries (origin : Option String) : List (Doc × Doc) → List (String × Tree)
  | [] => []
  | (.scalar (.string key), value) :: rest => (key, ofDoc origin value) :: ofEntries origin rest
  | _ :: rest => ofEntries origin rest

end

end Tree

end Highlighter.Settings
