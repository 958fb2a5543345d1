import Highlighter.Data.Doc

/-!
The nodes of a YAML source, in which an alias stands for a node that has a name. An alias is
unfolded only where it is read, and no reading goes too deep or unfolds too often, so a source of
a few lines never makes an endless document.
-/

namespace Highlighter.Yaml

/-- A node. A list or a map is `whole` unless the source breaks off in it. -/
inductive Node
  | word (w : Word)
  | list (tag : Option Tag) (items : List Node) (whole : Bool)
  | map (tag : Option Tag) (entries : List (Node × Node)) (whole : Bool)
  | reference (number : Nat)
  /-- A node that has a name, for which a number stands. -/
  | anchored (number : Nat) (node : Node)
  | fault
  deriving Repr, Inhabited

namespace Node

/-- Lists and maps may be nested so deep. -/
def maxDepth : Nat := 128

/-- A scalar that is not there. -/
def blank : Node := word { text := "" }

mutual

/-- How often something begins, ends or stands by itself in a node. -/
def events : Node → Nat
  | word _ => 1
  | list _ items whole => 1 + itemEvents items + whole.toNat
  | map _ entries whole => 1 + entryEvents entries + whole.toNat
  | reference _ => 1
  | anchored _ node => node.events
  | fault => 0

def itemEvents : List Node → Nat
  | [] => 0
  | item :: items => item.events + itemEvents items

def entryEvents : List (Node × Node) → Nat
  | [] => 0
  | (key, value) :: entries => key.events + value.events + entryEvents entries

end

mutual

/-- The nodes that have a number, in the order they begin in. -/
def numbered : Node → List (Nat × Node)
  | list _ items _ => numberedItems items
  | map _ entries _ => numberedEntries entries
  | anchored number node => (number, node) :: node.numbered
  | _ => []

def numberedItems : List Node → List (Nat × Node)
  | [] => []
  | item :: items => item.numbered ++ numberedItems items

def numberedEntries : List (Node × Node) → List (Nat × Node)
  | [] => []
  | (key, value) :: entries => key.numbered ++ value.numbered ++ numberedEntries entries

end

/-- What is read of a node, and how often an alias may be unfolded behind it unless the reading
breaks off in it. -/
abbrev Unfolding := Doc × Option Nat

/-- The items of a list, read one after the other. -/
def unfoldItems (read : Nat → Node → Unfolding) (left : Nat) :
    List Node → List Doc × Option Nat
  | [] => ([], some left)
  | item :: items =>
    match read left item with
    | (doc, none) => ([doc], none)
    | (doc, some left) =>
      let (docs, left) := unfoldItems read left items
      (doc :: docs, left)

/-- The entries of a map, read one after the other. -/
def unfoldEntries (read : Nat → Node → Unfolding) (left : Nat) :
    List (Node × Node) → List (Doc × Doc) × Option Nat
  | [] => ([], some left)
  | (key, value) :: entries =>
    match read left key with
    | (key, none) => ([(key, .fault)], none)
    | (key, some left) =>
      match read left value with
      | (value, none) => ([(key, value)], none)
      | (value, some left) =>
        let (docs, left) := unfoldEntries read left entries
        ((key, value) :: docs, left)

/-- A list or a map with a tag. -/
def tagged (tag : Option Tag) (doc : Doc) : Doc :=
  match tag with
  | some (.own name) => .tagged name doc
  | _ => doc

/-- Reads a node that is no alias, with a reader for what is inside. There is none where lists
and maps are nested too deep. -/
def unfoldInside (read? : Option (Nat → Node → Unfolding)) (left : Nat) : Node → Unfolding
  | word w => (.word w, some left)
  | list tag items whole =>
    match read? with
    | none => (tagged tag (.list [] false), none)
    | some read =>
      let (docs, left) := unfoldItems read left items
      (tagged tag (.list docs (whole && left.isSome)), if whole then left else none)
  | map tag entries whole =>
    match read? with
    | none => (tagged tag (.map [] false), none)
    | some read =>
      let (docs, left) := unfoldEntries read left entries
      (tagged tag (.map docs (whole && left.isSome)), if whole then left else none)
  | anchored _ node => unfoldInside read? left node
  | _ => (.fault, none)

/-- Reads a node. -/
def unfold (target? : Nat → Option Node) (depth left : Nat) (node : Node) : Unfolding :=
  let read? : Option (Nat → Node → Unfolding) :=
    match depth with
    | 0 => none
    | depth + 1 => some fun left node => unfold target? depth left node
  match node with
  | reference number =>
    match left, target? number with
    | left + 1, some target => unfoldInside read? left target
    | _, _ => (.fault, none)
  | node => unfoldInside read? left node

/-- The document that a node stands for, and whether it was read to its end. An alias stands for
the last node with its number. There may be a hundred aliases to each event. -/
def toDoc (node : Node) : Doc × Bool :=
  let targets := node.numbered.reverse
  let (doc, left) := node.unfold (targets.lookup ·) maxDepth (100 * node.events)
  (doc, left.isSome)

end Node

end Highlighter.Yaml
