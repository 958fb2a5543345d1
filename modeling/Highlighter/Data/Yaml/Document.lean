import Highlighter.Data.Yaml.Node
import Highlighter.Data.Yaml.Token.Layout

/-!
Reading YAML: the node that the tokens of a source make up, and the document it stands for.
-/

namespace Highlighter.Yaml

/-- The tokens still to be read, none if the source breaks off; the names of nodes so far, each
with its number; and the handles of tags. -/
structure Reading where
  tokens : List Token
  anchors : List (String × Nat) := []
  handles : List (String × List UInt8) := []
  deriving Inhabited

namespace Reading

def next? (r : Reading) : Option Token := r.tokens.head?

def skip (r : Reading) : Reading := { r with tokens := r.tokens.drop 1 }

/-- Whether one of some tokens comes next. -/
def nextIn (r : Reading) (ts : List Token) : Bool := r.next?.any ts.contains

/-- Numbers a name. A name that is given again gets the number of a new one, but does not count
as one more. -/
def anchor (r : Reading) (name : String) : Nat × Reading :=
  let number := r.anchors.length
  (number, { r with anchors := (name, number) :: r.anchors.filter (·.1 != name) })

/-- A tag with its handle replaced. -/
def resolveTag? (r : Reading) (handle : String) (suffix : List UInt8) : Option Tag :=
  if handle.isEmpty then some (.ofBytes suffix)
  else (r.handles.lookup handle).map fun replacement => .ofBytes (replacement ++ suffix)

end Reading

/-- What stands in front of a node. -/
structure Properties where
  anchor : Option String := none
  tag : Option Tag := none
  deriving Inhabited

namespace Properties

/-- Whether anything stands in front of a node. -/
def isSome (p : Properties) : Bool := p.anchor.isSome || p.tag.isSome

/-- The number of a node's name, if it has one. -/
def number (p : Properties) (r : Reading) : Option Nat × Reading :=
  match p.anchor with
  | some name =>
    let (number, r) := r.anchor name
    (some number, r)
  | none => (none, r)

end Properties

/-- The name and the tag of a node, in either order. -/
def properties? (r : Reading) : Option (Properties × Reading) := do
  match r.tokens with
  | .anchor name :: .tag handle suffix :: rest =>
    return (⟨some name, some (← r.resolveTag? handle suffix)⟩, { r with tokens := rest })
  | .tag handle suffix :: .anchor name :: rest =>
    return (⟨some name, some (← r.resolveTag? handle suffix)⟩, { r with tokens := rest })
  | .anchor name :: rest => return (⟨some name, none⟩, { r with tokens := rest })
  | .tag handle suffix :: rest =>
    return (⟨none, some (← r.resolveTag? handle suffix)⟩, { r with tokens := rest })
  | _ => return ({}, r)

/-- A node with its number. -/
def numbered (number : Option Nat) (node : Node) : Node :=
  match number with
  | some number => .anchored number node
  | none => node

/-- A node and what is left behind it, if the source does not break off there. -/
abbrev Read := Node × Option Reading

mutual

/-- A node. Lists and maps on several lines are not allowed inside brackets, and a list
whose items are not indented only as the value of a key. -/
def node (fuel depth : Nat) (block loose : Bool) (r : Reading) : Read :=
  match fuel with
  | 0 => (.fault, none)
  | fuel + 1 =>
    match r.tokens with
    | .alias name :: rest =>
      match r.anchors.lookup name with
      | some number => (.reference number, some { r with tokens := rest })
      | none => (.fault, none)
    | _ =>
      match properties? r with
      | none => (.fault, none)
      | some (p, r) =>
        let list (r : Reading) (read : Nat → Reading → List Node × Option Reading) : Read :=
          let (number, r) := p.number r
          match depth with
          | 0 => (numbered number (.list p.tag [] false), none)
          | depth + 1 =>
            let (items, behind) := read depth r
            (numbered number (.list p.tag items behind.isSome), behind)
        let map (r : Reading) (read : Nat → Reading → List (Node × Node) × Option Reading) :
            Read :=
          let (number, r) := p.number r
          match depth with
          | 0 => (numbered number (.map p.tag [] false), none)
          | depth + 1 =>
            let (entries, behind) := read depth r
            (numbered number (.map p.tag entries behind.isSome), behind)
        let scalar (style : Style) (text : String) (r : Reading) : Read :=
          let (number, r) := p.number r
          (numbered number (.word ⟨style, p.tag, text⟩), some r)
        match r.tokens with
        | .dash :: _ =>
          if loose then list r fun depth r => looseItems fuel depth r
          else if p.isSome then scalar .plain "" r
          else (.fault, none)
        | .scalar style text :: rest => scalar style text { r with tokens := rest }
        | .openBracket :: rest =>
          list { r with tokens := rest } fun depth r => flowItems fuel depth true r
        | .openBrace :: rest =>
          map { r with tokens := rest } fun depth r => flowEntries fuel depth true r
        | t :: rest =>
          if block && t == .listStart then
            list { r with tokens := rest } fun depth r => blockItems fuel depth r
          else if block && t == .mapStart then
            map { r with tokens := rest } fun depth r => blockEntries fuel depth r
          else if p.isSome then scalar .plain "" r
          else (.fault, none)
        | [] => (.fault, none)

/-- A node, or nothing where one of some tokens comes next. -/
def nodeUnless (fuel depth : Nat) (block loose : Bool) (absent : List Token) (r : Reading) :
    Read :=
  match fuel with
  | 0 => (.fault, none)
  | fuel + 1 =>
    if r.nextIn absent then (.blank, some r) else node fuel depth block loose r

/-- The items of a list on several lines, up to its end. -/
def blockItems (fuel depth : Nat) (r : Reading) : List Node × Option Reading :=
  match fuel, r.next? with
  | fuel + 1, some .dash =>
    let (first, behind) := nodeUnless fuel depth true false [.dash, .blockEnd] r.skip
    match behind with
    | none => ([first], none)
    | some r =>
      let (others, behind) := blockItems fuel depth r
      (first :: others, behind)
  | _, some .blockEnd => ([], some r.skip)
  | _, _ => ([], none)

/-- The items of a list that is indented no more than the map around it. -/
def looseItems (fuel depth : Nat) (r : Reading) : List Node × Option Reading :=
  match fuel, r.next? with
  | fuel + 1, some .dash =>
    let (first, behind) := nodeUnless fuel depth true false [.dash, .key, .value, .blockEnd] r.skip
    match behind with
    | none => ([first], none)
    | some r =>
      let (others, behind) := looseItems fuel depth r
      (first :: others, behind)
  | _, some _ => ([], some r)
  | _, none => ([], none)

/-- The entries of a map on several lines, up to its end. -/
def blockEntries (fuel depth : Nat) (r : Reading) : List (Node × Node) × Option Reading :=
  match fuel, r.next? with
  | fuel + 1, some .key =>
    let (key, behind) := nodeUnless fuel depth true true [.key, .value, .blockEnd] r.skip
    match behind with
    | none => ([(key, .fault)], none)
    | some r => blockValue fuel depth key r
  | _, some .blockEnd => ([], some r.skip)
  | _, _ => ([], none)

/-- The value of a key and the entries behind it. -/
def blockValue (fuel depth : Nat) (key : Node) (r : Reading) :
    List (Node × Node) × Option Reading :=
  match fuel with
  | 0 => ([(key, .fault)], none)
  | fuel + 1 =>
    let (value, behind) :=
      match r.next? with
      | some .value => nodeUnless fuel depth true true [.key, .value, .blockEnd] r.skip
      | some _ => (.blank, some r)
      | none => (.fault, none)
    match behind with
    | none => ([(key, value)], none)
    | some r =>
      let (others, behind) := blockEntries fuel depth r
      ((key, value) :: others, behind)

/-- The items of a list between brackets, up to its end. An item with a key is a map of one
entry. -/
def flowItems (fuel depth : Nat) (first : Bool) (r : Reading) : List Node × Option Reading :=
  match fuel with
  | 0 => ([], none)
  | fuel + 1 =>
    if r.nextIn [.closeBracket] then ([], some r.skip)
    else if !first && !r.nextIn [.comma] then ([], none)
    else
      let r := if first then r else r.skip
      if r.nextIn [.closeBracket] then ([], some r.skip)
      else
        let (item, behind) :=
          if r.nextIn [.key] then
            match depth with
            | 0 => (.map none [] false, none)
            | depth + 1 => singleEntry fuel depth r.skip
          else node fuel depth false false r
        match behind with
        | none => ([item], none)
        | some r =>
          let (others, behind) := flowItems fuel depth false r
          (item :: others, behind)

/-- A map of one entry as an item of a list between brackets. -/
def singleEntry (fuel depth : Nat) (r : Reading) : Read :=
  match fuel with
  | 0 => (.map none [] false, none)
  | fuel + 1 =>
    let (key, behind) :=
      if r.nextIn [.value, .comma, .closeBracket] then (.blank, some r.skip)
      else node fuel depth false false r
    match behind with
    | none => (.map none [(key, .fault)] false, none)
    | some r =>
      let (value, behind) :=
        match r.next? with
        | some .value => nodeUnless fuel depth false false [.comma, .closeBracket] r.skip
        | some _ => (.blank, some r)
        | none => (.fault, none)
      match behind with
      | none => (.map none [(key, value)] false, none)
      | some r => (.map none [(key, value)] r.next?.isSome, if r.next?.isSome then some r else none)

/-- The entries of a map between braces, up to its end. -/
def flowEntries (fuel depth : Nat) (first : Bool) (r : Reading) :
    List (Node × Node) × Option Reading :=
  match fuel with
  | 0 => ([], none)
  | fuel + 1 =>
    if r.nextIn [.closeBrace] then ([], some r.skip)
    else if !first && !r.nextIn [.comma] then ([], none)
    else
      let r := if first then r else r.skip
      if r.nextIn [.closeBrace] then ([], some r.skip)
      else
        let keyed := r.nextIn [.key]
        let (key, behind) :=
          if keyed then nodeUnless fuel depth false false [.value, .comma, .closeBrace] r.skip
          else node fuel depth false false r
        match behind with
        | none => ([(key, .fault)], none)
        | some r =>
          let (value, behind) :=
            match r.next? with
            | some .value =>
              if keyed then nodeUnless fuel depth false false [.comma, .closeBrace] r.skip
              else (.blank, some r)
            | some _ => (.blank, some r)
            | none => (.fault, none)
          match behind with
          | none => ([(key, value)], none)
          | some r =>
            let (others, behind) := flowEntries fuel depth false r
            ((key, value) :: others, behind)

end

/-- The directives in front of a document. The version, if it is given, is 1.1 or 1.2, and
no handle is given twice. -/
def directives? (versioned : Bool) (r : Reading) (fuel : Nat) : Option Reading :=
  match fuel, r.tokens with
  | fuel + 1, .version major minor :: rest =>
    if versioned || major != 1 || (minor != 1 && minor != 2) then none
    else directives? true { r with tokens := rest } fuel
  | fuel + 1, .tagHandle name replacement :: rest =>
    if (r.handles.lookup name).isSome then none
    else directives? versioned
      { r with tokens := rest, handles := r.handles ++ [(name, replacement)] } fuel
  | _, _ => some r

/-- The handles that may be used without a directive. -/
def standardHandles : List (String × List UInt8) :=
  [("!", [0x21]), ("!!", (tagOf "").toUTF8.toList)]

/-- Whether nothing but marks of a document's end follows. -/
def isClean (r : Reading) : Bool := r.tokens.dropWhile (· == .documentEnd) == [.sourceEnd]

/-- The document at the beginning of a source. -/
def document (r : Reading) : Doc.Source :=
  let source (read : Read) : Doc.Source :=
    let (doc, whole) := read.1.toDoc
    ⟨doc, whole && read.2.any isClean⟩
  let fuel := 8 * r.tokens.length + 8
  match r.next? with
  | none => ⟨.fault, false⟩
  | some .sourceEnd => source (.blank, some r)
  | some t =>
    match directives? false r r.tokens.length with
    | none => ⟨.fault, false⟩
    | some d =>
      let r := { d with handles := d.handles ++ standardHandles }
      if r.nextIn [.documentStart] then
        let r := r.skip
        match r.next? with
        | some (.version ..) | some (.tagHandle ..) | some .documentStart | some .documentEnd
        | some .sourceEnd => source (.blank, some r)
        | _ => source (node fuel Node.maxDepth true false r)
      else match t with
        | .version .. | .tagHandle .. => ⟨.fault, false⟩
        | _ => source (node fuel Node.maxDepth true false r)

/-- Reads a source. -/
def read (source : String) : Doc.Source := document { tokens := tokens source }

end Highlighter.Yaml
