import Highlighter.Data.Toml.Table
import Highlighter.Data.Toml.Text

/-!
Reading TOML. A source that is not well formed, or defines something twice, is refused as a
whole.
-/

namespace Highlighter.Toml

/-- Lists, tables and dotted keys are not nested so deep. -/
def depthLimit : Nat := 80

/-- One part of a dotted key. -/
def keyPart? (cs : List Char) : Option (String × List Char) :=
  match cs with
  | '"' :: rest => lineString? true '"' (rest.length + 1) [] rest
  | '\'' :: rest => lineString? false '\'' (rest.length + 1) [] rest
  | cs =>
    let bare := cs.takeWhile isBareKeyChar
    if bare.isEmpty then none else some (String.ofList bare, cs.dropWhile isBareKeyChar)

private def keyParts? (fuel : Nat) (cs : List Char) : Option (List String × List Char) :=
  match fuel with
  | 0 => none
  | fuel + 1 => do
    let (part, rest) ← keyPart? (skipBlanks cs)
    match skipBlanks rest with
    | '.' :: rest =>
      let (parts, rest) ← keyParts? fuel rest
      return (part :: parts, rest)
    | rest => return ([part], rest)

/-- A dotted key: the way to its last part, and that part. -/
def key? (cs : List Char) : Option ((List String × String) × List Char) := do
  let (parts, rest) ← keyParts? (depthLimit - 1) cs
  return ((parts.dropLast, parts.getLast?.getD ""), rest)

mutual

/-- A value. -/
def value? (fuel depth : Nat) (cs : List Char) : Option (Doc × List Char) :=
  match fuel with
  | 0 => none
  | fuel + 1 =>
    let scalar (s : Scalar) (rest : List Char) : Option (Doc × List Char) :=
      some (.scalar s, rest)
    match cs with
    | '[' :: rest => if depth < depthLimit then items? fuel (depth + 1) [] rest else none
    | '\x7b' :: rest =>
      if depth < depthLimit then
        match skipBlanks rest with
        | '\x7d' :: rest => some (.map [] true, rest)
        | rest => fields? fuel (depth + 1) {} rest
      else none
    | 't' :: 'r' :: 'u' :: 'e' :: rest => scalar (.bool true) rest
    | 'f' :: 'a' :: 'l' :: 's' :: 'e' :: rest => scalar (.bool false) rest
    | '"' :: _ | '\'' :: _ => (string? cs).bind fun (s, rest) => scalar (.string s) rest
    | cs =>
      if beginsDate cs || beginsTime cs then (moment? cs).bind fun (s, rest) => scalar s rest
      else (number? cs).bind fun (s, rest) => scalar s rest

/-- The items of a list that are still to come, up to its end. -/
def items? (fuel depth : Nat) (read : List Doc) (cs : List Char) : Option (Doc × List Char) :=
  match fuel with
  | 0 => none
  | fuel + 1 =>
    match skipLines cs.length cs with
    | ']' :: rest => some (.list read.reverse true, rest)
    | cs => do
      let (item, rest) ← value? fuel depth cs
      match skipLines rest.length rest with
      | ',' :: rest => items? fuel depth (item :: read) rest
      | ']' :: rest => return (.list (item :: read).reverse true, rest)
      | _ => none

/-- The fields of a table on one line that are still to come, up to its end. -/
def fields? (fuel depth : Nat) (read : Table) (cs : List Char) : Option (Doc × List Char) :=
  match fuel with
  | 0 => none
  | fuel + 1 => do
    let ((path, key), rest) ← key? cs
    match rest with
    | '=' :: rest =>
      let (value, rest) ← value? fuel depth (skipBlanks rest)
      let read ← read.set? path key value
      match skipBlanks rest with
      | ',' :: rest => fields? fuel depth read rest
      | '\x7d' :: rest => return (read.toItem.doc, rest)
      | _ => none
    | _ => none

end

/-- A line: a header, or a key with its value. The answer holds the path of the last header. -/
def line? (root : Table) (header : List String) (cs : List Char) :
    Option (Table × List String × List Char) := do
  match cs with
  | '[' :: '[' :: rest =>
    let ((path, key), rest) ← key? rest
    match rest with
    | ']' :: ']' :: rest =>
      return (← root.addTable? path key, path ++ [key], ← lineEnd? rest)
    | _ => none
  | '[' :: rest =>
    let ((path, key), rest) ← key? rest
    match rest with
    | ']' :: rest => return (← root.openTable? path key, path ++ [key], ← lineEnd? rest)
    | _ => none
  | cs =>
    let ((path, key), rest) ← key? cs
    match rest with
    | '=' :: rest =>
      let (value, rest) ← value? (2 * rest.length + 2) 1 (skipBlanks rest)
      return (← root.setIn? header path key value, header, ← lineEnd? rest)
    | _ => none

/-- The lines from a place on. -/
def lines? (fuel : Nat) (root : Table) (header : List String) (cs : List Char) : Option Table :=
  match skipLines cs.length cs with
  | [] => some root
  | '#' :: rest => if (rest.dropWhile isPrintable).isEmpty then some root else none
  | cs =>
    match fuel with
    | 0 => none
    | fuel + 1 => do
      let (root, header, rest) ← line? root header cs
      lines? fuel root header rest

/-- Reads a source. -/
def read? (source : String) : Option Doc :=
  let cs := source.toList
  let cs := if cs.head? == some '\ufeff' then cs.drop 1 else cs
  (lines? (cs.length + 1) {} [] cs).map fun root => root.toItem.doc

end Highlighter.Toml
