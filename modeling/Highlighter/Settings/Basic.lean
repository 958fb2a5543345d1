import Highlighter.LogLevel
import Highlighter.Settings.Error
import Highlighter.Settings.Tree
import Highlighter.Text.Quoted

/-!
The settings, and how they are read from a tree. A setting may be written in any way that can
be taken for what it is to be: a number as a text, a truth value as a number, and so on.
-/

namespace Highlighter

/-- All settings. -/
structure Settings where
  /-- How deep scopes and embedded regions may be nested. -/
  maxDepth : Nat
  /-- Whether plain tokens are written. -/
  includePlain : Bool
  /-- Files of further grammars. -/
  grammars : List String
  format : String
  logLevel : LogLevel
  deriving DecidableEq, Repr, Inhabited

namespace Settings

/-- The settings that hold unless something else is said. -/
def defaults : Settings := ⟨32, true, [], "tag", .warn⟩

/-- Settings as a tree. -/
def toTree (s : Settings) : Tree :=
  .table none
    [("tokenizer", .table none
        [("max_depth", .scalar none (.int s.maxDepth)),
          ("include_plain", .scalar none (.bool s.includePlain))]),
      ("grammars", .table none
        [("paths", .list none (s.grammars.map fun p => .scalar none (.string p)))]),
      ("output", .table none [("format", .scalar none (.string s.format))]),
      ("logging", .table none [("level", .scalar none (.string s.logLevel.label))])]

namespace Tree

/-- What a tree is called where something of another shape is expected. -/
def shape : Tree → String
  | .scalar _ .null => "unit value"
  | .scalar _ (.bool b) => "boolean " ++ Text.code (if b then "true" else "false")
  | .scalar _ (.int n) => "integer " ++ Text.code (toString n)
  | .scalar _ (.float x) => "floating point " ++ Text.code x.withPoint
  | .scalar _ (.string s) => "string " ++ Text.quoted s
  | .list .. => "sequence"
  | .table .. => "map"

/-- Refuses a tree where a single value is expected. -/
def refuse (t : Tree) (found expected key : String) : Except Error α :=
  .error (.unreadableValue found expected key t.origin)

/-- A truth value: also a number, which is false only if it is zero, or one of some words. -/
def bool (key : String) (t : Tree) : Except Error Bool :=
  match t with
  | .scalar _ (.bool b) => .ok b
  | .scalar _ (.int n) => .ok (n != 0)
  | .scalar _ (.float x) => .ok (x.isNaN || !x.isFinite || x.significand != 0)
  | .scalar _ (.string s) =>
    let word := Text.lowercase s
    if word == "1" || word == "true" || word == "on" || word == "yes" then .ok true
    else if word == "0" || word == "false" || word == "off" || word == "no" then .ok false
    else t.refuse ("string " ++ Text.quoted word) "a boolean" key
  | t => t.refuse t.shape "a boolean" key

/-- Decimal digits, perhaps behind a plus sign, for a number below 2^64. -/
def wordDigits? (s : String) : Option Nat :=
  let ds := match s.toList with
    | '+' :: rest => rest
    | cs => cs
  let n := ds.foldl (fun n c => 10 * n + (c.toNat - '0'.toNat)) 0
  if !ds.isEmpty && ds.all Char.isDigit && n < UInt64.size then some n else none

/-- The nearest number from 0 to 2^64 - 1. -/
def clamp (x : Double) : Nat :=
  if x.isNaN then 0
  else if !x.isFinite then (if x.isNegative then 0 else UInt64.size - 1)
  else min x.round.toNat (UInt64.size - 1)

/-- A number from 0 to 2^64 - 1: also a fraction, which is rounded, a truth value, or a text. -/
def count (key : String) (t : Tree) : Except Error Nat :=
  match t with
  | .scalar _ (.bool b) => .ok b.toNat
  | .scalar _ (.int n) =>
    if 0 ≤ n then .ok n.toNat
    else t.refuse ("64-bit integer " ++ Text.code (toString n))
      "an unsigned 64 bit or less integer" key
  | .scalar _ (.float x) => .ok (clamp x)
  | .scalar _ (.string s) =>
    let word := Text.lowercase s
    if word == "true" || word == "on" || word == "yes" then .ok 1
    else if word == "false" || word == "off" || word == "no" then .ok 0
    else match wordDigits? s with
      | some n => .ok n
      | none => t.refuse ("string " ++ Text.quoted s) "an integer" key
  | t => t.refuse t.shape "an integer" key

/-- A text: also a number or a truth value as it is usually written. -/
def text (key : String) (t : Tree) : Except Error String :=
  match t with
  | .scalar _ (.bool b) => .ok (if b then "true" else "false")
  | .scalar _ (.int n) => .ok (toString n)
  | .scalar _ (.float x) => .ok x.positional
  | .scalar _ (.string s) => .ok s
  | t => t.refuse t.shape "a string" key

private def textsFrom (key : String) (i : Nat) : List Tree → Except Error (List String)
  | [] => .ok []
  | t :: ts => do
    let s ← t.text (key ++ "[" ++ toString i ++ "]")
    return s :: (← textsFrom key (i + 1) ts)

/-- A list of texts. -/
def texts (key : String) (t : Tree) : Except Error (List String) :=
  match t with
  | .list _ items => textsFrom key 0 items
  | t => .error (.wrongShape t.shape "a sequence")

/-- A level: its label, or a table with the label as its only key. -/
def logLevel (t : Tree) : Except Error LogLevel :=
  let named (label : String) : Except Error LogLevel :=
    match LogLevel.ofLabel? Text.lowercase label with
    | some level => .ok level
    | none => .error (.unknownLevel label)
  match t with
  | .scalar _ (.string s) => named s
  | .table _ [(label, _)] => named label
  | _ => .error .noLevel

/-- A place in a table or list where a setting may be. -/
structure Slot where
  key : String
  tree? : Option Tree
  absent : Error

/-- Reads what is in a slot, if anything is. -/
def Slot.read? (slot : Slot) (read : String → Tree → Except Error α) : Except Error (Option α) :=
  slot.tree?.mapM (read slot.key)

/-- What a slot held, which is an error if it was nothing. -/
def Slot.require (slot : Slot) : Option α → Except Error α
  | some a => .ok a
  | none => .error slot.absent

/-- The slots for some names in a table. A list may hold the settings in their order, too. -/
def slots (type key : String) (names : List String) (t : Tree) : Except Error (List Slot) :=
  match t with
  | .table _ entries =>
    .ok (names.map fun name => ⟨key ++ "." ++ name, entries.lookup name, .missing name⟩)
  | .list _ items =>
    let expected := "struct " ++ type ++ " with " ++ toString names.length
      ++ (if names.length = 1 then " element" else " elements")
    .ok ((List.range names.length).map fun i =>
      ⟨key ++ "[" ++ toString i ++ "]", items[i]?, .tooShort i expected⟩)
  | .scalar .. => .error (.wrongShape t.shape ("struct " ++ type))

/-- The only setting of a table. -/
def single (type name : String) (read : String → Tree → Except Error α) (key : String)
    (t : Tree) : Except Error α := do
  match ← t.slots type key [name] with
  | [slot] => slot.require (← slot.read? read)
  | _ => .error .malformedPath

/-- The settings for highlighting. -/
def depthAndPlain (key : String) (t : Tree) : Except Error (Nat × Bool) := do
  match ← t.slots "TokenizerConfig" key ["max_depth", "include_plain"] with
  | [depth, plain] =>
    let maxDepth ← depth.read? count
    let includePlain ← plain.read? bool
    return (← depth.require maxDepth, ← plain.require includePlain)
  | _ => .error .malformedPath

/-- Reads one part of the settings. -/
def part (t : Tree) (name : String) (read : String → Tree → Except Error α) : Except Error α :=
  match t.get? name with
  | some part => read name part
  | none => .error (.missing name)

end Tree

/-- Reads settings from a tree. -/
def ofTree (t : Tree) : Except Error Settings := do
  let (maxDepth, includePlain) ← t.part "tokenizer" Tree.depthAndPlain
  let grammars ← t.part "grammars" (Tree.single "GrammarsConfig" "paths" Tree.texts)
  let format ← t.part "output" (Tree.single "OutputConfig" "format" Tree.text)
  let logLevel ← t.part "logging" (Tree.single "LoggingConfig" "level" fun _ => Tree.logLevel)
  return { maxDepth, includePlain, grammars, format, logLevel }

end Settings

end Highlighter
