import Highlighter.Grammar.Compile
import Highlighter.Highlighting

/-!
The registry: compiled grammars, found by name or alias without regard to case. No two of
them share a name.
-/

namespace Highlighter

/-- Under which keys grammars are found: for each key the place of its grammar. -/
abbrev KeyIndex := List (String × Nat)

namespace KeyIndex

/-- Enters a place under a key, instead of the place that is there. -/
def put (index : KeyIndex) (key : String) (place : Nat) : KeyIndex :=
  putSorted (· < ·) key place index

/-- Enters a place under some keys. -/
def putAll (index : KeyIndex) (keys : List String) (place : Nat) : KeyIndex :=
  keys.foldl (·.put · place) index

/-- The index of grammars that stand in this order. -/
def ofGrammars (grammars : List Grammar) : KeyIndex :=
  grammars.zipIdx.foldl (fun index (g, place) => index.putAll g.keys place) []

end KeyIndex

/-- Compiled grammars in order of registration, where they are found, and the library that new ones
are compiled against. -/
structure Registry where
  grammars : List Grammar := []
  index : KeyIndex := .ofGrammars grammars
  library : Library := .standard
  deriving Inhabited

namespace Registry

/-- The grammar with a name or alias. -/
def find? (r : Registry) (language : String) : Option Grammar :=
  (r.index.lookup (Text.lowercase language)).bind (r.grammars[·]?)

/-- Whether some grammar has this name or alias. -/
def has (r : Registry) (language : String) : Bool := (r.find? language).isSome

/-- The names of the grammars in order. -/
def names (r : Registry) : List String :=
  (r.grammars.map Grammar.name).mergeSort fun a b => !(b < a)

/-- Whether there is a grammar under a key. -/
def isTaken (r : Registry) (key : String) : Bool := (r.index.lookup key).isSome

/-- A change of a registry. If it is refused, it leaves a registry all the same. -/
abbrev Change (α : Type) := ExceptT GrammarError (StateM Registry) α

/-- Enters a place under a key. -/
def enter (place : Nat) (key : String) : Change Unit :=
  modify fun r => { r with index := r.index.put key place }

/-- Adds a compiled grammar under its name and aliases, unless one of them is taken. -/
def add (g : Grammar) : Change Grammar := do
  let r ← get
  match g.keys.find? r.isTaken with
  | some key => throw (.duplicateName key)
  | none =>
    g.keys.forM (enter r.grammars.length)
    modify fun r => { r with grammars := r.grammars ++ [g] }
    return g

/-- Compiles a grammar against the library of the registry and adds it. -/
def addSpec (spec : GrammarSpec) : Change Grammar := do
  let r ← get
  let g ← liftExcept (spec.compile r.library)
  add g

/-- What a change makes of a registry, unless it is refused. -/
def Change.apply {α : Type} (change : Change α) (r : Registry) : Except GrammarError (Registry × α) :=
  match change.run.run r with
  | (.ok a, after) => .ok (after, a)
  | (.error e, _) => .error e

/-- The registry with one more compiled grammar. -/
def register (r : Registry) (g : Grammar) : Except GrammarError Registry :=
  ((add g).apply r).map Prod.fst

/-- The registry with one more grammar, and that grammar. -/
def registerSpec (r : Registry) (spec : GrammarSpec) : Except GrammarError (Registry × Grammar) :=
  (addSpec spec).apply r

/-- Checks that a grammar mentions only languages that are registered. -/
def validateGrammar (r : Registry) (g : Grammar) : Except GrammarError Unit := do
  if let some target := g.supersetOf then
    if !r.has target then throw (.unknownSuperset g.name target)
  if let some target := g.languages.find? (!r.has ·) then
    throw (.unknownLanguage g.name target)

/-- Checks that the grammars mention only languages that are registered. -/
def validate (r : Registry) : Except GrammarError Unit := r.grammars.forM r.validateGrammar

/-- Starts highlighting a text in a language, if that is registered. -/
def start? (r : Registry) (language : String) (maxDepth : Nat) (text : String) :
    Option Highlighting :=
  (r.find? language).map fun g => Highlighting.start g r.find? maxDepth text

/-- Highlights a text in a language, if that is registered. -/
def highlight? (r : Registry) (language : String) (maxDepth : Nat) (text : String) :
    Option Highlight :=
  (r.start? language maxDepth text).map Highlighting.toHighlight

end Registry

/-- The message for a language that is not registered. -/
def unknownLanguageMessage (language : String) : String :=
  "no grammar registered for language '" ++ language ++ "'"

end Highlighter
