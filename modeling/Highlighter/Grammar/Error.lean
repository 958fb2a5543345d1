import Highlighter.Grammar.Spec
import Highlighter.Text.Quoted

/-!
What can be wrong with a grammar. Everything is found while the grammar is compiled or
registered; highlighting a text cannot fail.
-/

namespace Highlighter

/-- A place in a grammar: its keywords, its root, or a rule. A rule is given by its number
in the grammar and the numbers of the inner rules on the way to it. -/
inductive Place
  | keywords
  | root
  | rule (index : Nat) (inner : List Nat)
  deriving DecidableEq, Repr, Inhabited

/-- The place of an inner rule. -/
def Place.child : Place → Nat → Place
  | .rule i inner, n => .rule i (inner ++ [n])
  | .root, n => .rule n []
  | .keywords, _ => .keywords

def Place.render : Place → String
  | .keywords => "keywords"
  | .root => "<root scanner>"
  | .rule i inner => inner.foldl (fun s n => s ++ ".contains[" ++ toString n ++ "]")
      ("rules[" ++ toString i ++ "]")

/-- What is wrong with the shape of a rule or of a keyword. -/
inductive RuleFault
  | badKeyword (entry : String)
  | mixedReference
  | nestedTooDeeply (name : String)
  | noOpening
  | emptyOpening
  | twoClosings
  | innerWithoutClosing
  | languageWithoutClosing
  deriving DecidableEq, Repr, Inhabited

open Text (code)

def RuleFault.message : RuleFault → String
  | badKeyword entry => "has malformed entry '" ++ entry ++ "'"
  | mixedReference => "mixes " ++ code "include" ++ " with an inline definition"
  | nestedTooDeeply name => "includes '" ++ name ++ "' too deeply"
  | noOpening => "has no begin pattern"
  | emptyOpening => "has an empty begin pattern"
  | twoClosings => "sets both " ++ code "end" ++ " and " ++ code "end_same_as_begin"
  | innerWithoutClosing => "has nested rules but no end"
  | languageWithoutClosing => "embeds a sub-language but has no end"

/-- Why a grammar is refused. -/
inductive GrammarError
  | emptyName
  | undefinedFragment (grammar name : String)
  | recursiveFragment (grammar name : String)
  | undefinedRule (grammar name : String)
  | malformedRule (grammar : String) (place : Place) (fault : RuleFault)
  | invalidPattern (grammar pattern : String)
  | duplicateName (key : String)
  | unknownSuperset (grammar target : String)
  | unknownLanguage (grammar target : String)
  | unreadableSource (reason : Option String)
  | unreadableFile (path reason : String)
  deriving DecidableEq, Repr, Inhabited

/-- The message of an error. That of an invalid pattern ends before the reason why it is
invalid; a source that is not well formed has no message. -/
def GrammarError.message? : GrammarError → Option String
  | emptyName => some "grammar has an empty name"
  | undefinedFragment g name =>
    some ("grammar '" ++ g ++ "': pattern fragment '" ++ name ++ "' is not defined")
  | recursiveFragment g name =>
    some ("grammar '" ++ g ++ "': pattern fragment '" ++ name ++ "' expands recursively")
  | undefinedRule g name =>
    some ("grammar '" ++ g ++ "': included rule '" ++ name ++ "' is not defined")
  | malformedRule g place fault =>
    some ("grammar '" ++ g ++ "': rule " ++ place.render ++ " " ++ fault.message)
  | invalidPattern g pattern =>
    some ("grammar '" ++ g ++ "': invalid pattern " ++ code pattern)
  | duplicateName key => some ("grammar name or alias '" ++ key ++ "' is already registered")
  | unknownSuperset g target =>
    some ("grammar '" ++ g ++ "' is declared a superset of unknown grammar '" ++ target ++ "'")
  | unknownLanguage g target =>
    some ("grammar '" ++ g ++ "' embeds unknown sub-language '" ++ target ++ "'")
  | unreadableSource reason => reason
  | unreadableFile path reason =>
    some ("could not read grammar file " ++ path ++ ": " ++ reason)

end Highlighter
