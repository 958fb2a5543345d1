import Highlighter.Grammar.Keyword
import Highlighter.Grammar.Scanner

/-!
Compiled grammars. All patterns are expanded and read; every scope has the scanner that
finds what comes next in it.
-/

namespace Highlighter

/-- How a rule ends: it is a single match, or it opens a scope that a pattern closes, or one
that only the text of the opening match closes. -/
inductive Ending
  | single
  | pattern (source : String)
  | asOpened
  deriving DecidableEq, Repr, Inhabited

/-- A compiled rule. -/
structure Rule where
  kind : Option Kind
  opening : String
  ending : Ending
  /-- The closing pattern by itself. -/
  closing : Option Regex
  inner : List Rule
  scanner : Scanner
  caseless : Bool
  relevance : Nat
  openingOutside : Bool
  closingOutside : Bool
  language : Option String
  deriving Repr, Inhabited

/-- Whether the rule opens a scope. -/
def Rule.opensScope (r : Rule) : Bool := r.ending != .single

/-- A rule in which every scanner comes only to what can come up in its scope. -/
inductive Rule.Sound : Rule → Prop
  | intro {rule : Rule} (inner : ∀ r ∈ rule.inner, r.Sound)
      (hits : ∀ hit ∈ rule.scanner.hits, hit.fits rule.inner.length true) : rule.Sound

theorem Rule.Sound.inner {rule : Rule} (h : rule.Sound) : ∀ r ∈ rule.inner, r.Sound := by
  cases h with
  | intro inner _ => exact inner

theorem Rule.Sound.hits {rule : Rule} (h : rule.Sound) :
    ∀ hit ∈ rule.scanner.hits, hit.fits rule.inner.length true := by
  cases h with
  | intro _ hits => exact hits

/-- A compiled grammar. Its scanners, inside the rules and outside, come only to what can come
up in their scopes. -/
structure Grammar where
  name : String
  aliases : List String
  category : Option String
  caseless : Bool
  supersetOf : Option String
  keywords : KeywordTable
  word : Regex
  rules : List Rule
  scanner : Scanner
  rules_sound : ∀ rule ∈ rules, rule.Sound
  hits_fit : ∀ hit ∈ scanner.hits, hit.fits rules.length false
  deriving Repr

mutual

/-- The languages named in a rule and inside it, in order. -/
def Rule.languages (rule : Rule) : List String :=
  match rule with
  | { language, inner, .. } => language.toList ++ Rule.languagesOf inner

/-- The languages named in some rules, in order. -/
def Rule.languagesOf : List Rule → List String
  | [] => []
  | rule :: rules => rule.languages ++ Rule.languagesOf rules

end

namespace Grammar

/-- Every language named anywhere in the rules, each once, in order of first mention. -/
def languages (g : Grammar) : List String := (Rule.languagesOf g.rules).eraseDups

/-- The names under which a grammar is found: its own and its aliases, in lower case. -/
def keys (g : Grammar) : List String := ((g.name :: g.aliases).map Text.lowercase).eraseDups

end Grammar

end Highlighter
