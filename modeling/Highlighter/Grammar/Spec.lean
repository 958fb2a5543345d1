import Highlighter.Kind

/-!
Grammars as their authors write them: a name, keyword lists, named pattern fragments, and
an ordered list of rules.
-/

namespace Highlighter

/-- A named piece of pattern: the pattern itself, or words any of which matches. -/
inductive FragmentSpec
  | pattern (source : String)
  | words (list : List String)
  deriving DecidableEq, Repr, Inhabited

/-- The keywords of one kind: a text divided by blanks, or a list of such texts. -/
inductive WordList
  | text (words : String)
  | list (words : List String)
  deriving DecidableEq, Repr, Inhabited

/-- A rule as written. It refers to a rule of the pattern library by name, or it describes
a single match, or a scope between an opening and a closing match. -/
structure RuleSpec where
  reference : Option String := none
  label : Option Kind := none
  opening : Option String := none
  closing : Option String := none
  /-- Only the text of the opening match closes the scope. -/
  closesAsOpened : Bool := false
  inner : List RuleSpec := []
  caseless : Option Bool := none
  relevance : Option UInt32 := none
  /-- The opening match belongs to the enclosing scope. -/
  openingOutside : Bool := false
  /-- The closing match belongs to the enclosing scope. -/
  closingOutside : Bool := false
  /-- The language of the text between the two matches. -/
  language : Option String := none
  deriving Repr, Inhabited

/-- A grammar as written. Fragments and keyword lists are sorted by their keys. -/
structure GrammarSpec where
  name : String
  aliases : List String := []
  category : Option String := none
  caseless : Bool := false
  /-- A grammar that this one fully contains; of use only for ranking grammars. -/
  supersetOf : Option String := none
  /-- What splits text into words; by default words are runs of word characters. -/
  wordPattern : Option String := none
  fragments : List (String × FragmentSpec) := []
  keywords : List (Kind × WordList) := []
  illegal : Option String := none
  rules : List RuleSpec := []
  deriving Repr, Inhabited

/-- Puts a value under its key into a list sorted by keys. A value already there is replaced. -/
def putSorted [DecidableEq α] (less : α → α → Bool) (key : α) (value : β) :
    List (α × β) → List (α × β)
  | [] => [(key, value)]
  | entry :: rest =>
    if key = entry.1 then (key, value) :: rest
    else if less key entry.1 then (key, value) :: entry :: rest
    else entry :: putSorted less key value rest

namespace RuleSpec

/-- A rule that opens on a pattern. -/
def ofOpening (pattern : String) : RuleSpec := { opening := some pattern }

/-- A rule of the pattern library. -/
def ofReference (name : String) : RuleSpec := { reference := some name }

/-- The rule with one more inner rule. -/
def addInner (rule child : RuleSpec) : RuleSpec := { rule with inner := rule.inner ++ [child] }

/-- Whether the rule says nothing but where it is to be found. -/
def isBareReference (rule : RuleSpec) : Bool :=
  rule.label.isNone && rule.opening.isNone && rule.closing.isNone && !rule.closesAsOpened
    && rule.inner.isEmpty && rule.caseless.isNone && rule.relevance.isNone
    && !rule.openingOutside && !rule.closingOutside && rule.language.isNone

end RuleSpec

namespace GrammarSpec

/-- A grammar that has nothing but a name. -/
def ofName (name : String) : GrammarSpec := { name }

def addAlias (spec : GrammarSpec) (name : String) : GrammarSpec :=
  { spec with aliases := spec.aliases ++ [name] }

def addRule (spec : GrammarSpec) (rule : RuleSpec) : GrammarSpec :=
  { spec with rules := spec.rules ++ [rule] }

/-- Sets a fragment, in place of one of the same name. -/
def setFragment (spec : GrammarSpec) (name : String) (fragment : FragmentSpec) : GrammarSpec :=
  { spec with fragments := putSorted (· < ·) name fragment spec.fragments }

/-- Sets the keywords of a kind, in place of others of the kind. -/
def setKeywords (spec : GrammarSpec) (kind : Kind) (words : WordList) : GrammarSpec :=
  { spec with keywords := putSorted (·.rank < ·.rank) kind words spec.keywords }

/-- The fragment with a name. -/
def fragment? (spec : GrammarSpec) (name : String) : Option FragmentSpec :=
  spec.fragments.lookup name

end GrammarSpec

end Highlighter
