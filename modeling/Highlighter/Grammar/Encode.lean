import Highlighter.Data.Doc
import Highlighter.Grammar.Basic
import Highlighter.Grammar.Spec

/-!
Grammars as documents: those that authors write, with every field that is set, and an
overview of compiled ones.
-/

namespace Highlighter

namespace Encode

/-- A field that is left out when nothing is set. -/
def optional (name : String) (encode : α → Doc) (value : Option α) : List (String × Doc) :=
  match value with
  | some a => [(name, encode a)]
  | none => []

def orNull (encode : α → Doc) (value : Option α) : Doc :=
  match value with
  | some a => encode a
  | none => .null

def kind (k : Kind) : Doc := .string k.label

def texts (ss : List String) : Doc := .ofList (ss.map .string)

def fragment : FragmentSpec → Doc
  | .pattern source => .string source
  | .words list => texts list

def wordList : WordList → Doc
  | .text words => .string words
  | .list words => texts words

mutual

/-- A rule. Fields that can be absent are there only when set. -/
def rule (r : RuleSpec) : Doc :=
  match r with
  | { reference, label, opening, closing, closesAsOpened, inner, caseless, relevance,
      openingOutside, closingOutside, language } =>
    .ofFields (
      optional "include" .string reference
      ++ optional "label" kind label
      ++ optional "begin" .string opening
      ++ optional "end" .string closing
      ++ [("end_same_as_begin", .bool closesAsOpened)]
      ++ (if inner.isEmpty then [] else [("contains", .ofList (rules inner))])
      ++ optional "case_insensitive" .bool caseless
      ++ optional "relevance" (fun n => .nat n.toNat) relevance
      ++ [("exclude_begin", .bool openingOutside), ("exclude_end", .bool closingOutside)]
      ++ optional "sub_language" .string language)

def rules : List RuleSpec → List Doc
  | [] => []
  | r :: rs => rule r :: rules rs

end

/-- A grammar. Fields that can be absent are there only when set. -/
def grammar (g : GrammarSpec) : Doc :=
  .ofFields (
    [("name", .string g.name), ("aliases", texts g.aliases)]
    ++ optional "category" .string g.category
    ++ [("case_insensitive", .bool g.caseless)]
    ++ optional "superset_of" .string g.supersetOf
    ++ optional "keyword_pattern" .string g.wordPattern
    ++ [("fragments", .ofFields (g.fragments.map fun (name, f) => (name, fragment f))),
      ("keywords", .ofFields (g.keywords.map fun (k, list) => (k.label, wordList list)))]
    ++ optional "illegal" .string g.illegal
    ++ [("rules", .ofList (rules g.rules))])

def ending : Ending → Doc
  | .single => .null
  | .pattern source => .ofFields [("pattern", .string source)]
  | .asOpened => .string "same_as_begin"

mutual

/-- An overview of a compiled rule. -/
def compiledRule (r : Rule) : Doc :=
  match r with
  | { kind := k, opening, ending := e, inner, caseless, relevance, language, .. } =>
    .ofFields [("kind", orNull kind k), ("begin", .string opening), ("end", ending e),
      ("rules", .ofList (compiledRules inner)), ("case_insensitive", .bool caseless),
      ("relevance", .nat relevance), ("sub_language", orNull .string language)]

def compiledRules : List Rule → List Doc
  | [] => []
  | r :: rs => compiledRule r :: compiledRules rs

end

/-- An overview of a compiled grammar. -/
def compiled (g : Grammar) : Doc :=
  .ofFields [("name", .string g.name), ("aliases", texts g.aliases),
    ("category", orNull .string g.category), ("case_insensitive", .bool g.caseless),
    ("superset_of", orNull .string g.supersetOf), ("keywords", .nat g.keywords.size),
    ("sub_languages", texts g.languages), ("rules", .ofList (compiledRules g.rules))]

end Encode

end Highlighter
