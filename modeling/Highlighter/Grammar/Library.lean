import Highlighter.Grammar.Fragment

/-!
The pattern library: named fragments and named rules that grammars share, so that none
has to describe numbers, comments and quoted strings again.
-/

namespace Highlighter

/-- Named fragments and named rules, each sorted by name. -/
structure Library where
  fragments : List (String × String) := []
  rules : List (String × RuleSpec) := []
  deriving Inhabited

namespace Library

/-- Sets a fragment, in place of one of the same name. -/
def setFragment (lib : Library) (name pattern : String) : Library :=
  { lib with fragments := putSorted (· < ·) name pattern lib.fragments }

/-- Sets a rule, in place of one of the same name. -/
def setRule (lib : Library) (name : String) (rule : RuleSpec) : Library :=
  { lib with rules := putSorted (· < ·) name rule lib.rules }

def fragment? (lib : Library) (name : String) : Option String := lib.fragments.lookup name

def rule? (lib : Library) (name : String) : Option RuleSpec := lib.rules.lookup name

/-- The names of the fragments in order. -/
def fragmentNames (lib : Library) : List String := lib.fragments.map Prod.fst

/-- The names of the rules in order. -/
def ruleNames (lib : Library) : List String := lib.rules.map Prod.fst

/-- Replaces every reference in a pattern. Fragments in `own` come before those of the library. -/
def expand (lib : Library) (own : String → Option String) (pattern : String) :
    Except Fragment.Fault String :=
  Fragment.expand (fun name => (own name).or (lib.fragment? name)) Fragment.maxNesting pattern

/-- The fragments every library starts from. -/
def standardFragments : List (String × String) :=
  [("ident", "[a-zA-Z_][a-zA-Z_0-9$]*"),
    ("c_number",
      "(-?)(\\b0[xX][a-fA-F0-9]+|(\\b\\d+(\\.\\d*)?|\\.\\d+)([eE][-+]?\\d+)?)"),
    ("dollar_tag", "\\$([a-zA-Z_]?|[a-zA-Z_][a-zA-Z_0-9]*)\\$"),
    ("label", "<<\\s*[a-zA-Z_][a-zA-Z_0-9$]*\\s*>>"),
    ("block_comment_begin", "/\\*"),
    ("block_comment_end", "\\*/"),
    ("line_comment", "--")]

/-- The rules every library starts from. -/
def standardRules : List (String × RuleSpec) :=
  [("c_number",
      { opening := some "\x7b\x7bc_number\x7d\x7d", label := some .number,
        relevance := some 0 }),
    ("c_block_comment",
      { opening := some "\x7b\x7bblock_comment_begin\x7d\x7d",
        closing := some "\x7b\x7bblock_comment_end\x7d\x7d",
        label := some .comment, relevance := some 0 }),
    ("sql_line_comment",
      { opening := some "\x7b\x7bline_comment\x7d\x7d", closing := some "$",
        label := some .comment, relevance := some 0 }),
    ("single_quoted_string",
      { opening := some "'", closing := some "'", label := some .string,
        inner := [.ofOpening "''"] }),
    ("double_quoted_identifier",
      { opening := some "\"", closing := some "\"", inner := [.ofOpening "\"\""] }),
    ("dollar_quoted_string",
      { opening := some "\x7b\x7bdollar_tag\x7d\x7d", closesAsOpened := true,
        label := some .string })]

/-- The library that grammars are compiled against unless told otherwise. -/
def standard : Library :=
  let lib := standardFragments.foldl (fun lib (name, pattern) => lib.setFragment name pattern) {}
  standardRules.foldl (fun lib (name, rule) => lib.setRule name rule) lib

end Library

end Highlighter
