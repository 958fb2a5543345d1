/-!
The kinds a span of text can have. The order of declaration is an order of precedence:
a word listed under several kinds counts under the first of them.
-/

namespace Highlighter

/-- What a span of text is. `plain` is text that nothing claimed. -/
inductive Kind
  | plain
  | keyword
  | builtIn
  | literal
  | typeName
  | number
  | string
  | comment
  | symbol
  | variableName
  | operator
  | punctuation
  | title
  | metadata
  deriving DecidableEq, Repr, Inhabited

namespace Kind

/-- Every kind, in order of precedence. -/
def all : List Kind :=
  [plain, keyword, builtIn, literal, typeName, number, string, comment, symbol, variableName,
    operator, punctuation, title, metadata]

/-- The word for a kind in grammar files and in every output format. -/
def label : Kind → String
  | plain => "plain"
  | keyword => "keyword"
  | builtIn => "built_in"
  | literal => "literal"
  | typeName => "type"
  | number => "number"
  | string => "string"
  | comment => "comment"
  | symbol => "symbol"
  | variableName => "variable"
  | operator => "operator"
  | punctuation => "punctuation"
  | title => "title"
  | metadata => "meta"

/-- The name of a kind in log lines. -/
def display : Kind → String
  | plain => "Plain"
  | keyword => "Keyword"
  | builtIn => "BuiltIn"
  | literal => "Literal"
  | typeName => "Type"
  | number => "Number"
  | string => "String"
  | comment => "Comment"
  | symbol => "Symbol"
  | variableName => "Variable"
  | operator => "Operator"
  | punctuation => "Punctuation"
  | title => "Title"
  | metadata => "Meta"

/-- The kind a label stands for. -/
def ofLabel? (label : String) : Option Kind :=
  all.find? fun kind => kind.label == label

/-- The place of a kind in the order of precedence. -/
def rank (kind : Kind) : Nat := kind.ctorIdx

theorem mem_all (kind : Kind) : kind ∈ all := by cases kind <;> decide

theorem ofLabel?_label (kind : Kind) : ofLabel? kind.label = some kind := by
  cases kind <;> decide

end Kind

end Highlighter
