import Highlighter.Grammar.Registry

/-!
The grammars that come with the library: a compact dialect of SQL under its present and its
earlier name. They say the same but for their names and for the case in which functions are
spelled, which does not matter because both grammars disregard case.
-/

namespace Highlighter

namespace Bundled

/-- Functions by what they work on: texts, numbers, columns of numbers, columns, dates. -/
def functions : List String :=
  ["concat_with_separator", "concat", "contains", "ends_with", "greatest", "least",
    "from_base64", "length", "lower", "md5_hash", "regex_extract_pattern",
    "regex_extract_all_patterns", "regex_replace", "regex_split", "sha256_hash", "split",
    "to_base64", "trim", "trim_clean", "upper", "levenshtein_distance", "hamming_distance"]
  ++ ["abs", "acos", "asin", "atan", "atan2", "cbrt", "ceiling", "cos", "degrees", "exp",
    "floor", "is_finite", "is_infinite", "is_nan", "ln", "log", "log2", "pi", "radians",
    "random", "round", "power", "sign", "sin", "sqrt", "tan", "truncate", "sinh", "cosh",
    "tanh", "e", "z_score"]
  ++ ["correlation", "population_covariance", "sample_covariance", "population_kurtosis",
    "median", "regression_intercept", "regression_slope", "skewness",
    "population_standard_deviation", "sample_standard_deviation", "population_variance",
    "sample_variance", "average", "geometric_mean", "max", "min", "sum", "product", "count"]
  ++ ["first_value", "last_value", "any_value"]
  ++ ["day", "day_of_week", "day_of_year", "hour", "microsecond", "millisecond", "minute",
    "month", "quarter", "second", "timezone_hour", "timezone_minute", "week", "year"]

def types : List String :=
  ["BIGINT", "BIT", "BLOB", "BOOLEAN", "DATE", "DECIMAL", "DOUBLE", "FLOAT", "HUGEINT",
    "INTEGER", "INTERVAL", "JSON", "SMALLINT", "TIME", "TIMESTAMP", "TINYINT", "UBIGINT",
    "UHUGEINT", "UINTEGER", "USMALLINT", "UTINYINT", "UUID", "STRING", "ARRAY", "LIST", "MAP",
    "STRUCT", "UNION"]

/-- Keywords, grouped by where they are used. -/
def keywords : List String :=
  ["SELECT FROM WHERE GROUP BY HAVING ORDER LIMIT OFFSET",
    "INSERT INTO VALUES",
    "UPDATE SET",
    "DELETE",
    "AND OR NOT IN EXISTS",
    "CASE WHEN THEN ELSE END",
    "IS NULL TRUE FALSE",
    "ASC DESC BETWEEN",
    "LIKE ILIKE SIMILAR TO",
    "AS CAST",
    "JOIN INNER LEFT RIGHT FULL OUTER CROSS ON USING",
    "UNION ALL INTERSECT EXCEPT",
    "OVER PARTITION ROWS RANGE PRECEDING FOLLOWING CURRENT ROW",
    "FIRST_VALUE LAST_VALUE LAG LEAD NTH_VALUE",
    "RANK DENSE_RANK ROW_NUMBER",
    "ANY SOME"]

/-- The rules in order. What stands between dollar tags is in the language itself. -/
def rules (language : String) : List RuleSpec :=
  [{ label := some .builtIn, opening := some "\\b(\x7b\x7bfunctions\x7d\x7d)\\s*\\(",
      closing := some "\\)" },
    { label := some .typeName, opening := some "\\b(\x7b\x7btypes\x7d\x7d)\\b" },
    .ofReference "single_quoted_string",
    { label := some .string, opening := some "\x7b\x7bdollar_tag\x7d\x7d",
      closesAsOpened := true, language := some language },
    .ofReference "double_quoted_identifier",
    .ofReference "c_number",
    .ofReference "c_block_comment",
    .ofReference "sql_line_comment",
    { label := some .symbol, opening := some "\x7b\x7blabel\x7d\x7d" }]

/-- The grammar under a name and an alias, with some spelling of the functions. -/
def dialect (name byname : String) (functions : List String) : GrammarSpec :=
  { name
    aliases := [byname]
    category := some "database"
    caseless := true
    fragments := [("functions", .words functions), ("types", .pattern ("|".intercalate types))]
    keywords :=
      [(.keyword, .text (" ".intercalate keywords)),
        (.builtIn, .text "CURRENT_TIME CURRENT_TIMESTAMP CURRENT_DATE")]
    rules := rules byname }

def cocoSql : GrammarSpec := dialect "CocoSQL" "cocosql" functions

def earlierCocoSql : GrammarSpec :=
  dialect "coco-sql-old" "cocosql-old" (functions.map String.toUpper)

/-- The grammars in order of registration, with the names they are announced by. -/
def all : List (String × GrammarSpec) :=
  [("cocosql.yaml", cocoSql), ("cocosql-old.yaml", earlierCocoSql)]

end Bundled

/-- A registry of some grammars, each of whose languages has to be among them. -/
def Registry.ofSpecs (specs : List GrammarSpec) : Except GrammarError Registry := do
  let r ← specs.foldlM (fun r spec => (r.registerSpec spec).map Prod.fst) ({} : Registry)
  r.validate
  return r

/-- The registry of the grammars that come with the library. -/
def Registry.bundled : Except GrammarError Registry := Registry.ofSpecs (Bundled.all.map Prod.snd)

end Highlighter
