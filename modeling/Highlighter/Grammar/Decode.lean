import Highlighter.Data.Doc
import Highlighter.Data.Yaml.Scalar
import Highlighter.Grammar.Error
import Highlighter.Text.Quoted

/-!
Grammars from documents. A document is gone through in its own order, so of several things
wrong with it the first one is reported.
-/

namespace Highlighter

namespace Decode

/-- The two notations grammars come in. They differ in how a scalar may be read. -/
inductive Dialect
  | json
  | yaml
  deriving DecidableEq, Repr, Inhabited

/-- What is wrong with a document. -/
inductive Fault
  | malformed
  | wrongType (found expected : String)
  | wrongValue (found expected : String)
  | unknownField (name : String) (known : List String)
  | duplicateField (name : String)
  | missingField (name : String)
  | unknownVariant (name : String) (known : List String)
  | noVariant (type : String)
  deriving DecidableEq, Repr, Inhabited

open Text (code)

private def oneOf (names : List String) : String :=
  "expected one of " ++ ", ".intercalate (names.map code)

/-- The message of a fault. A source that is not well formed has none. -/
def Fault.message? : Fault → Option String
  | malformed => none
  | wrongType found expected => some ("invalid type: " ++ found ++ ", expected " ++ expected)
  | wrongValue found expected => some ("invalid value: " ++ found ++ ", expected " ++ expected)
  | unknownField name known => some ("unknown field " ++ code name ++ ", " ++ oneOf known)
  | duplicateField name => some ("duplicate field " ++ code name)
  | missingField name => some ("missing field " ++ code name)
  | unknownVariant name known => some ("unknown variant " ++ code name ++ ", " ++ oneOf known)
  | noVariant type => some ("data did not match any variant of untagged enum " ++ type)

/-- How a scalar is called in messages. -/
def describeScalar (d : Dialect) : Scalar → String
  | .null => match d with
    | .json => "null"
    | .yaml => "unit value"
  | .bool b => "boolean " ++ code (if b then "true" else "false")
  | .int n =>
    if n < UInt64.size && -(UInt64.size / 2 : Nat) ≤ n then "integer " ++ code (toString n)
    else "integer " ++ code (toString n) ++ (if n < 0 then " as i128" else " as u128")
  | .float x =>
    "floating point " ++ code (match d with
      | .json => x.scientific
      | .yaml => x.withPoint)
  | .string s => "string " ++ Text.quoted s

/-- What a word stands for by itself. -/
def wordValue (w : Yaml.Word) : Except Fault Scalar :=
  w.value.mapError (.wrongValue ("string " ++ Text.quoted w.text))

/-- What is wrong with a document where something else is expected. -/
def mismatchFault (d : Dialect) (expected : String) (doc : Doc) : Fault :=
  match doc with
  | .scalar s => .wrongType (describeScalar d s) expected
  | .word w =>
    match wordValue w with
    | .ok s => .wrongType (describeScalar d s) expected
    | .error fault => fault
  | .list .. => .wrongType "sequence" expected
  | .map .. => .wrongType "map" expected
  | .fault => .malformed
  | .tagged _ doc => mismatchFault d expected doc

/-- Refuses a document where something else is expected. -/
def mismatch (d : Dialect) (expected : String) (doc : Doc) : Except Fault α :=
  .error (mismatchFault d expected doc)

/-- A document without the tags that its author chose. Where it is known what to read, they do
not matter. -/
def bare : Doc → Doc
  | .tagged _ doc => bare doc
  | doc => doc

/-- Refuses a list or a map that its source breaks off in. -/
def requireWhole (whole : Bool) : Except Fault Unit :=
  if whole then .ok () else .error .malformed

/-- A text. In YAML any scalar will do, as it is written. -/
def string (d : Dialect) (expected : String) (doc : Doc) : Except Fault String :=
  match doc with
  | .scalar (.string s) => .ok s
  | .word w => .ok w.text
  | _ => mismatch d expected doc

def text (d : Dialect) (doc : Doc) : Except Fault String := string d "a string" doc

def bool (d : Dialect) (doc : Doc) : Except Fault Bool :=
  let found? : Option Bool :=
    match doc with
    | .scalar (.bool b) => some b
    | .word w => if w.admits .bool then Yaml.bool? w.text else none
    | _ => none
  match found? with
  | some b => .ok b
  | none => mismatch d "a boolean" doc

/-- A number from 0 to 2^32 - 1. Integers of 64 bits are out of range, all others of the wrong
type; in YAML so are negative ones. -/
def word32 (d : Dialect) (doc : Doc) : Except Fault UInt32 :=
  let found? : Option Int :=
    match doc with
    | .scalar (.int n) => some n
    | .word w => if w.admits .int then (Yaml.nat64? w.text).map Int.ofNat else none
    | _ => none
  match found? with
  | some n =>
    if 0 ≤ n && n < UInt32.size then .ok (UInt32.ofNat n.toNat)
    else .error (.wrongValue (describeScalar d (.int n)) "u32")
  | none => mismatch d "u32" doc

/-- Whether a word says that nothing is there. With a tag only `null` says it, and nothing but a
plain word does. -/
def isNullWord (w : Yaml.Word) : Except Fault Bool :=
  if w.style != .plain then .ok false
  else match w.tag with
    | some .null => (wordValue w).map fun _ => true
    | some _ => .ok false
    | none => .ok (w.text.isEmpty || Yaml.isNullWord w.text)

/-- Whether a document says that nothing is there. -/
def isNull : Doc → Except Fault Bool
  | .scalar .null => .ok true
  | .word w => isNullWord w
  | _ => .ok false

/-- Something that may be absent. -/
def optional (read : Doc → Except Fault α) (doc : Doc) : Except Fault (Option α) := do
  if ← isNull doc then return none else return some (← read doc)

/-- The items of a list. In YAML a list may also be left empty altogether. -/
def list (d : Dialect) (doc : Doc) : Except Fault (List Doc × Bool) :=
  match bare doc with
  | .list items whole => .ok (items, whole)
  | .word w => if w.isBlank then .ok ([], true) else mismatch d "a sequence" doc
  | _ => mismatch d "a sequence" doc

/-- The entries of a map. In YAML a map may also be left empty altogether. -/
def map (d : Dialect) (expected : String) (doc : Doc) : Except Fault (List (Doc × Doc) × Bool) :=
  match bare doc with
  | .map entries whole => .ok (entries, whole)
  | .word w => if w.isBlank then .ok ([], true) else mismatch d expected doc
  | _ => mismatch d expected doc

def texts (d : Dialect) (doc : Doc) : Except Fault (List String) := do
  let (items, whole) ← list d doc
  let result ← items.mapM (text d)
  requireWhole whole
  return result

/-- The labels of the kinds in order. -/
def labels : List String := Kind.all.map Kind.label

def kindOfLabel (label : String) : Except Fault Kind :=
  match Kind.ofLabel? label with
  | some kind => .ok kind
  | none => .error (.unknownVariant label labels)

/-- A kind by the tag of a word that has nothing behind it. -/
def kindOfTag (name : String) (w : Yaml.Word) : Except Fault Kind := do
  let kind ← kindOfLabel name
  if w.style == .plain && (w.text.isEmpty || Yaml.isNullWord w.text) then return kind
  else throw (.wrongValue ("string " ++ Text.quoted w.text) "null")

/-- A kind by its label. In JSON the label may also be the only key of a map, over `null`, and
in YAML it may be a tag, with nothing behind it. -/
def kind (d : Dialect) (doc : Doc) : Except Fault Kind :=
  match d, doc with
  | _, .scalar (.string s) => kindOfLabel s
  | _, .word w =>
    match w.tag with
    | some (.own name) => kindOfTag name w
    | _ => kindOfLabel w.text
  | .json, .map ((key, value) :: rest) whole => do
    let kind ← kindOfLabel (← string d "variant identifier" key)
    match value with
    | .scalar .null => if rest.isEmpty && whole then .ok kind else .error .malformed
    | _ => mismatch d "unit" value
  | .yaml, .list .. | .yaml, .map .. => mismatch d "a YAML tag starting with '!'" doc
  | .yaml, .tagged name inner => do
    let _ ← kindOfLabel name
    mismatch d "unit" inner
  | _, _ => .error .malformed

mutual

/-- A document where it is not known beforehand what to read: every word is taken for what it
stands for by itself. The source must not break off in it, no tag may be one that its author
chose, and no integer has more than 64 bits. -/
def settle (doc : Doc) : Except Fault Doc :=
  match doc with
  | .scalar s => .ok (.scalar s)
  | .word w =>
    match w.tag with
    | some (.own _) => .error .malformed
    | _ => do
      match ← wordValue w with
      | .int n =>
        if n < UInt64.size && -(UInt64.size / 2 : Nat) ≤ n then return .int n
        else mismatch .yaml "any value" (.int n)
      | s => return .scalar s
  | .list items whole => do
    let items ← settleItems items
    requireWhole whole
    return .list items true
  | .map entries whole => do
    let entries ← settleEntries entries
    requireWhole whole
    return .map entries true
  | .fault | .tagged .. => .error .malformed

def settleItems (items : List Doc) : Except Fault (List Doc) :=
  match items with
  | [] => .ok []
  | doc :: docs => do
    let doc ← settle doc
    return doc :: (← settleItems docs)

def settleEntries (entries : List (Doc × Doc)) : Except Fault (List (Doc × Doc)) :=
  match entries with
  | [] => .ok []
  | (key, value) :: rest => do
    let key ← settle key
    let value ← settle value
    return (key, value) :: (← settleEntries rest)

end

/-- A text, if the document is one whatever it is read as. -/
def plainText? : Doc → Option String
  | .scalar (.string s) => some s
  | _ => none

/-- A text or a list of texts. The document is read to its end before it is judged. -/
def textOrList (type : String) (one : String → α) (many : List String → α) (doc : Doc) :
    Except Fault α := do
  match ← settle doc with
  | .scalar (.string s) => return one s
  | .list items _ =>
    match items.mapM plainText? with
    | some ss => return many ss
    | none => throw (.noVariant type)
  | _ => throw (.noVariant type)

def fragment (doc : Doc) : Except Fault FragmentSpec :=
  textOrList "FragmentSpec" .pattern .words doc

def wordList (doc : Doc) : Except Fault WordList :=
  textOrList "KeywordList" .text .list doc

/-- A map, each entry of which is added to what the ones before it made. -/
def fold (d : Dialect) (add : α → Doc → Doc → Except Fault α) (initial : α) (doc : Doc) :
    Except Fault α := do
  let (entries, whole) ← map d "a map" doc
  let result ← entries.foldlM (fun acc (key, value) => add acc key value) initial
  requireWhole whole
  return result

def fragments (d : Dialect) : Doc → Except Fault (List (String × FragmentSpec)) :=
  fold d (fun acc key value => do
    let name ← text d key
    return putSorted (· < ·) name (← fragment value) acc) []

def keywords (d : Dialect) : Doc → Except Fault (List (Kind × WordList)) :=
  fold d (fun acc key value => do
    let kind ← kind d key
    return putSorted (·.rank < ·.rank) kind (← wordList value) acc) []

/-- The fields of a rule, in order. -/
def ruleFields : List String :=
  ["include", "label", "begin", "end", "end_same_as_begin", "contains", "case_insensitive",
    "relevance", "exclude_begin", "exclude_end", "sub_language"]

/-- The fields of a grammar, in order. -/
def grammarFields : List String :=
  ["name", "aliases", "category", "case_insensitive", "superset_of", "keyword_pattern",
    "fragments", "keywords", "illegal", "rules"]

/-- The field that a key names: it has to be a known one that was not there before. -/
def field (d : Dialect) (known seen : List String) (key : Doc) : Except Fault String := do
  let name ← string d "field identifier" key
  if !known.contains name then throw (.unknownField name known)
  if seen.contains name then throw (.duplicateField name)
  return name

/-- Sets a field of a rule other than its inner rules. -/
def setRuleField (d : Dialect) (rule : RuleSpec) (name : String) (doc : Doc) :
    Except Fault RuleSpec :=
  match name with
  | "include" => (optional (text d) doc).map fun reference => { rule with reference }
  | "label" => (optional (kind d) doc).map fun label => { rule with label }
  | "begin" => (optional (text d) doc).map fun opening => { rule with opening }
  | "end" => (optional (text d) doc).map fun closing => { rule with closing }
  | "end_same_as_begin" => (bool d doc).map fun closesAsOpened => { rule with closesAsOpened }
  | "case_insensitive" => (optional (bool d) doc).map fun caseless => { rule with caseless }
  | "relevance" => (optional (word32 d) doc).map fun relevance => { rule with relevance }
  | "exclude_begin" => (bool d doc).map fun openingOutside => { rule with openingOutside }
  | "exclude_end" => (bool d doc).map fun closingOutside => { rule with closingOutside }
  | "sub_language" => (optional (text d) doc).map fun language => { rule with language }
  | _ => .error (.unknownField name ruleFields)

mutual

/-- A rule: a map of its fields or, in JSON, a list of their values from the first on. -/
def rule (d : Dialect) (doc : Doc) : Except Fault RuleSpec :=
  match doc with
  | .map entries whole => do
    let result ← ruleEntries d [] {} entries
    requireWhole whole
    return result
  | .list items whole =>
    if d == .json then do
      let result ← ruleItems d {} ruleFields items
      requireWhole whole
      return result
    else mismatch d "struct RuleSpec" doc
  | .word w => if w.isBlank then .ok {} else mismatch d "struct RuleSpec" doc
  | .tagged _ doc => rule d doc
  | _ => mismatch d "struct RuleSpec" doc
termination_by sizeOf doc

def ruleEntries (d : Dialect) (seen : List String) (acc : RuleSpec)
    (entries : List (Doc × Doc)) : Except Fault RuleSpec :=
  match entries with
  | [] => .ok acc
  | (key, value) :: rest => do
    let name ← field d ruleFields seen key
    let acc ←
      if name = "contains" then (rules d value).map fun inner => { acc with inner }
      else setRuleField d acc name value
    ruleEntries d (name :: seen) acc rest
termination_by sizeOf entries

def ruleItems (d : Dialect) (acc : RuleSpec) (fields : List String) (items : List Doc) :
    Except Fault RuleSpec :=
  match items, fields with
  | [], _ => .ok acc
  | _ :: _, [] => .error .malformed
  | value :: rest, name :: fields => do
    let acc ←
      if name = "contains" then (rules d value).map fun inner => { acc with inner }
      else setRuleField d acc name value
    ruleItems d acc fields rest
termination_by sizeOf items

/-- A list of rules. -/
def rules (d : Dialect) (doc : Doc) : Except Fault (List RuleSpec) :=
  match doc with
  | .list items whole => do
    let result ← ruleList d items
    requireWhole whole
    return result
  | .word w => if w.isBlank then .ok [] else mismatch d "a sequence" doc
  | .tagged _ doc => rules d doc
  | _ => mismatch d "a sequence" doc
termination_by sizeOf doc

def ruleList (d : Dialect) (items : List Doc) : Except Fault (List RuleSpec) :=
  match items with
  | [] => .ok []
  | item :: rest => do
    let first ← rule d item
    let others ← ruleList d rest
    return first :: others
termination_by sizeOf items

end

/-- Sets a field of a grammar. -/
def setGrammarField (d : Dialect) (g : GrammarSpec) (name : String) (doc : Doc) :
    Except Fault GrammarSpec :=
  match name with
  | "name" => (text d doc).map fun name => { g with name }
  | "aliases" => (texts d doc).map fun aliases => { g with aliases }
  | "category" => (optional (text d) doc).map fun category => { g with category }
  | "case_insensitive" => (bool d doc).map fun caseless => { g with caseless }
  | "superset_of" => (optional (text d) doc).map fun supersetOf => { g with supersetOf }
  | "keyword_pattern" => (optional (text d) doc).map fun wordPattern => { g with wordPattern }
  | "fragments" => (fragments d doc).map fun fragments => { g with fragments }
  | "keywords" => (keywords d doc).map fun keywords => { g with keywords }
  | "illegal" => (optional (text d) doc).map fun illegal => { g with illegal }
  | "rules" => (rules d doc).map fun rules => { g with rules }
  | _ => .error (.unknownField name grammarFields)

/-- The fields of a grammar from the entries of a map. -/
def grammarEntries (d : Dialect) (entries : List (Doc × Doc)) :
    Except Fault (GrammarSpec × List String) :=
  entries.foldlM
    (fun (g, seen) (key, value) => do
      let name ← field d grammarFields seen key
      return (← setGrammarField d g name value, name :: seen))
    (.ofName "", [])

/-- A grammar: a map of its fields or, in JSON, a list of their values from the first on. -/
def grammar (d : Dialect) (doc : Doc) : Except Fault GrammarSpec :=
  match bare doc with
  | .map entries whole => do
    let (g, seen) ← grammarEntries d entries
    requireWhole whole
    if seen.contains "name" then return g else throw (.missingField "name")
  | .list items whole =>
    if d == .json then do
      let g ← (items.zip grammarFields).foldlM
        (fun g (value, name) => setGrammarField d g name value) (.ofName "")
      if !whole || items.isEmpty || items.length > grammarFields.length then throw .malformed
      return g
    else mismatch d "struct GrammarSpec" doc
  | .word w =>
    if w.isBlank then .error (.missingField "name") else mismatch d "struct GrammarSpec" doc
  | _ => mismatch d "struct GrammarSpec" doc

/-- A grammar from everything a source holds. -/
def source (d : Dialect) (s : Doc.Source) : Except Fault GrammarSpec := do
  let g ← grammar d s.root
  if s.clean then return g else throw .malformed

end Decode

end Highlighter
