import Highlighter.Grammar.Spec
import Highlighter.Text.Basic
import Highlighter.Text.Lowercase

/-!
The keyword table of a grammar: which words are keywords, of which kind, and how much each
says about the language. A word listed under several kinds belongs to the first of them.
-/

namespace Highlighter

/-- The entries of a list, in order. -/
def WordList.entries : WordList → List String
  | .text words => Text.words words
  | .list lists => lists.flatMap Text.words

namespace Keyword

/-- Words that say nothing about which language is being read. -/
def commonWords : List String :=
  ["of", "and", "for", "in", "not", "or", "if", "then", "parent", "list", "value"]

/-- Hits of one word beyond this many do not count. -/
def maxHits : Nat := 7

/-- What is known about a keyword. -/
structure Entry where
  kind : Kind
  relevance : Nat
  deriving DecidableEq, Repr, Inhabited

/-- A number from 0 to 2^32 - 1, with or without a plus sign. -/
def weight? (s : String) : Option Nat :=
  let digits := match s.toList with
    | '+' :: rest => rest
    | cs => cs
  let n := digits.foldl (fun n c => 10 * n + (c.toNat - '0'.toNat)) 0
  if !digits.isEmpty && digits.all Char.isDigit && n < UInt32.size then some n else none

/-- The form under which a word is looked up. -/
def normalize (caseless : Bool) (word : String) : String :=
  if caseless then Text.lowercase word else word

/-- The weight of a word that has none of its own. -/
def defaultRelevance (word : String) : Nat :=
  if commonWords.contains (Text.lowercase word) then 0 else 1

/-- Reads an entry: a word, or a word, a bar and a weight. -/
def readEntry? (caseless : Bool) (kind : Kind) (entry : String) : Option (String × Entry) :=
  let cs := entry.toList
  let word := String.ofList (cs.takeWhile (· != '|'))
  let key := normalize caseless word
  if word.isEmpty then none
  else match cs.dropWhile (· != '|') with
    | [] => some (key, ⟨kind, defaultRelevance key⟩)
    | _ :: weight => (weight? (String.ofList weight)).map fun n => (key, ⟨kind, n⟩)

end Keyword

/-- A keyword table: one entry to a word. -/
structure KeywordTable where
  caseless : Bool
  entries : List (String × Keyword.Entry)
  deriving DecidableEq, Repr, Inhabited

namespace KeywordTable

/-- Adds an entry unless the word has one already. -/
def insert (entries : List (String × Keyword.Entry)) (new : String × Keyword.Entry) :
    List (String × Keyword.Entry) :=
  if (entries.lookup new.1).isSome then entries else entries ++ [new]

/-- The table of some keyword lists, or the first entry that cannot be read. -/
def ofLists (lists : List (Kind × WordList)) (caseless : Bool) : Except String KeywordTable := do
  let read ← (lists.flatMap fun (kind, list) => list.entries.map (kind, ·)).mapM
    fun (kind, entry) =>
      match Keyword.readEntry? caseless kind entry with
      | some item => .ok item
      | none => .error entry
  return ⟨caseless, read.foldl insert []⟩

/-- The number of words. -/
def size (t : KeywordTable) : Nat := t.entries.length

/-- The form under which a word is looked up and its hits are counted. -/
def key (t : KeywordTable) (word : String) : String := Keyword.normalize t.caseless word

/-- What the table says about a word. -/
def find? (t : KeywordTable) (word : String) : Option Keyword.Entry :=
  t.entries.lookup (t.key word)

/-- The kind of a word, plain when it is no keyword. -/
def classify (t : KeywordTable) (word : String) : Kind :=
  ((t.find? word).map Keyword.Entry.kind).getD .plain

end KeywordTable

end Highlighter
