/-!
The command line: which options there are, and what the words on it mean. Words are gone
through from left to right, and the first one that is wrong is reported.
-/

namespace Highlighter.Command

/-- The options, besides the path of the text. -/
inductive Opt
  | language
  | format
  | config
  | grammar
  | maxDepth
  | strict
  | verbose
  | listLanguages
  | listFormats
  | help
  | version
  deriving DecidableEq, Repr, Inhabited

namespace Opt

def all : List Opt :=
  [language, format, config, grammar, maxDepth, strict, verbose, listLanguages, listFormats,
    help, version]

def name : Opt → String
  | language => "language"
  | format => "format"
  | config => "config"
  | grammar => "grammar"
  | maxDepth => "max-depth"
  | strict => "strict"
  | verbose => "verbose"
  | listLanguages => "list-languages"
  | listFormats => "list-formats"
  | help => "help"
  | version => "version"

def letter? : Opt → Option Char
  | language => some 'l'
  | format => some 'f'
  | config => some 'c'
  | grammar => some 'g'
  | verbose => some 'v'
  | help => some 'h'
  | version => some 'V'
  | _ => none

/-- Whether a value belongs to the option. -/
def takesValue : Opt → Bool
  | language | format | config | grammar | maxDepth => true
  | _ => false

/-- Whether the option may be given more than once. -/
def repeats : Opt → Bool
  | grammar | verbose => true
  | _ => false

/-- The option as messages show it. -/
def shown (o : Opt) : String :=
  "--" ++ o.name ++ (if o.takesValue then " <" ++ o.name ++ ">" else "")

def about : Opt → String
  | language => "Grammar name or alias (e.g., 'cocosql')"
  | format => "Output format (default from config: tag)"
  | config => "Configuration file (default: ./hilite.toml when present)"
  | grammar => "Extra grammar file (YAML, or JSON by extension); repeatable"
  | maxDepth => "Maximum nesting of scopes and embedded languages (at most 256)"
  | strict => "Exit with status 2 when the input is incomplete or contains illegal text"
  | verbose => "Log more (-v debug, -vv trace)"
  | listLanguages => "List registered grammars and their aliases"
  | listFormats => "List available output formats"
  | help => "Print help"
  | version => "Print version"

end Opt

/-- What a command line asks for. -/
structure Arguments where
  path : Option String := none
  language : Option String := none
  format : Option String := none
  config : Option String := none
  grammars : List String := []
  maxDepth : Option Nat := none
  strict : Bool := false
  verbosity : Nat := 0
  listLanguages : Bool := false
  listFormats : Bool := false
  deriving DecidableEq, Repr, Inhabited

/-- Why a command line asks for nothing to be done: it asks for a text about the command, or
it is wrong, either as a whole or in one value. -/
inductive Halt
  | help
  | version
  | misuse (message : String)
  | badValue (message : String)
  deriving DecidableEq, Repr, Inhabited

/-- Why a word is not a number below 2^64, if it is not. -/
def number (s : String) : Except String Nat :=
  let step (n : Nat) (c : Char) : Except String Nat :=
    if !c.isDigit then .error "invalid digit found in string"
    else
      let m := 10 * n + (c.toNat - '0'.toNat)
      if m < UInt64.size then .ok m else .error "number too large to fit in target type"
  match s.toList with
  | [] => .error "cannot parse integer from empty string"
  | ['+'] => .error "invalid digit found in string"
  | '+' :: ds => ds.foldlM step 0
  | ds => ds.foldlM step 0

/-- How far a command line has been read. -/
structure Reading where
  found : Arguments := {}
  /-- The options given so far. -/
  seen : List Opt := []
  /-- An option whose value is still to be taken in, if it is there already. -/
  pending : Option (Opt × Option String) := none
  /-- Whether the word that ends the options has been read. -/
  ended : Bool := false
  deriving Inhabited

namespace Reading

private def noValue (o : Opt) : Halt :=
  .badValue ("a value is required for '" ++ o.shown ++ "' but none was supplied")

private def unexpected (word : String) : Halt :=
  .misuse ("unexpected argument '" ++ word ++ "' found")

/-- Takes in the value of an option. -/
def withValue (found : Arguments) (o : Opt) (value : String) : Except Halt Arguments :=
  match o with
  | .language => .ok { found with language := some value }
  | .format => .ok { found with format := some value }
  | .config => if value.isEmpty then .error (noValue o) else .ok { found with config := some value }
  | .grammar =>
    if value.isEmpty then .error (noValue o)
    else .ok { found with grammars := found.grammars ++ [value] }
  | .maxDepth =>
    match number value with
    | .ok n => .ok { found with maxDepth := some n }
    | .error reason =>
      .error (.badValue ("invalid value '" ++ value ++ "' for '" ++ o.shown ++ "': " ++ reason))
  | _ => .ok found

/-- Takes in an option without a value. -/
def withFlag (found : Arguments) (o : Opt) : Except Halt Arguments :=
  match o with
  | .strict => .ok { found with strict := true }
  | .verbose => .ok { found with verbosity := found.verbosity + 1 }
  | .listLanguages => .ok { found with listLanguages := true }
  | .listFormats => .ok { found with listFormats := true }
  | .help => .error .help
  | .version => .error .version
  | _ => .ok found

/-- Notes that an option was given. -/
def note (r : Reading) (o : Opt) : Except Halt Reading :=
  if !o.repeats && r.seen.contains o then
    .error (.misuse ("the argument '" ++ o.shown ++ "' cannot be used multiple times"))
  else .ok { r with seen := o :: r.seen }

/-- Takes in the option that is pending. It needs its value by now. -/
def settle (r : Reading) : Except Halt Reading := do
  match r.pending with
  | none => return r
  | some (o, none) => throw (noValue o)
  | some (o, some value) =>
    let r ← r.note o
    return { r with found := ← withValue r.found o value, pending := none }

/-- An option that needs a value, with the value if it is in the same word. -/
def option (r : Reading) (o : Opt) (value : Option String) : Except Halt Reading := do
  let r := { ← r.settle with pending := some (o, value) }
  if value.isSome then r.settle else return r

def flag (r : Reading) (o : Opt) : Except Halt Reading := do
  let r ← (← r.settle).note o
  return { r with found := ← withFlag r.found o }

/-- A word of one dash and letters, the last of which may have its value behind it. -/
def letters (word : String) (r : Reading) : List Char → Except Halt Reading
  | [] => .ok r
  | c :: rest =>
    match Opt.all.find? fun o => o.letter? == some c with
    | none => .error (unexpected word)
    | some o =>
      if o.takesValue then
        r.option o (match rest with
          | [] => none
          | '=' :: value => some (String.ofList value)
          | value => some (String.ofList value))
      else do letters word (← r.flag o) rest

/-- A word of two dashes and a name, which may have its value behind it. -/
def long (word : String) (r : Reading) (cs : List Char) : Except Halt Reading :=
  let name := String.ofList (cs.takeWhile (· != '='))
  let value := match cs.dropWhile (· != '=') with
    | _ :: value => some (String.ofList value)
    | [] => none
  match Opt.all.find? fun o => o.name == name with
  | none => .error (unexpected word)
  | some o =>
    if o.takesValue then r.option o value
    else match value with
      | some value => .error (.misuse ("unexpected value '" ++ value ++ "' for '" ++ o.shown
          ++ "' found; no more were expected"))
      | none => r.flag o

/-- A word that is neither an option nor the value of one. -/
def operand (r : Reading) (word : String) : Except Halt Reading := do
  if r.found.path.isSome then throw (unexpected word)
  let r ← r.settle
  return { r with found := { r.found with path := some word } }

/-- Reads one word. -/
def word (r : Reading) (s : String) : Except Halt Reading :=
  if r.ended then r.operand s
  else match s.toList with
    | ['-', '-'] => .ok { r with ended := true }
    | '-' :: '-' :: name => r.long s name
    | '-' :: c :: rest => r.letters s (c :: rest)
    | _ =>
      match r.pending with
      | some (o, none) => .ok { r with pending := some (o, some s) }
      | _ => r.operand s

end Reading

/-- Reads a command line. Unless it asks for a list, it has to name a path and a language. -/
def Arguments.ofWords (words : List String) : Except Halt Arguments := do
  let r ← (← words.foldlM Reading.word {}).settle
  let found := r.found
  if found.listLanguages || found.listFormats || (found.path.isSome && found.language.isSome) then
    return found
  else
    throw (.misuse "the following required arguments were not provided: --language <language> <path>")

/-- How the command is used. -/
def usage : String := "Usage: hilite [OPTIONS] [path]\n"

/-- One line about an option. -/
private def optionLine (o : Opt) : String :=
  let left := (match o.letter? with
    | some c => "  -" ++ String.singleton c ++ ", "
    | none => "      ") ++ o.shown
  left ++ String.ofList (List.replicate (31 - left.length) ' ') ++ o.about ++ "\n"

/-- A text about the command. -/
def help : String :=
  "Tokenize source text for syntax highlighting\n\n" ++ usage
    ++ "\nArguments:\n  [path]  File to tokenize, or - for stdin\n\nOptions:\n"
    ++ String.join (Opt.all.map optionLine)

end Highlighter.Command
