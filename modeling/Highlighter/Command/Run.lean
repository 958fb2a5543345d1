import Highlighter.Command.Arguments
import Highlighter.Command.Log
import Highlighter.Format.Registry
import Highlighter.Grammar.Bundled
import Highlighter.Grammar.Source
import Highlighter.Settings.Loader

/-!
What the command does: it highlights a text, or lists the languages or the formats. Nothing is
written to the standard output unless everything went well.
-/

namespace Highlighter.Command

/-- What the command can see around it. -/
structure World (m : Type → Type) where
  contents : String → m (Except ReadFault ByteArray)
  input : m ByteArray
  /-- What is to be logged, if the environment says so. -/
  logSpec : Option String

/-- A world of files in memory. -/
def World.ofFolder (files : Folder) (input : ByteArray) (logSpec : Option String) : World Id :=
  ⟨files.read, input, logSpec⟩

/-- What the command comes to. -/
structure Report where
  status : Nat
  output : String := ""
  errors : String := ""
  deriving DecidableEq, Repr, Inhabited

/-- The name and version of the command. -/
def versionLine : String := "hilite 0.1.0\n"

/-- What comes of a command line that asks for nothing to be done. -/
def Halt.report : Halt → Report
  | help => { status := 0, output := Command.help }
  | version => { status := 0, output := versionLine }
  | misuse message =>
    { status := 2
      errors := "error: " ++ message ++ "\n\n" ++ usage ++ "\nFor more information, try '--help'.\n" }
  | badValue message =>
    { status := 2, errors := "error: " ++ message ++ "\n\nFor more information, try '--help'.\n" }

/-- The status of a run that did not go well. -/
def failure : Nat := 1

/-- The status of a strict run whose text is incomplete or has something illegal in it. -/
def notClean : Nat := 2

/-- What is wrong with a grammar, with the reasons behind it. -/
def describe : GrammarError → String
  | .unreadableSource reason => "could not parse grammar data: " ++ reason.getD "bad syntax"
  | .unreadableFile path reason =>
    ((GrammarError.unreadableFile path reason).message?).getD "" ++ ": " ++ reason
  | .invalidPattern grammar pattern =>
    ((GrammarError.invalidPattern grammar pattern).message?).getD ""
      ++ ": regex parse error: bad pattern"
  | e => (e.message?).getD ""

/-- What is wrong with settings. -/
def describeSettings (e : Settings.Error) : String :=
  match e with
  | .malformedFile origin => "TOML parse error: bad syntax in " ++ origin
  | e => (e.message?).getD "bad path"

/-- The sources of settings that the arguments name. -/
def Arguments.loader (args : Arguments) : Except String Settings.Loader := do
  let mut loader := Settings.Loader.discover args.config
  let set (l : Settings.Loader) (key : String) (value : Scalar) : Except String Settings.Loader :=
    (l.set key (.scalar none value)).mapError describeSettings
  if let some format := args.format then
    loader ← set loader "output.format" (.string format)
  if let some depth := args.maxDepth then
    if depth ≥ UInt64.size / 2 then
      throw "--max-depth is too large: number too large to fit in target type"
    loader ← set loader "tokenizer.max_depth" (.int depth)
  return loader

/-- The settings of a run. -/
def settings (loader : Settings.Loader) (read : Settings.Reader) : Except String Settings := do
  let s ← (loader.build read).mapError fun e =>
    "failed to load configuration: " ++ describeSettings e
  if s.maxDepth > maxDepthLimit then
    throw ("tokenizer.max_depth is " ++ toString s.maxDepth ++ ", the limit is "
      ++ toString maxDepthLimit)
  return s

/-- Which records are logged: what the environment says, else what the arguments say, else what
the settings say. -/
def filter (spec : Option String) (args : Arguments) (s : Settings) : Filter × List String :=
  Filter.ofSpec (spec.getD (match args.verbosity with
    | 0 => s.logLevel.label
    | 1 => LogLevel.debug.label
    | _ => LogLevel.trace.label))

/-- The records so far, and what was to be done or why it could not be done. -/
abbrev Session (m : Type → Type) := ExceptT String (StateT (List Record) m)

namespace Session

variable {m : Type → Type} [Monad m]

def log (records : List Record) : Session m Unit := modify (· ++ records)

/-- Goes on only if something is well. -/
def require (describe : ε → String) : Except ε α → Session m α
  | .ok a => pure a
  | .error e => throw (describe e)

end Session

/-- The formats as a list. -/
def formatList (formats : FormatRegistry) : String :=
  "Available formats:\n\n"
    ++ String.join (formats.describe.map fun (name, about) =>
      "  " ++ name ++ "\n    " ++ about ++ "\n\n")

private def languageEntry (g : Grammar) : String :=
  let lower := Text.asciiLowercase
  let aliases := g.aliases.filter fun a => lower a != lower g.name
  "  " ++ g.name ++ "\n"
    ++ (if aliases.isEmpty then "" else "    aliases: " ++ ", ".intercalate aliases ++ "\n")
    ++ (match g.category with
      | some category => "    category: " ++ category ++ "\n"
      | none => "")
    ++ "\n"

/-- The languages as a list, sorted by name without regard to case. -/
def languageList (r : Registry) : String :=
  let sorted := r.grammars.mergeSort fun a b => !(Text.lowercase b.name < Text.lowercase a.name)
  "Available languages:\n\n" ++ String.join (sorted.map languageEntry)

/-- What a highlighted text comes to, apart from the log. -/
structure Outputs where
  status : Nat := 0
  output : String
  /-- A remark at the end of a strict run. -/
  remark : String := ""
  deriving Inhabited

/-- The remark of a strict run. -/
def remark (path : String) (o : Outcome) : String :=
  path ++ ": " ++ (if o.incomplete then "input ends inside an open construct"
    else "input contains illegal text") ++ "\n"

/-- A text that ends in a line feed. -/
def terminated (s : String) : String := if s.toList.getLast? == some '\n' then s else s ++ "\n"

/-- Writes a highlight. -/
def outputs (formats : FormatRegistry) (s : Settings) (strict : Bool) (path : String)
    (h : Highlight) : Except FormatError Outputs := do
  let shown := if s.includePlain then h else h.withoutPlain
  let output := terminated (← formats.serialize shown s.format)
  if strict && (h.outcome.incomplete || h.outcome.illegal) then
    return ⟨notClean, output, remark path h.outcome⟩
  else return { output }

section

variable {m : Type → Type} [Monad m]

/-- Registers a grammar. -/
def register (r : Registry) (spec : GrammarSpec) (describe : GrammarError → String) :
    Session m (Registry × Grammar) := do
  Session.log (Record.ofRegistration r spec)
  Session.require describe (r.registerSpec spec)

/-- The registry of the bundled grammars. -/
def bundled : Session m Registry := do
  let describe (e : GrammarError) : String := "failed to load bundled grammars: " ++ describe e
  let mut r : Registry := {}
  for (name, spec) in Bundled.all do
    Session.log [.announced name]
    r := (← register r spec describe).1
  Session.require describe r.validate
  return r

/-- Adds the grammar in a file. -/
def addFile (world : World m) (r : Registry) (path : String) : Session m Registry := do
  let describe (e : GrammarError) : String :=
    "failed to load grammar " ++ path ++ ": " ++ describe e
  let content ← (world.contents path : m _)
  let spec ← Session.require describe (GrammarSpec.ofFile path (content >>= decodeText))
  let (r, g) ← register r spec describe
  Session.log [.ofCommand .info ("loaded grammar '" ++ g.name ++ "' from " ++ path)]
  return r

/-- The registry of the bundled grammars and those in files. -/
def registry (world : World m) (paths : List String) : Session m Registry := do
  let r ← paths.foldlM (addFile world) (← bundled)
  Session.require describe r.validate
  return r

/-- The text to be highlighted. -/
def text (world : World m) (path : String) : Session m String := do
  if path == "-" then
    let bytes ← (world.input : m _)
    Session.require (fun fault => "failed to read stdin: " ++ fault.message) (decodeText bytes)
  else
    let content ← (world.contents path : m _)
    Session.require (fun fault => "failed to read " ++ path ++ ": " ++ fault.message)
      (content >>= decodeText)

/-- Highlights a text. -/
def highlight (world : World m) (r : Registry) (s : Settings) (strict : Bool)
    (path language : String) : Session m Outputs := do
  let formats := FormatRegistry.standard
  if !formats.has s.format then
    throw ("unknown format '" ++ s.format ++ "' (available: " ++ ", ".intercalate formats.names
      ++ ")")
  let text ← text world path
  match r.start? language s.maxDepth text with
  | none =>
    throw ("available languages: " ++ ", ".intercalate r.names ++ ": "
      ++ unknownLanguageMessage language)
  | some h =>
    let (tokens, ended) := h.rest
    let result : Highlight := ⟨h.ctx.grammar.name, tokens, ended.outcome⟩
    Session.log (ended.events.map .ofEvent)
    Session.log [.ofCommand .debug (toString tokens.length ++ " tokens, relevance "
      ++ toString result.outcome.relevance)]
    Session.require FormatError.message (outputs formats s strict path result)

/-- What the arguments ask for. -/
def perform (world : World m) (args : Arguments) (s : Settings) : Session m Outputs := do
  if args.listFormats then return { output := formatList .standard }
  let r ← registry world (s.grammars ++ args.grammars)
  if args.listLanguages then return { output := languageList r }
  match args.path, args.language with
  | some path, some language => highlight world r s args.strict path language
  | none, _ => throw "missing input path"
  | _, none => throw "missing --language"

/-- The report on a run. -/
def report (f : Filter) (warnings : List String) (records : List Record) :
    Except String Outputs → Report
  | .ok o =>
    { status := o.status, output := o.output
      errors := String.join warnings ++ String.join ((records.filter f.passes).map Record.line)
        ++ o.remark }
  | .error message =>
    { status := failure
      errors := String.join warnings ++ String.join ((records.filter f.passes).map Record.line)
        ++ "Error: " ++ message ++ "\n" }

/-- Runs the command with arguments. -/
def runWith (world : World m) (args : Arguments) : m Report := do
  let failed (message : String) : Report := report {} [] [] (.error message)
  match args.loader with
  | .error message => return failed message
  | .ok loader =>
    let files ← loader.paths.mapM fun path => return (path, ← world.contents path)
    match settings loader fun path => (files.lookup path).getD (.error .notFound) with
    | .error message => return failed message
    | .ok s =>
      let (f, warnings) := filter world.logSpec args s
      let (result, records) ← ((perform world args s).run).run []
      return report f warnings records result

/-- Runs the command with a command line. -/
def run (world : World m) (words : List String) : m Report :=
  match Arguments.ofWords words with
  | .ok args => runWith world args
  | .error halt => return halt.report

end

end Highlighter.Command
