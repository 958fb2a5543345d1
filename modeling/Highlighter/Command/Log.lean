import Highlighter.Grammar.Registry
import Highlighter.LogLevel
import Highlighter.Regex.Reader

/-!
The log: what is written about what happened, and which of it.
-/

namespace Highlighter.Command

/-- Something to be logged: how important it is, which part of the program says it, and what. -/
structure Record where
  level : LogLevel
  target : String
  message : String
  deriving DecidableEq, Repr, Inhabited

namespace Record

/-- Messages about the run as a whole. -/
def ofCommand (level : LogLevel) (message : String) : Record := ⟨level, "hilite", message⟩

/-- A record on one line. Where its message has line feeds, the further lines are indented. -/
def line (r : Record) : String :=
  let label := r.level.label.map Char.toUpper
  let padding := String.ofList (List.replicate (5 - label.length) ' ')
  let indent (c : Char) : List Char := if c == '\n' then '\n' :: List.replicate 4 ' ' else [c]
  "[" ++ label ++ padding ++ " " ++ r.target ++ "] "
    ++ String.ofList (r.message.toList.flatMap indent) ++ "\n"

/-- What is logged about something that happened while a text was highlighted. -/
def ofEvent (e : Scan.Event) : Record :=
  let record (level : LogLevel) (message : String) : Record :=
    ⟨level, "hilite_core::matcher", message⟩
  match e with
  | .skippedEmptyOpening byte => record .trace ("skipping empty begin match at " ++ toString byte)
  | .openedScope kind byte =>
    record .trace ("open scope " ++ kind.display ++ " at " ++ toString byte)
  | .closedScope kind byte =>
    record .trace ("close scope " ++ kind.display ++ " at " ++ toString byte)
  | .reachedDepth grammar depth byte =>
    record .warn ("'" ++ grammar ++ "': nesting depth " ++ toString depth ++ " reached at byte "
      ++ toString byte ++ ", not entering nested rules")
  | .leftRegion grammar depth language =>
    record .warn ("'" ++ grammar ++ "': nesting depth " ++ toString depth ++ " reached, '"
      ++ language ++ "' region left untokenized")
  | .missedLanguage language =>
    record .debug ("sub-language '" ++ language ++ "' is not available, keeping region as text")
  | .metIllegal grammar text byte =>
    record .debug ("'" ++ grammar ++ "': illegal match " ++ Text.quoted text ++ " at byte "
      ++ toString byte)
  | .endedOpen grammar scopes =>
    record .debug ("'" ++ grammar ++ "': " ++ toString scopes
      ++ " scope(s) still open at end of input")

def announced (name : String) : Record :=
  ⟨.debug, "hilite_core::grammar::registry", "loading bundled grammar " ++ name⟩

def compiled (g : Grammar) : Record :=
  ⟨.debug, "hilite_core::grammar", "compiled grammar '" ++ g.name ++ "' ("
    ++ toString g.rules.length ++ " rules, " ++ toString g.keywords.size ++ " keywords)"⟩

def registered (g : Grammar) : Record :=
  ⟨.debug, "hilite_core::grammar::registry",
    "registered grammar '" ++ g.name ++ "' as " ++ ", ".intercalate g.keys⟩

/-- What is logged when a grammar is compiled and registered, as far as that succeeds. -/
def ofRegistration (r : Registry) (spec : GrammarSpec) : List Record :=
  match spec.compile r.library with
  | .error _ => []
  | .ok g =>
    compiled g :: match r.register g with
      | .ok _ => [registered g]
      | .error _ => []

end Record

/-- How much is logged of what some targets say: of all, or of those that begin so. -/
structure Directive where
  target : Option String
  level : LogLevel
  deriving DecidableEq, Repr, Inhabited

namespace Directive

def fits (d : Directive) (r : Record) : Bool := d.target.all fun t => r.target.startsWith t

def length (d : Directive) : Nat := (d.target.map String.utf8ByteSize).getD 0

end Directive

/-- Which records are logged. -/
structure Filter where
  directives : List Directive := []
  /-- What the message has to contain. -/
  pattern : Option Regex := none
  deriving Inhabited

namespace Filter

/-- Adds a directive, in place of one for the same target. -/
def add (f : Filter) (d : Directive) : Filter :=
  if f.directives.any (·.target == d.target) then
    { f with directives := f.directives.map fun e => if e.target == d.target then d else e }
  else { f with directives := f.directives ++ [d] }

/-- Whether a record is logged. The directive with the longest target that fits decides; where
there is no directive at all, only errors are logged. -/
def passes (f : Filter) (r : Record) : Bool :=
  let directives := if f.directives.isEmpty then [⟨none, .error⟩] else f.directives
  let sorted := directives.mergeSort fun a b => a.length ≤ b.length
  let allowed := match sorted.reverse.find? (·.fits r) with
    | some d => r.level.rank ≤ d.level.rank
    | none => false
  allowed && f.pattern.all fun p =>
    let cs := r.message.toList.toArray
    (p.find? ⟨cs, cs.size⟩ 0).isSome

/-- The parts of a text between separators. -/
def parts (separator : Char) (s : String) : List String :=
  let step (c : Char) (acc : List Char × List String) : List Char × List String :=
    if c == separator then ([], String.ofList acc.1 :: acc.2) else (c :: acc.1, acc.2)
  let (first, rest) := s.toList.foldr step ([], [])
  String.ofList first :: rest

private def level? (s : String) : Option LogLevel := LogLevel.ofLabel? Text.asciiLowercase s

/-- A directive: a level, a target, or both. -/
def directive (s : String) : Except String Directive :=
  match parts '=' s with
  | [one] =>
    match level? one with
    | some level => .ok ⟨none, level⟩
    | none => .ok ⟨some one, .trace⟩
  | [target, level] =>
    let level := Text.trim level
    if level.isEmpty then .ok ⟨some target, .trace⟩
    else match level? level with
      | some level => .ok ⟨some target, level⟩
      | none => .error level
  | _ => .error s

/-- Reads a filter: directives with commas between them and, behind a slash, a pattern for the
message. What cannot be read is left out with a warning. -/
def ofSpec (spec : String) : Filter × List String :=
  let warning (reason : String) : String := "warning: " ++ reason ++ ", ignoring it\n"
  let invalid (part : String) : String := "invalid logging spec '" ++ part ++ "'"
  let read (targets : String) : Filter × List String :=
    ((parts ',' targets).map Text.trim).foldl
      (fun (f, warnings) s =>
        if s.isEmpty then (f, warnings)
        else match directive s with
          | .ok d => (f.add d, warnings)
          | .error part => (f, warnings ++ [warning (invalid part)]))
      ({}, [])
  match parts '/' spec with
  | [targets] => read targets
  | [targets, pattern] =>
    let (f, warnings) := read targets
    match Regex.ofPattern? pattern with
    | some p => ({ f with pattern := some p }, warnings)
    | none => (f, warnings ++ [warning "invalid regex filter - regex parse error: bad pattern"])
  | _ => ({}, [warning (invalid spec ++ " (too many '/'s)")])

end Filter

end Highlighter.Command
