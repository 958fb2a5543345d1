import Highlighter.Format.Data
import Highlighter.Grammar.Spec

/-!
Formats by name.
-/

namespace Highlighter

/-- Why a highlight could not be written. -/
inductive FormatError
  | notFound (format : String)
  | failed (reason : String)
  deriving DecidableEq, Repr, Inhabited

def FormatError.message : FormatError → String
  | notFound format => "format '" ++ format ++ "' not found"
  | failed reason => "serialization error: " ++ reason

/-- A format: its name, a line about it, and how a highlight is written in it. -/
structure Formatter where
  name : String
  description : String
  serialize : Highlight → Except FormatError String

/-- Formats sorted by name. -/
structure FormatRegistry where
  formatters : List (String × Formatter) := []

namespace FormatRegistry

/-- Adds a format, in place of one of the same name. -/
def register (r : FormatRegistry) (f : Formatter) : FormatRegistry :=
  ⟨putSorted (· < ·) f.name f r.formatters⟩

def get? (r : FormatRegistry) (name : String) : Option Formatter := r.formatters.lookup name

def has (r : FormatRegistry) (name : String) : Bool := (r.get? name).isSome

/-- The names of the formats in order. -/
def names (r : FormatRegistry) : List String := r.formatters.map Prod.fst

/-- Names and descriptions in order. -/
def describe (r : FormatRegistry) : List (String × String) :=
  r.formatters.map fun (name, f) => (name, f.description)

/-- Writes a highlight in the format with a name. -/
def serialize (r : FormatRegistry) (h : Highlight) (format : String) :
    Except FormatError String :=
  match r.get? format with
  | some f => f.serialize h
  | none => .error (.notFound format)

/-- The formats that are always there. -/
def standard : FormatRegistry :=
  let tag : Formatter :=
    ⟨"tag", "One line per token: kind, byte range and quoted text", fun h => .ok (Format.tag h)⟩
  let json : Formatter :=
    ⟨"json", "Tokens, relevance and flags as pretty-printed JSON", fun h => .ok (Format.json h)⟩
  let yaml : Formatter :=
    ⟨"yaml", "Tokens, relevance and flags as YAML", fun h => .ok (Format.yaml h)⟩
  ((({} : FormatRegistry).register tag).register json).register yaml

end FormatRegistry

end Highlighter
