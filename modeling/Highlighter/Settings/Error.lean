import Highlighter.Text.Quoted

/-!
What can be wrong with settings.
-/

namespace Highlighter.Settings

inductive Error
  /-- A setting that cannot be read as what it is to be. -/
  | unreadableValue (found expected key : String) (origin : Option String)
  /-- A list or table where something else is expected, or the other way round. -/
  | wrongShape (found expected : String)
  | tooShort (length : Nat) (expected : String)
  | missing (name : String)
  | unknownLevel (name : String)
  | noLevel
  | fileNotFound (path : String)
  | fileUnreadable (reason : String)
  | malformedFile (origin : String)
  | malformedPath
  /-- An index that goes past the beginning of a list, or that no list is long enough for. -/
  | badIndex
  deriving DecidableEq, Repr, Inhabited

/-- The message of an error. A file, a path or an index that is not well formed has none. -/
def Error.message? : Error → Option String
  | unreadableValue found expected key origin =>
    some ("invalid type: " ++ found ++ ", expected " ++ expected ++ " for key " ++ Text.code key
      ++ (origin.map (" in " ++ ·)).getD "")
  | wrongShape found expected => some ("invalid type: " ++ found ++ ", expected " ++ expected)
  | tooShort length expected =>
    some ("invalid length " ++ toString length ++ ", expected " ++ expected)
  | missing name => some ("missing field " ++ Text.code name)
  | unknownLevel name => some ("enum LogLevel does not have variant constructor " ++ name)
  | noLevel =>
    some ("value of enum LogLevel should be represented by either string or table with "
      ++ "exactly one key")
  | fileNotFound path => some ("configuration file \"" ++ path ++ "\" not found")
  | fileUnreadable reason => some reason
  | malformedFile _ => none
  | malformedPath => none
  | badIndex => none

end Highlighter.Settings
