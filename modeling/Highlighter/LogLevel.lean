/-!
How much is to be logged.
-/

namespace Highlighter

inductive LogLevel
  | off
  | error
  | warn
  | info
  | debug
  | trace
  deriving DecidableEq, Repr, Inhabited

namespace LogLevel

def all : List LogLevel := [off, error, warn, info, debug, trace]

def label : LogLevel → String
  | off => "off"
  | error => "error"
  | warn => "warn"
  | info => "info"
  | debug => "debug"
  | trace => "trace"

/-- More is logged on a level with a greater rank. -/
def rank : LogLevel → Nat
  | off => 0
  | error => 1
  | warn => 2
  | info => 3
  | debug => 4
  | trace => 5

/-- The level with a label, in whatever case it is written. -/
def ofLabel? (lowercase : String → String) (s : String) : Option LogLevel :=
  all.find? fun level => level.label == lowercase s

end LogLevel

end Highlighter
