/-!
# Verbosity

How much a run should log. A level that is asked for by name comes first, then a count of requests
for more, then silence. Without any of them the choice is left to others.
-/

namespace DeclOutline

/-- What is logged: messages of a level and of those that matter more. -/
inductive LogLevel where
  | off
  | error
  | warn
  | info
  | debug
  | trace
deriving DecidableEq

namespace LogLevel

/-- Every level, from the least that is logged to the most. -/
def all : List LogLevel :=
  [off, error, warn, info, debug, trace]

/-- The name of a level. -/
def label : LogLevel → String
  | off => "off"
  | error => "error"
  | warn => "warn"
  | info => "info"
  | debug => "debug"
  | trace => "trace"

/-- The level with a name. -/
def ofLabel? (label : String) : Option LogLevel :=
  all.find? (·.label == label)

end LogLevel

/-- What is asked of logging. -/
structure Verbosity where
  /-- How many times more output was asked for. -/
  count : Option Nat := none
  /-- Whether silence was asked for. -/
  silent : Bool := false
  /-- The level that was asked for by name. -/
  level : Option LogLevel := none
deriving DecidableEq

namespace Verbosity

/-- The level that a count of requests for more output stands for. -/
def countLevel? : Option Nat → Option LogLevel
  | none | some 0 => none
  | some 1 => some .debug
  | some _ => some .trace

/-- The level that is asked for, if one is. -/
def level? (v : Verbosity) : Option LogLevel :=
  (v.level.or (countLevel? v.count)).or (if v.silent then some .off else none)

end Verbosity

end DeclOutline
