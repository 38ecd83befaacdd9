/-!
Log records.
-/

namespace Sideload.Log

/-- How much a record matters, the most first. -/
inductive Level where
  | error
  | warn
  | info
  | debug
  | trace
  deriving DecidableEq, Inhabited

namespace Level

def all : List Level := [error, warn, info, debug, trace]

/-- The greater, the more is let through. -/
def verbosity : Level → Nat
  | error => 1
  | warn => 2
  | info => 3
  | debug => 4
  | trace => 5

def label : Level → String
  | error => "ERROR"
  | warn => "WARN"
  | info => "INFO"
  | debug => "DEBUG"
  | trace => "TRACE"

end Level

/-- The part of the program that a record comes from. -/
inductive Topic where
  | program
  | registry
  | installer
  | files
  | shelf
  | interpreter
  | analysis
  deriving DecidableEq, Inhabited

/-- The name by which filters select a topic. -/
def Topic.label : Topic → String
  | program => "nopkg"
  | registry => "nopkg::registry::store"
  | installer => "nopkg::installer"
  | files => "nopkg::installer::fs_ops"
  | shelf => "nopkg::manager"
  | interpreter => "nopkg::interpreter"
  | analysis => "nopkg::analysis"

/-- One line of the log. -/
structure Record where
  level : Level
  topic : Topic
  text : String
  deriving DecidableEq, Inhabited

end Sideload.Log
