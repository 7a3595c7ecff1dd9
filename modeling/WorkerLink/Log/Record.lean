/-!
Log records: a level, the part of the program that speaks, a message and named fields.
-/

namespace WorkerLink.Log

/-- How severe a record is, least severe first. -/
inductive Level
  | trace
  | debug
  | info
  | warn
  | error
deriving DecidableEq, Repr

def Level.rank : Level → Nat
  | .trace => 0
  | .debug => 1
  | .info => 2
  | .warn => 3
  | .error => 4

def Level.name : Level → String
  | .trace => "TRACE"
  | .debug => "DEBUG"
  | .info => "INFO"
  | .warn => "WARN"
  | .error => "ERROR"

inductive FieldValue
  | number (n : Int)
  | text (s : String)
deriving DecidableEq, Repr

structure Record where
  level : Level
  target : String
  message : String
  fields : List (String × FieldValue) := []
deriving DecidableEq, Repr

end WorkerLink.Log
