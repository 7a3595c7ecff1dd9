/-!
Failures of the operating system as the library passes them on: a kind and the text to show.
-/

namespace WorkerLink

/-- What went wrong with a stream or a process. -/
inductive FaultKind
  | notFound
  | permissionDenied
  | brokenPipe
  | wouldBlock
  | invalidInput
  | notADirectory
  | timedOut
  | interrupted
  | unexpectedEof
  | writeZero
  | other
deriving DecidableEq, Repr

/-- The text of a fault that brings none of its own. -/
def FaultKind.defaultText : FaultKind → String
  | .notFound => "entity not found"
  | .permissionDenied => "permission denied"
  | .brokenPipe => "broken pipe"
  | .wouldBlock => "operation would block"
  | .invalidInput => "invalid input parameter"
  | .notADirectory => "not a directory"
  | .timedOut => "timed out"
  | .interrupted => "operation interrupted"
  | .unexpectedEof => "unexpected end of file"
  | .writeZero => "write zero"
  | .other => "other error"

/-- A failure of a stream or a process. -/
structure Fault where
  kind : FaultKind
  text : String
deriving DecidableEq, Repr

namespace Fault

def ofKind (kind : FaultKind) : Fault := ⟨kind, kind.defaultText⟩

def pipeClosed : Fault := ⟨.brokenPipe, "Broken pipe (os error 32)"⟩

def noSuchFile : Fault := ⟨.notFound, "No such file or directory (os error 2)"⟩

def notPermitted : Fault := ⟨.permissionDenied, "Permission denied (os error 13)"⟩

/-- A path leads through a file that is no directory. -/
def throughFile : Fault := ⟨.notADirectory, "Not a directory (os error 20)"⟩

def zeroByte : Fault := ⟨.invalidInput, "nul byte found in provided data"⟩

end Fault

end WorkerLink
