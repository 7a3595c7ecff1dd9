import WorkerLink.Tuning

/-!
What to start as a worker: a program, its arguments, its environment and its directory.
-/

namespace WorkerLink

structure Command where
  program : Bytes
  args : List Bytes := []
  env : List (Bytes × Bytes) := []
  clearEnv : Bool := false
  directory : Option Bytes := none
  tuning : Tuning := {}
deriving DecidableEq, Repr

namespace Command

/-- The worker of an argument vector: a program and its arguments. -/
def ofArguments? : List Bytes → Option Command
  | [] => none
  | program :: args => some { program, args }

def withArgs (c : Command) (args : List Bytes) : Command := { c with args := c.args ++ args }

def withEnv (c : Command) (name value : Bytes) : Command :=
  { c with env := c.env ++ [(name, value)] }

def withClearedEnv (c : Command) : Command := { c with clearEnv := true }

def withDirectory (c : Command) (directory : Bytes) : Command :=
  { c with directory := some directory }

def withTuning (c : Command) (tuning : Tuning) : Command := { c with tuning }

end Command

end WorkerLink
