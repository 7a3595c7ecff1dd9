import WorkerLink.Arguments.Flag

/-!
Where the arguments of the bridge end and the command of its worker starts. Flags of the bridge
stand in front, each with its value after an equals sign or in the next argument; the first argument
that is neither belongs to the worker, and so does all that follows it.
-/

namespace WorkerLink.Arguments

def flagPart (argument : Bytes) : Bytes := argument.takeWhile (· ≠ 61)

/-- The argument holds a value after an equals sign. -/
def hasValue (argument : Bytes) : Bool := argument.contains 61

/-- The argument is a flag of the bridge, with or without a value. -/
def isConfigFlag (argument : Bytes) : Bool :=
  Flag.all.any fun flag => flagPart argument = Bytes.ofString flag.written

/-- Arguments for the bridge, and the position at which the command of the worker starts. -/
structure Split where
  configArguments : List Bytes := []
  commandStart : Nat := 0
deriving DecidableEq, Repr

namespace Split

def push (argument : Bytes) (s : Split) : Split :=
  ⟨argument :: s.configArguments, s.commandStart + 1⟩

/-- Splits what follows the program name. A flag without a value takes the next argument, whatever
that is. -/
def ofFlags : List Bytes → Split
  | [] => {}
  | argument :: rest =>
    if !isConfigFlag argument then {}
    else if hasValue argument then (ofFlags rest).push argument
    else match rest with
      | [] => push argument {}
      | value :: rest => ((ofFlags rest).push value).push argument

/-- Splits a list of arguments. The program name belongs to the bridge. -/
def ofArguments : List Bytes → Split
  | [] => {}
  | program :: rest => (ofFlags rest).push program

/-- The program name and the command of the worker. -/
def workerArguments (arguments : List Bytes) (s : Split) : List Bytes :=
  arguments.take 1 ++ arguments.drop s.commandStart

end Split

end WorkerLink.Arguments
