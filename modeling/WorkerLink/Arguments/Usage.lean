import WorkerLink.Arguments.Flag
import WorkerLink.Text.Plain
import WorkerLink.Text.Split
import WorkerLink.Text.Utf8

/-!
The ways in which arguments are refused, and the usage text that goes with a refusal. Each text
ends with a hint at the help.
-/

namespace WorkerLink.Arguments

/-- The last name of a path; a path that ends in no name has none. -/
def fileName? (path : Bytes) : Option Bytes :=
  match ((Text.splitOn 47 path).filter fun part => part ≠ [] && part ≠ [46]).getLast? with
  | none => none
  | some name => if name = [46, 46] then none else some name

/-- The name of the program that the first argument calls. -/
def programName (fallback : String) (arguments : List Bytes) : String :=
  ((arguments.head?.bind fileName?).bind Text.Utf8.decode?).getD fallback

/-- Why a value does not fit its flag. -/
inductive ValueFault
  | emptyNumber
  | notDigit
  | tooLarge
  | unknownFormat
deriving DecidableEq, Repr

def ValueFault.message : ValueFault → String
  | .emptyNumber => "cannot parse integer from empty string"
  | .notDigit => "invalid digit found in string"
  | .tooLarge => "number too large to fit in target type"
  | .unknownFormat => LogFormat.parseErrorMessage

/-- What may help with an unknown argument. -/
inductive Tip
  | similar (flag : String)
  /-- The argument can be handed over as a value. -/
  | asValue
deriving DecidableEq, Repr

/-- Why arguments are refused. The usage is the line that shows how the program is called. -/
inductive UsageError
  | help (text : String)
  | missingWorker (usage : String)
  | unneededValue (value usage : String)
  | unknown (argument : String) (tip : Option Tip) (usage : String)
  | missingValue (flag : Flag)
  | invalidValue (flag : Flag) (value : String) (fault : ValueFault)
  | repeated (flag : Flag) (usage : String)
  | notUtf8 (usage : String)
deriving DecidableEq, Repr

namespace UsageError

def tipText (argument : String) : Tip → String
  | .similar flag => s!"\n\n  tip: a similar argument exists: '{flag}'"
  | .asValue => s!"\n\n  tip: to pass '{argument}' as a value, use '-- {argument}'"

/-- What is wrong, without the hint at the help. -/
def report : UsageError → String
  | .help text => text
  | .missingWorker usage =>
    s!"the following required arguments were not provided:\n  <COMMAND>...\n\nUsage: {usage}"
  | .unneededValue value usage =>
    s!"unexpected value '{value}' for '--help' found; no more were expected\n\nUsage: {usage}"
  | .unknown argument tip usage =>
    let tip := (tip.map (tipText argument)).getD ""
    s!"unexpected argument '{argument}' found{tip}\n\nUsage: {usage}"
  | .missingValue flag => s!"a value is required for '{flag.described}' but none was supplied"
  | .invalidValue flag value fault =>
    s!"invalid value '{value}' for '{flag.described}': {fault.message}"
  | .repeated flag usage =>
    s!"the argument '{flag.described}' cannot be used multiple times\n\nUsage: {usage}"
  | .notUtf8 usage => s!"invalid UTF-8 was detected in one or more arguments\n\nUsage: {usage}"

def message : UsageError → String
  | .help text => Text.Plain.ofString text
  | error => Text.Plain.ofString s!"error: {error.report}\n\nFor more information, try '--help'.\n"

end UsageError

/-- What an argument looks like. -/
inductive Look
  | separator
  /-- Two dashes and a name, perhaps with a value after an equals sign. -/
  | long (name : Bytes) (value : Option Bytes)
  | short (letters : Bytes)
  | plain
deriving DecidableEq, Repr

def Look.ofArgument : Bytes → Look
  | 45 :: 45 :: [] => .separator
  | 45 :: 45 :: rest =>
    .long (rest.takeWhile (· ≠ 61)) (if rest.contains 61 then some ((rest.dropWhile (· ≠ 61)).drop 1) else none)
  | 45 :: letter :: rest => .short (letter :: rest)
  | _ => .plain

def helpName : String := "help"

end WorkerLink.Arguments
