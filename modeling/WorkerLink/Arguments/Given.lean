import WorkerLink.Arguments.Usage
import WorkerLink.Text.Similarity
import WorkerLink.Word

/-!
Reading the flags of the bridge. A flag comes as two dashes and its name or as a dash and its
letter; its value is attached, or is the next argument unless that looks like a flag. A value that
is attached is settled at once, and one that is the next argument is settled at the next flag or at
the end, so a refusal of an unknown argument in between comes first.
-/

namespace WorkerLink.Arguments

inductive GivenValue
  | path (path : Bytes)
  | filter (text : String)
  | format (format : LogFormat)
  | number (n : Nat)
deriving DecidableEq, Repr

namespace GivenValue

/-- Reads digits behind a number. The first digit that is none, or too much, is the fault. -/
def digits (n : Nat) : List Char → Except ValueFault Nat
  | [] => .ok n
  | c :: rest =>
    if !c.isDigit then .error .notDigit
    else
      let n := 10 * n + (c.toNat - '0'.toNat)
      if n < Word.limit then digits n rest else .error .tooLarge

/-- Reads a number of 64 bits, with or without a plus sign. -/
def readNumber (text : String) : Except ValueFault Nat :=
  match text.toList with
  | [] => .error .emptyNumber
  | '+' :: c :: rest => digits 0 (c :: rest)
  | cs => digits 0 cs

def ofText (setting : Setting) (text : String) : Except ValueFault GivenValue :=
  match setting with
  | .logFilter => .ok (.filter text)
  | .logFormat =>
    match LogFormat.parse? text with
    | some found => .ok (.format found)
    | none => .error .unknownFormat
  | _ => (readNumber text).map .number

/-- Reads the value of a flag. An empty path is no value. -/
def read (usage : String) (flag : Flag) (value : Bytes) : Except UsageError GivenValue :=
  match flag with
  | .configPath => if value.isEmpty then .error (.missingValue flag) else .ok (.path value)
  | .setting setting =>
    match Text.Utf8.decode? value with
    | none => .error (.notUtf8 usage)
    | some text => (ofText setting text).mapError (.invalidValue flag text)

end GivenValue

abbrev Given := List (Flag × GivenValue)

namespace Given

def valueOf? (given : Given) (flag : Flag) : Option GivenValue :=
  (given.find? fun entry => entry.1 = flag).map (·.2)

def configPath? (given : Given) : Option Bytes :=
  match given.valueOf? .configPath with
  | some (.path path) => some path
  | _ => none

/-- A reader between two arguments: what was given, the flags that were seen, and a flag whose value
is not settled. -/
structure Reader where
  given : Given := []
  seen : List Flag := []
  pending : Option (Flag × Option Bytes) := none

/-- The program is called so if its first argument does not tell. -/
def fallbackName : String := "rpcpipe-config"

def usage (program : String) : String := s!"{program} [OPTIONS]"

/-- How the program is called with the flags that were seen. -/
def usageWith (program : String) (seen : List Flag) (more : List String) : String :=
  match (seen.filter (!·.isHidden)).map Flag.described ++ more with
  | [] => usage program
  | flags => String.intercalate " " (program :: flags)

/-- The flags as the help lists them, each padded to the width of the longest. -/
def helpLines : String :=
  let flags := Flag.all.filter (!·.isHidden)
  let width := flags.foldl (fun n f => max n f.described.length) 0
  let padded (text : String) := text ++ String.ofList (List.replicate (width + 2 - text.length) ' ')
  let line (letter : String) (text : String) := s!"  {letter}, {padded text}"
  let letterOf (f : Flag) := String.ofList ('-' :: f.letter?.toList)
  String.join (flags.map fun f => line (letterOf f) f.described ++ "\n") ++
  line "-h" ("--" ++ helpName) ++ "Print help\n"

def help (program : String) : String :=
  s!"Usage: {usage program}\n\nOptions:\n{helpLines}"

/-- Settles a value. A flag counts as seen even if its value does not fit, unless it has none or was
seen before. -/
def Reader.settle (program : String) (r : Reader) (flag : Flag) (value : Option Bytes) :
    Reader × Option UsageError :=
  match value with
  | none => (r, some (.missingValue flag))
  | some value =>
    if flag ∈ r.seen then
      ({ r with seen := r.seen.filter (· ≠ flag) }, some (.repeated flag (usage program)))
    else
      let r := { r with seen := r.seen ++ [flag] }
      match GivenValue.read (usage program) flag value with
      | .error error => (r, some error)
      | .ok value => ({ r with given := r.given ++ [(flag, value)] }, none)

def Reader.settlePending (program : String) (r : Reader) : Reader × Option UsageError :=
  match r.pending with
  | none => (r, none)
  | some (flag, value) => { r with pending := none }.settle program flag value

/-- Takes a flag with the value that is attached to it, or with one to come. -/
def Reader.takeFlag (program : String) (r : Reader) (flag : Flag) (attached : Option Bytes) :
    Except UsageError Reader :=
  match r.settlePending program with
  | (_, some error) => .error error
  | (r, none) =>
    match attached with
    | none => .ok { r with pending := some (flag, none) }
    | some value =>
      match r.settle program flag (some value) with
      | (_, some error) => .error error
      | (r, none) => .ok r

def Reader.refuseHelp (program : String) (r : Reader) : UsageError :=
  ((r.settlePending program).2).getD (.help (help program))

def Reader.refuseName (program : String) (r : Reader) (name : String) : UsageError :=
  let seen := (r.settlePending program).1.seen
  let names := (Flag.all.tail ++ [Flag.configPath]).map Flag.name ++ [helpName]
  let argument := "--" ++ name
  match Text.Similarity.closest? name.toList (names.map String.toList) with
  | none => .unknown argument none (usageWith program seen [])
  | some closest =>
    let closest := String.ofList closest
    let tip := some (Tip.similar ("--" ++ closest))
    match Flag.all.find? fun f => f.name = closest with
    | some flag =>
      .unknown argument tip (usageWith program (if flag ∈ seen then seen else seen ++ [flag]) [])
    | none => .unknown argument tip (usageWith program seen ["--" ++ helpName])

def Reader.readLong (program : String) (r : Reader) (name : Bytes) (value : Option Bytes) :
    Except UsageError Reader :=
  match Text.Utf8.decode? name with
  | none => .error (r.refuseName program (Text.Utf8.lossy name))
  | some name =>
    match Flag.all.find? fun f => f.name = name with
    | some flag => r.takeFlag program flag value
    | none =>
      if name ≠ helpName then .error (r.refuseName program name)
      else match value with
        | none => .error (r.refuseHelp program)
        | some value =>
          .error (.unneededValue (Text.Utf8.lossy value)
            (usageWith program r.seen ["--" ++ helpName]))

def refuse (program argument : String) : UsageError := .unknown argument none (usage program)

/-- The first character of a text, and the bytes behind it. -/
def firstChar? (letters : Bytes) : Option (Char × Bytes) :=
  match Text.Utf8.pieces letters with
  | .char c :: _ => some (c, letters.drop c.utf8Size)
  | _ => none

/-- Reads an argument of a dash and letters. The first letter decides: it takes the rest as its
value, with or without an equals sign in front. -/
def Reader.readShort (program : String) (r : Reader) (letters : Bytes) : Except UsageError Reader :=
  match firstChar? letters with
  | none => .error (refuse program ("-" ++ Text.Utf8.lossy letters))
  | some (letter, rest) =>
    match Flag.all.find? fun f => f.letter? = some letter with
    | some flag =>
      r.takeFlag program flag (match rest with
        | [] => none
        | 61 :: value => some value
        | value => some value)
    | none =>
      if letter = 'h' then .error (r.refuseHelp program)
      else .error (refuse program ("-" ++ String.singleton letter))

/-- Reads an argument that is no flag: the value of the pending flag, if that has none yet. -/
def Reader.readPlain (program : String) (r : Reader) (argument : Bytes) :
    Except UsageError Reader :=
  match r.pending with
  | some (flag, none) => .ok { r with pending := some (flag, some argument) }
  | _ => .error (refuse program (Text.Utf8.lossy argument))

def Reader.read (program : String) (r : Reader) (argument : Bytes) : Except UsageError Reader :=
  match Look.ofArgument argument with
  | .long name value => r.readLong program name value
  | .short letters => r.readShort program letters
  | .separator | .plain => r.readPlain program argument

/-- Reads all arguments. Nothing may follow two dashes. -/
def Reader.readAll (program : String) (r : Reader) : List Bytes → Except UsageError Given
  | [] =>
    match r.settlePending program with
    | (_, some error) => .error error
    | (r, none) => .ok r.given
  | argument :: rest =>
    if Look.ofArgument argument = .separator then
      match rest with
      | [] => r.readAll program []
      | argument :: _ => .error (refuse program (Text.Utf8.lossy argument))
    else do (← r.read program argument).readAll program rest

/-- What the flags among arguments that start with the program name gave. -/
def ofArguments (arguments : List Bytes) : Except UsageError Given :=
  Reader.readAll (programName fallbackName arguments) {} arguments.tail

end Given

end WorkerLink.Arguments
