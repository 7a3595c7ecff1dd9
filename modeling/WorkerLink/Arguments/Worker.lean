import WorkerLink.Arguments.Usage
import WorkerLink.Text.Similarity

/-!
Reading the command of the worker, after the flags of the bridge have been split off. The command
starts with the first argument that does not ask for help, and everything from there on belongs to
it as it stands. Two dashes in front of the command are passed over.
-/

namespace WorkerLink.Arguments.Worker

/-- The program is called so if its first argument does not tell. -/
def fallbackName : String := "rpcpipe"

def usage (program : String) : String := s!"{program} <COMMAND>..."

/-- How the program is called with the help flag. -/
def usageWithHelp (program : String) : String := s!"{program} --help <COMMAND>..."

def longHelp (program : String) : String :=
  "Command-line interface for the rpcpipe bridge.\n\n" ++
  "Configuration flags are split off before clap sees the arguments, so the parser only ever " ++
  "receives the worker command line.\n\n" ++
  s!"Usage: {usage program}\n\n" ++
  "Arguments:\n  <COMMAND>...\n          Worker executable followed by its arguments\n\n" ++
  "Options:\n  -h, --help\n          Print help (see a summary with '-h')\n"

def shortHelp (program : String) : String :=
  "Relays newline-delimited JSON to a worker speaking Content-Length framed JSON-RPC\n\n" ++
  s!"Usage: {usage program}\n\n" ++
  "Arguments:\n  <COMMAND>...  Worker executable followed by its arguments\n\n" ++
  "Options:\n  -h, --help  Print help (see more with '--help')\n"

/-- A name with two dashes that is no text: it can be no flag, and it is not taken for a command. -/
def refuseName (program : String) (name : Bytes) : UsageError :=
  let text := Text.Utf8.lossy name
  let argument := "--" ++ text
  match Text.Similarity.closest? text.toList [helpName.toList] with
  | some _ => .unknown argument (some (.similar ("--" ++ helpName))) (usageWithHelp program)
  | none => .unknown argument (some .asValue) (usage program)

/-- What follows two dashes is a command, if there is anything. -/
def command (program : String) : List Bytes → Except UsageError (List Bytes)
  | [] => .error (.missingWorker (usage program))
  | worker => .ok worker

def read (program : String) : List Bytes → Except UsageError (List Bytes)
  | [] => .error (.missingWorker (usage program))
  | argument :: rest =>
    match Look.ofArgument argument with
    | .separator => command program rest
    | .long name value =>
      match Text.Utf8.decode? name, value with
      | none, _ => .error (refuseName program name)
      | some name, none =>
        if name = helpName then .error (.help (longHelp program)) else .ok (argument :: rest)
      | some name, some value =>
        if name = helpName then
          .error (.unneededValue (Text.Utf8.lossy value) (usageWithHelp program))
        else .ok (argument :: rest)
    | .short letters =>
      if letters.all (· = 104) then .error (.help (shortHelp program)) else .ok (argument :: rest)
    | .plain => .ok (argument :: rest)

/-- The command of the worker among arguments that start with the program name. -/
def ofArguments (arguments : List Bytes) : Except UsageError (List Bytes) :=
  read (programName fallbackName arguments) arguments.tail

end WorkerLink.Arguments.Worker
