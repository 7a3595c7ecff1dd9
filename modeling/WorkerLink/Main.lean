import WorkerLink.Log.Line
import WorkerLink.Session.Run

/-!
The command line of the bridge: one session on the standard streams of the program, with a worker of
the sandbox. This layer reads and writes; what it writes is decided by `Session.run`.
-/

namespace WorkerLink.Main

/-- The variables of the environment that speak of settings. -/
def environment : IO Settings.Environment.Variables := do
  let found ← Setting.all.mapM fun setting => do
    let name := "RPCPIPE_" ++ setting.key.map Char.toUpper
    return (← IO.getEnv name).map fun value => (Bytes.ofString name, Bytes.ofString value)
  return found.filterMap id

/-- Reads a settings file and those that it extends. -/
partial def filesFrom (path : Bytes) (files : Settings.Files) : IO Settings.Files := do
  if (files.get? path).isSome then return files
  try
    let contents ← IO.FS.readBinFile (Text.Utf8.lossy path)
    let files := (path, contents.toList) :: files
    match Settings.readFile files path with
    | .ok (_, some base) => filesFrom base files
    | _ => return files
  catch _ => return files

/-- Reads all that is left of a stream. -/
partial def readAll (stream : IO.FS.Stream) (sofar : ByteArray) : IO ByteArray := do
  let chunk ← stream.read 65536
  if chunk.isEmpty then return sofar else readAll stream (sofar ++ chunk)

/-- The line of a record in the format of the settings. -/
def lineOf (settings : Settings) (record : Log.Record) : Bytes :=
  match settings.logFormat with
  | .json => (record.object "main").encode ++ [10]
  | .compact => Bytes.ofString (record.line "main")

def write (stream : IO.FS.Stream) (bytes : Bytes) : IO Unit := do
  stream.write ⟨bytes.toArray⟩
  stream.flush

/-- Runs a session with arguments, the program name in front. -/
def runSession (arguments : List Bytes) : IO UInt32 := do
  let flags := Arguments.Given.ofArguments (Arguments.Split.ofArguments arguments).configArguments
  let files ← match flags.toOption.bind (·.configPath?) with
    | some path => filesFrom path []
    | none => pure []
  let input ← readAll (← IO.getStdin) .empty
  let given : Session.Given :=
    { arguments, files
      environment := ← environment
      feed := .ofBytes input.toList 0 }
  let report := Session.run given
  write (← IO.getStdout) report.output
  let stderr ← IO.getStderr
  if let .ok plan := given.plan then
    for record in report.records.filter plan.filter.keeps do
      write stderr (lineOf plan.settings record)
  write stderr (Bytes.ofString report.stderr)
  return if report.success then 0 else 1

end WorkerLink.Main

/-- Runs the bridge on the standard streams. -/
def main (arguments : List String) : IO UInt32 :=
  WorkerLink.Main.runSession (("rpcpipe" :: arguments).map WorkerLink.Bytes.ofString)
