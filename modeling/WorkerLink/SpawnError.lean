import WorkerLink.Fault

/-!
The ways in which a worker fails to start.
-/

namespace WorkerLink

inductive SpawnError
  | binaryNotFound (command : String) (source : Fault)
  | spawnFailed (command : String) (source : Fault)
  /-- One of the standard streams is missing. -/
  | missingPipe (stream : String)
  /-- A thread that serves a stream could not be started. -/
  | thread (name : String) (source : Fault)
deriving DecidableEq, Repr

namespace SpawnError

def message : SpawnError → String
  | .binaryNotFound command _ => s!"worker binary not found: {command}"
  | .spawnFailed command source => s!"failed to spawn worker process {command}: {source.text}"
  | .missingPipe stream => s!"failed to capture worker {stream}"
  | .thread name source => s!"failed to start {name} thread: {source.text}"

def sources : SpawnError → List Fault
  | .binaryNotFound _ source | .spawnFailed _ source | .thread _ source => [source]
  | .missingPipe _ => []

end SpawnError

end WorkerLink
