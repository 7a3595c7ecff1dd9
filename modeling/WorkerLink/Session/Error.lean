import WorkerLink.Connection.DispatchError
import WorkerLink.Log.Filter
import WorkerLink.Settings.Load
import WorkerLink.SpawnError

/-!
The ways in which a whole session of the bridge fails, from its arguments to the end of the dispatch.
-/

namespace WorkerLink.Session

inductive Error
  | load (error : Settings.LoadError)
  /-- The arguments name no worker, or ask for help. -/
  | usage (error : Arguments.UsageError)
  | missingCommand
  /-- The log filter of the settings does not parse. -/
  | logFilter (error : Log.FilterError)
  | spawn (error : SpawnError)
  | dispatch (error : DispatchError)
  | dispatchPanicked

def Error.message : Error → String
  | .load error => s!"failed to load configuration: {error.message}"
  | .usage error => error.message
  | .missingCommand => Settings.missingCommandMessage
  | .logFilter error => s!"invalid log filter: {error.message}"
  | .spawn error => s!"failed to start worker: {error.message}"
  | .dispatch error => s!"dispatch loop failed: {error.message}"
  | .dispatchPanicked => "dispatch thread panicked"

end WorkerLink.Session
