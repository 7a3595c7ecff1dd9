import WorkerLink.Arguments.Split
import WorkerLink.Arguments.Worker
import WorkerLink.Rehearsal.Performance
import WorkerLink.Sandbox.Hosted
import WorkerLink.Session.Error

/-!
A whole session of the bridge: its arguments are split, its settings loaded, its worker started, and
the input relayed until the dispatch ends. The worker runs in the sandbox.
-/

namespace WorkerLink.Session

open WorkerLink.Rehearsal (Performance Player Reply Timing)

structure Given where
  /-- The arguments, with the program name in front. -/
  arguments : List Bytes
  environment : Settings.Environment.Variables := []
  files : Settings.Files := []
  feed : Bridge.Feed := {}
  pid : Nat := 1

/-- What a session is set up to do. -/
structure Plan where
  settings : Settings
  filter : Log.Filter
  command : Command

structure Report where
  result : Except Error StopReason
  output : Bytes := []
  records : List Log.Record := []

/-- Sets a session up. A wrong command line is told before wrong settings. -/
def Given.plan (given : Given) : Except Error Plan := do
  let split := Arguments.Split.ofArguments given.arguments
  let worker ←
    (Arguments.Worker.ofArguments (split.workerArguments given.arguments)).mapError .usage
  let settings ←
    (Settings.load given.files given.environment split.configArguments).mapError .load
  let filter ← (Log.Filter.parse settings.logFilter).mapError .logFilter
  match settings.command? worker with
  | none => throw .missingCommand
  | some command => return { settings, filter, command }

/-- Relays between an input and a worker until the dispatch ends. -/
def relay {H P : Type} (player : Player H P) (p : Performance H P) :
    Performance H P × Except Error Summary :=
  let (p, reply) := p.bridge player
  (p, match reply with
    | .dispatched _ result => result.mapError .dispatch
    | _ => .error .dispatchPanicked)

def startRecord (command : Command) (pid : Nat) : Log.Record :=
  Bridge.record .debug "worker started"
    [("pid", .number pid), ("command", .text (Text.Utf8.lossy command.program))]

def summaryRecord (summary : Summary) : Log.Record :=
  Bridge.record .debug "worker session summary"
    [("messages", .number summary.messages), ("decode_errors", .number summary.decodeErrors)]

def endRecord : Except Error StopReason → Log.Record
  | .ok reason => Bridge.record .debug "bridge finished" [("stop_reason", .text reason.describe)]
  | .error error => Bridge.record .error "bridge failed" [("error", .text error.message)]

def Plan.run (plan : Plan) (given : Given) : Report :=
  match Sandbox.spawn plan.command given.pid with
  | .error error => { result := .error (.spawn error) }
  | .ok started =>
    let timing : Timing :=
      { pollInterval := plan.settings.pollInterval, drainTimeout := plan.settings.drainTimeout }
    let start : Performance Sandbox.Hosted Sandbox.Pending :=
      .start started.hosted given.pid plan.command.tuning
    let (last, result) := relay Sandbox.Hosted.player { start with timing, feed := given.feed }
    let summaries := match result with
      | .ok summary => [summaryRecord summary]
      | .error _ => []
    { result := result.map (·.stopReason)
      output := last.output.written
      records := started.records ++ startRecord plan.command given.pid :: last.log.reverse ++
        summaries }

def run (given : Given) : Report :=
  let report : Report := match given.plan with
    | .error error => { result := .error error }
    | .ok plan => plan.run given
  { report with records := report.records ++ [endRecord report.result] }

namespace Report

def success (report : Report) : Bool :=
  match report.result with
  | .ok _ => true
  | .error _ => false

def stderr (report : Report) : String :=
  match report.result with
  | .ok _ => ""
  | .error error => s!"rpcpipe: {error.message}\n"

end Report

end WorkerLink.Session
