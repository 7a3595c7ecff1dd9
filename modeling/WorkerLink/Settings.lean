import WorkerLink.Command
import WorkerLink.Json.Shape

/-!
The settings of a host: how it logs, how long its connection waits, and how long it drains the
worker once its own input has ended.
-/

namespace WorkerLink

/-- How log records are written. -/
inductive LogFormat
  | json
  | compact
deriving DecidableEq, Repr

namespace LogFormat

def name : LogFormat → String
  | .json => "json"
  | .compact => "compact"

def all : List LogFormat := [.json, .compact]

def ofName? (s : String) : Option LogFormat := all.find? fun f => f.name = s

/-- The format with a given name, ASCII letters of either case. -/
def parse? (s : String) : Option LogFormat := ofName? (s.map Char.toLower)

def parseErrorMessage : String := "Matching variant not found"

end LogFormat

inductive Setting
  | logFilter
  | logFormat
  | sendTimeout
  | shutdownTimeout
  | closeTimeout
  | pollInterval
  | stderrCapacity
  | drainTimeout
deriving DecidableEq, Repr

namespace Setting

def all : List Setting :=
  [.logFilter, .logFormat, .sendTimeout, .shutdownTimeout, .closeTimeout, .pollInterval,
    .stderrCapacity, .drainTimeout]

def key : Setting → String
  | .logFilter => "log_filter"
  | .logFormat => "log_format"
  | .sendTimeout => "send_timeout_ms"
  | .shutdownTimeout => "shutdown_timeout_ms"
  | .closeTimeout => "close_timeout_ms"
  | .pollInterval => "poll_interval_ms"
  | .stderrCapacity => "stderr_capacity"
  | .drainTimeout => "drain_timeout_ms"

def shape : Setting → Json.Shape
  | .logFilter => .text
  | .logFormat => .choice (LogFormat.all.map LogFormat.name)
  | .stderrCapacity => .unsigned "usize" 64
  | _ => .unsigned "u64" 64

end Setting

/-- The settings of a host. Times are in milliseconds. -/
structure Settings where
  logFilter : String := "info"
  logFormat : LogFormat := .compact
  sendTimeout : Nat := 5
  shutdownTimeout : Nat := 1000
  closeTimeout : Nat := 1000
  pollInterval : Nat := 50
  stderrCapacity : Nat := RecentBytes.defaultCapacity
  drainTimeout : Nat := 1000
deriving DecidableEq, Repr

namespace Settings

def shape : Json.Shape := .record "Config" (Setting.all.map fun setting => (setting.key, setting.shape))

/-- The tuning of a connection under these settings. -/
def tuning (s : Settings) : Tuning where
  sendWait := s.sendTimeout
  shutdownWait := s.shutdownTimeout
  closeWait := s.closeTimeout
  pollInterval := s.pollInterval
  stderrCapacity := s.stderrCapacity

/-- The worker of an argument vector, tuned by these settings. -/
def command? (s : Settings) (arguments : List Bytes) : Option Command :=
  (Command.ofArguments? arguments).map (·.withTuning s.tuning)

def missingCommandMessage : String := "no worker command given"

end Settings

end WorkerLink
