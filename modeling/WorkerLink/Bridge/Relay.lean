import WorkerLink.Bridge.Output
import WorkerLink.Connection.Machine

/-!
The host side of a bridge: it forwards the lines of the input to the worker. It holds the lock of
the host while it looks at the connection and at a line, and lets go of it whenever it waits: for a
line, for a send, for the worker's last output, for a shutdown, and for the end of the dispatch.

`Relay.step` is one step of the host thread. Calls of the connection run on the machine between the
step that lets go of the lock and the step that hears how the call ended.
-/

namespace WorkerLink.Bridge

/-- What the host hears while it waits for a line. -/
inductive Heard
  | line (text : String)
  | nothing
  | inputEnded
deriving DecidableEq, Repr

/-- What the host does under the lock. -/
inductive Task
  /-- Is the connection done? -/
  | check
  | handle (heard : Heard)
  | review (outcome : Outcome)
  /-- The input has ended: is there still output to come? -/
  | drain
  | leave

inductive Relay (α : Type)
  /-- It wants the lock. -/
  | locking (task : Task)
  /-- It has the lock. -/
  | holding (task : Task)
  /-- It waits for a line. -/
  | listening
  /-- It sends the message of a line. -/
  | sending (message : α)
  /-- It sleeps while output may still come. -/
  | resting
  | shuttingDown
  /-- It waits for the dispatch to end. -/
  | joining

inductive RelayInput
  | proceed
  /-- The output has had its time. -/
  | timeUp
  | heard (heard : Heard)
  | called (outcome : Outcome)

namespace Relay

variable {α : Type}

def start : Relay α := .locking .check

def holdsLock : Relay α → Bool
  | .holding _ => true
  | _ => false

/-- The operation that the host asks of the connection. -/
def operation? [Format α] : Relay α → Option (Operation α)
  | .sending message => some (.message (.ofFormat α) message)
  | .shuttingDown => some .shutdown
  | _ => none

/-- What becomes of a line: a message to send, or nothing, and a record if it should have been
one. -/
def read (α : Type) [Format α] (line : String) : Option α × List Log.Record :=
  if line.toList.all Text.isBlank then (none, [])
  else match Format.parse (Bytes.ofString line) with
    | .ok message => (some message, [])
    | .error error =>
      (none, [record .warn "skipping input line that is not JSON" [("error", .text error.detail)]])

/-- What the host says about a call that has ended. -/
def review : Outcome → List Log.Record
  | .sent (.error error) =>
    [record .warn "failed to send message to worker" [("error", .text error.message)]]
  | _ => []

/-- What is left of the host, with the records of the step. -/
abbrev Turn (α : Type) := Relay α × List Log.Record

/-- What the host does with a task. It lets go of the lock unless the next stage holds it. -/
def perform [Format α] (c : Connection) (input : RelayInput) : Task → Option (Turn α)
  | .check =>
    match input with
    | .proceed => some (if c.done then .joining else .listening, [])
    | _ => none
  | .handle (.line text) =>
    match input, read α text with
    | .proceed, (some message, records) => some (.sending message, records)
    | .proceed, (none, records) => some (.holding .check, records)
    | _, _ => none
  | .handle .nothing =>
    match input with
    | .proceed => some (.holding .check, [])
    | _ => none
  | .handle .inputEnded =>
    match input with
    | .proceed =>
      some (.holding .drain, [record .debug "input ended; draining worker output"])
    | _ => none
  | .review outcome =>
    match input with
    | .proceed => some (.holding .check, review outcome)
    | _ => none
  | .drain =>
    match input with
    | .proceed => some (if c.done then .shuttingDown else .resting, [])
    | .timeUp => some (.shuttingDown, [])
    | _ => none
  | .leave =>
    match input with
    | .proceed => some (.joining, [])
    | _ => none

def step [Format α] (thread : Nat) (m : Machine α) (r : Relay α) (input : RelayInput) :
    Option (Machine α × Turn α) :=
  match r, input with
  | .locking task, .proceed =>
    if m.hostHolder.isNone then
      some ({ m with hostHolder := some thread }, .holding task, [])
    else none
  | .holding task, input =>
    (perform m.connection input task).map fun (r, records) =>
      ({ m with hostHolder := if r.holdsLock then some thread else none }, r, records)
  | .listening, .heard heard => some (m, .locking (.handle heard), [])
  | .sending _, .called outcome => some (m, .locking (.review outcome), [])
  | .resting, .proceed => some (m, .locking .drain, [])
  | .shuttingDown, .called _ => some (m, .locking .leave, [])
  | _, _ => none

end Relay

end WorkerLink.Bridge
