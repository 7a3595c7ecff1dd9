import WorkerLink.Connection.Slot
import WorkerLink.RecentBytes
import WorkerLink.Tuning

/-!
A connection to a worker as everyone who shares it sees it: the place of the handle, three flags,
and the diagnostics. What the flags mean to the outside is told by `currentPid`, `isClosed` and
`describe`.
-/

namespace WorkerLink

/-- What the users of a connection share. -/
structure Connection where
  /-- The process id of the worker, as it was at the start. -/
  pid : Nat
  slot : Slot := {}
  /-- No further frames will come. -/
  done : Bool := false
  /-- Sends under way and to come are cancelled. -/
  cancelSend : Bool := false
  /-- A dispatch has started and not ended in order. -/
  dispatching : Bool := false
  diagnostics : RecentBytes
  tuning : Tuning := {}
deriving DecidableEq, Repr

namespace Connection

def start (pid : Nat) (tuning : Tuning) : Connection where
  pid
  diagnostics := { capacity := tuning.stderrCapacity }
  tuning

/-- What stands for the process id once the connection is done. -/
def deadPid : Int := -1

/-- The process id of the worker while frames may still come. -/
def currentPid (c : Connection) : Int := if c.done then deadPid else c.pid

def isClosed (c : Connection) : Bool := !c.slot.present

/-- The connection in words. It names the process id even when the connection is done. -/
def describe (c : Connection) : String :=
  s!"Connection \x7b pid: {c.pid}, done: {c.done}, cancel_send: {c.cancelSend}, .. \x7d"

def markDone (c : Connection) : Connection := { c with done := true }

def claim (c : Connection) : Except Unavailable Connection :=
  match c.slot.claim with
  | .ok slot => .ok { c with slot }
  | .error reason => .error reason

def release (c : Connection) : Connection := { c with slot := c.slot.release }

def retire (c : Connection) : Connection := { c with slot := c.slot.retire }

def diagnose (c : Connection) (bytes : Bytes) : Connection :=
  { c with diagnostics := c.diagnostics.append bytes }

end Connection

end WorkerLink
