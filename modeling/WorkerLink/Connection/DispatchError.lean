import WorkerLink.FrameError

/-!
How a dispatch ends: a summary of what it delivered, or an error.
-/

namespace WorkerLink

/-- Why a dispatch stopped reading. -/
inductive StopReason
  /-- No frame could be read. -/
  | terminated (error : FrameError)
  /-- The handle was no longer alive between two frames. -/
  | handleInactive
  /-- The connection was marked done. -/
  | done
deriving DecidableEq, Repr

def StopReason.describe : StopReason → String
  | .terminated error => s!"Terminated({error.describe})"
  | .handleInactive => "HandleInactive"
  | .done => "Done"

/-- What a finished dispatch delivered. -/
structure Summary where
  /-- Frames that were decoded. -/
  messages : Nat
  /-- Frames that could not be decoded. -/
  decodeErrors : Nat
  stopReason : StopReason
deriving DecidableEq, Repr

/-- Why a dispatch did not run, or did not end well. -/
inductive DispatchError
  | alreadyRunning
  | closed
  /-- There was no memory for the body of a frame. The connection was cleaned up all the same. -/
  | outOfMemory (requested : Nat)
deriving DecidableEq, Repr

def DispatchError.message : DispatchError → String
  | .alreadyRunning => "a dispatch loop is already running on this connection"
  | .closed => "connection is closed"
  | .outOfMemory requested =>
    s!"out of memory: could not allocate {requested} bytes for a frame"

end WorkerLink
