import WorkerLink.Connection.Slot
import WorkerLink.Fault

/-!
The ways in which a send fails. The connection stays open after each of them.
-/

namespace WorkerLink

inductive EncodeError
  /-- The name of a member is not a string. -/
  | keyNotString
deriving DecidableEq, Repr

def EncodeError.message : EncodeError → String
  | .keyNotString => "failed to encode message: key must be a string"

inductive SendError
  /-- The handle could not be had. -/
  | unavailable (reason : Unavailable)
  /-- The worker took only part of the frame. -/
  | shortWrite (written expected : Nat)
  /-- The worker's input could not be written. -/
  | io (fault : Fault)
  /-- The value could not be encoded. -/
  | encode (error : EncodeError)
  /-- There is no memory for the frame. -/
  | allocation (requested : Nat)
deriving DecidableEq, Repr

namespace SendError

def message : SendError → String
  | .unavailable reason => s!"connection unavailable: {reason.message}"
  | .shortWrite written expected => s!"short write: {written} of {expected} bytes sent"
  | .io fault => s!"failed to write to worker: {fault.text}"
  | .encode error => error.message
  | .allocation requested => s!"failed to allocate {requested} bytes for outgoing frame"

def sources : SendError → List Fault
  | .io fault => [fault]
  | _ => []

end SendError

end WorkerLink
