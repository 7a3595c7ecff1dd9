import WorkerLink.Fault
import WorkerLink.Text.Quoted

/-!
The ways in which reading a frame ends without one.
-/

namespace WorkerLink

inductive FrameError
  | endOfStream
  /-- The output ended after bytes that never became a header. -/
  | missingHeader
  | missingTerminator
  | invalidLength (text : String)
  | truncated (expected received : Nat)
  | io (fault : Fault)
  | allocation (requested : Nat)
deriving DecidableEq, Repr

namespace FrameError

/-- Only a lack of memory has to reach the caller; the other errors end the stream quietly. -/
def isFatal : FrameError → Bool
  | .allocation _ => true
  | _ => false

def message : FrameError → String
  | .endOfStream => "worker output ended"
  | .missingHeader => "stream ended without a Content-Length header"
  | .missingTerminator => "stream ended before the header terminator"
  | .invalidLength text => s!"invalid Content-Length value: {Text.Quoted.quote text}"
  | .truncated expected received => s!"frame truncated: received {received} of {expected} bytes"
  | .io fault => s!"failed to read from worker: {fault.text}"
  | .allocation requested => s!"failed to allocate {requested} bytes for incoming frame"

def describe : FrameError → String
  | .endOfStream => "EndOfStream"
  | .missingHeader => "MissingHeader"
  | .missingTerminator => "MissingTerminator"
  | .invalidLength text =>
    let quoted := Text.Quoted.quote text
    s!"InvalidLength \x7b text: {quoted} \x7d"
  | .truncated expected received =>
    s!"Truncated \x7b expected: {expected}, received: {received} \x7d"
  | .io fault => s!"Io({fault.text})"
  | .allocation requested => s!"Allocation \x7b requested: {requested} \x7d"

def sources : FrameError → List Fault
  | .io fault => [fault]
  | _ => []

end FrameError

end WorkerLink
