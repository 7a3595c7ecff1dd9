import WorkerLink.Connection.Call

/-!
What the actions of a rehearsal answer.
-/

namespace WorkerLink.Rehearsal

mutual

inductive Reply
  | done
  | sent (result : Except SendError Unit)
  /-- What should have been sent was no message. -/
  | notDecoded (error : DecodeError)
  | status (pid : Int) (done closed : Bool)
  | bytes (bytes : Bytes)
  | text (text : String)
  | dispatched (notices : List Notice) (result : Except DispatchError Summary)
  | during (main : Reply) (other : List Reply)
  | panicked

/-- An event as a receiver saw it, and what its actions answered, if it had any. -/
inductive Notice
  | mk (event : Event Json.Value) (replies : Option (List Reply))

end

namespace Notice

def event : Notice → Event Json.Value
  | .mk event _ => event

def replies : Notice → Option (List Reply)
  | .mk _ replies => replies

end Notice

/-- The answer of an operation that has seen events. -/
def Reply.ofOutcome (notices : List Notice) : Outcome → Reply
  | .sent result => .sent result
  | .shutDown => .done
  | .dispatched result => .dispatched notices result

end WorkerLink.Rehearsal
