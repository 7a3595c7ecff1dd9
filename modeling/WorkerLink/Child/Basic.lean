import WorkerLink.Bytes
import WorkerLink.Fault
import WorkerLink.Log.Record

/-!
The parent's side of a worker's streams. A pump delivers the worker's output in chunks, another one
its error stream, and a writer passes chunks on to its input and acknowledges each. Between them and
the parent lie queues, so the parent never waits longer than a poll interval.

The functions here are what the pumps and the writer do to the queues.
-/

namespace WorkerLink

/-- The queues between the parent and the writer. -/
structure Writer where
  /-- Chunks that the writer has not taken, oldest first. -/
  queued : List Bytes := []
  /-- Answers that the parent has not taken, oldest first. -/
  acks : List (Except Fault Nat) := []
  /-- The writer stops after its first failure. -/
  running : Bool := true

/-- The parent's side of a worker. -/
structure Child where
  pid : Nat
  /-- Gone for good once a write has failed, or was cancelled while a chunk was under way. -/
  writer : Option Writer := some {}
  /-- Output that the pump has delivered, oldest first. -/
  queue : List Bytes := []
  /-- The pump may deliver more. -/
  pumping : Bool := true
  /-- The rest of a chunk that did not fit into a read. -/
  pending : Bytes := []
  /-- Bytes of the error stream that were delivered, oldest first. -/
  stderrQueue : List Bytes := []
  cancelled : Bool := false
  stdoutOpen : Bool := true
  /-- A quiet poll has seen the worker's exit. -/
  exitSeen : Bool := false
  pollInterval : Nat := 50
  chunkSize : Nat := 64 * 1024

namespace Child

/-- The part of the program that the records of a child name. -/
def logTarget : String := "rpcpipe::handle"

def record (level : Log.Level) (message : String) (fields : List (String × Log.FieldValue)) :
    Log.Record :=
  ⟨level, logTarget, message, fields⟩

def deliver (c : Child) (chunk : Bytes) : Child := { c with queue := c.queue ++ [chunk] }

def endOutput (c : Child) : Child := { c with pumping := false }

/-- The other pump delivers a chunk of the error stream. -/
def deliverStderr (c : Child) (chunk : Bytes) : Child :=
  { c with stderrQueue := c.stderrQueue ++ [chunk] }

/-- The writer takes the next chunk, if the parent still has the queues. -/
def takeChunk (c : Child) : Option (Bytes × Child) :=
  match c.writer with
  | some w =>
    match w.queued with
    | chunk :: queued => some (chunk, { c with writer := some { w with queued } })
    | [] => none
  | none => none

/-- The writer answers for the chunk that it took. -/
def acknowledge (c : Child) (result : Except Fault Nat) : Child :=
  match c.writer with
  | none => c
  | some w =>
    let running := w.running && result.isOk
    { c with writer := some { w with acks := w.acks ++ [result], running } }

/-- The worker can still produce output, as far as the parent knows. -/
def isAlive (c : Child) : Bool := !c.cancelled && c.stdoutOpen

def cancelReceive (c : Child) : Child := { c with cancelled := true }

/-- The parent lets go of the worker's input and reads no more. -/
def close (c : Child) : Child := { c with cancelled := true, writer := none }

/-- The child in words, with a text for its process id. -/
def describe (c : Child) (pid : String) : String :=
  s!"ChildProcess \x7b pid: {pid}, alive: {c.isAlive}, .. \x7d"

end Child

end WorkerLink
