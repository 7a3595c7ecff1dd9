import WorkerLink.Child.Send

/-!
Reading from a worker. A read first hands over what is left of the last chunk; without a rest it
waits up to a poll interval for the next chunk.

A descendant of the worker may hold the output open long after the worker is gone. So the stream
also ends with a quiet poll after one that has seen the worker's exit: in between, the pump has had
a whole interval for what the worker wrote last.
-/

namespace WorkerLink.Child

/-- A read that waits for a chunk: its size, and the error stream so far. -/
structure Receiving where
  max : Nat
  stderr : Bytes

structure Received where
  bytes : Bytes
  stderr : Bytes

/-- What a step of a read leaves. -/
structure ReceiveStep where
  child : Child
  progress : Progress Receiving Received
  records : List Log.Record := []

def drainStderr (c : Child) (stderr : Bytes) : Child × Bytes :=
  ({ c with stderrQueue := [] }, stderr ++ c.stderrQueue.flatten)

def handOver (c : Child) (max : Nat) (stderr : Bytes) (records : List Log.Record := []) :
    ReceiveStep :=
  ⟨{ c with pending := c.pending.drop max }, .ends ⟨c.pending.take max, stderr⟩, records⟩

def startReceive (c : Child) (max : Nat) : ReceiveStep :=
  let (c, stderr) := c.drainStderr []
  if max = 0 then ⟨c, .ends ⟨[], stderr⟩, []⟩
  else if c.pending ≠ [] then c.handOver max stderr
  else if c.cancelled then ⟨c, .ends ⟨[], stderr⟩, []⟩
  else ⟨c, .goesOn ⟨max, stderr⟩, []⟩

def noteQuiet (c : Child) (exited : Bool) : Child × List Log.Record :=
  if c.exitSeen then
    ({ c with stdoutOpen := false },
      [record .debug "worker exited while its stdout is still held open"
        [("pid", .number c.pid)]])
  else ({ c with exitSeen := exited }, [])

/-- One step of a read that waits, with whether the worker has exited and whether the poll interval
is over. -/
def receiveStep (c : Child) (exited timeUp : Bool) (r : Receiving) : Option ReceiveStep :=
  let finish (c : Child) (records : List Log.Record) : ReceiveStep :=
    let (c, stderr) := c.drainStderr r.stderr
    c.handOver r.max stderr records
  match c.queue with
  | chunk :: queue => some (finish { c with queue, pending := c.pending ++ chunk } [])
  | [] =>
    if !c.pumping then some (finish { c with stdoutOpen := false } [])
    else if timeUp then
      let (c, records) := c.noteQuiet exited
      some (finish c records)
    else none

end WorkerLink.Child
