import WorkerLink.Connection.Call
import WorkerLink.Text.Blank

/-!
The output of a bridge: one line for each message of the worker. A line is written in steps, and a
step that fails leaves what was written before it; the bridge reports the failure and goes on with
the next message.
-/

namespace WorkerLink.Bridge

/-- The part of the program that the records of a bridge name. -/
def logTarget : String := "rpcpipe::cli"

/-- An output that may refuse bytes. -/
structure Output where
  written : Bytes := []
  /-- Bytes offered so far. -/
  offered : Nat := 0
  /-- Whether it takes a byte, by the number of bytes offered before. -/
  accepts : Nat → Bool := fun _ => true

namespace Output

def limited (limit : Nat) : Output := { accepts := fun n => n < limit }

/-- The bytes in front of the first that is refused, where `n` bytes were offered before. -/
def taken (accepts : Nat → Bool) (n : Nat) : Bytes → Bytes
  | [] => []
  | b :: rest => if accepts n then b :: taken accepts (n + 1) rest else []

/-- Offers bytes up to the first that is refused, and tells whether all were taken. -/
def write (o : Output) (bytes : Bytes) : Output × Bool :=
  let front := taken o.accepts o.offered bytes
  ({ o with
      written := o.written ++ front
      offered := o.offered + min (front.length + 1) bytes.length },
    front.length = bytes.length)

def writeLine (o : Output) (line : Bytes) : Output × Bool :=
  match o.write line with
  | (o, true) => o.write [10]
  | (o, false) => (o, false)

end Output

def record (level : Log.Level) (message : String)
    (fields : List (String × Log.FieldValue) := []) : Log.Record :=
  ⟨level, logTarget, message, fields⟩

/-- What a bridge does with an event: it writes a message, and reports everything else. -/
def emit {α : Type} [Format α] (c : Connection) (o : Output) :
    Event α → Output × List Log.Record
  | .message value =>
    match o.writeLine (Format.print value) with
    | (o, true) => (o, [])
    | (o, false) => (o, [record .warn "failed to write message"])
  | .decodeFailed error =>
    (o, [record .warn "worker sent an undecodable frame"
      [("kind", .text error.kind.name), ("line", .number error.line),
        ("column", .number error.column)]])
  | .endOfStream =>
    let stderr := (Text.Utf8.lossy c.diagnostics.bytes).toList
    (o, [record .info "worker stream ended"
      [("stderr", .text (String.ofList (Text.trimEnd stderr)))]])

end WorkerLink.Bridge
