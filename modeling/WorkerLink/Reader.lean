import WorkerLink.Frame
import WorkerLink.FrameError
import WorkerLink.Log.Record
import WorkerLink.Memory
import WorkerLink.RecentBytes
import WorkerLink.Text.Utf8

/-!
Reading frames out of a worker's output. A scan looks for the marker, then for the end of the
header, then gathers the body; it is advanced with whatever is buffered and asks for more when that
does not suffice. Bytes before a marker are stray output and go to the diagnostics.

`nextFrame` runs a scan over a list of reads. Every other reader of frames in the library takes the
same steps.
-/

namespace WorkerLink

inductive Scan
  | header
  | terminator
  /-- A body of `length` bytes, of which `parts` (newest first) are there and `missing` are not. -/
  | body (length : Nat) (parts : List Bytes) (missing : Nat)
deriving DecidableEq, Repr

/-- Where a scan stands after what is buffered has been used. -/
inductive Pull
  | more (scan : Scan) (buffered : Bytes)
  | done (result : Except FrameError Frame) (buffered : Bytes)

/-- One advance of a scan: the stray output it passed over, and where it stands. -/
structure Advance where
  stray : Bytes := []
  pull : Pull

namespace Scan

def advanceBody (length : Nat) (parts : List Bytes) (missing : Nat) (buffered : Bytes) : Pull :=
  let part := buffered.take missing
  if part.length = missing then
    .done (.ok ⟨(part :: parts).reverse.flatten⟩) (buffered.drop missing)
  else
    .more (.body length (part :: parts) (missing - part.length)) []

/-- Looks for the end of the header. The limit on the value is tried only while no terminator is in
sight. -/
def advanceTerminator [Memory] (buffered : Bytes) : Pull :=
  match Bytes.cut? Frame.terminator buffered with
  | some (field, rest) =>
    match Frame.parseLength? field with
    | none => .done (.error (.invalidLength (Text.Utf8.lossy field))) rest
    | some n =>
      if Memory.reserves n then advanceBody n [] n rest
      else .done (.error (.allocation n)) rest
  | none =>
    if Frame.maxFieldLength + Frame.terminator.length < buffered.length then
      let field := buffered.take Frame.maxFieldLength
      .done (.error (.invalidLength (Text.Utf8.lossy field))) buffered
    else .more .terminator buffered

/-- Looks for the marker. Without one, a tail that may hold the start of a marker stays buffered. -/
def advanceHeader [Memory] (buffered : Bytes) : Advance :=
  match Bytes.cut? Frame.marker buffered with
  | some (noise, rest) => ⟨noise, advanceTerminator rest⟩
  | none =>
    let kept := Frame.marker.length - 1
    ⟨buffered.take (buffered.length - kept), .more .header (buffered.last kept)⟩

def advance [Memory] (buffered : Bytes) : Scan → Advance
  | .header => advanceHeader buffered
  | .terminator => { pull := advanceTerminator buffered }
  | .body length parts missing => { pull := advanceBody length parts missing buffered }

/-- The output is over: what a scan that still wants bytes ends with. -/
def ended (buffered : Bytes) : Scan → Advance
  | .header =>
    if buffered = [] then { pull := .done (.error .endOfStream) [] }
    else ⟨buffered, .done (.error .missingHeader) []⟩
  | .terminator => { pull := .done (.error .missingTerminator) buffered }
  | .body length _ missing =>
    { pull := .done (.error (.truncated length (length - missing))) buffered }

end Scan

/-- One answer of a handle that is read: what it took from the worker's error stream, the bytes of
the output or a fault, and whether the handle is alive when it is asked after an empty read. -/
structure Read where
  stderr : Bytes := []
  result : Except Fault Bytes
  alive : Bool

/-- The state of a reader between two frames. -/
structure Reader where
  buffered : Bytes := []
  diagnostics : RecentBytes
  /-- Records written so far. -/
  log : List Log.Record := []

namespace Reader

/-- The part of the program that a reader's records name. -/
def logTarget : String := "rpcpipe::reader"

/-- What an advance has to say: stray output and a finished frame are each worth a record. -/
def records (a : Advance) : List Log.Record :=
  (if a.stray = [] then []
   else [⟨.debug, logTarget, "captured stray output outside a frame",
     [("bytes", .number a.stray.length)]⟩]) ++
  match a.pull with
  | .done (.ok frame) _ =>
    [⟨.debug, logTarget, "frame received", [("content_length", .number frame.contentLength)]⟩]
  | _ => []

def hasBuffered (r : Reader) : Bool := !r.buffered.isEmpty

/-- Keeps what a read took from the error stream. -/
def keepStderr (r : Reader) (stderr : Bytes) : Reader :=
  { r with diagnostics := r.diagnostics.append stderr }

/-- Takes over what an advance left buffered, passed over and recorded. -/
def absorb (r : Reader) (a : Advance) : Reader where
  buffered := match a.pull with
    | .more _ buffered => buffered
    | .done _ buffered => buffered
  diagnostics := r.diagnostics.append a.stray
  log := r.log ++ records a

/-- Goes on with a scan over the reads to come. `none` means that they ran out. -/
def resume [Memory] (scan : Scan) (r : Reader) :
    List Read → Option (Except FrameError Frame × Reader × List Read)
  | [] => none
  | read :: reads =>
    let r := r.keepStderr read.stderr
    let settle (a : Advance) : Option (Except FrameError Frame × Reader × List Read) :=
      match a.pull with
      | .more scan _ => resume scan (r.absorb a) reads
      | .done result _ => some (result, r.absorb a, reads)
    match read.result with
    | .error fault => some (.error (.io fault), r, reads)
    | .ok [] => if read.alive then resume scan r reads else settle (scan.ended r.buffered)
    | .ok bytes => settle (scan.advance (r.buffered ++ bytes))

/-- Reads the next frame: first from what is buffered, then from the reads to come. -/
def nextFrame [Memory] (r : Reader) (reads : List Read) :
    Option (Except FrameError Frame × Reader × List Read) :=
  let a := Scan.header.advance r.buffered
  match a.pull with
  | .more scan _ => resume scan (r.absorb a) reads
  | .done result _ => some (result, r.absorb a, reads)

end Reader

end WorkerLink
