import WorkerLink.Child.Receive
import WorkerLink.Command
import WorkerLink.Rehearsal.Player
import WorkerLink.Sandbox.System
import WorkerLink.SpawnError
import WorkerLink.Text.Quoted

/-!
Workers in the sandbox: the parent's side of the streams joined to the processes at their other
ends. The pumps and the writer work whenever they can, so they are always as far as the processes
let them be.
-/

namespace WorkerLink.Sandbox

def charsOf (bytes : Bytes) : List Char := bytes.map fun b => Char.ofNat b.toNat

def bytesOf (text : List Char) : Bytes := text.map fun c => UInt8.ofNat c.toNat

/-- The thread that writes to the worker's input. -/
inductive Scribe
  | idle
  /-- It writes what is left of a chunk of a size. -/
  | writing (left : List Char) (size : Nat)
  | stopped
deriving DecidableEq, Repr

/-- A worker and its parent's side. -/
structure Hosted where
  child : Child
  system : System
  scribe : Scribe := .idle

inductive Pending
  | startSend (framed : Bytes)
  | sending (stage : Child.Sending) (pollUntil : Nat)
  | startReceive (max : Nat)
  | receiving (stage : Child.Receiving) (pollUntil : Nat)
  | isAlive
  | cancel
  | close

namespace Hosted

def pumpSize : Nat := 8 * 1024

/-- One step of the thread that writes to the worker's input. It ends with the first failure, and
when the parent has let go of it. -/
def stepScribe (h : Hosted) : Option Hosted :=
  let stop (h : Hosted) : Hosted :=
    { h with scribe := .stopped, system := { h.system with inputHeld := false } }
  match h.scribe with
  | .stopped => none
  | .idle =>
    match h.child.takeChunk with
    | some (chunk, child) => some { h with child, scribe := .writing (charsOf chunk) chunk.length }
    | none => if h.child.writer.isNone then some (stop h) else none
  | .writing left size =>
    if !h.system.hasReader 0 then
      some (stop { h with child := h.child.acknowledge (.error .pipeClosed) })
    else if left.isEmpty then
      let h := { h with child := h.child.acknowledge (.ok size), scribe := .idle }
      some (if h.child.writer.isNone then stop h else h)
    else if System.pipeCapacity ≤ (h.system.contents 0).length then none
    else
      let (left, system) := h.system.put 0 left
      some { h with system, scribe := .writing left size }

/-- One step of the pump of the worker's output. -/
def stepPump (h : Hosted) : Option Hosted :=
  if !h.child.pumping then none
  else if !(h.system.contents 1).isEmpty then
    let (text, system) := h.system.take 1 pumpSize
    some { h with system, child := h.child.deliver (bytesOf text) }
  else if h.system.hasWriter 1 then none
  else some { h with child := h.child.endOutput }

/-- One step of the pump of the worker's error stream. -/
def stepStderrPump (h : Hosted) : Option Hosted :=
  if (h.system.contents 2).isEmpty then none
  else
    let (text, system) := h.system.take 2 pumpSize
    some { h with system, child := h.child.deliverStderr (bytesOf text) }

def step? (h : Hosted) : Option Hosted :=
  h.stepStderrPump.or (h.stepPump.or (h.stepScribe.or
    (h.system.step?.map fun system => { h with system })))

def settle : Nat → Hosted → Hosted
  | 0, h => h
  | fuel + 1, h =>
    match h.step? with
    | some h => settle fuel h
    | none => h

/-- Steps at one time: more than a worker of use takes. -/
def stamina : Nat := Nat.pow 2 20

/-- What has become of a worker at a time, one waking after another. -/
def advanceTo (time : Nat) : Nat → Hosted → Hosted
  | 0, h => h
  | fuel + 1, h =>
    let h := settle stamina h
    match h.system.wakeTime? with
    | some wake =>
      if wake ≤ time then
        advanceTo time fuel { h with system := { h.system with now := max wake h.system.now } }
      else { h with system := { h.system with now := time } }
    | none => { h with system := { h.system with now := time } }

def advance (h : Hosted) (time : Nat) : Hosted := advanceTo time stamina h

/-- The record of a worker that had ended when it was closed. -/
def reapRecords (h : Hosted) : List Log.Record :=
  match h.system.workerEnding with
  | some ending =>
    [Child.record .debug "worker exited"
      [("pid", .number h.child.pid),
        ("status", .text s!"ExitStatus(unix_wait_status({ending.waitStatus}))")]]
  | none => []

/-- Closes the parent's side and makes sure that the worker ends. -/
def close (h : Hosted) : Hosted := { h with child := h.child.close, system := h.system.kill }

def turn (h : Hosted) (now : Nat) (cancel : Bool) (pending : Pending) :
    Rehearsal.Turn Hosted Pending :=
  let h := h.advance now
  let poll := now + max 1 h.child.pollInterval
  let onReceive (step : Child.ReceiveStep) : Rehearsal.Turn Hosted Pending :=
    let h := { h with child := step.child }
    match step.progress with
    | .goesOn stage => .proceeds h (.receiving stage poll) step.records
    | .ends answer => .answers (.read answer.stderr (.ok answer.bytes)) 0 h step.records
  match pending with
  | .startSend framed => .proceeds h (.sending (h.child.startSend framed) poll)
  | .sending stage pollUntil =>
    match h.child.sendStep cancel (pollUntil ≤ now) stage with
    | some step =>
      let h := { h with child := step.child }
      match step.progress with
      | .goesOn stage => .proceeds h (.sending stage poll) step.records
      | .ends answer => .answers (.wrote answer) 0 h step.records
    | none => .waits (some pollUntil)
  | .startReceive max => onReceive (h.child.startReceive max)
  | .receiving stage pollUntil =>
    match h.child.receiveStep h.system.workerEnding.isSome (pollUntil ≤ now) stage with
    | some step => onReceive step
    | none => .waits (some pollUntil)
  | .isAlive => .answers (.alive h.child.isAlive) 0 h
  | .cancel => .answers .returned 0 { h with child := h.child.cancelReceive }
  | .close => .answers .returned 0 h.close h.reapRecords

def accept : Request → Pending
  | .send framed => .startSend framed
  | .receive => .startReceive Rehearsal.Worker.readSize
  | .isAlive => .isAlive
  | .cancel => .cancel
  | .close => .close

def place : Pending → Rehearsal.Place
  | .startSend _ | .sending _ _ => .send
  | .startReceive _ | .receiving _ _ | .isAlive => .recv
  | .cancel => .cancelRecv
  | .close => .close

def player : Rehearsal.Player Hosted Pending where
  accept _ _ request := accept request
  turn := turn
  advance := advance
  next? h := h.system.wakeTime?
  place := place
  farewell := reapRecords

end Hosted

/-! Starting workers -/

/-- The variables that a worker starts with, unless they are cleared. -/
def inherited : List (List Char × List Char) :=
  [("PATH".toList, "/usr/local/sbin:/usr/local/bin:/usr/sbin:/usr/bin:/sbin:/bin".toList),
    ("HOME".toList, "/root".toList)]

def variablesOf (c : Command) : Shell.Values :=
  let start : Shell.Values := { named := if c.clearEnv then [] else inherited }
  c.env.foldl (fun v (name, value) => v.set (charsOf name) (charsOf value)) start

def hasZeroByte (c : Command) : Bool :=
  (c.program :: c.args ++ c.env.flatMap (fun (k, v) => [k, v]) ++ c.directory.toList).any
    (·.contains 0)

/-- Finds the program of a command and the place where it starts. -/
def locate (c : Command) : Except Fault (List Char × Place) := do
  if hasZeroByte c then throw .zeroByte
  let place ← match c.directory with
    | none => pure []
    | some directory =>
      let (place, node) ← Files.lookUp [] (charsOf directory)
      if node ≠ .directory then throw .throughFile
      pure place
  let program ← Files.findProgram place (System.searchPath (variablesOf c)) (charsOf c.program)
  return (program, place)

structure Started where
  hosted : Hosted
  records : List Log.Record

def spawnRecord (c : Command) : Log.Record :=
  Child.record .debug "spawning worker process"
    [("command", .text (Text.Utf8.lossy c.program)),
      ("args", .text (Text.Quoted.quoteList (c.args.map Text.Utf8.lossy)))]

def spawn (c : Command) (pid : Nat) : Except SpawnError Started :=
  let name := Text.Utf8.lossy c.program
  match locate c with
  | .error fault =>
    .error (if fault.kind = .notFound then .binaryNotFound name fault else .spawnFailed name fault)
  | .ok (program, place) =>
    let streams : Streams := [(0, .pipeOut 0), (1, .pipeIn 1), (2, .pipeIn 2)]
    let proc : Proc :=
      { streams, tasks := [], values := { variablesOf c with pid }, place }
    let args := charsOf c.program :: c.args.map charsOf
    let child : Child :=
      { pid, pollInterval := c.tuning.pollInterval, chunkSize := c.tuning.writeChunkSize }
    let system : System := { procs := [System.programTasks proc program args streams] }
    .ok ⟨{ child, system },
      [spawnRecord c, Child.record .debug "worker process spawned" [("pid", .number pid)]]⟩

end WorkerLink.Sandbox
