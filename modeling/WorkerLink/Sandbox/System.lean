import WorkerLink.Sandbox.Files
import WorkerLink.Sandbox.Shell.Expand
import WorkerLink.Sandbox.Tool

/-!
The sandbox in which workers run: processes with streams, pipes between them, and a clock in
milliseconds. A process runs tasks, and each step of the system is one task of one process; a process
whose task has to wait lets the others go on. Nothing takes time but sleeping and waiting.

The worker is the first process, and the pipes 0, 1 and 2 are its standard streams. Their other ends
belong to the parent.
-/

namespace WorkerLink.Sandbox

inductive Stream
  | pipeOut (pipe : Nat)
  | pipeIn (pipe : Nat)
  | null
  | zeros
deriving DecidableEq, Repr

abbrev Streams := List (Nat × Stream)

inductive Ending
  | exited (status : Nat)
  | killed (signal : Nat)
deriving DecidableEq, Repr

namespace Ending

/-- The status as a parent hears it: the exit status in the second byte, a signal in the first. -/
def waitStatus : Ending → Nat
  | .exited status => status % 256 * 256
  | .killed signal => signal

def shellStatus : Ending → Nat
  | .exited status => status % 256
  | .killed signal => 128 + signal

end Ending

inductive Task
  | script (script : Shell.Script)
  /-- Pipelines that run after a success, or after a failure. -/
  | dependents (rest : List (Bool × List Shell.Command))
  | pipeline (commands : List Shell.Command)
  | command (command : Shell.Command)
  /-- Wait for processes; the status is that of the last. -/
  | await (pids : List Nat)
  /-- Read what a process writes into a pipe, and put it into a command. -/
  | collect (pipe pid : Nat) (sofar : List Char) (command : Shell.Command)
  | emit (stream : Nat) (text : List Char)
  | setStatus (status : Nat)
  | setStreams (streams : Streams)
  | tool (tool : Tool)
  /-- Go on with a tool, or exit with a status. -/
  | toolNext (next : Except Nat Tool)
  | exit (status : Nat)

structure Proc where
  ending : Option Ending := none
  streams : Streams
  tasks : List Task
  values : Shell.Values := {}
  /-- The name under which a shell complains. -/
  name : List Char := "sh".toList
  place : Place := []

/-- The system. Process ids count from one. -/
structure System where
  now : Nat := 0
  pipes : List (List Char) := [[], [], []]
  procs : List Proc := []
  /-- The parent still holds its end of the worker's input. -/
  inputHeld : Bool := true

namespace System

def pipeCapacity : Nat := 64 * 1024

def streamOf (p : Proc) (number : Nat) : Option Stream :=
  (p.streams.find? fun entry => entry.1 = number).map (·.2)

def setStream (streams : Streams) (number : Nat) (stream : Stream) : Streams :=
  (number, stream) :: streams.filter fun entry => entry.1 ≠ number

def dropStream (streams : Streams) (number : Nat) : Streams :=
  streams.filter fun entry => entry.1 ≠ number

def isHeld (s : System) (stream : Stream) : Bool :=
  s.procs.any fun p => p.ending.isNone && p.streams.any fun entry => entry.2 = stream

def hasWriter (s : System) (pipe : Nat) : Bool :=
  (pipe = 0 && s.inputHeld) || s.isHeld (.pipeIn pipe)

/-- A shell collects what is written into a pipe. -/
def isCollected (s : System) (pipe : Nat) : Bool :=
  s.procs.any fun p => match p.tasks with
    | .collect collected _ _ _ :: _ => collected = pipe
    | _ => false

/-- A pipe may still be read. The parent reads the output and the error stream to their ends. -/
def hasReader (s : System) (pipe : Nat) : Bool :=
  pipe = 1 || pipe = 2 || s.isHeld (.pipeOut pipe) || s.isCollected pipe

def contents (s : System) (pipe : Nat) : List Char := (s.pipes[pipe]?).getD []

def take (s : System) (pipe max : Nat) : List Char × System :=
  let all := s.contents pipe
  (all.take max, { s with pipes := s.pipes.set pipe (all.drop max) })

/-- Puts bytes into a pipe as far as there is room, and gives back the rest. -/
def put (s : System) (pipe : Nat) (text : List Char) : List Char × System :=
  let all := s.contents pipe
  let room := pipeCapacity - all.length
  (text.drop room, { s with pipes := s.pipes.set pipe (all ++ text.take room) })

def setProc (s : System) (i : Nat) (p : Proc) : System := { s with procs := s.procs.set i p }

def finish (s : System) (i : Nat) (p : Proc) (ending : Ending) : System :=
  s.setProc i { p with ending := some ending, streams := [], tasks := [] }

def fork (s : System) (p : Proc) : Nat × System :=
  (s.procs.length, { s with procs := s.procs ++ [p] })

/-- What a read of a stream gives: bytes, the end, or nothing yet. -/
inductive Taken
  | bytes (text : List Char) (system : System)
  | nothingYet

/-- Reads from a stream. A closed stream is at its end. -/
def readStream (s : System) (stream : Option Stream) (max : Nat) : Taken :=
  match stream with
  | some (.pipeOut pipe) =>
    if (s.contents pipe).isEmpty then
      if s.hasWriter pipe then .nothingYet else .bytes [] s
    else
      let (text, s) := s.take pipe max
      .bytes text s
  | some .zeros => .bytes (List.replicate max (Char.ofNat 0)) s
  | _ => .bytes [] s

/-! Running commands -/

def redirect (p : Proc) (streams : Streams) : Shell.Redirect → Except (List Char) Streams
  | .mk number kind target =>
    let text := Shell.wordText p.values target
    match kind with
    | .duplicate =>
      if text = ['-'] then .ok (dropStream streams number)
      else match (streams.find? fun entry => entry.1 = (Shell.integer text).1.toNat) with
        | some (_, stream) => .ok (setStream streams number stream)
        | none => .error (text ++ ": Bad file descriptor".toList)
    | kind =>
      match Files.lookUp p.place text with
      | .ok (_, .nullDevice) => .ok (setStream streams number .null)
      | .ok (_, .zeroDevice) => .ok (setStream streams number .zeros)
      | _ =>
        if kind = .read then .error ("cannot open ".toList ++ text ++ ": No such file".toList)
        else .error ("cannot create ".toList ++ text ++ ": Permission denied".toList)

def redirectAll (p : Proc) (redirects : List Shell.Redirect) : Except (List Char) Streams :=
  redirects.foldlM (redirect p) p.streams

def complaint (p : Proc) (text : List Char) : List Char :=
  p.name ++ ": 1: ".toList ++ text ++ ['\n']

/-- The streams and the tool of a program: a device that is named as its file is its input. -/
def toolFor (program : List Char) (args : List (List Char)) (streams : Streams) :
    Tool × Streams :=
  let program := String.ofList program
  let takesFile := program = "cat" || program = "head" || program = "tail" || program = "wc"
  let device (path : String) (stream : Stream) : Option (List (List Char) × Streams) :=
    if takesFile && args.getLast? = some path.toList then
      some (args.dropLast, setStream streams 0 stream)
    else none
  match (device "/dev/zero" .zeros).or (device "/dev/null" .null) with
  | some (args, streams) => (.ofArguments program args, streams)
  | none => (.ofArguments program args, streams)

/-- The tasks of a program started with arguments, its own name among them. -/
def programTasks (p : Proc) (program : List Char) (args : List (List Char)) (streams : Streams) :
    Proc :=
  if program = "sh".toList || program = "dash".toList then
    let refuse : Proc := { p with streams, tasks := [.exit 2] }
    match args with
    | name :: ['-', 'c'] :: text :: rest =>
      let parameters := if rest.isEmpty then [name] else rest
      let name := rest.head?.getD name
      let p := { p with streams, name, values := { p.values with parameters } }
      match Shell.parse? text with
      | some script => { p with tasks := [.script script] }
      | none => { p with tasks := [.emit 2 (complaint p "Syntax error".toList), .exit 2] }
    | _ => refuse
  else if program = "pwd".toList then
    { p with streams, tasks := [.emit 1 (Files.pathOf p.place ++ ['\n'])] }
  else
    let (tool, streams) := toolFor program args.tail streams
    { p with streams, tasks := [.tool tool] }

def searchPath (v : Shell.Values) : List Char :=
  match v.named.find? fun entry => entry.1 = "PATH".toList with
  | some (_, path) => path
  | none => Files.defaultSearch

/-- What a built-in command does: what it writes, its status, and whether it exits. -/
structure Builtin where
  out : List Char := []
  err : List Char := []
  status : Nat := 0
  exits : Bool := false
  proc : Proc

/-- The built-in command of a name, if there is one. -/
def builtin? (p : Proc) (name : List Char) (args : List (List Char)) : Option Builtin :=
  match String.ofList name with
  | ":" | "true" => some { proc := p }
  | "false" => some { status := 1, proc := p }
  | "echo" => some { out := Shell.echo args, proc := p }
  | "printf" => some { out := Shell.printf args, proc := p }
  | "pwd" => some { out := Files.pathOf p.place ++ ['\n'], proc := p }
  | "exit" =>
    let status := match args with
      | n :: _ => (Shell.integer n).1.toNat
      | [] => p.values.status
    some { status, exits := true, proc := p }
  | "cd" =>
    match Files.lookUp p.place (args.head?.getD ['/']) with
    | .ok (place, .directory) => some { proc := { p with place } }
    | _ =>
      some { err := complaint p ("cd: can't cd to ".toList ++ (args.head?.getD [])), status := 2,
             proc := p }
  | "export" =>
    let set (v : Shell.Values) (arg : List Char) : Shell.Values :=
      match Shell.assignment? arg with
      | some (name, value) => v.set name value
      | none => v
    some { proc := { p with values := args.foldl set p.values } }
  | "unset" =>
    let named := p.values.named.filter fun entry => !args.contains entry.1
    some { proc := { p with values := { p.values with named } } }
  | _ => none

/-- Streams that a shell sets aside during a built-in command stay open under numbers that no script
uses. -/
def setAside (streams : Streams) : Streams := streams.map fun (number, stream) => (number + 1000, stream)

/-- Runs a simple command whose words are expanded. -/
def runSimple (s : System) (i : Nat) (p : Proc) (assignments : List (List Char × Shell.Word))
    (words : List (List Char)) (redirects : List Shell.Redirect) (rest : List Task) : System :=
  let values := assignments.foldl (fun v (name, word) => v.set name (Shell.wordText v word)) p.values
  match redirectAll p redirects with
  | .error text =>
    let after := [Task.emit 2 (complaint p text), .setStatus 2]
    s.setProc i { p with tasks := after ++ rest }
  | .ok streams =>
    match words with
    | [] =>
      let status := if p.values.status = 0 then 0 else p.values.status
      let values := { values with status := if assignments.isEmpty then 0 else status }
      s.setProc i { p with values, tasks := rest }
    | name :: args =>
      if name = "exec".toList then
        match args with
        | [] => s.setProc i { p with streams, values := { p.values with status := 0 }, tasks := rest }
        | program :: _ =>
          match Files.findProgram p.place (searchPath values) program with
          | .ok found => s.setProc i (programTasks { p with values } found args streams)
          | .error _ =>
            let text := complaint p ("exec: ".toList ++ program ++ ": not found".toList)
            s.setProc i { p with tasks := [.emit 2 text, .exit 127] }
      else match builtin? { p with values } name args with
        | some b =>
          let values := if b.proc.values.named = values.named then p.values else b.proc.values
          let after : List Task :=
            [.emit 1 b.out, .emit 2 b.err, .setStreams p.streams, .setStatus b.status]
          let after := if b.exits then after ++ [.exit b.status] else after ++ rest
          let streams := streams ++ setAside p.streams
          s.setProc i { b.proc with values, streams, tasks := after }
        | none =>
          match Files.findProgram p.place (searchPath values) name with
          | .ok found =>
            let child := programTasks { p with values, ending := none } found words streams
            let (pid, s) := s.fork child
            s.setProc i { p with tasks := .await [pid] :: rest }
          | .error fault =>
            let (text, status) : String × Nat :=
              if fault = .notPermitted then (": Permission denied", 126) else (": not found", 127)
            let after : List Task :=
              [.emit 2 (complaint p (name ++ text.toList)), .setStreams p.streams,
                .setStatus status]
            let streams := streams ++ setAside p.streams
            s.setProc i { p with streams, tasks := after ++ rest }

/-- Runs a command. An output that is not known is collected first. -/
def runCommand (s : System) (i : Nat) (p : Proc) (command : Shell.Command) (rest : List Task) :
    System :=
  match Shell.firstOutput? command with
  | some script =>
    let pipe := s.pipes.length
    let s := { s with pipes := s.pipes ++ [[]] }
    let (pid, s) := s.fork
      { p with streams := setStream p.streams 1 (.pipeIn pipe), tasks := [.script script] }
    s.setProc i { p with tasks := .collect pipe pid [] command :: rest }
  | none =>
    match command with
    | .simple assignments words redirects =>
      s.runSimple i p assignments (words.flatMap (Shell.wordFields p.values)) redirects rest
    | .group body => s.setProc i { p with tasks := .script body :: rest }
    | .subshell body =>
      let (pid, s) := s.fork { p with tasks := [.script body] }
      s.setProc i { p with tasks := .await [pid] :: rest }

/-- Starts the commands of a pipeline, each with a process of its own. -/
def startAll (p : Proc) : Streams → System → List Shell.Command → List Nat × System
  | _, s, [] => ([], s)
  | streams, s, [last] =>
    let (pid, s) := s.fork { p with streams, tasks := [.command last] }
    ([pid], s)
  | streams, s, command :: more =>
    let pipe := s.pipes.length
    let s := { s with pipes := s.pipes ++ [[]] }
    let (pid, s) := s.fork
      { p with streams := setStream streams 1 (.pipeIn pipe), tasks := [.command command] }
    let (pids, s) := startAll p (setStream p.streams 0 (.pipeOut pipe)) s more
    (pid :: pids, s)

/-- Writes to a stream. A write that nobody reads kills the process. -/
def emit (s : System) (i : Nat) (p : Proc) (stream : Nat) (text : List Char) (rest : List Task) :
    Option System :=
  if text.isEmpty then some (s.setProc i { p with tasks := rest })
  else match streamOf p stream with
    | some (.pipeIn pipe) =>
      if !s.hasReader pipe then some (s.finish i p (.killed 13))
      else if pipeCapacity ≤ (s.contents pipe).length then none
      else
        let (left, s) := s.put pipe text
        some (s.setProc i { p with tasks := .emit stream left :: rest })
    | some .null | some .zeros => some (s.setProc i { p with tasks := rest })
    | _ => some (s.setProc i { p with tasks := .setStatus 1 :: rest })

def stepTool (s : System) (i : Nat) (p : Proc) (tool : Tool) (rest : List Task) : Option System :=
  let follow (s : System) : ToolStep → Option System
    | .writes stream text next =>
      some (s.setProc i { p with tasks := .emit stream text :: .toolNext next :: rest })
    | _ => none
  match tool.step s.now with
  | .reads max =>
    match s.readStream (streamOf p 0) max with
    | .nothingYet => none
    | .bytes text s => follow s (tool.absorb text)
  | .sleeps time =>
    if time ≤ s.now then some (s.setProc i { p with tasks := .toolNext (.error 0) :: rest })
    else match tool with
      | .sleeping _ => none
      | _ => some (s.setProc i { p with tasks := .tool (.sleeping time) :: rest })
  | step => follow s step

def stepProc (s : System) (i : Nat) (p : Proc) : Option System :=
  let status (n : Nat) : Shell.Values := { p.values with status := n }
  match p.tasks with
  | [] => some (s.finish i p (.exited p.values.status))
  | task :: rest =>
    match task with
    | .script [] => some (s.setProc i { p with tasks := rest })
    | .script (.mk first others false :: more) =>
      some (s.setProc i
        { p with tasks := .pipeline first :: .dependents others :: .script more :: rest })
    | .script (.mk first others true :: more) =>
      let (_, s) := s.fork
        { p with streams := setStream p.streams 0 .null, tasks := [.pipeline first, .dependents others] }
      some (s.setProc i { p with values := status 0, tasks := .script more :: rest })
    | .dependents [] => some (s.setProc i { p with tasks := rest })
    | .dependents ((onSuccess, commands) :: others) =>
      let more := Task.dependents others :: rest
      let runs := onSuccess = (p.values.status = 0)
      some (s.setProc i { p with tasks := if runs then .pipeline commands :: more else more })
    | .pipeline [command] => some (s.setProc i { p with tasks := .command command :: rest })
    | .pipeline commands =>
      let (pids, s) := startAll p p.streams s commands
      some (s.setProc i { p with tasks := .await pids :: rest })
    | .command command => some (s.runCommand i p command rest)
    | .await pids =>
      let endings := pids.map fun pid => (s.procs[pid]?).bind (·.ending)
      if endings.all Option.isSome then
        let last := (endings.getLast?.bind id).map (·.shellStatus)
        some (s.setProc i { p with values := status (last.getD 0), tasks := rest })
      else none
    | .collect pipe pid sofar command =>
      if !(s.contents pipe).isEmpty then
        let (text, s) := s.take pipe pipeCapacity
        some (s.setProc i { p with tasks := .collect pipe pid (sofar ++ text) command :: rest })
      else if s.hasWriter pipe then none
      else match (s.procs[pid]?).bind (·.ending) with
        | none => none
        | some ending =>
          let text := (sofar.reverse.dropWhile (· = '\n')).reverse
          some (s.setProc i { p with
            values := status ending.shellStatus
            tasks := .command (Shell.resolveOutput text command) :: rest })
    | .emit stream text => s.emit i p stream text rest
    | .setStatus n => some (s.setProc i { p with values := status n, tasks := rest })
    | .setStreams streams => some (s.setProc i { p with streams, tasks := rest })
    | .tool tool => s.stepTool i p tool rest
    | .toolNext (.ok tool) => some (s.setProc i { p with tasks := .tool tool :: rest })
    | .toolNext (.error n) => some (s.finish i p (.exited n))
    | .exit n => some (s.finish i p (.exited n))

/-- The first step that a process from a position on can take, with the position of the process. -/
def stepFrom (s : System) : Nat → List Proc → Option System
  | _, [] => none
  | i, p :: rest =>
    match (if p.ending.isSome then none else s.stepProc i p) with
    | some s => some s
    | none => stepFrom s (i + 1) rest

def step? (s : System) : Option System := s.stepFrom 0 s.procs

def wakeTime? (s : System) : Option Nat :=
  (s.procs.filterMap fun p => match p.ending, p.tasks with
    | none, .tool (.sleeping time) :: _ => some time
    | _, _ => none).min?

def workerEnding (s : System) : Option Ending := s.procs.head?.bind (·.ending)

def kill (s : System) : System :=
  match s.procs with
  | p :: _ => if p.ending.isNone then s.finish 0 p (.killed 9) else s
  | [] => s

end System

end WorkerLink.Sandbox
