import WorkerLink.Codec
import WorkerLink.Connection.Basic
import WorkerLink.Connection.DispatchError
import WorkerLink.Reader

/-!
The calls of a connection, step by step. A call stands at a stage; it goes on when its wait for the
handle ends, or when a collaborator (the handle, or the receiver of events) has answered. Between
two stages of one call anything may happen to the connection, so each step looks at it afresh.

`Call.step` says what one stage does with one input. It is undefined where the input is not what the
stage waits for.
-/

namespace WorkerLink

/-- What the receiver of a dispatch is told. -/
inductive Event (α : Type)
  | message (value : α)
  /-- A frame came that could not be decoded. -/
  | decodeFailed (error : DecodeError)
  /-- The stream is over: the last event. -/
  | endOfStream

def Event.isEndOfStream {α : Type} : Event α → Bool
  | .endOfStream => true
  | _ => false

/-- How the receiver of events relates to the host of a dispatch. -/
inductive Host
  /-- Events are delivered as they come. -/
  | unserialized
  /-- Events are delivered under the lock of the host. -/
  | locked
deriving DecidableEq, Repr

/-- What can be asked of a connection. -/
inductive Operation (α : Type)
  /-- Send a payload, if there is one. -/
  | send (payload : Except EncodeError Bytes)
  /-- Cancel the sends, and the read if the handle can be had. -/
  | shutdown
  /-- Deliver the worker's frames until they end, then close the handle. -/
  | dispatch (codec : Codec α) (host : Host)

def Operation.message {α β : Type} (codec : Codec β) (value : β) : Operation α :=
  .send (codec.encode value)

inductive Outcome
  | sent (result : Except SendError Unit)
  | shutDown
  | dispatched (result : Except DispatchError Summary)

inductive Stage (α : Type)
  /-- It has set the running flag and looks for the handle. -/
  | claiming
  /-- It has found the handle and looks whether the connection is done. -/
  | confirming
  /-- It takes back the running flag. -/
  | refusing
  /-- Before a frame: is the connection done? -/
  | looping
  /-- Before a frame: is the handle alive? -/
  | probing
  /-- The handle reads. -/
  | receiving (scan : Scan)
  /-- After an empty read: is the handle alive? -/
  | retrying (scan : Scan)
  | decoding (frame : Frame)
  /-- Reading is over. -/
  | concluding
  /-- An event waits for the host. -/
  | entering (event : Event α)
  /-- The receiver has the event. -/
  | notifying (event : Event α)
  /-- It waits for the handle, to close it. -/
  | awaitingClose
  /-- The handle closes. -/
  | closing
  /-- The handle has closed. -/
  | retiring
  /-- The handle is gone from its place but still held. -/
  | releasing
  /-- It takes back the running flag and ends. -/
  | clearing

structure Dispatch (α : Type) where
  codec : Codec α
  host : Host
  /-- Output past the last frame. -/
  buffered : Bytes := []
  messages : Nat := 0
  decodeErrors : Nat := 0
  stopReason : StopReason := .done
  stage : Stage α := .claiming

inductive Call (α : Type)
  /-- A send waits for the handle. -/
  | awaitingSend (payload : Bytes)
  /-- A send has the handle and puts its frame together. -/
  | framing (payload : Bytes)
  /-- The handle sends a frame. -/
  | sending (framed : Bytes)
  /-- A shutdown waits for the handle. -/
  | awaitingCancel
  /-- The handle cancels its read. -/
  | cancelling
  | dispatch (run : Dispatch α)

inductive Input
  /-- Nothing stands in the way. -/
  | proceed
  /-- The wait for the handle has lasted long enough. -/
  | timeUp
  /-- The handle has sent so many bytes, or failed. -/
  | wrote (result : Except Fault Nat)
  /-- The handle has read. -/
  | read (stderr : Bytes) (result : Except Fault Bytes)
  /-- The handle is alive, or not. -/
  | alive (answer : Bool)
  /-- The handle or the receiver has done what it was asked for. -/
  | returned
  /-- The handle or the receiver has raised an exception. -/
  | raised

/-- What a call asks of the handle. -/
inductive Request
  | send (framed : Bytes)
  | receive
  | isAlive
  | cancel
  | close

inductive Next (α : Type)
  | goesOn (call : Call α)
  | ends (outcome : Outcome)
  /-- The exception goes on to the caller. -/
  | unwinds

/-- What a step does: to the connection, to the call, and to the log. -/
structure Step (α : Type) where
  connection : Connection
  next : Next α
  records : List Log.Record := []

namespace Connection

/-- The part of the program that the records of a connection name. -/
def logTarget : String := "rpcpipe::connection"

def record (c : Connection) (level : Log.Level) (message : String)
    (fields : List (String × Log.FieldValue) := []) : Log.Record :=
  ⟨level, logTarget, message, ("pid", .number c.pid) :: fields⟩

end Connection

namespace Call

variable {α : Type}

/-- How long the call waits for the handle before it does without it, if it waits. -/
def wait? (tuning : Tuning) : Call α → Option Nat
  | .awaitingSend _ => some tuning.sendWait
  | .awaitingCancel => some tuning.shutdownWait
  | .dispatch run => match run.stage with
    | .awaitingClose => some tuning.closeWait
    | _ => none
  | _ => none

/-- What the call asks of the handle at its stage. -/
def request? : Call α → Option Request
  | .sending framed => some (.send framed)
  | .cancelling => some .cancel
  | .dispatch run => match run.stage with
    | .probing | .retrying _ => some .isAlive
    | .receiving _ => some .receive
    | .closing => some .close
    | _ => none
  | _ => none

def event? : Call α → Option (Event α)
  | .dispatch run => match run.stage with
    | .notifying event => some event
    | _ => none
  | _ => none

def holdsHandle : Call α → Bool
  | .framing _ | .sending _ | .cancelling => true
  | .dispatch run => match run.stage with
    | .closing | .retiring | .releasing => true
    | _ => false
  | _ => false

/-- A collaborator is at work. It may use the connection itself. -/
def isOutside (call : Call α) : Bool := call.request?.isSome || call.event?.isSome

/-- The call is inside the section of its host that surrounds a delivery. -/
def isInsideHost (call : Call α) : Bool := call.event?.isSome

def claimSend (c : Connection) (payload : Bytes) : Step α :=
  match c.claim with
  | .ok c => ⟨c, .goesOn (.framing payload), []⟩
  | .error reason =>
    ⟨c, .ends (.sent (.error (.unavailable reason))),
      [c.record .debug "send unavailable" [("reason", .text reason.message)]]⟩

/-- A send puts its frame together, or ends where there is no memory for the frame. -/
def frameSend [Memory] (c : Connection) (payload : Bytes) : Step α :=
  let framed := Frame.encode payload
  if Memory.reserves framed.length then ⟨c, .goesOn (.sending framed), []⟩
  else ⟨c.release, .ends (.sent (.error (.allocation payload.length))), []⟩

/-- What a send makes of the answer of the handle. -/
def settleSend (c : Connection) (framed : Bytes) (result : Except Fault Nat) : Step α :=
  let expected := framed.length
  match result with
  | .error fault => ⟨c.release, .ends (.sent (.error (.io fault))), []⟩
  | .ok written =>
    if written < expected then
      ⟨c.release, .ends (.sent (.error (.shortWrite written expected))),
        [c.record .warn "short write to worker"
          [("written", .number written), ("expected", .number expected)]]⟩
    else
      ⟨c.release, .ends (.sent (.ok ())),
        [c.record .debug "frame sent" [("bytes", .number expected)]]⟩

/-- The wait of a shutdown for the handle is over. -/
def claimCancel (c : Connection) : Step α :=
  match c.claim with
  | .ok c => ⟨c, .goesOn .cancelling, []⟩
  | .error .closed => ⟨c, .ends .shutDown, [c.record .debug "shutdown after close"]⟩
  | .error .timedOut =>
    ⟨c, .ends .shutDown, [c.record .warn "handle busy; receive cancel skipped"]⟩

end Call

namespace Dispatch

variable {α : Type}

/-- The part of the program that the records of a dispatch name. -/
def logTarget : String := "rpcpipe::dispatch"

def goesTo (run : Dispatch α) (c : Connection) (stage : Stage α)
    (records : List Log.Record := []) : Step α :=
  ⟨c, .goesOn (.dispatch { run with stage }), records⟩

/-- The running flag is taken back and the dispatch ends. -/
def ends (c : Connection) (result : Except DispatchError Summary)
    (records : List Log.Record := []) : Step α :=
  ⟨{ c with dispatching := false }, .ends (.dispatched result), records⟩

def terminate (run : Dispatch α) (c : Connection) (error : FrameError) : Step α :=
  let (level, message) : Log.Level × String :=
    if error.isFatal then (.warn, "frame stream aborted")
    else (.debug, "frame stream terminated")
  { run with stopReason := .terminated error }.goesTo c.markDone .concluding
    [⟨level, logTarget, message, [("error", .text error.message)]⟩]

/-- Takes over what an advance of the scan has brought. -/
def absorb (run : Dispatch α) (c : Connection) (a : Advance) : Step α :=
  let c := c.diagnose a.stray
  let step : Step α := match a.pull with
    | .more scan buffered => { run with buffered }.goesTo c (.receiving scan)
    | .done (.ok frame) buffered => { run with buffered }.goesTo c (.decoding frame)
    | .done (.error error) buffered => { run with buffered }.terminate c error
  { step with records := Reader.records a ++ step.records }

def decode (run : Dispatch α) (c : Connection) (frame : Frame) : Step α :=
  match run.codec.decode frame.payload with
  | .ok value =>
    { run with messages := run.messages + 1 }.goesTo c (.entering (.message value))
  | .error error =>
    { run with decodeErrors := run.decodeErrors + 1 }.goesTo c (.entering (.decodeFailed error))
      [⟨.warn, logTarget, "failed to decode frame payload",
        [("content_length", .number frame.contentLength), ("error", .text error.message)]⟩]

/-- The wait for the handle before its close is over. -/
def claimClose (run : Dispatch α) (c : Connection) : Step α :=
  match c.claim with
  | .ok c => run.goesTo c .closing
  | .error .closed => run.goesTo c .clearing
  | .error .timedOut =>
    run.goesTo c .clearing [c.record .warn "handle lock timed out; abandoning handle"]

def result (run : Dispatch α) : Except DispatchError Summary :=
  match run.stopReason with
  | .terminated (.allocation requested) => .error (.outOfMemory requested)
  | stopReason => .ok ⟨run.messages, run.decodeErrors, stopReason⟩

def finished (run : Dispatch α) : Log.Record :=
  ⟨.debug, logTarget, "dispatch loop finished",
    [("messages", .number run.messages), ("decode_errors", .number run.decodeErrors)]⟩

def step [Memory] (run : Dispatch α) (c : Connection) (input : Input) : Option (Step α) :=
  match run.stage, input with
  | .claiming, .proceed => some (run.goesTo c (if c.slot.present then .confirming else .refusing))
  | .confirming, .proceed =>
    if c.done then some (run.goesTo c .refusing)
    else some (run.goesTo c .looping
      [⟨.debug, logTarget, "dispatch loop started", [("pid", .number c.currentPid)]⟩])
  | .refusing, .proceed => some (ends c (.error .closed))
  | .looping, .proceed =>
    if c.done then some ({ run with stopReason := .done }.goesTo c .concluding)
    else some (run.goesTo c .probing)
  | .probing, .alive answer =>
    if !answer && run.buffered.isEmpty then
      some ({ run with stopReason := .handleInactive }.goesTo c .concluding)
    else some (run.absorb c (Scan.header.advance run.buffered))
  | .receiving scan, .read stderr result =>
    let c := c.diagnose stderr
    match result with
    | .error fault => some (run.terminate c (.io fault))
    | .ok [] => some (run.goesTo c (.retrying scan))
    | .ok bytes => some (run.absorb c (scan.advance (run.buffered ++ bytes)))
  | .retrying scan, .alive answer =>
    if answer then some (run.goesTo c (.receiving scan))
    else some (run.absorb c (scan.ended run.buffered))
  | .decoding frame, .proceed => some (run.decode c frame)
  | .concluding, .proceed => some (run.goesTo c.markDone (.entering .endOfStream))
  | .entering event, .proceed => some (run.goesTo c (.notifying event))
  | .notifying event, .returned =>
    some (run.goesTo c (if event.isEndOfStream then .awaitingClose else .looping))
  | .awaitingClose, .proceed =>
    if c.slot.mustWait then none else some (run.claimClose c)
  | .awaitingClose, .timeUp => some (run.claimClose c)
  | .closing, .returned => some (run.goesTo c .retiring)
  | .retiring, .proceed =>
    some (run.goesTo c.retire .releasing [c.record .debug "handle closed"])
  | .releasing, .proceed => some (run.goesTo c.release .clearing)
  | .clearing, .proceed => some (ends c run.result [run.finished])
  | .closing, .raised => some ⟨c.release, .unwinds, []⟩
  | .probing, .raised | .receiving _, .raised | .retrying _, .raised | .notifying _, .raised =>
    some ⟨c, .unwinds, []⟩
  | _, _ => none

end Dispatch

namespace Call

variable {α : Type}

/-- The start of an operation. A shutdown cancels the sends before it waits for the handle; a
dispatch finds out whether another one runs. -/
def start (c : Connection) : Operation α → Step α
  | .send (.error error) => ⟨c, .ends (.sent (.error (.encode error))), []⟩
  | .send (.ok payload) => ⟨c, .goesOn (.awaitingSend payload), []⟩
  | .shutdown => ⟨{ c with cancelSend := true }, .goesOn .awaitingCancel, []⟩
  | .dispatch codec host =>
    if c.dispatching then ⟨c, .ends (.dispatched (.error .alreadyRunning)), []⟩
    else ⟨{ c with dispatching := true }, .goesOn (.dispatch { codec, host }), []⟩

def step [Memory] (c : Connection) (call : Call α) (input : Input) : Option (Step α) :=
  match call, input with
  | .awaitingSend payload, .proceed =>
    if c.slot.mustWait then none else some (claimSend c payload)
  | .awaitingSend payload, .timeUp => some (claimSend c payload)
  | .framing payload, .proceed => some (frameSend c payload)
  | .sending framed, .wrote result => some (settleSend c framed result)
  | .awaitingCancel, .proceed => if c.slot.mustWait then none else some (claimCancel c)
  | .awaitingCancel, .timeUp => some (claimCancel c)
  | .cancelling, .returned =>
    some ⟨c.release, .ends .shutDown, [c.record .debug "receive cancelled"]⟩
  | .sending _, .raised | .cancelling, .raised => some ⟨c.release, .unwinds, []⟩
  | .dispatch run, input => run.step c input
  | _, _ => none

end Call

end WorkerLink
