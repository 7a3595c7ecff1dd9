import WorkerLink.Reader

/-!
Scripts for a rehearsal: what a stand-in worker does at each read, send, cancel and close, and what
the people around it do with the connection. A cue may run actions on the connection from inside a
handle call, and an action may dispatch with actions of its own, to any depth.
-/

namespace WorkerLink.Rehearsal

/-- How a dispatch of a rehearsal decodes payloads. -/
inductive Language
  | anyValue
  | ping
  | settings
deriving DecidableEq, Repr

/-- Where a dispatch of a rehearsal runs its callbacks. -/
inductive Venue
  | direct
  | locked
  /-- On a thread of its own, under a host lock. -/
  | apart
deriving DecidableEq, Repr

/-- What is done with a connection. -/
inductive Action
  | send (payload : Bytes)
  | sendMessage (json : Bytes)
  | sendPairs (pairs : List (Bytes × Nat))
  | shutdown
  | status
  | stderr
  | stderrText
  | describe
  | sleep (ms : Nat)
  /-- A dispatch, with actions for some of its events: by position, and for the end of stream. -/
  | dispatch (language : Language) (venue : Venue) (on : List (Nat × List Action))
      (atEnd : Option (List Action))
  /-- One action here, while another thread sleeps and then runs its own. -/
  | during (ms : Nat) (main : Action) (other : List Action)
  | panic
  | caught (main : Action)

/-- One cue of a stand-in worker. -/
inductive Cue
  | out (bytes : Bytes)
  | err (bytes : Bytes)
  | quiet (reads : Nat)
  | fail (fault : Fault)
  | act (actions : List Action)
  | die
  | cancel
  | awaitSent (count : Nat)
  | hold
  | echo
  | panic

/-- How a stand-in worker answers one send. -/
structure SendPlan where
  accept : Option Nat := none
  fail : Option Fault := none
  actions : List Action := []
  claimExtra : Nat := 0
  panic : Bool := false

structure Worker where
  pid : Nat := 4242
  cues : List Cue := []
  sends : List SendPlan := []
  onCancel : List (List Action) := []
  onClose : List (List Action) := []
  /-- Output of an earlier cue that did not fit the read. -/
  leftover : Bytes := []
  sent : Bytes := []
  sendCalls : Nat := 0
  closeCalls : Nat := 0
  cancelCalls : Nat := 0
  cancelled : Bool := false
  dead : Bool := false
  /-- Polls spent on the waiting cue at the front. -/
  polls : Nat := 0

namespace Worker

def patience : Nat := 600

def isAlive (w : Worker) : Bool :=
  !w.cancelled && !w.dead && (!w.cues.isEmpty || !w.leftover.isEmpty)

inductive RecvStep
  /-- The call is over, after sleeping for some milliseconds. -/
  | answer (result : Except Fault Bytes) (stderr : Bytes) (sleep : Nat) (worker : Worker)
  /-- Actions come first; then the call goes on. -/
  | perform (actions : List Action) (stderr : Bytes) (worker : Worker)
  | raise (worker : Worker)

/-- Hands over up to `max` of the bytes at hand and keeps the rest. -/
def deliver (w : Worker) (max : Nat) (bytes stderr : Bytes) : RecvStep :=
  .answer (.ok (bytes.take max)) stderr 0 { w with leftover := bytes.drop max }

/-- An empty read of a waiting cue, which stays in front. -/
def poll (w : Worker) (stderr : Bytes) : RecvStep :=
  if w.polls + 1 < patience then .answer (.ok []) stderr 1 { w with polls := w.polls + 1 }
  else .answer (.ok []) stderr 1 { w with dead := true }

/-- Goes through the cues until one ends the call. -/
def recvCues (w : Worker) (max : Nat) (stderr : Bytes) : List Cue → RecvStep
  | [] => .answer (.ok []) stderr 0 { w with cues := [] }
  | cue :: rest =>
    if w.cancelled || w.dead then .answer (.ok []) stderr 0 { w with cues := cue :: rest }
    else
      let stay := { w with cues := cue :: rest }
      let past := { w with cues := rest, polls := 0 }
      match cue with
      | .out bytes => deliver past max bytes stderr
      | .err bytes => recvCues { w with polls := 0 } max (stderr ++ bytes) rest
      | .quiet reads =>
        if reads < 2 then .answer (.ok []) stderr 0 past
        else .answer (.ok []) stderr 0 { w with cues := .quiet (reads - 1) :: rest }
      | .fail fault => .answer (.error fault) stderr 0 past
      | .act actions => .perform actions stderr past
      | .die => .answer (.ok []) stderr 0 { past with dead := true }
      | .cancel => recvCues { w with cancelled := true, polls := 0 } max stderr rest
      | .awaitSent count =>
        if count ≤ w.sent.length then recvCues { w with polls := 0 } max stderr rest
        else stay.poll stderr
      | .hold => stay.poll stderr
      | .echo => deliver past max w.sent stderr
      | .panic => .raise past

/-- A read of up to `max` bytes, or what is left of one after its actions. -/
def recv (w : Worker) (max : Nat) (stderr : Bytes) : RecvStep :=
  if w.cancelled || w.dead then .answer (.ok []) stderr 0 w
  else if w.leftover ≠ [] then w.deliver max w.leftover stderr
  else w.recvCues max stderr w.cues

/-- Most bytes that a frame reader asks for at once. -/
def readSize : Nat := 4096

/-- The reads of a worker that nobody else touches, while it is alive, up to a number of them. -/
def reads (w : Worker) : Nat → List Read
  | 0 => []
  | fuel + 1 =>
    match attempt w [] (w.cues.length + 1) with
    | none => []
    | some (result, stderr, w') =>
      let read : Read := ⟨stderr, result, w'.isAlive⟩
      if w'.isAlive then read :: reads w' fuel else [read]
where
  attempt (w : Worker) (stderr : Bytes) : Nat → Option (Except Fault Bytes × Bytes × Worker)
    | 0 => none
    | fuel + 1 =>
      match w.recv readSize stderr with
      | .answer result stderr _ w' => some (result, stderr, w')
      | .perform _ stderr w' => attempt w' stderr fuel
      | .raise _ => none

def cueBound : Cue → Nat
  | .out bytes => bytes.length + 1
  | .quiet reads => reads + 1
  | .awaitSent _ | .hold => patience + 1
  | _ => 1

/-- A bound on the reads that the cues, and what is left over, can give before the worker is gone. -/
def readBound (w : Worker) : Nat :=
  w.cues.foldl (fun n cue => n + cueBound cue) (w.leftover.length + 1)

/-- Reads of a worker followed by the empty reads of a worker that is gone. -/
def readsPadded (w : Worker) (padding : Nat) : List Read :=
  w.reads w.readBound ++ List.replicate padding ⟨[], .ok [], false⟩

end Worker

/-- Calls `nextFrame` so many times and keeps what each call left. -/
def readFrames [Memory] (r : Reader) (reads : List Read) :
    Nat → List (Except FrameError Frame × Reader)
  | 0 => []
  | calls + 1 =>
    match r.nextFrame reads with
    | none => []
    | some (result, r', reads') => (result, r') :: readFrames r' reads' calls

end WorkerLink.Rehearsal
