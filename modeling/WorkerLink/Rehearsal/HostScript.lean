/-!
Scripts for the lock of a host: sections under the lock, steps out of it, and exceptions that pass
through them. A section takes the lock at its start and gives it back at its end, however it ends;
a step out of a guard gives the lock back for its duration and takes it again if it ends in order.

A script that takes the lock while it has it would wait for itself: such a run is stuck.
-/

namespace WorkerLink.Rehearsal

inductive HostStep
  | say (text : String)
  | serialized (inner : List HostStep)
  /-- Run in a section of a host without a lock. -/
  | unserialized (inner : List HostStep)
  | guarded (inner : List HostStep)
  /-- Run while the guard at hand lets go of the lock. -/
  | unlocked (inner : List HostStep)
  | panic
  | caught (inner : List HostStep)

/-- An entry of the log of a host script. -/
inductive HostNote
  | text (text : String)
  | count (n : Nat)
deriving DecidableEq, Repr

/-- How a part of a script ends. -/
inductive HostEnd
  | finished
  | raised
  | stuck
deriving DecidableEq, Repr

structure HostState where
  locked : Bool := false
  log : List HostNote := []

namespace HostState

def note (s : HostState) (n : HostNote) : HostState := { s with log := s.log ++ [n] }

/-- With the value of a section noted, which is the length of the log at its end. -/
def noteLength (s : HostState) : HostState := s.note (.count s.log.length)

/-- Gives the lock back at the end of a section, and notes the value of one that ended in order. -/
def leave (noted : Bool) : HostState × HostEnd → HostState × HostEnd
  | (s, .finished) =>
    let s := { s with locked := false }
    (if noted then s.noteLength else s, .finished)
  | (s, .raised) => ({ s with locked := false }, .raised)
  | (s, .stuck) => (s, .stuck)

/-- Takes the lock again after a step out of the guard. -/
def rejoin : HostState × HostEnd → HostState × HostEnd
  | (s, .finished) =>
    if s.locked then (s, .stuck) else ({ s with locked := true }.noteLength, .finished)
  | other => other

def guardText (s : HostState) : String := s!"HostGuard \x7b held: {s.locked} \x7d"

mutual

def step (guard : Bool) (s : HostState) : HostStep → HostState × HostEnd
  | .say text =>
    let s := s.note (.text text)
    (if guard then s.note (.text s.guardText) else s, .finished)
  | .serialized inner =>
    if s.locked then (s, .stuck)
    else leave true (steps false { s with locked := true } inner)
  | .unserialized inner =>
    match steps guard s inner with
    | (s, .finished) => (s.noteLength, .finished)
    | other => other
  | .guarded inner =>
    if s.locked then (s, .stuck)
    else leave false (steps true { s with locked := true } inner)
  | .unlocked inner => rejoin (steps false { s with locked := false } inner)
  | .panic => (s, .raised)
  | .caught inner =>
    match steps guard s inner with
    | (s, .raised) => (s.note (.text "panicked"), .finished)
    | other => other

def steps (guard : Bool) (s : HostState) : List HostStep → HostState × HostEnd
  | [] => (s, .finished)
  | first :: rest =>
    match step guard s first with
    | (s, .finished) => steps guard s rest
    | other => other

end

def logOf (script : List HostStep) : List HostNote := (steps false {} script).1.log

end HostState

end WorkerLink.Rehearsal
