import WorkerLink.Connection.Call
import WorkerLink.Rehearsal.Script

/-!
Players of the handle in a rehearsal. A player takes a request and answers it in turns: it may let
actions go first, wait for a time, answer, or raise an exception. Time is counted in milliseconds.

The scripted player goes by the cues of a `Worker`.
-/

namespace WorkerLink.Rehearsal

/-- The requests of a handle during which actions run. -/
inductive Place
  | recv
  | send
  | cancelRecv
  | close
deriving DecidableEq, Repr

/-- One turn of a request that a player `P` has in hand, with the state `H` of the handle. -/
inductive Turn (H P : Type)
  | answers (input : Input) (pause : Nat) (handle : H) (records : List Log.Record := [])
  | yields (actions : List Action) (handle : H) (pending : P)
  /-- The request has come one step further. -/
  | proceeds (handle : H) (pending : P) (records : List Log.Record := [])
  /-- Nothing happens before something changes, or a time has come. -/
  | waits (until? : Option Nat)
  | raises (handle : H)

structure Player (H P : Type) where
  accept : H → Nat → Request → P
  /-- Goes on with a request at a time, where the sends are cancelled or not. -/
  turn : H → Nat → Bool → P → Turn H P
  /-- What has become of the handle at a time. -/
  advance : H → Nat → H
  /-- The next time at which something happens by itself. -/
  next? : H → Option Nat
  /-- Where actions run that come before the answer. -/
  place : P → Place
  /-- What is recorded when nobody needs the handle any more. -/
  farewell : H → List Log.Record := fun _ => []

/-- A request in the hands of a scripted worker. -/
inductive Pending
  | recv (stderr : Bytes)
  | isAlive
  | send (framed : Bytes)
  | accepting (plan : SendPlan) (framed : Bytes)
  | cancel
  | close
  /-- The actions of a cancel or a close are over. -/
  | returning (place : Place)

namespace Worker

def accept : Request → Pending
  | .send framed => .send framed
  | .receive => .recv []
  | .isAlive => .isAlive
  | .cancel => .cancel
  | .close => .close

/-- What a send takes once its actions are over. -/
def settle (w : Worker) (cancelled : Bool) (plan : SendPlan) (framed : Bytes) :
    Turn Worker Pending :=
  if plan.panic then .raises w
  else match plan.fail with
    | some fault => .answers (.wrote (.error fault)) 0 w
    | none =>
      if cancelled then .answers (.wrote (.ok 0)) 0 w
      else
        let taken := framed.take (plan.accept.getD framed.length)
        .answers (.wrote (.ok (taken.length + plan.claimExtra))) 0
          { w with sent := w.sent ++ taken }

def turn (w : Worker) (cancelled : Bool) : Pending → Turn Worker Pending
  | .recv stderr =>
    match w.recv readSize stderr with
    | .answer result stderr pause w => .answers (.read stderr result) pause w
    | .perform actions stderr w => .yields actions w (.recv stderr)
    | .raise w => .raises w
  | .isAlive => .answers (.alive w.isAlive) 0 w
  | .send framed =>
    let plan := w.sends.head?.getD {}
    .yields plan.actions { w with sendCalls := w.sendCalls + 1, sends := w.sends.tail }
      (.accepting plan framed)
  | .accepting plan framed => w.settle cancelled plan framed
  | .cancel =>
    .yields (w.onCancel.head?.getD [])
      { w with cancelCalls := w.cancelCalls + 1, cancelled := true, onCancel := w.onCancel.tail }
      (.returning .cancelRecv)
  | .close =>
    .yields (w.onClose.head?.getD [])
      { w with closeCalls := w.closeCalls + 1, cancelled := true, onClose := w.onClose.tail }
      (.returning .close)
  | .returning _ => .answers .returned 0 w

def place : Pending → Place
  | .recv _ | .isAlive => .recv
  | .send _ | .accepting _ _ => .send
  | .cancel => .cancelRecv
  | .close => .close
  | .returning place => place

/-- The player who goes by the cues. Nothing happens to a scripted worker by itself. -/
def player : Player Worker Pending where
  accept _ _ request := accept request
  turn w _ cancelled pending := w.turn cancelled pending
  advance w _ := w
  next? _ := none
  place := place

end Worker

end WorkerLink.Rehearsal
