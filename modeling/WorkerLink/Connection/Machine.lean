import WorkerLink.Connection.Call

/-!
A connection shared by threads. Each thread has a stack of calls: while a collaborator of its newest
call is at work, the collaborator may start another call on the same thread. A move names a thread
and starts a call or goes on with the newest one; any order of moves is a possible run.

The lock of the host belongs to at most one thread. A dispatch under it takes it for each delivery
and for nothing else.
-/

namespace WorkerLink

/-- A connection and the calls of its threads. -/
structure Machine (α : Type) where
  connection : Connection
  /-- The calls under way of each thread, newest first. -/
  callStacks : List (List (Call α)) := [[]]
  /-- The thread that holds the lock of the host. -/
  hostHolder : Option Nat := none

inductive Move (α : Type)
  | start (operation : Operation α)
  | goOn (input : Input)

/-- What a move shows: how the newest call stands, and what was recorded. -/
structure Effect (α : Type) where
  next : Next α
  records : List Log.Record

namespace Machine

variable {α : Type}

def stack (m : Machine α) (thread : Nat) : List (Call α) := (m.callStacks[thread]?).getD []

def spawn (m : Machine α) : Machine α := { m with callStacks := m.callStacks ++ [[]] }

/-- A thread may start a call: it has none, or a collaborator of its newest one is at work. -/
def mayStart (m : Machine α) (thread : Nat) : Bool :=
  thread < m.callStacks.length &&
    match m.stack thread with
    | [] => true
    | call :: _ => call.isOutside

/-- The call uses the lock of the host for its deliveries. -/
def isLocked : Call α → Bool
  | .dispatch run => run.host = .locked
  | _ => false

/-- A call in front of others, as a step leaves it. -/
def push (next : Next α) (below : List (Call α)) : List (Call α) :=
  match next with
  | .goesOn call => call :: below
  | .ends _ | .unwinds => below

/-- The call is inside a section under the lock of the host. -/
def holdsHost (call : Call α) : Bool := isLocked call && call.isInsideHost

/-- The state after a step of the newest call of a thread. -/
def settle (m : Machine α) (thread : Nat) (below : List (Call α)) (hostHolder : Option Nat)
    (s : Step α) : Machine α × Effect α :=
  ({ connection := s.connection, callStacks := m.callStacks.set thread (push s.next below), hostHolder },
    ⟨s.next, s.records⟩)

/-- The holder of the host's lock after a step, or `none` if the step has to wait for it. -/
def hostAfter (m : Machine α) (thread : Nat) (call : Call α) (s : Step α) :
    Option (Option Nat) :=
  let entered := match s.next with
    | .goesOn call => holdsHost call
    | _ => false
  if holdsHost call then some none
  else if entered then
    if m.hostHolder.isNone then some (some thread) else none
  else some m.hostHolder

def next [Memory] (m : Machine α) (thread : Nat) : Move α → Option (Machine α × Effect α)
  | .start operation =>
    if m.mayStart thread then
      some (m.settle thread (m.stack thread) m.hostHolder (Call.start m.connection operation))
    else none
  | .goOn input =>
    match m.stack thread with
    | [] => none
    | call :: below =>
      match call.step m.connection input with
      | none => none
      | some s => (m.hostAfter thread call s).map fun holder => m.settle thread below holder s

end Machine

end WorkerLink
