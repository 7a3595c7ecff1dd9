/-!
The place where a connection keeps its handle. One caller at a time may use the handle; the others
wait. The place is emptied once, when the handle is closed.
-/

namespace WorkerLink

/-- Why the handle could not be had. -/
inductive Unavailable
  /-- Someone else used it for longer than the wait. -/
  | timedOut
  /-- It has been closed. -/
  | closed
deriving DecidableEq, Repr

def Unavailable.message : Unavailable → String
  | .timedOut => "handle lock timed out"
  | .closed => "connection is closed"

/-- Whether the handle is there, and whether someone uses it. -/
structure Slot where
  present : Bool := true
  busy : Bool := false
deriving DecidableEq, Repr

namespace Slot

def mustWait (s : Slot) : Bool := s.busy && s.present

/-- The end of a wait, for whatever reason it ends: the handle if it is there and free. -/
def claim (s : Slot) : Except Unavailable Slot :=
  if !s.present then .error .closed
  else if s.busy then .error .timedOut
  else .ok { s with busy := true }

/-- The caller who uses the handle lets go of it. -/
def release (s : Slot) : Slot := { s with busy := false }

def retire (s : Slot) : Slot := { s with present := false }

theorem claim_eq_ok {s t : Slot} :
    s.claim = .ok t ↔ s.present = true ∧ s.busy = false ∧ t = { s with busy := true } := by
  cases s with
  | mk present busy => cases present <;> cases busy <;> simp [claim, eq_comm]

theorem claim_eq_closed {s : Slot} : s.claim = .error .closed ↔ s.present = false := by
  cases s with
  | mk present busy => cases present <;> cases busy <;> simp [claim]

theorem claim_eq_timedOut {s : Slot} :
    s.claim = .error .timedOut ↔ s.present = true ∧ s.busy = true := by
  cases s with
  | mk present busy => cases present <;> cases busy <;> simp [claim]

end Slot

end WorkerLink
