import WorkerLink.Child.Receive

/-!
# One read from the worker, step by step

What the start of a read and its one step do, as relations with a constructor
for each way they can go. A read takes from the rest of the last chunk, or from
the next chunk, and from nothing else.
-/

namespace WorkerLink.Child

/-- `Begins c max c' progress`: the start of a read of up to `max` bytes takes the child from `c` to
`c'`. -/
inductive Begins (c : Child) (max : Nat) : Child → Progress Receiving Received → Prop
  /-- There is no room, or nothing may be waited for. -/
  | givesNothing {stderr : Bytes} : max = 0 ∨ c.pending = [] ∧ c.cancelled = true →
      Begins c max { c with stderrQueue := [] } (.ends ⟨[], stderr⟩)
  | givesRest {stderr : Bytes} : c.pending ≠ [] →
      Begins c max { c with stderrQueue := [], pending := c.pending.drop max }
        (.ends ⟨c.pending.take max, stderr⟩)
  | waits {stderr : Bytes} : 0 < max → c.pending = [] → c.cancelled = false →
      Begins c max { c with stderrQueue := [] } (.goesOn ⟨max, stderr⟩)

theorem begins_startReceive (c : Child) (max : Nat) :
    Begins c max (c.startReceive max).child (c.startReceive max).progress := by
  unfold startReceive
  dsimp only
  split
  · next hmax => exact .givesNothing (.inl hmax)
  · next hmax =>
    split
    · next hrest => exact .givesRest hrest
    · next hrest =>
      have hpending : c.pending = [] := Decidable.not_not.1 hrest
      split
      · next hcancelled => exact .givesNothing (.inr ⟨hpending, hcancelled⟩)
      · next hcancelled =>
        exact .waits (Nat.pos_of_ne_zero hmax) hpending (Bool.of_not_eq_true hcancelled)

/-- The start of a read finds out nothing about the end of the output. -/
theorem Begins.flags {c c' : Child} {max : Nat} {progress : Progress Receiving Received}
    (h : Begins c max c' progress) :
    c'.stdoutOpen = c.stdoutOpen ∧ c'.exitSeen = c.exitSeen := by
  cases h with
  | givesNothing _ | givesRest _ | waits _ _ _ => exact ⟨rfl, rfl⟩

theorem Begins.max_eq {c c' : Child} {max : Nat} {r : Receiving}
    (h : Begins c max c' (.goesOn r)) : r.max = max := by
  cases h with
  | waits _ _ _ => rfl

/-- `Concludes c exited timeUp r c' answer`: the step that ends a waiting read takes the child from
`c` to `c'`. -/
inductive Concludes (c : Child) (exited timeUp : Bool) (r : Receiving) :
    Child → Received → Prop
  | takesChunk {chunk stderr : Bytes} {queue : List Bytes} : c.queue = chunk :: queue →
      Concludes c exited timeUp r
        { c with queue, pending := (c.pending ++ chunk).drop r.max, stderrQueue := [] }
        ⟨(c.pending ++ chunk).take r.max, stderr⟩
  | findsEnd {stderr : Bytes} : c.queue = [] → c.pumping = false →
      Concludes c exited timeUp r
        { c with stdoutOpen := false, pending := c.pending.drop r.max, stderrQueue := [] }
        ⟨c.pending.take r.max, stderr⟩
  | seesExit {stderr : Bytes} : c.queue = [] → c.pumping = true → timeUp = true →
      c.exitSeen = false →
      Concludes c exited timeUp r
        { c with exitSeen := exited, pending := c.pending.drop r.max, stderrQueue := [] }
        ⟨c.pending.take r.max, stderr⟩
  | givesUp {stderr : Bytes} : c.queue = [] → c.pumping = true → timeUp = true →
      c.exitSeen = true →
      Concludes c exited timeUp r
        { c with stdoutOpen := false, pending := c.pending.drop r.max, stderrQueue := [] }
        ⟨c.pending.take r.max, stderr⟩

theorem concludes_of_receiveStep {c : Child} {exited timeUp : Bool} {r : Receiving}
    {s : ReceiveStep} (h : c.receiveStep exited timeUp r = some s) :
    ∃ answer, s.progress = .ends answer ∧ Concludes c exited timeUp r s.child answer := by
  simp only [receiveStep, drainStderr, handOver] at h
  split at h
  · next chunk queue hqueue =>
    cases h
    exact ⟨_, rfl, .takesChunk hqueue⟩
  · next hqueue =>
    split at h
    · next hpump =>
      cases h
      exact ⟨_, rfl, .findsEnd hqueue (by simpa using hpump)⟩
    · next hpump =>
      have hpumping : c.pumping = true := by simpa using hpump
      split at h
      · next htime =>
        cases h
        simp only [noteQuiet]
        by_cases hseen : c.exitSeen = true
        · rw [if_pos hseen]
          exact ⟨_, rfl, .givesUp hqueue hpumping htime hseen⟩
        · rw [if_neg hseen]
          exact ⟨_, rfl, .seesExit hqueue hpumping htime (by simpa using hseen)⟩
      · cases h

/-- A read that waits ends when its time is up, at the latest. -/
theorem receiveStep_isSome_of_timeUp (c : Child) (exited : Bool) (r : Receiving) :
    (c.receiveStep exited true r).isSome = true := by
  simp only [receiveStep]
  split
  · rfl
  · split
    · rfl
    · rfl

theorem Concludes.length_le {c c' : Child} {exited timeUp : Bool} {r : Receiving}
    {answer : Received} (h : Concludes c exited timeUp r c' answer) :
    answer.bytes.length ≤ r.max := by
  cases h with
  | takesChunk _ | findsEnd _ _ | seesExit _ _ _ _ | givesUp _ _ _ _ => exact List.length_take_le _ _

/-- Of the output, a read takes what it answers and nothing else. -/
theorem Concludes.flows {c c' : Child} {exited timeUp : Bool} {r : Receiving} {answer : Received}
    (h : Concludes c exited timeUp r c' answer) :
    answer.bytes ++ c'.pending ++ c'.queue.flatten = c.pending ++ c.queue.flatten := by
  cases h with
  | takesChunk hqueue =>
    simp only [List.take_append_drop, hqueue, List.flatten_cons, List.append_assoc]
  | findsEnd _ _ | seesExit _ _ _ _ | givesUp _ _ _ _ => simp only [List.take_append_drop]

/-- What the start of a read answers was left of the last chunk. -/
theorem Begins.flows {c c' : Child} {max : Nat} {answer : Received}
    (h : Begins c max c' (.ends answer)) :
    answer.bytes ++ c'.pending = c.pending ∧ c'.queue = c.queue ∧ answer.bytes.length ≤ max := by
  cases h with
  | givesNothing _ => exact ⟨rfl, rfl, Nat.zero_le _⟩
  | givesRest _ => exact ⟨List.take_append_drop _ _, rfl, List.length_take_le _ _⟩

end WorkerLink.Child
