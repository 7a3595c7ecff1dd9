import WorkerLink.Proofs.Child.Receiving

/-!
# The output that a parent takes in

An intake is a child together with the read that waits on it. The pump delivers
chunks and comes to its end, the worker exits, reads of any size start and end,
and reads are cancelled, in any order. One read waits at a time; a read without
room does not wait for another one.

Nothing that was delivered is lost: it has been answered by a read, or is left of
the last chunk, or is queued. The output counts as ended only after a read that
had nothing left to give.
-/

namespace WorkerLink

/-- A child, and what has come of its output. -/
structure Intake where
  child : Child
  /-- The read that waits for a chunk. -/
  waiting : Option Child.Receiving := none
  /-- The worker has exited. -/
  exited : Bool := false
  /-- The output that the pump has delivered. -/
  delivered : Bytes := []
  /-- The output that reads have answered. -/
  taken : Bytes := []

namespace Intake

/-- After the start or a step of a read, with the read that waits if this one has ended. -/
def after (j : Intake) (waiting : Option Child.Receiving) (s : Child.ReceiveStep) : Intake :=
  match s.progress with
  | .goesOn r => { j with child := s.child, waiting := some r }
  | .ends answer => { j with child := s.child, waiting, taken := j.taken ++ answer.bytes }

/-- One move of the pump, the worker or the parent. -/
inductive Moves (j : Intake) : Intake → Prop
  | delivers {chunk : Bytes} : j.child.pumping = true → chunk ≠ [] →
      Moves j { j with child := j.child.deliver chunk, delivered := j.delivered ++ chunk }
  | endsOutput : Moves j { j with child := j.child.endOutput }
  | exits : Moves j { j with exited := true }
  | starts (max : Nat) : max = 0 ∨ j.waiting = none →
      Moves j (j.after j.waiting (j.child.startReceive max))
  /-- A read that waits goes on. It sees an exit only after the worker has exited. -/
  | reads {r : Child.Receiving} {exited timeUp : Bool} {s : Child.ReceiveStep} :
      j.waiting = some r → (exited = true → j.exited = true) →
      j.child.receiveStep exited timeUp r = some s → Moves j (j.after none s)
  | cancels : Moves j { j with child := j.child.cancelReceive }
  | closes : Moves j { j with child := j.child.close }
  /-- Something happens to the input or to the error stream. -/
  | others {writer : Option Writer} {stderrQueue : List Bytes} :
      Moves j { j with child := { j.child with writer, stderrQueue } }

/-- What can come about over a fresh child. -/
inductive Reachable : Intake → Prop
  | start (pid pollInterval chunkSize : Nat) :
      Reachable { child := { pid, pollInterval, chunkSize } }
  | next {j j' : Intake} : Reachable j → Moves j j' → Reachable j'

inductive Reaches (j : Intake) : Intake → Prop
  | refl : Reaches j j
  | next {j' j'' : Intake} : Reaches j j' → Moves j' j'' → Reaches j j''

theorem Reaches.reachable {j j' : Intake} (h : j.Reaches j') (hj : j.Reachable) :
    j'.Reachable := by
  induction h with
  | refl => exact hj
  | next _ hm ih => exact ih.next hm

theorem Reaches.trans {j j' j'' : Intake} (h : j.Reaches j') (h' : j'.Reaches j'') :
    j.Reaches j'' := by
  induction h' with
  | refl => exact h
  | next _ hm ih => exact ih.next hm

theorem after_of_ends {j : Intake} {waiting : Option Child.Receiving} {s : Child.ReceiveStep}
    {answer : Child.Received} (h : s.progress = .ends answer) :
    j.after waiting s = { j with child := s.child, waiting, taken := j.taken ++ answer.bytes } := by
  simp only [after, h]

theorem after_of_goesOn {j : Intake} {waiting : Option Child.Receiving} {s : Child.ReceiveStep}
    {r : Child.Receiving} (h : s.progress = .goesOn r) :
    j.after waiting s = { j with child := s.child, waiting := some r } := by
  simp only [after, h]

/-- How the start of a read changes the intake. -/
inductive Starts (j : Intake) (max : Nat) : Intake → Prop
  | ends {child : Child} {answer : Child.Received} :
      j.child.Begins max child (.ends answer) →
      Starts j max { j with child, taken := j.taken ++ answer.bytes }
  | waits {child : Child} {r : Child.Receiving} : j.child.Begins max child (.goesOn r) →
      Starts j max { j with child, waiting := some r }

theorem exists_starts (j : Intake) (max : Nat) :
    ∃ j', j.after j.waiting (j.child.startReceive max) = j' ∧ j.Starts max j' := by
  have hbegins := Child.begins_startReceive j.child max
  cases hp : (j.child.startReceive max).progress with
  | goesOn r =>
    rw [hp] at hbegins
    exact ⟨_, after_of_goesOn hp, .waits hbegins⟩
  | ends answer =>
    rw [hp] at hbegins
    exact ⟨_, after_of_ends hp, .ends hbegins⟩

/-- The step of a read that waits ends it. -/
theorem exists_concludes {j : Intake} {r : Child.Receiving} {exited timeUp : Bool}
    {s : Child.ReceiveStep} (h : j.child.receiveStep exited timeUp r = some s) :
    ∃ child answer, j.child.Concludes exited timeUp r child answer ∧
      j.after none s =
        { j with child, waiting := none, taken := j.taken ++ answer.bytes } := by
  obtain ⟨answer, hends, hconcludes⟩ := Child.concludes_of_receiveStep h
  exact ⟨s.child, answer, hconcludes, after_of_ends hends⟩

/-- Every byte that was delivered has been answered, is left of the last chunk, or is queued. -/
def Conserves (j : Intake) : Prop :=
  j.taken ++ j.child.pending ++ j.child.queue.flatten = j.delivered

theorem Moves.conserves {j j' : Intake} (h : j.Moves j') (hj : j.Conserves) : j'.Conserves := by
  cases h with
  | delivers _ _ =>
    simp only [Conserves] at hj
    simp only [Conserves, Child.deliver, ← hj, List.flatten_append, List.flatten_cons,
      List.flatten_nil, List.append_nil, List.append_assoc]
  | endsOutput | exits | cancels | closes | others => exact hj
  | starts max _ =>
    obtain ⟨j', hafter, hstarts⟩ := exists_starts j max
    rw [hafter]
    cases hstarts with
    | ends hbegins =>
      obtain ⟨hbytes, hqueue, _⟩ := hbegins.flows
      simp only [Conserves] at hj
      simp only [Conserves, hqueue, List.append_assoc, ← hj, ← hbytes]
    | waits hbegins =>
      cases hbegins with
      | waits _ _ _ => exact hj
  | reads _ _ hs =>
    obtain ⟨child, answer, hconcludes, hafter⟩ := exists_concludes hs
    have hflows := hconcludes.flows
    simp only [Conserves] at hj
    rw [hafter]
    simp only [Conserves]
    rw [← hj, List.append_assoc, List.append_assoc, List.append_assoc, ← hflows,
      List.append_assoc]

/-- A read that waits has room, and nothing is left of the last chunk. -/
def Waits (j : Intake) : Prop :=
  ∀ r, j.waiting = some r → 0 < r.max ∧ j.child.pending = []

theorem Moves.waits {j j' : Intake} (h : j.Moves j') (hj : j.Waits) : j'.Waits := by
  cases h with
  | delivers _ _ | endsOutput | exits | cancels | closes | others => exact hj
  | starts max hfree =>
    obtain ⟨j', hafter, hstarts⟩ := exists_starts j max
    rw [hafter]
    cases hstarts with
    | ends hbegins =>
      intro r hr
      obtain ⟨hroom, hnone⟩ := hj r hr
      refine ⟨hroom, ?_⟩
      have hbytes := hbegins.flows.1
      rw [hnone] at hbytes
      exact (List.append_eq_nil_iff.1 hbytes).2
    | waits hbegins =>
      cases hbegins with
      | waits hroom hnone _ =>
        rintro r ⟨⟩
        exact ⟨hroom, hnone⟩
  | reads _ _ hs =>
    obtain ⟨child, answer, _, hafter⟩ := exists_concludes hs
    rw [hafter]
    nofun

/-- A read has waited in vain for a whole interval, and seen that the worker has exited. -/
inductive SeesExit (j : Intake) : Intake → Prop
  | intro {r : Child.Receiving} {s : Child.ReceiveStep} : j.waiting = some r → j.exited = true →
      j.child.queue = [] → j.child.pumping = true → j.child.receiveStep true true r = some s →
      SeesExit j (j.after none s)

/-- An earlier read has seen that the worker has exited. -/
def ExitWasSeen (j : Intake) : Prop :=
  ∃ j₁ j₂ : Intake, j₁.Reachable ∧ j₁.Moves j₂ ∧ j₁.SeesExit j₂ ∧ j₂.Reaches j

theorem ExitWasSeen.moves {j j' : Intake} (h : j.ExitWasSeen) (hm : j.Moves j') :
    j'.ExitWasSeen := by
  obtain ⟨j₁, j₂, hreachable, hmoves, hsees, hreaches⟩ := h
  exact ⟨j₁, j₂, hreachable, hmoves, hsees, hreaches.next hm⟩

/-- The exit is noted only by a read that has seen it. -/
theorem Moves.exitSeen {j j' : Intake} (h : j.Moves j') (hseen : j'.child.exitSeen = true) :
    j.child.exitSeen = true ∨ j.SeesExit j' := by
  cases h with
  | delivers _ _ | endsOutput | exits | cancels | closes | others => exact .inl hseen
  | starts max _ =>
    obtain ⟨j', hafter, hstarts⟩ := exists_starts j max
    rw [hafter] at hseen
    cases hstarts with
    | ends hbegins | waits hbegins => exact .inl (hbegins.flags.2.symm.trans hseen)
  | @reads r exited timeUp s hr hexited hs =>
    obtain ⟨child, answer, hconcludes, hafter⟩ := exists_concludes hs
    rw [hafter] at hseen
    cases hconcludes with
    | takesChunk _ | findsEnd _ _ | givesUp _ _ _ _ => exact .inl hseen
    | seesExit hqueue hpump htime _ =>
      refine .inr ?_
      cases hseen
      cases htime
      exact .intro hr (hexited rfl) hqueue hpump hs

/-- How the output can come to an end. -/
inductive EndsOutput (j : Intake) : Intake → Prop
  /-- A read has found the queue empty and the pump gone. -/
  | found {r : Child.Receiving} {exited timeUp : Bool} {s : Child.ReceiveStep} :
      j.waiting = some r → j.child.pending = [] → j.child.queue = [] → j.child.pumping = false →
      j.child.receiveStep exited timeUp r = some s → EndsOutput j (j.after none s)
  /-- A read has waited in vain for a whole interval, after an earlier one that has seen the exit. -/
  | givenUp {r : Child.Receiving} {exited : Bool} {s : Child.ReceiveStep} :
      j.waiting = some r → j.child.pending = [] → j.child.queue = [] → j.child.pumping = true →
      j.ExitWasSeen → j.child.receiveStep exited true r = some s → EndsOutput j (j.after none s)

structure Sound (j : Intake) : Prop where
  conserves : j.Conserves
  waits : j.Waits
  exitSeen : j.child.exitSeen = true → j.ExitWasSeen

theorem Reachable.sound {j : Intake} (h : j.Reachable) : j.Sound := by
  induction h with
  | start pid pollInterval chunkSize =>
    refine ⟨rfl, ?_, ?_⟩
    · intro r hr
      cases hr
    · intro hseen
      cases hseen
  | next hj hm ih =>
    refine ⟨hm.conserves ih.conserves, hm.waits ih.waits, fun hseen => ?_⟩
    rcases hm.exitSeen hseen with hbefore | hsees
    · exact (ih.exitSeen hbefore).moves hm
    · exact ⟨_, _, hj, hm, hsees, .refl⟩

/-- Only a read that waits can find the end of the output. -/
theorem Moves.endsStream {j j' : Intake} (h : j.Moves j') (hj : j.Sound)
    (hopen : j.child.stdoutOpen = true) (hclosed : j'.child.stdoutOpen = false) :
    j.EndsOutput j' := by
  cases h with
  | delivers _ _ | endsOutput | exits | cancels | closes | others =>
    cases hopen.symm.trans hclosed
  | starts max _ =>
    obtain ⟨j', hafter, hstarts⟩ := exists_starts j max
    rw [hafter] at hclosed
    cases hstarts with
    | ends hbegins | waits hbegins =>
      cases hopen.symm.trans (hbegins.flags.1.symm.trans hclosed)
  | reads hr _ hs =>
    have hnone := (hj.waits _ hr).2
    obtain ⟨child, answer, hconcludes, hafter⟩ := exists_concludes hs
    rw [hafter] at hclosed
    cases hconcludes with
    | takesChunk _ | seesExit _ _ _ _ => cases hopen.symm.trans hclosed
    | findsEnd hqueue hpump => exact .found hr hnone hqueue hpump hs
    | givesUp hqueue hpump htime hseen =>
      subst htime
      exact .givenUp hr hnone hqueue hpump (hj.exitSeen hseen) hs

/-- Nothing is left to read and nothing more comes. -/
def Exhausted (j : Intake) : Prop :=
  j.child.pumping = false ∧ j.child.pending = [] ∧ j.child.queue = []

theorem Exhausted.taken {j : Intake} (h : j.Exhausted) (hj : j.Conserves) :
    j.taken = j.delivered := by
  obtain ⟨_, hpending, hqueue⟩ := h
  simpa only [Conserves, hpending, hqueue, List.flatten_nil, List.append_nil] using hj

theorem Moves.exhausted {j j' : Intake} (h : j.Moves j') (hj : j.Exhausted) :
    j'.Exhausted ∧ j'.delivered = j.delivered := by
  obtain ⟨hpump, hpending, hqueue⟩ := hj
  cases h with
  | delivers hpumping _ => cases hpump.symm.trans hpumping
  | endsOutput => exact ⟨⟨rfl, hpending, hqueue⟩, rfl⟩
  | exits | cancels | closes | others => exact ⟨⟨hpump, hpending, hqueue⟩, rfl⟩
  | starts max _ =>
    obtain ⟨j', hafter, hstarts⟩ := exists_starts j max
    rw [hafter]
    cases hstarts with
    | ends hbegins =>
      cases hbegins with
      | givesNothing _ => exact ⟨⟨hpump, hpending, hqueue⟩, rfl⟩
      | givesRest hrest => exact absurd hpending hrest
    | waits hbegins =>
      cases hbegins with
      | waits _ _ _ => exact ⟨⟨hpump, hpending, hqueue⟩, rfl⟩
  | reads _ _ hs =>
    obtain ⟨child, answer, hconcludes, hafter⟩ := exists_concludes hs
    rw [hafter]
    have hdrop : ∀ n, j.child.pending.drop n = [] := fun n => by rw [hpending, List.drop_nil]
    cases hconcludes with
    | takesChunk hchunk => cases hqueue.symm.trans hchunk
    | findsEnd _ _ | seesExit _ _ _ _ | givesUp _ _ _ _ => exact ⟨⟨hpump, hdrop _, hqueue⟩, rfl⟩

theorem Reaches.exhausted {j j' : Intake} (h : j.Reaches j') (hj : j.Exhausted) :
    j'.Exhausted ∧ j'.delivered = j.delivered := by
  induction h with
  | refl => exact ⟨hj, rfl⟩
  | next _ hm ih =>
    obtain ⟨hexhausted, hsame⟩ := hm.exhausted ih.1
    exact ⟨hexhausted, hsame.trans ih.2⟩

/-- While the child stays usable, its output is open until a read finds the end. -/
theorem Moves.exhausted_of_alive {j j' : Intake} (h : j.Moves j') (hj : j.Sound)
    (alive : j.child.isAlive = true) (gone : j'.child.isAlive = false)
    (kept : j'.child.cancelled = false) (pump : j.child.pumping = false) : j.Exhausted := by
  have hopen : j.child.stdoutOpen = true := by
    simp only [Child.isAlive, Bool.and_eq_true] at alive
    exact alive.2
  have hclosed : j'.child.stdoutOpen = false := by
    simpa only [Child.isAlive, kept, Bool.not_false, Bool.true_and] using gone
  cases h.endsStream hj hopen hclosed with
  | found _ hpending hqueue hpump _ => exact ⟨hpump, hpending, hqueue⟩
  | givenUp _ _ _ hpumping _ _ => cases pump.symm.trans hpumping

/-- Of what was delivered nothing is lost, in its order. A read answers no more than it has room
for, takes nothing without room, and can always come to its end. The output ends only in a read that
had nothing left to give, with the pump gone or after an interval in vain that follows the one that
saw the worker's exit. If the pump was gone and nobody has cancelled, then all that was delivered
had been answered while the child still counted as alive. -/
theorem reads_lose_nothing {j : Intake} (reachable : j.Reachable) :
    j.taken ++ j.child.pending ++ j.child.queue.flatten = j.delivered ∧
    (∀ max answer, (j.child.startReceive max).progress = .ends answer →
      answer.bytes.length ≤ max) ∧
    (∀ max r, (j.child.startReceive max).progress = .goesOn r → r.max = max) ∧
    ((j.child.startReceive 0).child.pending = j.child.pending ∧
      (j.child.startReceive 0).child.queue = j.child.queue ∧
      ∃ stderr, (j.child.startReceive 0).progress = .ends ⟨[], stderr⟩) ∧
    (∀ r exited, j.waiting = some r →
      (j.child.receiveStep exited true r).isSome = true ∧
      ∀ timeUp s, j.child.receiveStep exited timeUp r = some s →
        ∃ answer, s.progress = .ends answer ∧ answer.bytes.length ≤ r.max) ∧
    (∀ j', j.Moves j' → j.child.stdoutOpen = true → j'.child.stdoutOpen = false →
      j.EndsOutput j') ∧
    ∀ j', j.Moves j' → j.child.isAlive = true → j'.child.isAlive = false →
      j'.child.cancelled = false → j.child.pumping = false →
      j.taken = j.delivered ∧
        ∀ j'', j'.Reaches j'' → j''.taken = j''.delivered ∧ j''.delivered = j.delivered := by
  have hsound := reachable.sound
  refine ⟨hsound.conserves, ?_, ?_, ?_, ?_, ?_, ?_⟩
  · intro max answer hends
    have hbegins := Child.begins_startReceive j.child max
    rw [hends] at hbegins
    exact hbegins.flows.2.2
  · intro max r hgoes
    have hbegins := Child.begins_startReceive j.child max
    rw [hgoes] at hbegins
    exact hbegins.max_eq
  · exact ⟨rfl, rfl, _, rfl⟩
  · intro r exited hr
    refine ⟨Child.receiveStep_isSome_of_timeUp _ _ _, fun timeUp s hs => ?_⟩
    obtain ⟨answer, hends, hconcludes⟩ := Child.concludes_of_receiveStep hs
    exact ⟨answer, hends, hconcludes.length_le⟩
  · exact fun j' hm hopen hclosed => hm.endsStream hsound hopen hclosed
  · intro j' hm alive gone kept pump
    have hexhausted := hm.exhausted_of_alive hsound alive gone kept pump
    refine ⟨hexhausted.taken hsound.conserves, fun j'' hreaches => ?_⟩
    obtain ⟨hlater, hsame⟩ := ((Reaches.refl.next hm).trans hreaches).exhausted hexhausted
    have hconserves := (hreaches.reachable (reachable.next hm)).sound.conserves
    exact ⟨hlater.taken hconserves, hsame⟩

/-- A chunk of three bytes in two reads, and a third read that finds the end. -/
theorem reads_lose_nothing_of_a_chunk : ∃ j j' : Intake, j.Reachable ∧ j.Moves j' ∧
    j.child.isAlive = true ∧ j'.child.isAlive = false ∧ j.delivered = [1, 2, 3] ∧
    j.taken = j.delivered ∧ ∀ j'', j'.Reaches j'' → j''.taken = j''.delivered := by
  obtain ⟨j, j', hj, hm, alive, gone, kept, pump, hdelivered⟩ : ∃ j j' : Intake, j.Reachable ∧
      j.Moves j' ∧ j.child.isAlive = true ∧ j'.child.isAlive = false ∧
      j'.child.cancelled = false ∧ j.child.pumping = false ∧ j.delivered = [1, 2, 3] := by
    have start := Reachable.start 7 50 8
    have delivers := start.next (@Moves.delivers _ [1, 2, 3] rfl (List.cons_ne_nil _ _))
    have waits := delivers.next (.starts 2 (.inr rfl))
    have takes := waits.next (@Moves.reads _ ⟨2, []⟩ false false _ rfl nofun rfl)
    have rest := takes.next (.starts 2 (.inr rfl))
    have ends := rest.next .endsOutput
    have again := ends.next (.starts 2 (.inr rfl))
    exact ⟨_, _, again, @Moves.reads _ ⟨2, []⟩ false false _ rfl nofun rfl, rfl, rfl, rfl, rfl, rfl⟩
  obtain ⟨htaken, hlater⟩ := (reads_lose_nothing hj).2.2.2.2.2.2 j' hm alive gone kept pump
  exact ⟨j, j', hj, hm, alive, gone, hdelivered, htaken, fun j'' h => (hlater j'' h).1⟩

end Intake

end WorkerLink
