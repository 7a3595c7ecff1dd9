import WorkerLink.Proofs.Child.Intake

/-!
# Reads after the cancel

A child whose reads are cancelled never counts as alive again, and none of its
reads waits any more. What is left of the last chunk is still handed out, because
a read looks there before it looks at the cancel; the queue is not touched.
-/

namespace WorkerLink

/-- Once reads are cancelled, the start of a read is the whole of it. -/
theorem Child.Begins.of_cancelled {c c' : Child} {max : Nat}
    {progress : Child.Progress Child.Receiving Child.Received}
    (h : c.Begins max c' progress) (cancelled : c.cancelled = true) :
    (∃ stderr, progress = .ends ⟨c.pending.take max, stderr⟩) ∧
      c'.pending = c.pending.drop max ∧ c'.queue = c.queue ∧ c'.cancelled = true := by
  cases h with
  | @givesNothing stderr hnothing =>
    rcases hnothing with rfl | ⟨hnone, _⟩
    · exact ⟨⟨stderr, rfl⟩, rfl, rfl, cancelled⟩
    · refine ⟨⟨stderr, ?_⟩, ?_, rfl, cancelled⟩
      · rw [hnone, List.take_nil]
      · rw [hnone, List.drop_nil]
  | givesRest _ => exact ⟨⟨_, rfl⟩, rfl, rfl, cancelled⟩
  | waits _ _ hwaits => cases cancelled.symm.trans hwaits

theorem Child.Concludes.cancelled_eq {c c' : Child} {exited timeUp : Bool} {r : Child.Receiving}
    {answer : Child.Received} (h : c.Concludes exited timeUp r c' answer) :
    c'.cancelled = c.cancelled := by
  cases h with
  | takesChunk _ | findsEnd _ _ | seesExit _ _ _ _ | givesUp _ _ _ _ => rfl

namespace Intake

theorem Moves.cancelled {j j' : Intake} (h : j.Moves j') (hj : j.child.cancelled = true) :
    j'.child.cancelled = true := by
  cases h with
  | delivers _ _ | endsOutput | exits | others => exact hj
  | cancels | closes => rfl
  | starts max _ =>
    obtain ⟨j', hafter, hstarts⟩ := exists_starts j max
    rw [hafter]
    cases hstarts with
    | ends hbegins | waits hbegins => exact (hbegins.of_cancelled hj).2.2.2
  | reads _ _ hs =>
    obtain ⟨child, answer, hconcludes, hafter⟩ := exists_concludes hs
    rw [hafter]
    exact hconcludes.cancelled_eq.trans hj

/-- `j.HandsOut j'`: from `j` to `j'`, reads have answered from the rest of the last chunk only. -/
def HandsOut (j j' : Intake) : Prop :=
  j'.waiting = none ∧ ∃ given, j.child.pending = given ++ j'.child.pending ∧
    j'.taken = j.taken ++ given

theorem HandsOut.same {j j' : Intake} (waiting : j'.waiting = none)
    (pending : j'.child.pending = j.child.pending) (taken : j'.taken = j.taken) :
    j.HandsOut j' :=
  ⟨waiting, [], pending.symm, by rw [taken, List.append_nil]⟩

theorem HandsOut.trans {j j' j'' : Intake} (h : j.HandsOut j') (h' : j'.HandsOut j'') :
    j.HandsOut j'' := by
  obtain ⟨_, given, hpending, htaken⟩ := h
  obtain ⟨hwaiting, more, hpending', htaken'⟩ := h'
  refine ⟨hwaiting, given ++ more, ?_, ?_⟩
  · rw [hpending, hpending', List.append_assoc]
  · rw [htaken', htaken, List.append_assoc]

theorem Moves.handsOut {j j' : Intake} (h : j.Moves j') (hj : j.child.cancelled = true)
    (waiting : j.waiting = none) : j.HandsOut j' := by
  cases h with
  | delivers _ _ | endsOutput | exits | cancels | closes | others => exact .same waiting rfl rfl
  | starts max _ =>
    obtain ⟨j', hafter, hstarts⟩ := exists_starts j max
    rw [hafter]
    cases hstarts with
    | ends hbegins => exact ⟨waiting, _, hbegins.flows.1.symm, rfl⟩
    | waits hbegins =>
      obtain ⟨⟨_, hends⟩, _⟩ := hbegins.of_cancelled hj
      cases hends
  | reads hr _ _ => cases waiting.symm.trans hr

theorem Reaches.cancelled {j j' : Intake} (h : j.Reaches j') (hj : j.child.cancelled = true) :
    j'.child.cancelled = true := by
  induction h with
  | refl => exact hj
  | next _ hm ih => exact hm.cancelled ih

theorem Reaches.handsOut {j j' : Intake} (h : j.Reaches j') (hj : j.child.cancelled = true)
    (waiting : j.waiting = none) : j.HandsOut j' := by
  induction h with
  | refl => exact .same waiting rfl rfl
  | next hr hm ih => exact ih.trans (hm.handsOut (hr.cancelled hj) ih.1)

/-- After reads were cancelled, or the child was closed, it never counts as alive again. Every read
that starts then ends at once, with what is left of the last chunk as far as it has room; so reads
give no data exactly when nothing is left. Unless a read was waiting for a chunk at the time, what
was left then is all that can still be answered. -/
theorem reads_after_cancel {j j' : Intake} {c : Child}
    (stopped : j.child = c.cancelReceive ∨ j.child = c.close) (later : j.Reaches j') :
    j'.child.isAlive = false ∧
    (∀ max, (∃ stderr, (j'.child.startReceive max).progress =
        .ends ⟨j'.child.pending.take max, stderr⟩) ∧
      (j'.child.startReceive max).child.pending = j'.child.pending.drop max ∧
      (j'.child.startReceive max).child.queue = j'.child.queue) ∧
    ((∀ max answer, (j'.child.startReceive max).progress = .ends answer → answer.bytes = []) ↔
      j'.child.pending = []) ∧
    (j.waiting = none → j.HandsOut j') := by
  have hcancelled : j.child.cancelled = true := by
    rcases stopped with h | h
    · rw [h]
      rfl
    · rw [h]
      rfl
  have hlater := later.cancelled hcancelled
  have hstart := fun max => (Child.begins_startReceive j'.child max).of_cancelled hlater
  refine ⟨?_, fun max => ⟨(hstart max).1, (hstart max).2.1, (hstart max).2.2.1⟩, ?_,
    later.handsOut hcancelled⟩
  · simp only [Child.isAlive, hlater, Bool.not_true, Bool.false_and]
  constructor
  · intro hnothing
    obtain ⟨⟨stderr, hends⟩, _⟩ := hstart j'.child.pending.length
    have hbytes := hnothing _ _ hends
    simpa only [List.take_length] using hbytes
  · intro hnone max answer hends
    obtain ⟨⟨stderr, hgiven⟩, _⟩ := hstart max
    rw [hends, hnone, List.take_nil] at hgiven
    cases hgiven
    rfl

def helloBegun : Intake where
  child := { pid := 7, pending := [101, 108, 108, 111] }
  delivered := [104, 101, 108, 108, 111]
  taken := [104]

theorem reachable_helloBegun : helloBegun.Reachable := by
  have start := Reachable.start 7 50 (64 * 1024)
  have delivers := start.next (@Moves.delivers _ [104, 101, 108, 108, 111] rfl
    (List.cons_ne_nil _ _))
  have waits := delivers.next (.starts 1 (.inr rfl))
  have takes := waits.next (@Moves.reads _ ⟨1, []⟩ false false _ rfl nofun rfl)
  exact takes

/-- The four bytes that are left are handed out after the cancel, and nothing after them. -/
theorem reads_after_cancel_of_hello :
    ∃ j : Intake, j.Reachable ∧ j.child.cancelled = true ∧
      (j.child.startReceive 8).progress = .ends ⟨[101, 108, 108, 111], []⟩ ∧
      ∀ j', j.Reaches j' → j'.child.isAlive = false ∧ j'.taken <+: [104, 101, 108, 108, 111] := by
  refine ⟨{ helloBegun with child := helloBegun.child.cancelReceive },
    reachable_helloBegun.next .cancels, rfl, rfl, fun j' later => ?_⟩
  obtain ⟨halive, _, _, hhands⟩ := reads_after_cancel (c := helloBegun.child) (.inl rfl) later
  obtain ⟨_, given, hpending, htaken⟩ := hhands rfl
  refine ⟨halive, ?_⟩
  rw [htaken]
  exact ⟨j'.child.pending, congrArg ([104] ++ ·) hpending.symm⟩

/-- A read after the cancel gives data. -/
theorem read_after_cancel_gives_data :
    ¬ ∀ j : Intake, j.Reachable → ∀ max answer,
      (j.child.cancelReceive.startReceive max).progress = .ends answer → answer.bytes = [] := by
  intro hnothing
  cases hnothing helloBegun reachable_helloBegun 8 ⟨[101, 108, 108, 111], []⟩ rfl

end Intake

end WorkerLink
