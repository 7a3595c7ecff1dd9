import WorkerLink.Child.Send

/-!
# One send through the writer, step by step

What a step of a send does, as a relation with a constructor for each way it can
go. Chunks are never empty, and together they are the bytes to be sent.
-/

namespace WorkerLink.Child

theorem chunks_flatten (size : Nat) (bytes : Bytes) : (chunks size bytes).flatten = bytes := by
  induction bytes using chunks.induct size with
  | case1 => rw [chunks, if_pos rfl, List.flatten_nil]
  | case2 bytes hne ih =>
    rw [chunks, if_neg hne, List.flatten_cons, ih, List.take_append_drop]

theorem ne_nil_of_mem_chunks {size : Nat} {bytes chunk : Bytes} (h : chunk ∈ chunks size bytes) :
    chunk ≠ [] := by
  induction bytes using chunks.induct size with
  | case1 =>
    rw [chunks, if_pos rfl] at h
    cases h
  | case2 bytes hne ih =>
    rw [chunks, if_neg hne] at h
    rcases List.mem_cons.mp h with rfl | hrest
    · intro hnil
      have hlen := congrArg List.length hnil
      have hpos := List.length_pos_iff.mpr hne
      rw [List.length_take, List.length_nil] at hlen
      omega
    · exact ih hrest

/-- `Steps c cancel stage c' progress`: a step of a send takes the child from `c` to `c'`. -/
inductive Steps (c : Child) (cancel : Bool) :
    Sending → Child → Progress Sending (Except Fault Nat) → Prop
  | lacksWriter {stage : Sending} : c.writer = none →
      Steps c cancel stage c (.ends (.error inputClosed))
  | finishes {w : Writer} {written : Nat} : c.writer = some w →
      Steps c cancel (.next [] written) c (.ends (.ok written))
  | breaksOff {w : Writer} {chunk : Bytes} {rest : List Bytes} {written : Nat} :
      c.writer = some w → cancel = true →
      Steps c cancel (.next (chunk :: rest) written) c (.ends (.ok written))
  | looks {w : Writer} {chunk : Bytes} {rest : List Bytes} {written : Nat} :
      c.writer = some w → cancel = false →
      Steps c cancel (.next (chunk :: rest) written) c (.goesOn (.handing chunk rest written))
  | hands {w : Writer} {chunk : Bytes} {rest : List Bytes} {written : Nat} :
      c.writer = some w → Steps c cancel (.handing chunk rest written)
        { c with writer := some { w with queued := w.queued ++ [chunk] } }
        (.goesOn (.awaiting rest written))
  | counts {w : Writer} {rest : List Bytes} {written n : Nat} {acks : List (Except Fault Nat)} :
      c.writer = some w → w.acks = .ok n :: acks →
      Steps c cancel (.awaiting rest written) { c with writer := some { w with acks } }
        (.goesOn (.next rest (written + n)))
  | lapses {w : Writer} {rest : List Bytes} {written : Nat} : c.writer = some w → w.acks = [] →
      Steps c cancel (.awaiting rest written) c (.goesOn (.lapsed rest written))
  | resumes {rest : List Bytes} {written : Nat} : cancel = false →
      Steps c cancel (.lapsed rest written) c (.goesOn (.awaiting rest written))
  | abandons {rest : List Bytes} {written : Nat} : cancel = true →
      Steps c cancel (.lapsed rest written) { c with writer := none } (.ends (.ok written))
  | givesUp {stage : Sending} {fault : Fault} :
      Steps c cancel stage { c with writer := none } (.ends (.error fault))

theorem steps_of_sendStep {c : Child} {cancel timeUp : Bool} {stage : Sending} {s : SendStep}
    (h : c.sendStep cancel timeUp stage = some s) : Steps c cancel stage s.child s.progress := by
  cases stage with
  | next chunks written =>
    unfold sendStep at h
    cases hw : c.writer with
    | none =>
      simp only [hw] at h
      cases h
      exact .lacksWriter hw
    | some w =>
      cases chunks with
      | nil =>
        simp only [hw] at h
        cases h
        exact .finishes hw
      | cons chunk rest =>
        simp only [hw] at h
        by_cases hc : cancel = true
        · rw [if_pos hc] at h
          cases h
          exact .breaksOff hw hc
        · rw [if_neg hc] at h
          cases h
          exact .looks hw (by simpa using hc)
  | handing chunk rest written =>
    unfold sendStep at h
    cases hw : c.writer with
    | none =>
      simp only [hw] at h
      cases h
      exact .lacksWriter hw
    | some w =>
      simp only [hw] at h
      split at h
      · cases h
        exact .givesUp
      · cases h
        exact .hands hw
  | awaiting rest written =>
    unfold sendStep at h
    cases hw : c.writer with
    | none =>
      simp only [hw] at h
      cases h
      exact .lacksWriter hw
    | some w =>
      simp only [hw] at h
      split at h
      · next n acks ha =>
        cases h
        exact .counts hw ha
      · cases h
        exact .givesUp
      · next ha =>
        split at h
        · cases h
          exact .givesUp
        · split at h
          · cases h
            exact .lapses hw ha
          · cases h
  | lapsed rest written =>
    simp only [sendStep] at h
    split at h
    · next hc =>
      cases h
      exact .abandons hc
    · next hc =>
      cases h
      exact .resumes (by simpa using hc)

end WorkerLink.Child
