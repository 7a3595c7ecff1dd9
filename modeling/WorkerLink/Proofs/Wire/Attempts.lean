import WorkerLink.Proofs.Wire.WholeOutput

/-!
# Calls that have come back

A call of a reader that comes back has seen some bytes: those carried over and
those of the reads that it used. Whatever the reads were and however long the
header values, these bytes say what the call came to (`nextFrame_seen`): a frame
that can be read off them, the error that they end in, or else the fault of the
last read. Nothing is said of calls for which the reads do not suffice.

`Attempts` is one call after another, each behind a frame.
-/

namespace WorkerLink

deriving instance DecidableEq for Read

/-- A read that has not failed goes on with the output, or the output is over. -/
theorem Read.steady_or_last {read : Read} (ok : ∀ fault, read.result ≠ .error fault) :
    read.Steady ∨ read.Last := by
  cases hresult : read.result with
  | error fault => exact False.elim (ok fault hresult)
  | ok bytes =>
    have houtput : read.output = bytes := by simp only [output, hresult]
    by_cases hlast : bytes = [] ∧ read.alive = false
    · obtain ⟨rfl, hdead⟩ := hlast
      exact .inr ⟨hresult, hdead⟩
    · refine .inl ⟨by rw [hresult, houtput], fun hempty => ?_⟩
      rw [houtput] at hempty
      simpa [hempty] using hlast

/-- One mixture behind another. -/
theorem Mixes.append {β : Type} {a b c a' b' c' : List β} (h : Mixes a b c) (k : Mixes a' b' c') :
    Mixes (a ++ a') (b ++ b') (c ++ c') := by
  induction h with
  | nil => exact k
  | first _ ih => exact .first ih
  | second _ ih => exact .second ih

namespace RecentBytes

/-- What was noted first and what was noted then. -/
theorem Noted.trans {d d' d'' : RecentBytes} {stderr stderr' stray stray' : Bytes}
    (h : Noted d d' stderr stray) (k : Noted d' d'' stderr' stray') :
    Noted d d'' (stderr ++ stderr') (stray ++ stray') := by
  obtain ⟨pieces, rfl, hmixes⟩ := h
  obtain ⟨pieces', rfl, hmixes'⟩ := k
  refine ⟨pieces ++ pieces', by simp only [appendAll, List.foldl_append], ?_⟩
  rw [List.flatten_append]
  exact hmixes.append hmixes'

end RecentBytes

namespace Wire

open RecentBytes (Noted)

/-- What a call comes to that has seen the bytes `seen`, what it leaves buffered, and the bytes that
it has put aside. -/
inductive Ends [Memory] (seen : Bytes) : Except FrameError Frame → Bytes → Bytes → Prop
  | frame {frame : Frame} {left : Bytes} : read seen = .ok (frame, left) →
      Ends seen (.ok frame) left (beforeMarker seen)
  | error {error : FrameError} {left : Bytes} : read seen = .error error →
      Ends seen (.error error) left (beforeMarker seen)
  | fails {fault : Fault} {left : Bytes} : Ends seen (.error (.io fault)) left (stray seen)

section Calls

variable [Memory] {scan : Scan} {r r' : Reader} {seen stderr : Bytes} {reads rest : List Read}
  {d : RecentBytes} {result : Except FrameError Frame}

/-- A call has come back with the reads `rest` left. It had seen `seen` before the others, the error
stream had given `stderr`, and the diagnostics were `d` before the call. -/
def Settles (d : RecentBytes) (stderr seen : Bytes) (reads : List Read)
    (result : Except FrameError Frame) (r' : Reader) (rest : List Read) : Prop :=
  ∃ used noise, reads = used ++ rest ∧
    Ends (seen ++ used.flatMap Read.output) result r'.buffered noise ∧
    Noted d r'.diagnostics (stderr ++ used.flatMap Read.stderr) noise

theorem Settles.cons {read : Read}
    (h : Settles d (stderr ++ read.stderr) (seen ++ read.output) reads result r' rest) :
    Settles d stderr seen (read :: reads) result r' rest := by
  obtain ⟨used, noise, hsplit, hends, hnoted⟩ := h
  refine ⟨read :: used, noise, by rw [hsplit, List.cons_append], ?_, ?_⟩
  · rw [List.flatMap_cons, ← List.append_assoc]
    exact hends
  · rw [List.flatMap_cons, ← List.append_assoc]
    exact hnoted

/-- A call that needs no further read. -/
theorem settles_at_once {noise : Bytes} (ends : Ends seen result r'.buffered noise)
    (noted : Noted d r'.diagnostics stderr noise) : Settles d stderr seen rest result r' rest := by
  refine ⟨[], noise, rfl, ?_, ?_⟩
  · rw [List.flatMap_nil, List.append_nil]
    exact ends
  · rw [List.flatMap_nil, List.append_nil]
    exact noted

/-- An advance gives a result. -/
theorem Waiting.settles_of_done {bytes buffered kept : Bytes}
    (w : Waiting scan buffered seen) (noted : Noted d r.diagnostics stderr (stray seen))
    (pull : (scan.advance (buffered ++ bytes)).pull = .done result kept) :
    Settles d stderr (seen ++ bytes) rest result
      (r.absorb (scan.advance (buffered ++ bytes))) rest := by
  have hnoted := noted.append_stray (scan.advance (buffered ++ bytes)).stray
  have hagrees := w.advance bytes
  have hstray : stray (seen ++ bytes) = beforeMarker (seen ++ bytes) := by
    simpa only [List.append_nil] using hagrees.stray_eq pull []
  have hkept : (r.absorb (scan.advance (buffered ++ bytes))).buffered = kept := by
    simp only [Reader.absorb, pull]
  rw [← w.stray_append, hstray] at hnoted
  rw [pull] at hagrees
  refine settles_at_once ?_ hnoted
  rw [hkept]
  cases result with
  | ok frame => exact .frame hagrees
  | error error => exact .error hagrees

/-- The output is over. -/
theorem Waiting.settles_of_last {read : Read} (w : Waiting scan r.buffered seen)
    (noted : Noted d r.diagnostics stderr (stray seen)) (last : read.Last)
    (h : Reader.resume scan r (read :: rest) = some (result, r', reads)) :
    Settles d stderr seen (read :: rest) result r' reads := by
  obtain ⟨error, kept, hpull, hread⟩ := w.ended
  have hstray := (noted.append_stderr read.stderr).append_stray (scan.ended r.buffered).stray
  rw [w.stray_ended] at hstray
  have hempty : read.output = [] := by simp only [Read.output, last.ok]
  rw [Reader.resume, last.ok, last.dead] at h
  simp only [Reader.keepStderr, hpull, Bool.false_eq_true, if_false] at h
  cases h
  refine Settles.cons (settles_at_once ?_ hstray)
  rw [hempty, List.append_nil]
  exact .error hread

/-- Whatever the reads are, a scan that gives a result has come to what the bytes seen come to, or
the last read has failed. -/
theorem resume_seen (w : Waiting scan r.buffered seen)
    (noted : Noted d r.diagnostics stderr (stray seen))
    (h : Reader.resume scan r reads = some (result, r', rest)) :
    Settles d stderr seen reads result r' rest := by
  induction reads generalizing scan r seen stderr with
  | nil => cases h
  | cons read reads ih =>
    have hnoted := noted.append_stderr read.stderr
    by_cases hfault : ∃ fault, read.result = .error fault
    · obtain ⟨fault, hfault⟩ := hfault
      have hempty : read.output = [] := by simp only [Read.output, hfault]
      rw [Reader.resume, hfault] at h
      cases h
      refine Settles.cons (settles_at_once ?_ hnoted)
      rw [hempty, List.append_nil]
      exact .fails
    · rcases Read.steady_or_last fun fault hf => hfault ⟨fault, hf⟩ with hsteady | hlast
      · apply Settles.cons
        by_cases hempty : read.output = []
        · rw [resume_of_empty hsteady hempty] at h
          rw [hempty, List.append_nil]
          exact ih (r := r.keepStderr read.stderr) w hnoted h
        · have hagrees := w.advance read.output
          cases hpull : (scan.advance (r.buffered ++ read.output)).pull with
          | more scan' kept =>
            rw [resume_of_more hsteady hempty hpull] at h
            have hstray := hnoted.append_stray (scan.advance (r.buffered ++ read.output)).stray
            rw [← w.stray_append] at hstray
            refine ih ?_ hstray h
            rw [hpull] at hagrees
            simp only [Reader.absorb, hpull]
            exact hagrees
          | done result' kept =>
            rw [resume_of_done hsteady hempty hpull] at h
            cases h
            exact w.settles_of_done (r := r.keepStderr read.stderr) hnoted hpull
      · exact w.settles_of_last noted hlast h

/-- The same of a call from its start: it has seen the bytes carried over and those of the reads that
it used. -/
theorem nextFrame_seen (h : r.nextFrame reads = some (result, r', rest)) :
    Settles r.diagnostics [] r.buffered reads result r' rest := by
  have hnoted : Noted r.diagnostics r.diagnostics [] (stray []) := .refl r.diagnostics
  cases hpull : (Scan.header.advance r.buffered).pull with
  | more scan kept =>
    have hagrees : Agrees r.buffered (Scan.header.advance r.buffered).pull :=
      waiting_start.advance r.buffered
    have hseen : stray r.buffered = stray [] ++ (Scan.header.advance r.buffered).stray :=
      waiting_start.stray_append r.buffered
    have hstray := hnoted.append_stray (Scan.header.advance r.buffered).stray
    rw [← hseen] at hstray
    rw [hpull] at hagrees
    simp only [Reader.nextFrame, hpull] at h
    refine resume_seen ?_ hstray h
    simp only [Reader.absorb, hpull]
    exact hagrees
  | done result' kept =>
    simp only [Reader.nextFrame, hpull] at h
    cases h
    exact waiting_start.settles_of_done hnoted hpull

/-- The same where it is known which reads the call has used. -/
theorem nextFrame_used {used : List Read}
    (h : r.nextFrame (used ++ rest) = some (result, r', rest)) :
    ∃ noise, Ends (r.buffered ++ used.flatMap Read.output) result r'.buffered noise ∧
      Noted r.diagnostics r'.diagnostics (used.flatMap Read.stderr) noise := by
  obtain ⟨used', noise, hsplit, hends, hnoted⟩ := nextFrame_seen h
  obtain rfl := List.append_cancel_right hsplit
  exact ⟨noise, hends, hnoted⟩

end Calls

/-- A call that has come back: the reader before and after it, the reads that it used, and what it
came to. -/
structure Attempt where
  before : Reader
  used : List Read
  result : Except FrameError Frame
  after : Reader

/-- The bytes that a call has seen: what was carried over, and what it read. -/
def Attempt.seen (a : Attempt) : Bytes := a.before.buffered ++ a.used.flatMap Read.output

/-- `Attempts r reads attempts r' rest`: calls of the reader `r`, one after another as long as each
gives a frame, have used some of the reads, and the reader has become `r'` with `rest` left. -/
inductive Attempts [Memory] : Reader → List Read → List Attempt → Reader → List Read → Prop
  | none (r : Reader) (reads : List Read) : Attempts r reads [] r reads
  | error {r r' : Reader} {used rest : List Read} {error : FrameError} :
      r.nextFrame (used ++ rest) = some (.error error, r', rest) →
      Attempts r (used ++ rest) [⟨r, used, .error error, r'⟩] r' rest
  | frame {r r' r'' : Reader} {used left rest : List Read} {frame : Frame}
      {attempts : List Attempt} :
      r.nextFrame (used ++ left) = some (.ok frame, r', left) →
      Attempts r' left attempts r'' rest →
      Attempts r (used ++ left) (⟨r, used, .ok frame, r'⟩ :: attempts) r'' rest

/-- The reads that calls have used are the first of all the reads. -/
theorem Attempts.reads_eq [Memory] {r r' : Reader} {reads rest : List Read}
    {attempts : List Attempt} (calls : Attempts r reads attempts r' rest) :
    reads = attempts.flatMap Attempt.used ++ rest := by
  induction calls with
  | none r reads => rfl
  | error _ => rw [List.flatMap_singleton]
  | frame _ _ ih => rw [ih, List.flatMap_cons, List.append_assoc]

end Wire

end WorkerLink
