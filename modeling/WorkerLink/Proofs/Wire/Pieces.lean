import WorkerLink.Proofs.Wire.Scanning

/-!
# An output that comes in pieces

A reader gets the output of a worker one read at a time. The bytes that it has
seen end before the first header, inside it or behind it (`Headed.seen_cases`),
and one more read lets its scan go on or gives a result.
-/

namespace WorkerLink

/-- The bytes that a read has taken from the output. -/
def Read.output (read : Read) : Bytes :=
  match read.result with
  | .ok bytes => bytes
  | .error _ => []

/-- The read has not failed, and the output may go on behind it. -/
structure Read.Steady (read : Read) : Prop where
  ok : read.result = .ok read.output
  alive : read.output = [] → read.alive = true

structure Read.Last (read : Read) : Prop where
  ok : read.result = .ok []
  dead : read.alive = false

namespace Wire

/-- The first header of `s` has the value `field`, after the stray bytes `noise`. -/
def Headed (s noise field body : Bytes) : Prop :=
  ∃ t, Bytes.cut? Frame.marker s = some (noise, t) ∧
    Bytes.cut? Frame.terminator t = some (field, body)

/-- Bytes at the front of an output end before the first marker does, or in the header behind it, or
in what follows the header. -/
theorem Headed.seen_cases {seen rest noise field body : Bytes}
    (h : Headed (seen ++ rest) noise field body) :
    (Bytes.cut? Frame.marker seen = none ∧ seen.length < noise.length + Frame.marker.length) ∨
    (∃ t, Bytes.cut? Frame.marker seen = some (noise, t) ∧ Bytes.cut? Frame.terminator t = none ∧
      t.length < field.length + Frame.terminator.length ∧
      t ++ rest = field ++ Frame.terminator ++ body) ∨
    ∃ t got, Bytes.cut? Frame.marker seen = some (noise, t) ∧
      Bytes.cut? Frame.terminator t = some (field, got) ∧ body = got ++ rest := by
  obtain ⟨t, hmark, hterm⟩ := h
  rcases Bytes.cut?_of_append hmark with ⟨hshort, hnone⟩ | ⟨u, rfl, hsome⟩
  · exact .inl ⟨hnone, hshort⟩
  · rcases Bytes.cut?_of_append hterm with ⟨hshort, hnone⟩ | ⟨got, rfl, hsome'⟩
    · exact .inr (.inl ⟨u, hsome, hnone, hshort, Bytes.eq_append_of_cut? hterm⟩)
    · exact .inr (.inr ⟨u, got, hsome, hsome', rfl⟩)

/-- After so many bytes the limit is exceeded and the terminator is not complete. -/
def EndsInside (noise field : Bytes) (k : Nat) : Prop :=
  noise.length + Frame.marker.length + headerLimit < k ∧
    k < noise.length + Frame.marker.length + field.length + Frame.terminator.length

variable [Memory]

/-- What can be read off the first so many bytes of an output. -/
theorem Headed.read_prefix {seen rest noise field body : Bytes}
    (h : Headed (seen ++ rest) noise field body) :
    (noise.length + Frame.marker.length + field.length + Frame.terminator.length ≤ seen.length ∧
      ∃ got, body = got ++ rest ∧ read seen = readBody field got) ∨
    (EndsInside noise field seen.length ∧
      read seen = .error (.invalidLength (Text.Utf8.lossy (field.take Frame.maxFieldLength)))) ∨
    ∃ error, read seen = .error error ∧
      (∀ text, error ≠ .invalidLength text) ∧ ∀ n, error ≠ .allocation n := by
  rcases h.seen_cases with ⟨hnone, hshort⟩ | ⟨t, hmark, hnone, hshort, hall⟩ |
    ⟨t, got, hmark, hterm, rfl⟩
  · rw [read, hnone]
    by_cases hs : seen = []
    · exact .inr (.inr ⟨.endOfStream, by rw [if_pos hs], by simp, by simp⟩)
    · exact .inr (.inr ⟨.missingHeader, by rw [if_neg hs], by simp, by simp⟩)
  · have hseen := Bytes.length_of_cut? hmark
    rw [read_of_marker hmark, readHeader, hnone]
    by_cases hlong : headerLimit < t.length
    · refine .inr (.inl ⟨⟨by omega, by omega⟩, ?_⟩)
      have hbeyond : Frame.maxFieldLength + Frame.terminator.length < t.length := hlong
      have hlimit : Frame.maxFieldLength ≤ t.length := by omega
      have hfield : Frame.maxFieldLength ≤ field.length := by omega
      have hfirst : (t ++ rest).take Frame.maxFieldLength = t.take Frame.maxFieldLength :=
        List.take_append_of_le_length hlimit
      have htake : t.take Frame.maxFieldLength = field.take Frame.maxFieldLength := by
        rw [← hfirst, hall, List.append_assoc, List.take_append_of_le_length hfield]
      simp only [hlong, if_true, htake]
    · exact .inr (.inr ⟨.missingTerminator, if_neg hlong, by simp, by simp⟩)
  · have hseen := Bytes.length_of_cut? hmark
    have hlen := Bytes.length_of_cut? hterm
    refine .inl ⟨by omega, got, rfl, ?_⟩
    rw [read_of_marker hmark, readHeader_of_terminator hterm]

/-- A scan goes on behind an empty read. -/
theorem resume_of_empty {scan : Scan} {r : Reader} {read : Read} {later : List Read}
    (steady : read.Steady) (empty : read.output = []) : Reader.resume scan r (read :: later) =
      Reader.resume scan (r.keepStderr read.stderr) later := by
  have hok : read.result = .ok [] := by rw [steady.ok, empty]
  rw [Reader.resume, hok]
  exact if_pos (steady.alive empty)

/-- A scan goes on behind bytes that do not end it. -/
theorem resume_of_more {scan scan' : Scan} {r : Reader} {read : Read} {later : List Read}
    {left : Bytes} (steady : read.Steady) (given : read.output ≠ [])
    (more : (scan.advance (r.buffered ++ read.output)).pull = .more scan' left) :
    Reader.resume scan r (read :: later) = Reader.resume scan'
      ((r.keepStderr read.stderr).absorb (scan.advance (r.buffered ++ read.output))) later := by
  rw [Reader.resume, steady.ok]
  cases hout : read.output with
  | nil => exact False.elim (given hout)
  | cons b bs =>
    rw [hout] at more
    simp only [Reader.keepStderr, more]

/-- A scan ends with bytes that end it. -/
theorem resume_of_done {scan : Scan} {r : Reader} {read : Read} {later : List Read}
    {result : Except FrameError Frame} {left : Bytes} (steady : read.Steady)
    (given : read.output ≠ [])
    (done : (scan.advance (r.buffered ++ read.output)).pull = .done result left) :
    Reader.resume scan r (read :: later) = some (result,
      (r.keepStderr read.stderr).absorb (scan.advance (r.buffered ++ read.output)), later) := by
  rw [Reader.resume, steady.ok]
  cases hout : read.output with
  | nil => exact False.elim (given hout)
  | cons b bs =>
    rw [hout] at done
    simp only [Reader.keepStderr, done]

end Wire

end WorkerLink
