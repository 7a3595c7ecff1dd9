import WorkerLink.Proofs.Bytes.FirstCut
import WorkerLink.Reader

/-!
# What a whole output amounts to

`read` reads one frame off bytes of which no more will come, and `readAll` one
frame after another until an error. Neither knows of reads, buffers or time:
they are what a reader of frames is held against. A frame that has been read
stays the same when more bytes come (`read_append`); an error may not.
-/

namespace WorkerLink.Wire

/-- A header value of this length, with the terminator, ends the wait for a terminator. -/
def headerLimit : Nat := Frame.maxFieldLength + Frame.terminator.length

variable [Memory]

/-- The frame behind a header value, and what follows it. -/
def readBody (field body : Bytes) : Except FrameError (Frame × Bytes) :=
  match Frame.parseLength? field with
  | none => .error (.invalidLength (Text.Utf8.lossy field))
  | some n =>
    if Memory.reserves n then
      if n ≤ body.length then .ok (⟨body.take n⟩, body.drop n)
      else .error (.truncated n body.length)
    else .error (.allocation n)

/-- The frame behind a marker, and what follows it. -/
def readHeader (s : Bytes) : Except FrameError (Frame × Bytes) :=
  match Bytes.cut? Frame.terminator s with
  | some (field, body) => readBody field body
  | none =>
    if headerLimit < s.length then
      .error (.invalidLength (Text.Utf8.lossy (s.take Frame.maxFieldLength)))
    else .error .missingTerminator

/-- The first frame of an output, and what follows it. -/
def read (s : Bytes) : Except FrameError (Frame × Bytes) :=
  match Bytes.cut? Frame.marker s with
  | some (_, t) => readHeader t
  | none => .error (if s = [] then .endOfStream else .missingHeader)

theorem readBody_eq_ok_iff {field body rest : Bytes} {f : Frame} :
    readBody field body = .ok (f, rest) ↔
      Frame.parseLength? field = some f.payload.length ∧
      Memory.reserves f.payload.length ∧ body = f.payload ++ rest := by
  unfold readBody
  cases hp : Frame.parseLength? field with
  | none => simp
  | some n =>
    by_cases hm : Memory.reserves n
    · by_cases hn : n ≤ body.length
      · simp only [hm, hn, if_true, Except.ok.injEq, Prod.mk.injEq, Option.some.injEq]
        constructor
        · rintro ⟨rfl, rfl⟩
          simp [hn, hm]
        · rintro ⟨rfl, _, rfl⟩
          simp
      · simp only [hm, hn, if_true, if_false, reduceCtorEq, Option.some.injEq, false_iff]
        rintro ⟨rfl, _, rfl⟩
        exact hn (by simp)
    · simp only [if_neg hm, reduceCtorEq, Option.some.injEq, false_iff]
      rintro ⟨rfl, h, _⟩
      exact hm h

theorem readBody_append {field body rest : Bytes} {f : Frame}
    (h : readBody field body = .ok (f, rest)) (t : Bytes) :
    readBody field (body ++ t) = .ok (f, rest ++ t) := by
  obtain ⟨hp, hm, rfl⟩ := readBody_eq_ok_iff.mp h
  exact readBody_eq_ok_iff.mpr ⟨hp, hm, List.append_assoc _ _ _⟩

/-- A header value that is no length, or none for which there is memory, is refused for itself. -/
theorem readBody_error {field body : Bytes} {error : FrameError}
    (h : readBody field body = .error error)
    (refused : (∃ text, error = .invalidLength text) ∨ ∃ n, error = .allocation n) (t : Bytes) :
    readBody field t = .error error := by
  unfold readBody at h ⊢
  cases hp : Frame.parseLength? field with
  | none => simpa only [hp] using h
  | some n =>
    simp only [hp] at h ⊢
    by_cases hm : Memory.reserves n
    · rw [if_pos hm] at h
      split at h
      · cases h
      · cases h
        rcases refused with ⟨_, hr⟩ | ⟨_, hr⟩ <;> cases hr
    · rw [if_neg hm] at h ⊢
      exact h

/-- A frame that is read stands on the wire in so many bytes: stray ones without a marker, a header
whose value is the length of the payload, and the payload. -/
theorem read_eq_ok_iff {s rest : Bytes} {f : Frame} :
    read s = .ok (f, rest) ↔ ∃ noise t field,
      Bytes.Cuts Frame.marker s noise t ∧
      Bytes.Cuts Frame.terminator t field (f.payload ++ rest) ∧
      Frame.parseLength? field = some f.payload.length ∧
      Memory.reserves f.payload.length := by
  unfold read readHeader
  constructor
  · intro h
    split at h
    · next noise t ht =>
      split at h
      · next field body hb =>
        obtain ⟨hp, hm, rfl⟩ := readBody_eq_ok_iff.mp h
        exact ⟨noise, t, field, Bytes.cut?_eq_some_iff.mp ht, Bytes.cut?_eq_some_iff.mp hb, hp, hm⟩
      · split at h <;> cases h
    · cases h
  · rintro ⟨noise, t, field, ht, hb, hp, hm⟩
    rw [Bytes.cut?_eq_some_iff.mpr ht]
    simp only [Bytes.cut?_eq_some_iff.mpr hb]
    exact readBody_eq_ok_iff.mpr ⟨hp, hm, rfl⟩

theorem readHeader_ne_endOfStream (t : Bytes) : readHeader t ≠ .error .endOfStream := by
  unfold readHeader readBody
  intro h
  split at h
  · split at h
    · cases h
    · split at h
      · split at h <;> cases h
      · cases h
  · split at h <;> cases h

/-- Only an output without a byte has just ended. -/
theorem read_eq_endOfStream_iff {s : Bytes} : read s = .error .endOfStream ↔ s = [] := by
  constructor
  · intro h
    unfold read at h
    split at h
    · exact False.elim (readHeader_ne_endOfStream _ h)
    · split at h
      · next hs => exact hs
      · cases h
  · rintro rfl
    rfl

/-- Bytes that come later do not change a frame that can be read. -/
theorem read_append {s rest : Bytes} {f : Frame} (h : read s = .ok (f, rest)) (t : Bytes) :
    read (s ++ t) = .ok (f, rest ++ t) := by
  obtain ⟨noise, u, field, hu, hb, hp, hm⟩ := read_eq_ok_iff.mp h
  have hu' := Bytes.cut?_append_of_some (Bytes.cut?_eq_some_iff.mpr hu) t
  have hb' := Bytes.cut?_append_of_some (Bytes.cut?_eq_some_iff.mpr hb) t
  rw [List.append_assoc] at hb'
  exact read_eq_ok_iff.mpr ⟨noise, u ++ t, field, Bytes.cut?_eq_some_iff.mp hu',
    Bytes.cut?_eq_some_iff.mp hb', hp, hm⟩

/-- The bytes of the shortest frame: a marker, one digit and a terminator. -/
def minFrameLength : Nat := 20

theorem length_of_read {s rest : Bytes} {f : Frame} (h : read s = .ok (f, rest)) :
    rest.length + minFrameLength ≤ s.length := by
  obtain ⟨noise, t, field, ht, hb, hp, _⟩ := read_eq_ok_iff.mp h
  have h1 := congrArg List.length ht.split
  have h2 := congrArg List.length hb.split
  have hmarker : Frame.marker.length = 15 := by decide
  have hterminator : Frame.terminator.length = 4 := rfl
  have hfield : 0 < field.length := by
    refine List.length_pos_iff.mpr ?_
    rintro rfl
    have hnone : Frame.parseLength? [] = none := by decide
    rw [hnone] at hp
    cases hp
  simp only [List.length_append] at h1 h2
  simp only [minFrameLength]
  omega

theorem length_lt_of_read {s rest : Bytes} {f : Frame} (h : read s = .ok (f, rest)) :
    rest.length < s.length := by
  have hlength := length_of_read h
  simp only [minFrameLength] at hlength
  omega

/-- The frames of an output, and what follows the last of them. -/
def readAll (s : Bytes) : List Frame × Bytes :=
  match _h : read s with
  | .ok (f, t) =>
    let (fs, rest) := readAll t
    (f :: fs, rest)
  | .error _ => ([], s)
termination_by s.length
decreasing_by exact length_lt_of_read _h

/-- The complete frames of an output, up to the first error. -/
def frames (s : Bytes) : List Frame := (readAll s).1

/-- So many frames have been read off `s`, and `rest` is left. -/
inductive Reads : Bytes → List Frame → Bytes → Prop
  | none (s : Bytes) : Reads s [] s
  | frame {s t rest : Bytes} {f : Frame} {fs : List Frame} :
      read s = .ok (f, t) → Reads t fs rest → Reads s (f :: fs) rest

theorem Reads.snoc {s rest t : Bytes} {fs : List Frame} {f : Frame} (h : Reads s fs rest)
    (hf : read rest = .ok (f, t)) : Reads s (fs ++ [f]) t := by
  induction h with
  | none s => exact .frame hf (.none t)
  | frame hr _ ih => exact .frame hr (ih hf)

theorem Reads.append {s rest : Bytes} {fs : List Frame} (h : Reads s fs rest) (t : Bytes) :
    Reads (s ++ t) fs (rest ++ t) := by
  induction h with
  | none s => exact .none (s ++ t)
  | frame hr _ ih => exact .frame (read_append hr t) ih

theorem Reads.length_le {s rest : Bytes} {fs : List Frame} (h : Reads s fs rest) :
    minFrameLength * fs.length + rest.length ≤ s.length := by
  induction h with
  | none s => simp
  | frame hr _ ih =>
    have hlength := length_of_read hr
    rw [List.length_cons, Nat.mul_add_one]
    omega

theorem readAll_of_ok {s t : Bytes} {f : Frame} (h : read s = .ok (f, t)) :
    readAll s = (f :: (readAll t).1, (readAll t).2) := by
  rw [readAll]
  split
  · next hr =>
    rw [h] at hr
    cases hr
    rfl
  · next hr =>
    rw [h] at hr
    cases hr

theorem readAll_of_error {s : Bytes} {e : FrameError} (h : read s = .error e) :
    readAll s = ([], s) := by
  rw [readAll]
  split
  · next hr =>
    rw [h] at hr
    cases hr
  · rfl

/-- Reading until an error is `readAll`. -/
theorem Reads.readAll_eq {s rest : Bytes} {fs : List Frame} {e : FrameError}
    (h : Reads s fs rest) (stuck : read rest = .error e) : readAll s = (fs, rest) := by
  induction h with
  | none s => exact readAll_of_error stuck
  | frame hr _ ih => rw [readAll_of_ok hr, ih stuck]

/-- Nothing is left of an output if it is read off completely. -/
theorem Reads.frames_eq {s : Bytes} {fs : List Frame} (h : Reads s fs []) :
    readAll s = (fs, []) :=
  h.readAll_eq (read_eq_endOfStream_iff.mpr rfl)

end WorkerLink.Wire
