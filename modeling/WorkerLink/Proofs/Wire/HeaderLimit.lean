import WorkerLink.Proofs.Wire.Pieces

/-!
# The limit on header values and the cuts of the output

The limit is tried only while no terminator is in sight. So whether a header
value that is too long is refused depends on where the reads end: it is refused
if and only if one of them ends more than `headerLimit` bytes behind the marker
and before the end of the terminator (`nextFrame_long_header`). If none does, the
value counts like any other.
-/

namespace WorkerLink

namespace Wire

/-- A scan that waits has not got past the limit inside a header. -/
theorem Waiting.not_inside [Memory] {scan : Scan} {buffered seen rest noise field body : Bytes}
    (w : Waiting scan buffered seen) (h : Headed (seen ++ rest) noise field body) :
    ¬ EndsInside noise field seen.length := by
  unfold EndsInside
  rcases h.seen_cases with ⟨_, hshort⟩ | ⟨t, hmark, hterm, _, _⟩ | ⟨t, got, hmark, hterm, _⟩
  · omega
  · cases w with
    | header hmark' =>
      rw [hmark] at hmark'
      cases hmark'
    | terminator hmark' _ hlimit =>
      rw [hmark] at hmark'
      cases hmark'
      have hlen := Bytes.length_of_cut? hmark
      omega
    | body hmark' hterm' _ _ _ _ _ =>
      rw [hmark] at hmark'
      cases hmark'
      rw [hterm] at hterm'
      cases hterm'
  · have hlen := Bytes.length_of_cut? hmark
    have hlen' := Bytes.length_of_cut? hterm
    omega

/-- What a value that is too long comes to when it is refused. -/
def refusal (field : Bytes) : Except FrameError Frame :=
  .error (.invalidLength (Text.Utf8.lossy (field.take Frame.maxFieldLength)))

/-- What it comes to when it counts like any other. -/
def value [Memory] (field body : Bytes) : Except FrameError Frame :=
  (readBody field body).map Prod.fst

/-- One of the reads ends inside the header, or the bytes `seen` before them do. -/
def SomeInside (noise field seen : Bytes) (reads : List Read) : Prop :=
  ∃ earlier later, reads = earlier ++ later ∧
    EndsInside noise field (seen ++ earlier.flatMap Read.output).length

theorem someInside_nil {noise field seen : Bytes} :
    SomeInside noise field seen [] ↔ EndsInside noise field seen.length := by
  constructor
  · rintro ⟨earlier, later, hsplit, hin⟩
    obtain ⟨rfl, -⟩ := List.nil_eq_append_iff.mp hsplit
    simpa using hin
  · intro hin
    exact ⟨[], [], rfl, by simpa using hin⟩

theorem someInside_cons {noise field seen : Bytes} {read : Read} {reads : List Read} :
    SomeInside noise field seen (read :: reads) ↔ EndsInside noise field seen.length ∨
      SomeInside noise field (seen ++ read.output) reads := by
  constructor
  · rintro ⟨earlier, later, hsplit, hin⟩
    cases earlier with
    | nil => exact .inl (by simpa using hin)
    | cons first earlier =>
      simp only [List.cons_append, List.cons.injEq] at hsplit
      obtain ⟨rfl, rfl⟩ := hsplit
      exact .inr ⟨earlier, later, rfl, by simpa using hin⟩
  · rintro (hin | ⟨earlier, later, rfl, hin⟩)
    · exact ⟨[], read :: reads, rfl, by simpa using hin⟩
    · exact ⟨read :: earlier, later, rfl, by simpa using hin⟩

/-- Behind the header no read ends inside it any more. -/
theorem not_someInside_of_le {noise field seen : Bytes} {reads : List Read}
    (h : noise.length + Frame.marker.length + field.length + Frame.terminator.length ≤
      seen.length) : ¬ SomeInside noise field seen reads := by
  rintro ⟨earlier, later, _, _, hlt⟩
  rw [List.length_append] at hlt
  omega

/-- A result is the right one for a header that is too long. -/
def Right [Memory] (noise field body seen : Bytes) (reads : List Read)
    (result : Except FrameError Frame) : Prop :=
  (SomeInside noise field seen reads → result = refusal field) ∧
    (¬ SomeInside noise field seen reads → result = value field body)

section Results

variable [Memory] {seen noise field body : Bytes} {reads : List Read}

theorem Headed.right_of_done {result : Except FrameError Frame} {left : Bytes}
    (h : Headed (seen ++ reads.flatMap Read.output) noise field body)
    (agrees : Agrees seen (.done result left))
    (verdict : ∀ error, result = .error error →
      (∃ text, error = .invalidLength text) ∨ ∃ n, error = .allocation n) :
    Right noise field body seen reads result := by
  rcases h.read_prefix with ⟨hbehind, got, rfl, hread⟩ | ⟨hin, hread⟩ | ⟨error, hread, hne⟩
  · refine ⟨fun hsome => False.elim (not_someInside_of_le hbehind hsome), fun _ => ?_⟩
    cases result with
    | ok frame =>
      have hbody : readBody field got = .ok (frame, left) := hread.symm.trans agrees
      rw [value, readBody_append hbody]
      rfl
    | error error =>
      have hbody : readBody field got = .error error := hread.symm.trans agrees
      rw [value, readBody_error hbody (verdict error rfl)]
      rfl
  · refine ⟨fun _ => ?_, fun hnone => False.elim (hnone ⟨[], reads, rfl, by simpa using hin⟩)⟩
    cases result with
    | ok frame => exact nomatch hread.symm.trans agrees
    | error error =>
      cases hread.symm.trans agrees
      rfl
  · cases result with
    | ok frame => exact nomatch hread.symm.trans agrees
    | error error' =>
      cases hread.symm.trans agrees
      rcases verdict error rfl with ⟨text, he⟩ | ⟨n, he⟩
      · exact False.elim (hne.1 text he)
      · exact False.elim (hne.2 n he)

theorem Right.cons {read : Read} {result : Except FrameError Frame}
    (h : Right noise field body (seen ++ read.output) reads result)
    (outside : ¬ EndsInside noise field seen.length) :
    Right noise field body seen (read :: reads) result := by
  unfold Right at h ⊢
  rw [someInside_cons, or_iff_right outside]
  exact h

theorem resume_right {scan : Scan} {r : Reader} {last : Read}
    (w : Waiting scan r.buffered seen)
    (h : Headed (seen ++ reads.flatMap Read.output) noise field body)
    (steady : ∀ read ∈ reads, read.Steady) (ends : last.Last) :
    ∃ result, (Reader.resume scan r (reads ++ [last])).map Prod.fst = some result ∧
      Right noise field body seen reads result := by
  have outside := w.not_inside h
  induction reads generalizing scan r seen with
  | nil =>
    obtain ⟨error, left, hpull, hread⟩ := w.ended
    rw [List.flatMap_nil, List.append_nil] at h
    obtain ⟨t, hmark, hterm⟩ := h
    refine ⟨.error error, ?_, ?_⟩
    · simp [Reader.resume, Reader.keepStderr, ends.ok, ends.dead, hpull]
    · refine ⟨fun hsome => False.elim (outside (someInside_nil.mp hsome)), fun _ => ?_⟩
      rw [read_of_marker hmark, readHeader_of_terminator hterm] at hread
      rw [value, hread]
      rfl
  | cons read reads ih =>
    have hread := steady read (by simp)
    have hrest : ∀ other ∈ reads, other.Steady := fun other ho => steady other (by simp [ho])
    have hall : Headed (seen ++ read.output ++ reads.flatMap Read.output) noise field body := by
      rw [List.append_assoc]
      exact h
    by_cases hempty : read.output = []
    · have hsame : Waiting scan (r.keepStderr read.stderr).buffered (seen ++ read.output) := by
        rw [hempty, List.append_nil]
        exact w
      obtain ⟨result, hresult, hright⟩ := ih hsame hall hrest (hsame.not_inside hall)
      refine ⟨result, ?_, hright.cons outside⟩
      rw [List.cons_append, resume_of_empty hread hempty]
      exact hresult
    · have hagrees := w.advance read.output
      rw [List.cons_append]
      cases hpull : (scan.advance (r.buffered ++ read.output)).pull with
      | more scan' left =>
        rw [hpull] at hagrees
        have hnext : Waiting scan' ((r.keepStderr read.stderr).absorb
            (scan.advance (r.buffered ++ read.output))).buffered (seen ++ read.output) := by
          simp only [Reader.absorb, hpull]
          exact hagrees
        obtain ⟨result, hresult, hright⟩ := ih hnext hall hrest (hnext.not_inside hall)
        refine ⟨result, ?_, hright.cons outside⟩
        rw [resume_of_more hread hempty hpull]
        exact hresult
      | done result left =>
        rw [hpull] at hagrees
        refine ⟨result, by rw [resume_of_done hread hempty hpull, Option.map_some], ?_⟩
        refine (hall.right_of_done hagrees ?_).cons outside
        rintro error rfl
        exact advance_error hpull

end Results

theorem readBody_eq_invalidLength_iff [Memory] {field body : Bytes} :
    (∃ text, readBody field body = .error (.invalidLength text)) ↔
      Frame.parseLength? field = none := by
  unfold readBody
  constructor
  · rintro ⟨text, h⟩
    split at h
    · next hp => exact hp
    · split at h
      · split at h <;> cases h
      · cases h
  · intro hp
    rw [hp]
    exact ⟨_, rfl⟩

/-- A header value that is too long is refused as such if and only if a read ends inside the header,
far enough behind the marker. Otherwise it counts like any other, and the reader answers with
`InvalidLength` only where it is no length. -/
theorem nextFrame_long_header [Memory] {r : Reader} {reads : List Read} {last : Read}
    {noise field body : Bytes}
    (headed : Headed (r.buffered ++ reads.flatMap Read.output) noise field body)
    (long : Frame.maxFieldLength < field.length) (steady : ∀ read ∈ reads, read.Steady)
    (ends : last.Last) :
    ∃ result, (r.nextFrame (reads ++ [last])).map Prod.fst = some result ∧
      (SomeInside noise field r.buffered reads → result = refusal field) ∧
      (¬ SomeInside noise field r.buffered reads → result = value field body) ∧
      ((∃ text, result = .error (.invalidLength text)) ↔
        SomeInside noise field r.buffered reads ∨ Frame.parseLength? field = none) := by
  have found : ∃ result, (r.nextFrame (reads ++ [last])).map Prod.fst = some result ∧
      Right noise field body r.buffered reads result := by
    have hagrees : Agrees r.buffered (Scan.header.advance r.buffered).pull :=
      waiting_start.advance r.buffered
    unfold Reader.nextFrame
    cases hpull : (Scan.header.advance r.buffered).pull with
    | more scan left =>
      rw [hpull] at hagrees
      have hnext : Waiting scan (r.absorb (Scan.header.advance r.buffered)).buffered
          r.buffered := by
        simp only [Reader.absorb, hpull]
        exact hagrees
      simpa only [hpull] using resume_right hnext headed steady ends
    | done result left =>
      rw [hpull] at hagrees
      refine ⟨result, by simp only [hpull, Option.map_some], ?_⟩
      refine headed.right_of_done hagrees ?_
      rintro error rfl
      exact advance_error hpull
  obtain ⟨result, hresult, hin, hout⟩ := found
  refine ⟨result, hresult, hin, hout, ?_⟩
  by_cases hsome : SomeInside noise field r.buffered reads
  · rw [hin hsome]
    exact ⟨fun _ => .inl hsome, fun _ => ⟨_, rfl⟩⟩
  · rw [hout hsome, or_iff_right hsome, ← readBody_eq_invalidLength_iff, value]
    constructor
    · rintro ⟨text, h⟩
      refine ⟨text, ?_⟩
      cases hbody : readBody field body with
      | ok found => rw [hbody] at h; cases h
      | error error => rw [hbody] at h; cases h; rfl
    · rintro ⟨text, h⟩
      exact ⟨text, by rw [h]; rfl⟩

attribute [local instance] Memory.kilobyte

/-- A frame of two bytes whose length is written with 70 zeros in front. -/
def paddedHeader : Bytes :=
  Frame.marker ++ List.replicate 70 48 ++ [50, 13, 10, 13, 10, 123, 125]

/-- In one piece the frame is read. -/
theorem padded_header_in_one_piece :
    (Reader.nextFrame { diagnostics := { capacity := 0 } }
      ([⟨[], .ok paddedHeader, true⟩] ++ [⟨[], .ok [], false⟩])).map Prod.fst =
        some (value (List.replicate 70 48 ++ [50]) [123, 125]) := by
  have headed : Headed ([] ++ [Read.mk [] (.ok paddedHeader) true].flatMap Read.output) []
      (List.replicate 70 48 ++ [50]) [123, 125] := ⟨_, rfl, by decide +kernel⟩
  have ends : Read.Last ⟨[], .ok [], false⟩ := ⟨rfl, rfl⟩
  have steady : ∀ read ∈ [Read.mk [] (.ok paddedHeader) true], read.Steady := by
    intro read hmem
    rw [List.mem_singleton.mp hmem]
    exact ⟨rfl, fun _ => rfl⟩
  obtain ⟨result, hresult, _, hvalue, _⟩ :=
    nextFrame_long_header (r := { diagnostics := { capacity := 0 } }) headed (by decide) steady ends
  rw [hresult, hvalue]
  rw [someInside_cons, someInside_nil, EndsInside, EndsInside]
  decide

/-- The same bytes, once in one piece and once cut behind the 69th byte of the header value. -/
theorem limit_depends_on_cuts :
    (Reader.nextFrame { diagnostics := { capacity := 0 } }
      [⟨[], .ok paddedHeader, true⟩, ⟨[], .ok [], false⟩]).map Prod.fst =
        some (.ok ⟨[123, 125]⟩) ∧
    (Reader.nextFrame { diagnostics := { capacity := 0 } }
      [⟨[], .ok (paddedHeader.take 84), true⟩, ⟨[], .ok (paddedHeader.drop 84), true⟩,
        ⟨[], .ok [], false⟩]).map Prod.fst = some (refusal (List.replicate 70 48 ++ [50])) := by
  decide +kernel

end Wire

end WorkerLink
