import WorkerLink.Proofs.Wire.HeaderValue
import WorkerLink.Proofs.Wire.WholeOutput

/-!
# What a call comes to

`AmountsTo` lists what an output can amount to, each case said of the whole
output. Exactly one case applies (`amountsTo_iff`), and it is what a call of the
reader comes to, however the output is cut into reads
(`nextFrame_amountsTo`).
-/

namespace WorkerLink.Wire

open RecentBytes (Noted)

/-- What an output amounts to: an error, or its first frame and what follows it. -/
inductive AmountsTo [Memory] (s : Bytes) : Except FrameError (Frame × Bytes) → Prop
  /-- There is nothing. -/
  | endOfStream : s = [] → AmountsTo s (.error .endOfStream)
  /-- There are stray bytes only. -/
  | missingHeader : s ≠ [] → ¬ Frame.marker <:+: s → AmountsTo s (.error .missingHeader)
  /-- The header does not end, and is not too long. -/
  | missingTerminator {noise t : Bytes} :
      Bytes.Cuts Frame.marker s noise t → ¬ Frame.terminator <:+: t → t.length ≤ headerLimit →
      AmountsTo s (.error .missingTerminator)
  /-- The header does not end, and is too long. -/
  | unterminated {noise t : Bytes} :
      Bytes.Cuts Frame.marker s noise t → ¬ Frame.terminator <:+: t → headerLimit < t.length →
      AmountsTo s (.error (.invalidLength (Text.Utf8.lossy (t.take Frame.maxFieldLength))))
  /-- The header value is no length. -/
  | invalidLength {noise t field body : Bytes} :
      Bytes.Cuts Frame.marker s noise t → Bytes.Cuts Frame.terminator t field body →
      (∀ n, ¬ Frame.States field n) → AmountsTo s (.error (.invalidLength (Text.Utf8.lossy field)))
  /-- There is no memory for so long a body. -/
  | allocation {noise t field body : Bytes} {n : Nat} :
      Bytes.Cuts Frame.marker s noise t → Bytes.Cuts Frame.terminator t field body →
      Frame.States field n → ¬ Memory.reserves n → AmountsTo s (.error (.allocation n))
  /-- The body is cut short. -/
  | truncated {noise t field body : Bytes} {n : Nat} :
      Bytes.Cuts Frame.marker s noise t → Bytes.Cuts Frame.terminator t field body →
      Frame.States field n → Memory.reserves n → body.length < n →
      AmountsTo s (.error (.truncated n body.length))
  /-- There is a frame, and `rest` behind it. -/
  | frame {noise t field payload rest : Bytes} :
      Bytes.Cuts Frame.marker s noise t →
      Bytes.Cuts Frame.terminator t field (payload ++ rest) →
      Frame.States field payload.length → Memory.reserves payload.length →
      AmountsTo s (.ok (⟨payload⟩, rest))

section Cases

variable [Memory] {s noise t field body : Bytes}
  {outcome : Except FrameError (Frame × Bytes)}

/-- What an output amounts to is what is read off it. -/
theorem AmountsTo.read (h : AmountsTo s outcome) : read s = outcome := by
  have unended {noise t : Bytes} (hmark : Bytes.Cuts Frame.marker s noise t)
      (hnone : ¬ Frame.terminator <:+: t) : Wire.read s = if headerLimit < t.length then
        .error (.invalidLength (Text.Utf8.lossy (t.take Frame.maxFieldLength)))
      else .error .missingTerminator := by
    rw [read_of_marker (Bytes.cut?_eq_some_iff.mpr hmark), readHeader,
      Bytes.cut?_eq_none_iff_not_infix.mpr hnone]
  have ended {noise t field body : Bytes} (hmark : Bytes.Cuts Frame.marker s noise t)
      (hterm : Bytes.Cuts Frame.terminator t field body) : Wire.read s = readBody field body := by
    rw [read_of_marker (Bytes.cut?_eq_some_iff.mpr hmark),
      readHeader_of_terminator (Bytes.cut?_eq_some_iff.mpr hterm)]
  cases h with
  | endOfStream hs => exact read_eq_endOfStream_iff.mpr hs
  | missingHeader hs hnone =>
    rw [Wire.read, Bytes.cut?_eq_none_iff_not_infix.mpr hnone]
    exact congrArg Except.error (if_neg hs)
  | missingTerminator hmark hnone hshort =>
    rw [unended hmark hnone]
    exact if_neg (Nat.not_lt.mpr hshort)
  | unterminated hmark hnone hlong =>
    rw [unended hmark hnone]
    exact if_pos hlong
  | invalidLength hmark hterm hno =>
    rw [ended hmark hterm, readBody, Frame.parseLength?_eq_none_iff.mpr hno]
  | allocation hmark hterm hstates hhuge =>
    simp only [ended hmark hterm, readBody, Frame.parseLength?_eq_some_iff.mpr hstates]
    exact if_neg hhuge
  | truncated hmark hterm hstates hfits hshort =>
    rw [ended hmark hterm, readBody_of_length (Frame.parseLength?_eq_some_iff.mpr hstates) hfits]
    exact if_neg (Nat.not_le.mpr hshort)
  | frame hmark hterm hstates hfits =>
    rw [ended hmark hterm]
    exact readBody_eq_ok_iff.mpr ⟨Frame.parseLength?_eq_some_iff.mpr hstates, hfits, rfl⟩

theorem amountsTo_readBody (hmark : Bytes.Cuts Frame.marker s noise t)
    (hterm : Bytes.Cuts Frame.terminator t field body) : AmountsTo s (readBody field body) := by
  cases hparse : Frame.parseLength? field with
  | none =>
    have hbody : readBody field body = .error (.invalidLength (Text.Utf8.lossy field)) := by
      simp only [readBody, hparse]
    rw [hbody]
    exact .invalidLength hmark hterm (Frame.parseLength?_eq_none_iff.mp hparse)
  | some n =>
    have hstates := Frame.parseLength?_eq_some_iff.mp hparse
    by_cases hfits : Memory.reserves n
    · rw [readBody_of_length hparse hfits]
      by_cases henough : n ≤ body.length
      · have htake : (body.take n).length = n := List.length_take_of_le henough
        rw [if_pos henough]
        rw [← List.take_append_drop n body] at hterm
        exact .frame hmark hterm (by rwa [htake]) (by rwa [htake])
      · rw [if_neg henough]
        exact .truncated hmark hterm hstates hfits (Nat.lt_of_not_le henough)
    · have hbody : readBody field body = .error (.allocation n) := by
        simp only [readBody, hparse, if_neg hfits]
      rw [hbody]
      exact .allocation hmark hterm hstates hfits

theorem amountsTo_readHeader (hmark : Bytes.Cuts Frame.marker s noise t) :
    AmountsTo s (readHeader t) := by
  unfold readHeader
  cases hterm : Bytes.cut? Frame.terminator t with
  | none =>
    have hnone := Bytes.cut?_eq_none_iff_not_infix.mp hterm
    dsimp only
    split
    · next hlong => exact .unterminated hmark hnone hlong
    · next hshort => exact .missingTerminator hmark hnone (Nat.le_of_not_lt hshort)
  | some found => exact amountsTo_readBody hmark (Bytes.cut?_eq_some_iff.mp hterm)

/-- Every output amounts to something. -/
theorem amountsTo_read (s : Bytes) : AmountsTo s (read s) := by
  unfold read
  cases hmark : Bytes.cut? Frame.marker s with
  | none =>
    dsimp only
    split
    · next hs => exact .endOfStream hs
    · next hs => exact .missingHeader hs (Bytes.cut?_eq_none_iff_not_infix.mp hmark)
  | some found => exact amountsTo_readHeader (Bytes.cut?_eq_some_iff.mp hmark)

theorem amountsTo_iff : AmountsTo s outcome ↔ outcome = read s := by
  constructor
  · intro h
    exact h.read.symm
  · rintro rfl
    exact amountsTo_read s

end Cases

/-- Whatever a reader has carried over and however the rest of the output is cut into reads, with
whatever empty reads and bytes of the error stream in between: as long as a header value that ends is
within the limit, a call that sees the end of the output comes to the one thing that all the bytes
amount to. What follows a frame is still buffered or unread. The diagnostics are given the bytes
before the first marker; without a marker these are all, and nothing stays buffered. -/
theorem nextFrame_amountsTo [Memory] {r : Reader} {reads : List Read} {last : Read}
    (later : List Read) (steady : ∀ read ∈ reads, read.Steady) (ends : last.Last)
    (limited : Limited (r.buffered ++ reads.flatMap Read.output)) :
    let s := r.buffered ++ reads.flatMap Read.output
    ∃ outcome r' used rest, (∀ other, AmountsTo s other ↔ other = outcome) ∧
      reads ++ [last] = used ++ rest ∧
      r.nextFrame (reads ++ last :: later) = some (outcome.map Prod.fst, r', rest ++ later) ∧
      Noted r.diagnostics r'.diagnostics (used.flatMap Read.stderr) (beforeMarker s) ∧
      (∀ frame left, outcome = .ok (frame, left) →
        r'.buffered ++ rest.flatMap Read.output = left) ∧
      (¬ Frame.marker <:+: s → r'.buffered = [] ∧ rest = [] ∧ beforeMarker s = s ∧
        (r.diagnostics.bytes.length + (used.flatMap Read.stderr).length + s.length ≤
          r.diagnostics.capacity → ∃ mixture, Mixes (used.flatMap Read.stderr) s mixture ∧
            r'.diagnostics.bytes = r.diagnostics.bytes ++ mixture)) := by
  intro s
  obtain ⟨r', used, rest, hsplit, hcall, hnoted, hleft, hnothing⟩ :=
    nextFrame_whole later steady ends limited
  refine ⟨read s, r', used, rest, fun other => amountsTo_iff, hsplit, hcall, hnoted, hleft, ?_⟩
  intro hnone
  have hcut : Bytes.cut? Frame.marker s = none := Bytes.cut?_eq_none_iff_not_infix.mpr hnone
  have hread : read s = .error (if s = [] then .endOfStream else .missingHeader) := by
    simp only [read, hcut]
  have hbefore : beforeMarker s = s := by
    simp only [beforeMarker, hcut]
  obtain ⟨hbuffered, hrest⟩ := hnothing _ hread (ite_eq_or_eq _ _ _)
  refine ⟨hbuffered, hrest, hbefore, ?_⟩
  intro room
  have hgiven : Noted r.diagnostics r'.diagnostics (used.flatMap Read.stderr) s := by
    rw [← hbefore]
    exact hnoted
  obtain ⟨mixture, hmixes, hbytes⟩ := hgiven.of_fits room
  exact ⟨mixture, hmixes, by rw [hbytes]⟩

attribute [local instance] Memory.kilobyte

/-- The marker is cut by the end of the bytes carried over and the header value by a read; an empty
read and the error stream come in between, and one byte follows the frame. -/
theorem nextFrame_amountsTo_frame :
    let s : Bytes := [10] ++ Frame.marker ++ [32, 48, 50, 9] ++ Frame.terminator ++ [104, 105, 67]
    let r : Reader := { buffered := s.take 5, diagnostics := { capacity := 4 } }
    let reads : List Read := [⟨[7], .ok [], true⟩, ⟨[], .ok ((s.drop 5).take 13), true⟩,
      ⟨[8], .ok (s.drop 18), false⟩]
    let last : Read := ⟨[9], .ok [], false⟩
    (∀ read ∈ reads, read.Steady) ∧ last.Last ∧ Limited s ∧
      ∃ r' used rest, reads ++ [last] = used ++ rest ∧
        r.nextFrame (reads ++ [last]) = some (.ok ⟨[104, 105]⟩, r', rest) ∧
        r'.buffered ++ rest.flatMap Read.output = [67] ∧
        Noted r.diagnostics r'.diagnostics (used.flatMap Read.stderr) [10] := by
  intro s r reads last
  have hwhole : r.buffered ++ reads.flatMap Read.output = s := by decide +kernel
  have hmark : Bytes.cut? Frame.marker s =
      some ([10], [32, 48, 50, 9] ++ Frame.terminator ++ [104, 105, 67]) := by decide +kernel
  have hterm : Bytes.cut? Frame.terminator ([32, 48, 50, 9] ++ Frame.terminator ++ [104, 105, 67]) =
      some ([32, 48, 50, 9], [104, 105, 67]) := by decide +kernel
  have steady : ∀ read ∈ reads, read.Steady := by
    have parts : ∀ read ∈ reads, read.result = .ok read.output ∧
        (read.output = [] → read.alive = true) := by decide +kernel
    intro read hread
    obtain ⟨hok, halive⟩ := parts read hread
    exact ⟨hok, halive⟩
  have limited : Limited s := by
    rintro noise field body ⟨t, hmark', hterm'⟩
    rw [hmark] at hmark'
    cases hmark'
    rw [hterm] at hterm'
    cases hterm'
    decide
  have hframe : AmountsTo s (.ok (⟨[104, 105]⟩, [67])) :=
    .frame (Bytes.cut?_eq_some_iff.mp hmark) (Bytes.cut?_eq_some_iff.mp hterm)
      (Frame.parseLength?_eq_some_iff.mp (by decide +kernel)) (by decide)
  refine ⟨steady, ⟨rfl, rfl⟩, limited, ?_⟩
  have ends : last.Last := ⟨rfl, rfl⟩
  obtain ⟨outcome, r', used, rest, honly, hsplit, hcall, hnoted, hleft, -⟩ :=
    nextFrame_amountsTo (r := r) [] steady ends (by rw [hwhole]; exact limited)
  rw [hwhole] at honly hnoted
  obtain rfl := (honly _).mp hframe
  rw [List.append_nil] at hcall
  rw [beforeMarker_of_cut hmark] at hnoted
  exact ⟨r', used, rest, hsplit, hcall, hleft _ _ rfl, hnoted⟩

end WorkerLink.Wire
