import WorkerLink.Proofs.Wire.Encoding
import WorkerLink.Proofs.Wire.WholeOutput
import WorkerLink.Rehearsal.Script

/-!
# Frames come back as they were sent

A worker writes pieces: stray bytes and a frame each. However its output is cut
into reads, and whatever empty reads come in between, successive calls give back
the payloads; each call puts the stray bytes before its frame into the
diagnostics and nothing else (`round_trip`).

One call is the call on a whole output with a piece at its front (`nextFrame_due`).
The induction is on the pieces.
-/

namespace WorkerLink

/-- A read that neither fails nor takes anything from the error stream. -/
structure Read.Clean (read : Read) : Prop extends Read.Steady read where
  silent : read.stderr = []

theorem Read.flatMap_stderr {reads : List Read} (clean : ∀ read ∈ reads, read.Clean) :
    reads.flatMap Read.stderr = [] :=
  List.flatMap_eq_nil_iff.mpr fun read hread => (clean read hread).silent

/-- With room, a record that was given nothing from an error stream gained the stray bytes. -/
theorem RecentBytes.Noted.eq_append {d d' : RecentBytes} {stray : Bytes} (h : d.Noted d' [] stray)
    (room : d.bytes.length + stray.length ≤ d.capacity) : d' = d.append stray := by
  obtain ⟨mixture, hmixes, hbytes⟩ := h.of_fits room
  rw [append_of_fits room, hbytes, hmixes.eq_of_first_nil]

namespace Wire

section Calls

variable [Memory] {r : Reader} {noise left : Bytes} {frame : Frame} {reads : List Read}
  {d : RecentBytes}

theorem Due.read {s : Bytes} (due : Due s noise frame left) : read s = .ok (frame, left) := by
  obtain ⟨⟨t, hmark, hterm⟩, -, hbody⟩ := due
  rw [read_of_marker hmark, readHeader_of_terminator hterm, hbody]

theorem Due.beforeMarker_eq {s : Bytes} (due : Due s noise frame left) :
    beforeMarker s = noise := by
  obtain ⟨⟨t, hmark, -⟩, -, -⟩ := due
  exact beforeMarker_of_cut hmark

theorem Due.limited {s : Bytes} (due : Due s noise frame left) : Limited s := by
  obtain ⟨⟨t, hmark, hterm⟩, hshort, -⟩ := due
  rintro other field body ⟨u, hmark', hterm'⟩
  rw [hmark] at hmark'
  cases hmark'
  rw [hterm] at hterm'
  cases hterm'
  exact hshort

/-- A reader has the frame that was due: what follows it is still to come, and the diagnostics took
the bytes before it. -/
structure Took (d : RecentBytes) (noise left : Bytes) (r : Reader) (reads : List Read) : Prop where
  left : r.buffered ++ reads.flatMap Read.output = left
  diagnostics : r.diagnostics = d.append noise

/-- The frame that is due is the next one. -/
theorem nextFrame_due (later : List Read)
    (due : Due (r.buffered ++ reads.flatMap Read.output) noise frame left)
    (clean : ∀ read ∈ reads, read.Clean)
    (room : r.diagnostics.bytes.length + noise.length ≤ r.diagnostics.capacity) :
    ∃ r' rest, r.nextFrame (reads ++ later) = some (.ok frame, r', rest ++ later) ∧
      rest <:+ reads ∧ Took r.diagnostics noise left r' rest := by
  have hread := due.read
  cases nextFrame_reads later (fun read h => (clean read h).toSteady) due.limited with
  | waits _ hwaits _ =>
    -- All the bytes have been seen, so a scan could not wait any longer.
    obtain ⟨error, _, _, herror⟩ := hwaits.ended
    rw [hread] at herror
    cases herror
  | @ends result r' used rest hsplit hanswer hcomes hnoted =>
    have hresult := hcomes.result
    rw [hread] at hresult
    have hused : used.flatMap Read.stderr = [] :=
      Read.flatMap_stderr fun read h => clean read (hsplit ▸ List.mem_append_left rest h)
    rw [List.nil_append, hused, due.beforeMarker_eq] at hnoted
    refine ⟨r', rest, ?_, ⟨used, hsplit.symm⟩, hcomes.left frame left hread, hnoted.eq_append room⟩
    rw [hanswer, hresult]
    rfl

/-- At the end of an output that has been read off the next call says so. -/
theorem nextFrame_over {last : Read} (later : List Read)
    (ended : r.buffered ++ reads.flatMap Read.output = []) (clean : ∀ read ∈ reads, read.Clean)
    (ends : last.Last) (silent : last.stderr = []) :
    ∃ r', r.nextFrame (reads ++ last :: later) = some (.error .endOfStream, r', later) ∧
      r'.diagnostics = r.diagnostics := by
  have hread : read (r.buffered ++ reads.flatMap Read.output) = .error .endOfStream :=
    read_eq_endOfStream_iff.mpr ended
  have hlimited : Limited (r.buffered ++ reads.flatMap Read.output) := by
    have hnone : Bytes.cut? Frame.marker [] = none := by decide
    rw [ended]
    rintro noise field body ⟨t, hmark, -⟩
    rw [hnone] at hmark
    cases hmark
  have hbefore : beforeMarker [] = [] := by decide
  obtain ⟨r', used, rest, hsplit, hanswer, hnoted, -, hnothing⟩ :=
    nextFrame_whole later (fun read h => (clean read h).toSteady) ends hlimited
  obtain ⟨-, rfl⟩ := hnothing _ hread (.inl rfl)
  rw [hread, List.nil_append] at hanswer
  have hused : used.flatMap Read.stderr = [] := by
    rw [List.append_nil] at hsplit
    rw [← hsplit, List.flatMap_append, Read.flatMap_stderr clean, List.flatMap_singleton, silent]
    rfl
  rw [ended, hused, hbefore] at hnoted
  exact ⟨r', hanswer, hnoted.eq_of_nothing⟩

end Calls

/-- Whatever pieces a worker writes and however its output is cut into reads, successive calls give
back the payloads in order and then, once the worker is gone, the end of the stream. After each call
the diagnostics have gained the stray bytes of the pieces read so far. -/
theorem round_trip [Memory] {r : Reader} {pieces : List Piece} {reads later : List Read}
    {last : Read} (wire : r.buffered ++ reads.flatMap Read.output = pieces.flatMap Piece.wire)
    (clean : ∀ read ∈ reads, read.Clean) (ends : last.Last) (silent : last.stderr = [])
    (room : r.diagnostics.bytes.length + (pieces.flatMap Piece.noise).length ≤
      r.diagnostics.capacity) :
    let calls := Rehearsal.readFrames r (reads ++ last :: later) (pieces.length + 1)
    calls.map Prod.fst = pieces.map (fun piece => .ok ⟨piece.payload⟩) ++ [.error .endOfStream] ∧
      ∀ i call, calls[i]? = some call → call.2.diagnostics.bytes =
        r.diagnostics.bytes ++ (pieces.take (i + 1)).flatMap Piece.noise := by
  intro calls
  induction pieces generalizing r reads with
  | nil =>
    obtain ⟨r', hnext, hsame⟩ := nextFrame_over later wire clean ends silent
    have hcalls : calls = [(.error .endOfStream, r')] := by
      simp only [calls, List.length_nil, Rehearsal.readFrames, hnext]
    rw [hcalls]
    refine ⟨rfl, ?_⟩
    intro i call hcall
    obtain rfl : (.error .endOfStream, r') = call :=
      (List.mem_singleton.mp (List.mem_of_getElem? hcall)).symm
    rw [List.take_nil, List.flatMap_nil, List.append_nil, hsame]
  | cons piece pieces ih =>
    rw [List.flatMap_cons, List.length_append] at room
    rw [List.flatMap_cons] at wire
    have due := due_wire piece (pieces.flatMap Piece.wire)
    rw [← wire] at due
    obtain ⟨r', rest, hnext, hsuffix, htook⟩ :=
      nextFrame_due (last :: later) due clean (by omega)
    have hbytes : r'.diagnostics.bytes = r.diagnostics.bytes ++ piece.noise := by
      rw [htook.diagnostics, RecentBytes.append_of_fits (by omega)]
    have hroom : r'.diagnostics.bytes.length + (pieces.flatMap Piece.noise).length ≤
        r'.diagnostics.capacity := by
      rw [hbytes, htook.diagnostics, RecentBytes.append_capacity, List.length_append]
      omega
    obtain ⟨hresults, hgained⟩ :=
      ih htook.left (fun read hread => clean read (hsuffix.subset hread)) hroom
    have hcalls : calls = (.ok ⟨piece.payload⟩, r') ::
        Rehearsal.readFrames r' (rest ++ last :: later) (pieces.length + 1) := by
      simp only [calls, List.length_cons, Rehearsal.readFrames, hnext]
    rw [hcalls]
    refine ⟨?_, ?_⟩
    · rw [List.map_cons, List.map_cons, List.cons_append, hresults]
    · intro i call hcall
      cases i with
      | zero =>
        obtain rfl := Option.some.inj hcall
        rw [hbytes, List.take_succ_cons, List.take_zero, List.flatMap_cons, List.flatMap_nil,
          List.append_nil]
      | succ i =>
        rw [hgained i call hcall, hbytes, List.take_succ_cons, List.flatMap_cons,
          List.append_assoc]

attribute [local instance] Memory.kilobyte

/-- Two pieces: stray bytes that look like the start of a marker with a payload that looks like a
header, and an empty payload. The reads cut both markers, a header value and a terminator. -/
theorem round_trip_of_imitations :
    let marked : Piece := ⟨[67, 111, 110], Frame.marker ++ [32, 57] ++ Frame.terminator,
      by decide, by decide⟩
    let empty : Piece := ⟨[10], [], by decide, by decide⟩
    let s := marked.wire ++ empty.wire
    let reads : List Read := [⟨[], .ok [], true⟩, ⟨[], .ok (s.take 9), true⟩,
      ⟨[], .ok ((s.drop 9).take 11), true⟩, ⟨[], .ok [], true⟩,
      ⟨[], .ok ((s.drop 20).take 3), true⟩, ⟨[], .ok ((s.drop 23).take 30), true⟩,
      ⟨[], .ok (s.drop 53), false⟩]
    let calls := Rehearsal.readFrames { diagnostics := { capacity := 4 } }
      (reads ++ [⟨[], .ok [], false⟩]) 3
    calls.map Prod.fst = [.ok ⟨marked.payload⟩, .ok ⟨[]⟩, .error .endOfStream] ∧
      ∀ i call, calls[i]? = some call → call.2.diagnostics.bytes =
        ([marked, empty].take (i + 1)).flatMap Piece.noise := by
  intro marked empty s reads calls
  have wire : [] ++ reads.flatMap Read.output = [marked, empty].flatMap Piece.wire := by
    decide +kernel
  have clean : ∀ read ∈ reads, read.Clean := by
    have parts : ∀ read ∈ reads, read.result = .ok read.output ∧
        (read.output = [] → read.alive = true) ∧ read.stderr = [] := by decide +kernel
    intro read hread
    obtain ⟨hok, halive, hsilent⟩ := parts read hread
    exact ⟨⟨hok, halive⟩, hsilent⟩
  exact round_trip (r := { diagnostics := { capacity := 4 } }) wire clean ⟨rfl, rfl⟩ rfl
    (by decide +kernel)

end Wire

end WorkerLink
