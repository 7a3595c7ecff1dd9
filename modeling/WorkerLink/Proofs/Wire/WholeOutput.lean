import WorkerLink.Proofs.Bytes.Retention
import WorkerLink.Proofs.Wire.Pieces

/-!
# A call reads the whole output

However the output of a worker is cut into reads, a call of the reader comes to
what `read` makes of the bytes carried over and all that are to come, as long as
a header value that ends is within the limit (`nextFrame_whole`).

A scan either goes through the reads, and then still waits for what all of them
amount to, or it ends inside them with the result of the whole (`resume_reads`).
On the way the diagnostics are given the bytes of the error stream and the bytes
before the marker, each in order, in whatever mixture the reads bring
(`Noted`).
-/

namespace WorkerLink

/-- `Mixes a b c`: the elements of `a` and those of `b`, each in their order, make up `c`. -/
inductive Mixes {β : Type} : List β → List β → List β → Prop
  | nil : Mixes [] [] []
  | first {x : β} {a b c : List β} : Mixes a b c → Mixes (x :: a) b (x :: c)
  | second {x : β} {a b c : List β} : Mixes a b c → Mixes a (x :: b) (x :: c)

namespace Mixes

variable {β : Type} {a b c : List β}

theorem append_first (h : Mixes a b c) (more : List β) : Mixes (a ++ more) b (c ++ more) := by
  induction h with
  | nil =>
    induction more with
    | nil => exact .nil
    | cons x more ih => exact .first ih
  | first _ ih => exact .first ih
  | second _ ih => exact .second ih

theorem append_second (h : Mixes a b c) (more : List β) : Mixes a (b ++ more) (c ++ more) := by
  induction h with
  | nil =>
    induction more with
    | nil => exact .nil
    | cons x more ih => exact .second ih
  | first _ ih => exact .first ih
  | second _ ih => exact .second ih

theorem eq_of_first_nil (h : Mixes [] b c) : c = b := by
  generalize ha : ([] : List β) = a at h
  induction h with
  | nil => rfl
  | first _ _ => cases ha
  | second _ ih => rw [ih ha]

theorem length_eq (h : Mixes a b c) : c.length = a.length + b.length := by
  induction h with
  | nil => rfl
  | first _ ih =>
    rw [List.length_cons, List.length_cons, ih]
    omega
  | second _ ih =>
    rw [List.length_cons, List.length_cons, ih]
    omega

end Mixes

namespace RecentBytes

theorem appendAll_snoc (r : RecentBytes) (pieces : List Bytes) (piece : Bytes) :
    r.appendAll (pieces ++ [piece]) = (r.appendAll pieces).append piece := by
  simp only [appendAll, List.foldl_append, List.foldl_cons, List.foldl_nil]

/-- What fits may come in any number of pieces. -/
theorem appendAll_of_fits {r : RecentBytes} {pieces : List Bytes}
    (h : r.bytes.length + pieces.flatten.length ≤ r.capacity) :
    r.appendAll pieces = { r with bytes := r.bytes ++ pieces.flatten } := by
  induction pieces generalizing r with
  | nil => simp [appendAll]
  | cons piece pieces ih =>
    rw [List.flatten_cons, List.length_append] at h
    have htail : r.appendAll (piece :: pieces) = (r.append piece).appendAll pieces := rfl
    have hpiece : r.append piece = { r with bytes := r.bytes ++ piece } :=
      append_of_fits (by omega)
    rw [htail, hpiece, ih, List.flatten_cons, List.append_assoc]
    simp only [List.length_append]
    omega

/-- Since the record was `d` it has been given the bytes `stderr` of an error stream and the stray
bytes `stray`, in pieces of either. -/
def Noted (d d' : RecentBytes) (stderr stray : Bytes) : Prop :=
  ∃ pieces, d' = d.appendAll pieces ∧ Mixes stderr stray pieces.flatten

section Noted

variable {d d' : RecentBytes} {stderr stray : Bytes}

theorem Noted.refl (d : RecentBytes) : Noted d d [] [] := ⟨[], rfl, .nil⟩

theorem Noted.append_stderr (h : Noted d d' stderr stray) (bytes : Bytes) :
    Noted d (d'.append bytes) (stderr ++ bytes) stray := by
  obtain ⟨pieces, rfl, hmixes⟩ := h
  refine ⟨pieces ++ [bytes], (appendAll_snoc d pieces bytes).symm, ?_⟩
  rw [List.flatten_append, List.flatten_singleton]
  exact hmixes.append_first bytes

theorem Noted.append_stray (h : Noted d d' stderr stray) (bytes : Bytes) :
    Noted d (d'.append bytes) stderr (stray ++ bytes) := by
  obtain ⟨pieces, rfl, hmixes⟩ := h
  refine ⟨pieces ++ [bytes], (appendAll_snoc d pieces bytes).symm, ?_⟩
  rw [List.flatten_append, List.flatten_singleton]
  exact hmixes.append_second bytes

/-- Where there is room for all, all is there. -/
theorem Noted.of_fits (h : Noted d d' stderr stray)
    (room : d.bytes.length + stderr.length + stray.length ≤ d.capacity) :
    ∃ mixture, Mixes stderr stray mixture ∧ d' = { d with bytes := d.bytes ++ mixture } := by
  obtain ⟨pieces, rfl, hmixes⟩ := h
  have hlength := hmixes.length_eq
  exact ⟨pieces.flatten, hmixes, appendAll_of_fits (by omega)⟩

/-- Nothing changes the record as long as it is given nothing. -/
theorem Noted.eq_of_nothing (h : Noted d d' [] []) : d' = d := by
  obtain ⟨pieces, rfl, hmixes⟩ := h
  have hnothing := hmixes.eq_of_first_nil
  clear hmixes
  induction pieces with
  | nil => rfl
  | cons piece pieces ih =>
    rw [List.flatten_cons, List.append_eq_nil_iff] at hnothing
    have htail : d.appendAll (piece :: pieces) = (d.append piece).appendAll pieces := rfl
    rw [htail, hnothing.1, append_nil, ih hnothing.2]

end Noted

end RecentBytes

namespace Wire

open RecentBytes (Noted)

/-- What has been put aside of the bytes seen since the last frame. -/
def stray (seen : Bytes) : Bytes :=
  match Bytes.cut? Frame.marker seen with
  | some (noise, _) => noise
  | none => Bytes.aside (Frame.marker.length - 1) seen

theorem stray_of_cut {seen noise t : Bytes} (h : Bytes.cut? Frame.marker seen = some (noise, t)) :
    stray seen = noise := by
  simp only [stray, h]

/-- One more piece adds to what was put aside just what its advance passes over. -/
theorem Waiting.stray_append [Memory] {scan : Scan} {buffered seen : Bytes}
    (w : Waiting scan buffered seen) (bytes : Bytes) :
    stray (seen ++ bytes) = stray seen ++ (scan.advance (buffered ++ bytes)).stray := by
  cases w with
  | header hnone =>
    have hcut := Bytes.cut?_append_of_none hnone bytes
    simp only [stray, hnone, Scan.advance, Scan.advanceHeader]
    cases hb : Bytes.cut? Frame.marker (seen.last (Frame.marker.length - 1) ++ bytes) with
    | none =>
      rw [hb, Option.map_none] at hcut
      simp only [hcut]
      exact Bytes.aside_append _ seen bytes
    | some found =>
      rw [hb, Option.map_some] at hcut
      simp only [hcut]
  | terminator hmark _ _ =>
    rw [stray_of_cut hmark, stray_of_cut (Bytes.cut?_append_of_some hmark bytes)]
    exact (List.append_nil _).symm
  | body hmark _ _ _ _ _ _ =>
    rw [stray_of_cut hmark, stray_of_cut (Bytes.cut?_append_of_some hmark bytes)]
    exact (List.append_nil _).symm

/-- The bytes before the first marker: all bytes, if there is none. -/
def beforeMarker (s : Bytes) : Bytes :=
  match Bytes.cut? Frame.marker s with
  | some (noise, _) => noise
  | none => s

theorem beforeMarker_of_cut {s noise t : Bytes}
    (h : Bytes.cut? Frame.marker s = some (noise, t)) : beforeMarker s = noise := by
  simp only [beforeMarker, h]

/-- At the end of the output the rest of what stands before the marker is put aside. -/
theorem Waiting.stray_ended [Memory] {scan : Scan} {buffered seen : Bytes}
    (w : Waiting scan buffered seen) :
    stray seen ++ (scan.ended buffered).stray = beforeMarker seen := by
  cases w with
  | header hnone =>
    have hrest : (Scan.header.ended (seen.last (Frame.marker.length - 1))).stray =
        seen.last (Frame.marker.length - 1) := by
      simp only [Scan.ended]
      split
      · next hnil => exact hnil.symm
      · rfl
    rw [hrest]
    simp only [stray, beforeMarker, hnone]
    exact Bytes.aside_append_last _ seen
  | terminator hmark _ _ =>
    rw [stray_of_cut hmark, beforeMarker_of_cut hmark]
    exact List.append_nil _
  | body hmark _ _ _ _ _ _ =>
    rw [stray_of_cut hmark, beforeMarker_of_cut hmark]
    exact List.append_nil _

/-- Nothing stays buffered of an output without a marker. -/
theorem ended_without_marker {scan : Scan} {buffered kept : Bytes} {error : FrameError}
    (h : (scan.ended buffered).pull = .done (.error error) kept)
    (without : error = .endOfStream ∨ error = .missingHeader) : kept = [] := by
  cases scan with
  | header =>
    unfold Scan.ended at h
    dsimp only at h
    split at h <;> cases h <;> rfl
  | terminator =>
    cases h
    rcases without with h | h <;> cases h
  | body n parts missing =>
    cases h
    rcases without with h | h <;> cases h

/-- A value of the first header that ends is within the limit. -/
def Limited (s : Bytes) : Prop :=
  ∀ noise field body, Headed s noise field body → field.length ≤ Frame.maxFieldLength

variable [Memory]

/-- Where a call gives up before the output ends, more output does not change its error. -/
theorem read_append_of_error {s t : Bytes} {error : FrameError} (h : read s = .error error)
    (refused : (∃ text, error = .invalidLength text) ∨ ∃ n, error = .allocation n)
    (limited : Limited (s ++ t)) : read (s ++ t) = .error error := by
  cases hmark : Bytes.cut? Frame.marker s with
  | none =>
    rw [read, hmark] at h
    have he := Except.error.inj h
    split at he <;> subst he <;> rcases refused with ⟨_, hr⟩ | ⟨_, hr⟩ <;> cases hr
  | some found =>
    obtain ⟨noise, u⟩ := found
    have hmark' := Bytes.cut?_append_of_some hmark t
    rw [read_of_marker hmark] at h
    rw [read_of_marker hmark']
    cases hterm : Bytes.cut? Frame.terminator u with
    | some found =>
      obtain ⟨field, body⟩ := found
      rw [readHeader_of_terminator hterm] at h
      rw [readHeader_of_terminator (Bytes.cut?_append_of_some hterm t)]
      exact readBody_error h refused (body ++ t)
    | none =>
      simp only [readHeader, hterm] at h
      split at h
      · next hlong =>
        have hfirst : (u ++ t).take Frame.maxFieldLength = u.take Frame.maxFieldLength :=
          List.take_append_of_le_length (by unfold headerLimit at hlong; omega)
        cases hterm' : Bytes.cut? Frame.terminator (u ++ t) with
        | none =>
          rw [readHeader, hterm', hfirst, if_pos (by rw [List.length_append]; omega)]
          exact h
        | some found =>
          -- A terminator that comes only now would end a value beyond the limit.
          obtain ⟨field, body⟩ := found
          have hfield := limited noise field body ⟨u ++ t, hmark', hterm'⟩
          rcases Bytes.cut?_of_append hterm' with ⟨hshort, -⟩ | ⟨rest, -, hsome⟩
          · unfold headerLimit at hlong
            omega
          · rw [hterm] at hsome
            cases hsome
      · cases h
        rcases refused with ⟨_, hr⟩ | ⟨_, hr⟩ <;> cases hr

/-- A call has come to what the output `s` comes to, with the reads `rest` left. Before the end of
the output it gives up only over a header. -/
structure Comes (s : Bytes) (result : Except FrameError Frame) (r : Reader) (rest : List Read) :
    Prop where
  result : result = (read s).map Prod.fst
  left : ∀ frame t, read s = .ok (frame, t) → r.buffered ++ rest.flatMap Read.output = t
  early : ∀ error, read s = .error error →
    (∃ text, error = .invalidLength text) ∨ ∃ n, error = .allocation n

/-- An advance that gives a result gives that of the whole output, whatever follows. -/
theorem Agrees.comes {scan : Scan} {seen bytes kept : Bytes} {result : Except FrameError Frame}
    {r : Reader} {rest : List Read} (agrees : Agrees seen (scan.advance bytes).pull)
    (pull : (scan.advance bytes).pull = .done result kept) (buffered : r.buffered = kept)
    (limited : Limited (seen ++ rest.flatMap Read.output)) :
    Comes (seen ++ rest.flatMap Read.output) result r rest := by
  rw [pull] at agrees
  cases result with
  | ok frame =>
    have hread : read seen = .ok (frame, kept) := agrees
    have hall := read_append hread (rest.flatMap Read.output)
    refine ⟨by rw [hall]; rfl, ?_, ?_⟩
    · intro f t ht
      rw [hall] at ht
      cases ht
      rw [buffered]
    · intro error he
      rw [hall] at he
      cases he
  | error error =>
    have hread : read seen = .error error := agrees
    have hrefused := advance_error pull
    have hall := read_append_of_error hread hrefused limited
    refine ⟨by rw [hall]; rfl, ?_, ?_⟩
    · intro f t ht
      rw [hall] at ht
      cases ht
    · intro other he
      rw [hall] at he
      cases he
      exact hrefused

/-- Where a scan ends before the output does, it has found the marker. -/
theorem Agrees.stray_eq {scan : Scan} {seen bytes kept : Bytes} {result : Except FrameError Frame}
    (agrees : Agrees seen (scan.advance bytes).pull)
    (pull : (scan.advance bytes).pull = .done result kept) (t : Bytes) :
    stray seen = beforeMarker (seen ++ t) := by
  cases hmark : Bytes.cut? Frame.marker seen with
  | some found => rw [stray_of_cut hmark, beforeMarker_of_cut (Bytes.cut?_append_of_some hmark t)]
  | none =>
    rw [pull] at agrees
    cases result with
    | ok frame =>
      have hread : read seen = .ok (frame, kept) := agrees
      rw [read, hmark] at hread
      cases hread
    | error error =>
      have hread : read seen = .error error := agrees
      rw [read, hmark] at hread
      have he := Except.error.inj hread
      split at he <;> subst he <;> rcases advance_error pull with ⟨_, hr⟩ | ⟨_, hr⟩ <;> cases hr

section Reads

variable {scan : Scan} {r : Reader} {seen s stderr : Bytes} {reads later : List Read}
  {d : RecentBytes} {answer : Option (Except FrameError Frame × Reader × List Read)}

/-- How a call fares in the output `s`, which ends with `reads`: it goes through all of them and
still waits, or it ends inside them with what `s` comes to. The error stream gave `stderr` before
these reads, and the diagnostics were `d` before the call. -/
inductive Fares (d : RecentBytes) (stderr s : Bytes) (reads later : List Read)
    (answer : Option (Except FrameError Frame × Reader × List Read)) : Prop
  | waits {scan : Scan} {r : Reader} :
      answer = Reader.resume scan r later → Waiting scan r.buffered s →
      Noted d r.diagnostics (stderr ++ reads.flatMap Read.stderr) (stray s) →
      Fares d stderr s reads later answer
  | ends {result : Except FrameError Frame} {r : Reader} {used rest : List Read} :
      reads = used ++ rest → answer = some (result, r, rest ++ later) → Comes s result r rest →
      Noted d r.diagnostics (stderr ++ used.flatMap Read.stderr) (beforeMarker s) →
      Fares d stderr s reads later answer

theorem Fares.cons {read : Read} (h : Fares d (stderr ++ read.stderr) s reads later answer) :
    Fares d stderr s (read :: reads) later answer := by
  cases h with
  | waits hanswer hwaits hnoted =>
    refine .waits hanswer hwaits ?_
    rw [List.flatMap_cons, ← List.append_assoc]
    exact hnoted
  | @ends _ _ used rest hsplit hanswer hcomes hnoted =>
    have hmore : read :: reads = (read :: used) ++ rest := by rw [hsplit, List.cons_append]
    refine .ends hmore hanswer hcomes ?_
    rw [List.flatMap_cons, ← List.append_assoc]
    exact hnoted

/-- Where an advance gives a result, it is that of the whole output. -/
theorem Waiting.fares_of_done {bytes buffered kept : Bytes} {result : Except FrameError Frame}
    (w : Waiting scan buffered seen) (noted : Noted d r.diagnostics stderr (stray seen))
    (limited : Limited (seen ++ bytes ++ reads.flatMap Read.output))
    (pull : (scan.advance (buffered ++ bytes)).pull = .done result kept)
    (answers : answer =
      some (result, r.absorb (scan.advance (buffered ++ bytes)), reads ++ later)) :
    Fares d stderr (seen ++ bytes ++ reads.flatMap Read.output) reads later answer := by
  have hnoted := noted.append_stray (scan.advance (buffered ++ bytes)).stray
  have hkept : (r.absorb (scan.advance (buffered ++ bytes))).buffered = kept := by
    simp only [Reader.absorb, pull]
  have hcomes := (w.advance bytes).comes pull hkept limited
  rw [← w.stray_append, (w.advance bytes).stray_eq pull] at hnoted
  have hnone : reads = [] ++ reads := rfl
  refine .ends hnone answers hcomes ?_
  rw [List.flatMap_nil, List.append_nil]
  exact hnoted

/-- A scan goes through all the reads, or it ends inside them with what the whole output comes
to. -/
theorem resume_reads (later : List Read) (w : Waiting scan r.buffered seen)
    (steady : ∀ read ∈ reads, read.Steady) (limited : Limited (seen ++ reads.flatMap Read.output))
    (noted : Noted d r.diagnostics stderr (stray seen)) :
    Fares d stderr (seen ++ reads.flatMap Read.output) reads later
      (Reader.resume scan r (reads ++ later)) := by
  induction reads generalizing scan r seen stderr with
  | nil =>
    refine .waits rfl ?_ ?_
    · rw [List.flatMap_nil, List.append_nil]
      exact w
    · rw [List.flatMap_nil, List.flatMap_nil, List.append_nil, List.append_nil]
      exact noted
  | cons read reads ih =>
    have hread : read.Steady := steady read List.mem_cons_self
    have hsteady : ∀ other ∈ reads, other.Steady := fun other ho =>
      steady other (List.mem_cons_of_mem read ho)
    have hnoted := noted.append_stderr read.stderr
    rw [List.flatMap_cons, ← List.append_assoc] at limited ⊢
    rw [List.cons_append]
    apply Fares.cons
    by_cases hempty : read.output = []
    · rw [resume_of_empty hread hempty]
      rw [hempty, List.append_nil] at limited ⊢
      exact ih w hsteady limited hnoted
    · cases hpull : (scan.advance (r.buffered ++ read.output)).pull with
      | more scan' kept =>
        rw [resume_of_more hread hempty hpull]
        have hagrees := w.advance read.output
        rw [hpull] at hagrees
        have hstray := hnoted.append_stray (scan.advance (r.buffered ++ read.output)).stray
        rw [← w.stray_append] at hstray
        refine ih ?_ hsteady limited hstray
        simp only [Reader.absorb, hpull]
        exact hagrees
      | done result kept =>
        exact w.fares_of_done (r := r.keepStderr read.stderr) hnoted limited hpull
          (resume_of_done hread hempty hpull)

/-- The same of a call from its start. -/
theorem nextFrame_reads (later : List Read) (steady : ∀ read ∈ reads, read.Steady)
    (limited : Limited (r.buffered ++ reads.flatMap Read.output)) :
    Fares r.diagnostics [] (r.buffered ++ reads.flatMap Read.output) reads later
      (r.nextFrame (reads ++ later)) := by
  have hstart : stray [] = [] := by decide
  have hnoted : Noted r.diagnostics r.diagnostics [] (stray []) := by
    rw [hstart]
    exact .refl r.diagnostics
  cases hpull : (Scan.header.advance r.buffered).pull with
  | more scan kept =>
    have hagrees : Agrees r.buffered (Scan.header.advance r.buffered).pull :=
      waiting_start.advance r.buffered
    rw [hpull] at hagrees
    have hcall : r.nextFrame (reads ++ later) =
        Reader.resume scan (r.absorb (Scan.header.advance r.buffered)) (reads ++ later) := by
      simp only [Reader.nextFrame, hpull]
    have hstray := hnoted.append_stray (Scan.header.advance r.buffered).stray
    have hseen : stray r.buffered = stray [] ++ (Scan.header.advance r.buffered).stray :=
      waiting_start.stray_append r.buffered
    rw [← hseen] at hstray
    rw [hcall]
    refine resume_reads later ?_ steady limited hstray
    simp only [Reader.absorb, hpull]
    exact hagrees
  | done result kept =>
    have hanswer : r.nextFrame (reads ++ later) =
        some (result, r.absorb (Scan.header.advance ([] ++ r.buffered)), reads ++ later) := by
      simp only [Reader.nextFrame, List.nil_append, hpull]
    exact waiting_start.fares_of_done hnoted limited hpull hanswer

/-- A call that sees the end of the output has come to what all of it comes to, and the diagnostics
have been given what stands before the first marker. -/
theorem nextFrame_whole {last : Read} (later : List Read) (steady : ∀ read ∈ reads, read.Steady)
    (ends : last.Last) (limited : Limited (r.buffered ++ reads.flatMap Read.output)) :
    ∃ r' used rest, reads ++ [last] = used ++ rest ∧
      r.nextFrame (reads ++ last :: later) =
        some ((read (r.buffered ++ reads.flatMap Read.output)).map Prod.fst, r', rest ++ later) ∧
      Noted r.diagnostics r'.diagnostics (used.flatMap Read.stderr)
        (beforeMarker (r.buffered ++ reads.flatMap Read.output)) ∧
      (∀ frame t, read (r.buffered ++ reads.flatMap Read.output) = .ok (frame, t) →
        r'.buffered ++ rest.flatMap Read.output = t) ∧
      ∀ error, read (r.buffered ++ reads.flatMap Read.output) = .error error →
        error = .endOfStream ∨ error = .missingHeader → r'.buffered = [] ∧ rest = [] := by
  have hfares := nextFrame_reads (last :: later) steady limited
  generalize r.buffered ++ reads.flatMap Read.output = s at hfares ⊢
  have hlast : last.output = [] := by simp only [Read.output, ends.ok]
  cases hfares with
  | @ends result r' used rest hsplit hanswer hcomes hnoted =>
    refine ⟨r', used, rest ++ [last], ?_, ?_, hnoted, ?_, ?_⟩
    · rw [hsplit, List.append_assoc]
    · rw [hanswer, hcomes.result, List.append_assoc, List.singleton_append]
    · intro frame t ht
      rw [List.flatMap_append, List.flatMap_singleton, hlast, List.append_nil]
      exact hcomes.left frame t ht
    · intro error he without
      rcases hcomes.early error he with ⟨_, rfl⟩ | ⟨_, rfl⟩ <;> rcases without with h | h <;> cases h
  | @waits scan r' hanswer hwaits hnoted =>
    obtain ⟨error, kept, hpull, hread⟩ := hwaits.ended
    have hstray := (hnoted.append_stderr last.stderr).append_stray (scan.ended r'.buffered).stray
    rw [hwaits.stray_ended, List.nil_append] at hstray
    refine ⟨(r'.keepStderr last.stderr).absorb (scan.ended r'.buffered), reads ++ [last], [],
      (List.append_nil _).symm, ?_, ?_, ?_, ?_⟩
    · rw [hanswer, Reader.resume, ends.ok, ends.dead, hread]
      simp only [Reader.keepStderr, hpull, Bool.false_eq_true, if_false, List.nil_append]
      rfl
    · rw [List.flatMap_append, List.flatMap_singleton]
      exact hstray
    · intro frame t ht
      rw [hread] at ht
      cases ht
    · intro other he without
      rw [hread] at he
      cases he
      have hnothing : kept = [] := ended_without_marker hpull without
      simp only [Reader.absorb, hpull, hnothing, and_self]

end Reads

end Wire

end WorkerLink
