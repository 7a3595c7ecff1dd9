import WorkerLink.Proofs.Wire.Conservation
import WorkerLink.Proofs.Wire.Outcomes

/-!
# What the diagnostics hold

The diagnostics of a reader are given the error stream and the noise: of every
call the bytes before the marker that it found, and all bytes where the output
ended without one. They are given nothing else, and lose only what they have no
room for. A fault is the one exception: the last bytes before it may be the
start of a marker, and are not put aside.
-/

namespace WorkerLink.Wire

open RecentBytes (Noted)

/-- The stray bytes among what a call has seen. -/
inductive Attempt.Noise (a : Attempt) : Bytes → Prop
  /-- There is a frame, and behind it what is carried over. -/
  | frame {s : Stretch} : a.Takes s → a.seen = s.bytes ++ a.after.buffered → Noise a s.noise
  /-- There is a marker, and no frame behind it. -/
  | marker {error : FrameError} {noise t : Bytes} : a.result = .error error →
      error ≠ .missingHeader → error ≠ .endOfStream →
      Bytes.Cuts Frame.marker a.seen noise t → Noise a noise
  /-- The output is over. -/
  | missingHeader : a.result = .error .missingHeader → ¬ Frame.marker <:+: a.seen → Noise a a.seen
  /-- There was nothing. -/
  | endOfStream : a.result = .error .endOfStream → a.seen = [] → Noise a []
  /-- There was a fault before any marker. -/
  | fault {fault : Fault} {noise tail : Bytes} : a.result = .error (.io fault) →
      ¬ Frame.marker <:+: a.seen → a.seen = noise ++ tail → tail.length < Frame.marker.length →
      Noise a noise

section Error

variable {a : Attempt} {error : FrameError}

/-- Where the bytes that a call has seen amount to its error, those before the marker are noise. -/
theorem noise_of_read [Memory] (result : a.result = .error error) (h : read a.seen = .error error) :
    a.Noise (beforeMarker a.seen) := by
  have hamounts := amountsTo_read a.seen
  rw [h] at hamounts
  have found {noise t : Bytes} (hmark : Bytes.Cuts Frame.marker a.seen noise t)
      (hheader : error ≠ .missingHeader) (hend : error ≠ .endOfStream) :
      a.Noise (beforeMarker a.seen) := by
    rw [beforeMarker_of_cut (Bytes.cut?_eq_some_iff.mpr hmark)]
    exact .marker result hheader hend hmark
  cases hamounts with
  | endOfStream hnil =>
    have hbefore : beforeMarker a.seen = [] := by rw [hnil]; rfl
    rw [hbefore]
    exact .endOfStream result hnil
  | missingHeader _ hnone =>
    have hbefore : beforeMarker a.seen = a.seen := by
      simp only [beforeMarker, Bytes.cut?_eq_none_iff_not_infix.mpr hnone]
    rw [hbefore]
    exact .missingHeader result hnone
  | missingTerminator hmark _ _ => exact found hmark (by simp) (by simp)
  | unterminated hmark _ _ => exact found hmark (by simp) (by simp)
  | invalidLength hmark _ _ => exact found hmark (by simp) (by simp)
  | allocation hmark _ _ _ => exact found hmark (by simp) (by simp)
  | truncated hmark _ _ _ _ => exact found hmark (by simp) (by simp)

/-- Where a call has failed, what it has put aside is noise. -/
theorem noise_of_fault {fault : Fault} (result : a.result = .error (.io fault)) :
    a.Noise (stray a.seen) := by
  cases hmark : Bytes.cut? Frame.marker a.seen with
  | some found =>
    rw [stray_of_cut hmark]
    exact .marker result nofun nofun (Bytes.cut?_eq_some_iff.mp hmark)
  | none =>
    have hstray : stray a.seen = Bytes.aside (Frame.marker.length - 1) a.seen := by
      simp only [stray, hmark]
    rw [hstray]
    refine .fault result (Bytes.cut?_eq_none_iff_not_infix.mp hmark)
      (Bytes.aside_append_last _ _).symm ?_
    have hmarker : Frame.marker.length = 15 := by decide
    rw [Bytes.length_last]
    omega

end Error

/-- A call that has come back has given its noise to the diagnostics. -/
theorem exists_noise [Memory] {r r' : Reader} {used rest : List Read}
    {result : Except FrameError Frame} (h : r.nextFrame (used ++ rest) = some (result, r', rest)) :
    ∃ noise, Attempt.Noise ⟨r, used, result, r'⟩ noise ∧
      Noted r.diagnostics r'.diagnostics (used.flatMap Read.stderr) noise := by
  cases result with
  | ok frame =>
    obtain ⟨s, htakes, hseen⟩ := exists_stretch h
    exact ⟨s.noise, .frame htakes hseen, htakes.noted⟩
  | error error =>
    obtain ⟨noise, hends, hnoted⟩ := nextFrame_used h
    refine ⟨noise, ?_, hnoted⟩
    cases hends with
    | error hread => exact noise_of_read rfl hread
    | fails => exact noise_of_fault rfl

/-- Calls have given the noise of each to the diagnostics, one after another. -/
theorem Attempts.noted [Memory] {r r' : Reader} {reads rest : List Read} {attempts : List Attempt}
    (calls : Attempts r reads attempts r' rest) :
    ∃ noises, List.Forall₂ Attempt.Noise attempts noises ∧
      Noted r.diagnostics r'.diagnostics ((attempts.flatMap Attempt.used).flatMap Read.stderr)
        noises.flatten := by
  induction calls with
  | none r reads => exact ⟨[], .nil, .refl _⟩
  | error hcall =>
    obtain ⟨noise, hnoise, hnoted⟩ := exists_noise hcall
    refine ⟨[noise], .cons hnoise .nil, ?_⟩
    rw [List.flatMap_singleton, List.flatten_singleton]
    exact hnoted
  | frame hcall _ ih =>
    obtain ⟨noise, hnoise, hnoted⟩ := exists_noise hcall
    obtain ⟨noises, hnoises, hlater⟩ := ih
    refine ⟨noise :: noises, .cons hnoise hnoises, ?_⟩
    rw [List.flatMap_cons, List.flatMap_append, List.flatten_cons]
    exact hnoted.trans hlater

/-- Whatever calls of a new reader have come back, its diagnostics hold the error stream of all the
reads that were used and the noise of all the calls, each byte once and each of the two in order, as
long as there is room for both. Otherwise they hold the newest bytes of such a mixture. -/
theorem diagnostics_complete_and_clean [Memory] {capacity : Nat} {r : Reader}
    {reads rest : List Read} {attempts : List Attempt}
    (calls : Attempts { diagnostics := { capacity } } reads attempts r rest) :
    let used := attempts.flatMap Attempt.used
    reads = used ++ rest ∧
    ∃ noises mixture, List.Forall₂ Attempt.Noise attempts noises ∧
      Mixes (used.flatMap Read.stderr) noises.flatten mixture ∧
      ((used.flatMap Read.stderr).length + noises.flatten.length ≤ capacity →
        r.diagnostics.bytes = mixture) ∧
      r.diagnostics.bytes <:+ mixture := by
  intro used
  obtain ⟨noises, hnoises, pieces, hdiagnostics, hmixes⟩ := calls.noted
  have hretains : r.diagnostics.Retains pieces.flatten := by
    rw [hdiagnostics]
    exact (RecentBytes.retains_empty capacity).appendAll pieces
  have hcapacity : r.diagnostics.capacity = capacity := by
    rw [hdiagnostics, RecentBytes.appendAll_capacity]
  refine ⟨calls.reads_eq, noises, pieces.flatten, hnoises, hmixes, ?_, hretains.newest⟩
  intro room
  refine hretains.complete ?_
  rw [hmixes.length_eq, hcapacity]
  exact room

attribute [local instance] Memory.kilobyte

/-- A stray byte, an empty frame and the start of stray output that a fault ends, with bytes of the
error stream at every read, the empty one and the failed one too. The last fourteen stray bytes are
not put aside. -/
theorem diagnostics_of_a_frame_and_a_fault :
    let fault : Fault := ⟨.brokenPipe, "broken pipe"⟩
    let s : Bytes := [10] ++ Frame.marker ++ [48] ++ Frame.terminator ++ [65, 66]
    let used : List Read := [⟨[1], .ok (s.take 4), true⟩, ⟨[2], .ok [], true⟩,
      ⟨[3], .ok (s.drop 4), true⟩]
    let more : List Read := [⟨[4], .ok (List.replicate 16 67), true⟩, ⟨[5], .error fault, true⟩]
    let r : Reader := { diagnostics := { capacity := 11 } }
    ∃ r' r'' noises mixture,
      let attempts := [⟨r, used, .ok ⟨[]⟩, r'⟩, ⟨r', more, .error (.io fault), r''⟩]
      Attempts r (used ++ (more ++ [])) attempts r'' [] ∧
      List.Forall₂ Attempt.Noise attempts noises ∧
      Mixes [1, 2, 3, 4, 5] noises.flatten mixture ∧
      (5 + noises.flatten.length ≤ 11 → r''.diagnostics.bytes = mixture) ∧
      r''.diagnostics.bytes = [1, 2, 3, 10, 4, 65, 66, 67, 67, 5] := by
  intro fault s used more r
  have hfirst : (r.nextFrame (used ++ (more ++ []))).map (fun call => (call.1, call.2.2)) =
      some (.ok ⟨[]⟩, more ++ []) := by decide +kernel
  have hsecond : ((r.nextFrame (used ++ (more ++ []))).bind fun call =>
      (call.2.1.nextFrame call.2.2).map fun next =>
        (next.1, next.2.1.diagnostics.bytes, next.2.2)) =
      some (.error (.io fault), [1, 2, 3, 10, 4, 65, 66, 67, 67, 5], []) := by decide +kernel
  obtain ⟨⟨_, r', _⟩, hcall, hgiven⟩ := Option.map_eq_some_iff.mp hfirst
  cases hgiven
  rw [hcall, Option.bind_some] at hsecond
  obtain ⟨⟨_, r'', _⟩, hcall', hgiven'⟩ := Option.map_eq_some_iff.mp hsecond
  simp only [Prod.mk.injEq] at hgiven'
  obtain ⟨rfl, hbytes, rfl⟩ := hgiven'
  have calls := Attempts.frame hcall (.error hcall')
  obtain ⟨-, noises, mixture, hnoises, hmixes, hroom, -⟩ := diagnostics_complete_and_clean calls
  exact ⟨r', r'', noises, mixture, calls, hnoises, hmixes, hroom, hbytes⟩

end WorkerLink.Wire
