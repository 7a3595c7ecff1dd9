import WorkerLink.Proofs.Wire.Attempts

/-!
# Every byte of the output is accounted for

As long as its calls give frames, a reader loses nothing of the output and uses
nothing twice: what it has read are the frames that it has given, each with its
header and the stray bytes before it, and what is still buffered. Header values
may be of any length here.
-/

namespace WorkerLink.Wire

open RecentBytes (Noted)

/-- A part of an output that makes up one frame. -/
structure Stretch where
  /-- Stray bytes. -/
  noise : Bytes
  /-- The header value. -/
  field : Bytes
  payload : Bytes

def Stretch.bytes (s : Stretch) : Bytes :=
  s.noise ++ Frame.marker ++ s.field ++ Frame.terminator ++ s.payload

/-- A call has given the frame of a stretch, and what it put into the diagnostics is what its reads
took from the error stream and the stray bytes of the stretch. -/
structure Attempt.Takes (a : Attempt) (s : Stretch) : Prop where
  result : a.result = .ok ⟨s.payload⟩
  noise : ¬ Frame.marker <:+: s.noise
  field : ¬ Frame.terminator <:+: s.field
  length : Frame.parseLength? s.field = some s.payload.length
  noted : Noted a.before.diagnostics a.after.diagnostics (a.used.flatMap Read.stderr) s.noise

/-- A call that gives a frame has seen a stretch and what it leaves buffered. -/
theorem exists_stretch [Memory] {r r' : Reader} {used rest : List Read} {frame : Frame}
    (h : r.nextFrame (used ++ rest) = some (.ok frame, r', rest)) :
    ∃ s, Attempt.Takes ⟨r, used, .ok frame, r'⟩ s ∧
      r.buffered ++ used.flatMap Read.output = s.bytes ++ r'.buffered := by
  obtain ⟨_, hends, hnoted⟩ := nextFrame_used h
  cases hends with
  | frame hread =>
    obtain ⟨noise, t, field, hmark, hterm, hlength, -⟩ := read_eq_ok_iff.mp hread
    rw [beforeMarker_of_cut (Bytes.cut?_eq_some_iff.mpr hmark)] at hnoted
    have hmarker : Frame.marker ≠ [] := by decide
    have hterminator : Frame.terminator ≠ [] := by decide
    refine ⟨⟨noise, field, frame.payload⟩, ⟨rfl, hmark.not_infix hmarker,
      hterm.not_infix hterminator, hlength, hnoted⟩, ?_⟩
    rw [hmark.split, hterm.split]
    simp only [Stretch.bytes, List.append_assoc]

/-- However the output is read, what a reader had carried over and all that it has read are the
stretches of the frames it has given, in order, and what is still buffered. Each call has put the
stray bytes of its own stretch into the diagnostics. -/
theorem bytes_accounted_for [Memory] {r r' : Reader} {reads rest : List Read}
    {attempts : List Attempt} (calls : Attempts r reads attempts r' rest)
    (served : ∀ a ∈ attempts, ∃ frame, a.result = .ok frame) :
    reads = attempts.flatMap Attempt.used ++ rest ∧
    ∃ stretches, List.Forall₂ Attempt.Takes attempts stretches ∧
      r.buffered ++ (attempts.flatMap Attempt.used).flatMap Read.output =
        stretches.flatMap Stretch.bytes ++ r'.buffered := by
  refine ⟨calls.reads_eq, ?_⟩
  induction calls with
  | none r reads => exact ⟨[], .nil, List.append_nil _⟩
  | error _ =>
    obtain ⟨_, hserved⟩ := served _ (List.mem_singleton_self _)
    cases hserved
  | @frame r r' r'' used left rest frame attempts hcall _ ih =>
    obtain ⟨stretches, htakes, hlater⟩ := ih fun a ha => served a (List.mem_cons_of_mem _ ha)
    obtain ⟨s, hs, hseen⟩ := exists_stretch hcall
    refine ⟨s :: stretches, .cons hs htakes, ?_⟩
    calc r.buffered ++ ((⟨r, used, .ok frame, r'⟩ :: attempts).flatMap Attempt.used).flatMap
            Read.output
        = (r.buffered ++ used.flatMap Read.output) ++
            (attempts.flatMap Attempt.used).flatMap Read.output := by
          rw [List.flatMap_cons, List.flatMap_append, List.append_assoc]
      _ = s.bytes ++ (r'.buffered ++ (attempts.flatMap Attempt.used).flatMap Read.output) := by
          rw [hseen, List.append_assoc]
      _ = (s :: stretches).flatMap Stretch.bytes ++ r''.buffered := by
          rw [hlater, List.flatMap_cons, List.append_assoc]

attribute [local instance] Memory.kilobyte

/-- A frame of two bytes whose header value is longer than what is waited for, and an empty frame.
The reads cut both markers, and two bytes are read past the frames. -/
theorem bytes_accounted_for_two_frames :
    let padded : Bytes := Frame.marker ++ List.replicate 70 48 ++ [50] ++ Frame.terminator
    let s : Bytes := [10] ++ padded ++ [123, 125, 67] ++ Frame.encode [] ++ [88, 89]
    let used : List Read := [⟨[7], .ok (s.take 9), true⟩, ⟨[], .ok [], true⟩,
      ⟨[], .ok ((s.drop 9).take 97), true⟩]
    let more : List Read := [⟨[8], .ok (s.drop 106), false⟩]
    let r : Reader := { diagnostics := { capacity := 4 } }
    ∃ r' r'' stretches,
      let attempts := [⟨r, used, .ok ⟨[123, 125]⟩, r'⟩, ⟨r', more, .ok ⟨[]⟩, r''⟩]
      Attempts r (used ++ (more ++ [])) attempts r'' [] ∧
      (∀ a ∈ attempts, ∃ frame, a.result = .ok frame) ∧
      List.Forall₂ Attempt.Takes attempts stretches ∧
      s = stretches.flatMap Stretch.bytes ++ r''.buffered ∧ r''.buffered = [88, 89] := by
  intro padded s used more r
  have hwhole : r.buffered ++ (used ++ (more ++ [])).flatMap Read.output = s := by decide +kernel
  have hfirst : (r.nextFrame (used ++ (more ++ []))).map (fun call => (call.1, call.2.2)) =
      some (.ok ⟨[123, 125]⟩, more ++ []) := by decide +kernel
  have hsecond : ((r.nextFrame (used ++ (more ++ []))).bind fun call =>
      (call.2.1.nextFrame call.2.2).map fun next => (next.1, next.2.1.buffered, next.2.2)) =
      some (.ok ⟨[]⟩, [88, 89], []) := by decide +kernel
  obtain ⟨⟨_, r', _⟩, hcall, hgiven⟩ := Option.map_eq_some_iff.mp hfirst
  cases hgiven
  rw [hcall, Option.bind_some] at hsecond
  obtain ⟨⟨_, r'', _⟩, hcall', hgiven'⟩ := Option.map_eq_some_iff.mp hsecond
  simp only [Prod.mk.injEq] at hgiven'
  obtain ⟨rfl, hleft, rfl⟩ := hgiven'
  have calls := Attempts.frame hcall (.frame hcall' (.none r'' []))
  have served : ∀ a ∈ ([⟨r, used, .ok ⟨[123, 125]⟩, r'⟩,
      ⟨r', more, .ok ⟨[]⟩, r''⟩] : List Attempt), ∃ frame, a.result = .ok frame := by
    simp
  obtain ⟨-, stretches, htakes, hall⟩ := bytes_accounted_for calls served
  exact ⟨r', r'', stretches, calls, served, htakes, hwhole.symm.trans hall, hleft⟩

end WorkerLink.Wire
