import WorkerLink.Proofs.Wire.Scanning

/-!
# Silence and the error stream do not show

A read tells of the output by its bytes, by a fault, or by the end of the output
(`Sign`). An empty read of a handle that is alive tells nothing, and neither do
the bytes of the error stream. A reader behaves as one that is given the signs
alone (`observe_eq`), so readers over reads with the same signs cannot be told
apart by the frames and errors that they give (`silence_unnoticed`).
-/

namespace WorkerLink

/-- What a read may tell of the output. -/
inductive Sign
  | brings (bytes : Bytes)
  | fails (fault : Fault)
  /-- The output is over. -/
  | ends

def Sign.isFinal : Sign → Bool
  | .brings _ => false
  | .fails _ | .ends => true

def Read.sign? (read : Read) : Option Sign :=
  match read.result with
  | .error fault => some (.fails fault)
  | .ok [] => if read.alive then none else some .ends
  | .ok bytes => some (.brings bytes)

def signs (reads : List Read) : List Sign := reads.filterMap Read.sign?

namespace Reader

/-- What calls of a reader give, one after another and whatever each came to: the result, and whether
bytes are waiting after it. `none` means that the reads ran out. -/
def observe [Memory] (r : Reader) (reads : List Read) :
    Nat → Option (List (Except FrameError Frame × Bool))
  | 0 => some []
  | n + 1 =>
    match r.nextFrame reads with
    | none => none
    | some (result, r', rest) =>
      (r'.observe rest n).map fun answers => (result, r'.hasBuffered) :: answers

end Reader

namespace Wire

/-- What a call comes to, what it leaves buffered, and the signs after those that it has used. -/
abbrev Answer := Except FrameError Frame × Bytes × List Sign

def follow [Memory] (scan : Scan) (buffered : Bytes) : List Sign → Option Answer
  | [] => none
  | sign :: signs =>
    let settle (pull : Pull) : Option Answer :=
      match pull with
      | .more scan buffered => follow scan buffered signs
      | .done result buffered => some (result, buffered, signs)
    match sign with
    | .fails fault => some (.error (.io fault), buffered, signs)
    | .ends => settle (scan.ended buffered).pull
    | .brings bytes => settle (scan.advance (buffered ++ bytes)).pull

def nextOf [Memory] (buffered : Bytes) (signs : List Sign) : Option Answer :=
  match (Scan.header.advance buffered).pull with
  | .more scan buffered => follow scan buffered signs
  | .done result buffered => some (result, buffered, signs)

/-- What calls over signs alone give, one after another. -/
def observeOf [Memory] (buffered : Bytes) (signs : List Sign) :
    Nat → Option (List (Except FrameError Frame × Bool))
  | 0 => some []
  | n + 1 =>
    match nextOf buffered signs with
    | none => none
    | some (result, buffered', rest) =>
      (observeOf buffered' rest n).map fun answers => (result, !buffered'.isEmpty) :: answers

/-- A call of a reader without what it has made of the error stream. -/
def answerOf (call : Except FrameError Frame × Reader × List Read) : Answer :=
  (call.1, call.2.1.buffered, signs call.2.2)

section Calls

variable {scan : Scan} {r : Reader} {read : Read} {reads : List Read}

theorem signs_of_quiet (quiet : read.sign? = none) : signs (read :: reads) = signs reads :=
  List.filterMap_cons_none quiet

theorem signs_of_sign (sign : Sign) (tells : read.sign? = some sign) :
    signs (read :: reads) = sign :: signs reads := List.filterMap_cons_some tells

variable [Memory]

/-- A scan comes to the same over the signs of its reads. -/
theorem resume_eq_follow (scan : Scan) (r : Reader) (reads : List Read) :
    (Reader.resume scan r reads).map answerOf = follow scan r.buffered (signs reads) := by
  induction reads generalizing scan r with
  | nil => rfl
  | cons read reads ih =>
    obtain ⟨stderr, result, alive⟩ := read
    have settles (a : Advance) :
        (match a.pull with
          | .more scan _ => Reader.resume scan ((r.keepStderr stderr).absorb a) reads
          | .done result _ => some (result, (r.keepStderr stderr).absorb a, reads)).map answerOf =
        match a.pull with
          | .more scan buffered => follow scan buffered (signs reads)
          | .done result buffered => some (result, buffered, signs reads) := by
      cases hpull : a.pull with
      | more scan' buffered =>
        have hkept : ((r.keepStderr stderr).absorb a).buffered = buffered := by
          simp only [Reader.absorb, hpull]
        dsimp only
        rw [ih, hkept]
      | done result buffered =>
        simp only [Option.map_some, answerOf, Reader.absorb, hpull]
    cases result with
    | error fault =>
      rw [signs_of_sign (.fails fault) rfl]
      rfl
    | ok bytes =>
      cases bytes with
      | cons b bytes =>
        rw [signs_of_sign (.brings (b :: bytes)) rfl]
        exact settles (scan.advance (r.buffered ++ b :: bytes))
      | nil =>
        cases alive with
        | true =>
          rw [signs_of_quiet rfl]
          exact ih scan (r.keepStderr stderr)
        | false =>
          rw [signs_of_sign .ends rfl]
          exact settles (scan.ended r.buffered)

theorem nextFrame_eq_nextOf (r : Reader) (reads : List Read) :
    (r.nextFrame reads).map answerOf = nextOf r.buffered (signs reads) := by
  unfold Reader.nextFrame nextOf
  cases hpull : (Scan.header.advance r.buffered).pull with
  | more scan buffered =>
    have hkept : (r.absorb (Scan.header.advance r.buffered)).buffered = buffered := by
      simp only [Reader.absorb, hpull]
    dsimp only
    rw [hpull]
    dsimp only
    rw [resume_eq_follow, hkept]
  | done result buffered => simp only [hpull, Option.map_some, answerOf, Reader.absorb]

/-- Calls of a reader give what the signs of its reads alone give. -/
theorem observe_eq (r : Reader) (reads : List Read) (n : Nat) :
    r.observe reads n = observeOf r.buffered (signs reads) n := by
  induction n generalizing r reads with
  | zero => rfl
  | succ n ih =>
    have hcall := nextFrame_eq_nextOf r reads
    rw [Reader.observe, observeOf, ← hcall]
    cases r.nextFrame reads with
    | none => rfl
    | some call => simp only [Option.map_some, answerOf, ih, Reader.hasBuffered]

end Calls

section Returning

variable {scan : Scan} {buffered : Bytes} {signs : List Sign}

/-- So many calls are sure to come back over these signs. -/
def finals (signs : List Sign) : Nat := signs.countP Sign.isFinal

theorem finals_cons (sign : Sign) (signs : List Sign) :
    finals (sign :: signs) = finals signs + if sign.isFinal then 1 else 0 := List.countP_cons

variable [Memory]

/-- A scan comes back at the first final sign at the latest. -/
theorem exists_follow (scan : Scan) (buffered : Bytes) {signs : List Sign}
    (enough : 0 < finals signs) : ∃ result left rest,
      follow scan buffered signs = some (result, left, rest) ∧ finals signs ≤ finals rest + 1 := by
  induction signs generalizing scan buffered with
  | nil => exact absurd enough (Nat.lt_irrefl 0)
  | cons sign signs ih =>
    rw [finals_cons] at enough ⊢
    cases sign with
    | fails fault => exact ⟨_, _, _, rfl, Nat.le_refl _⟩
    | ends =>
      obtain ⟨error, left, hpull⟩ := exists_ended scan buffered
      exact ⟨.error error, left, signs, by simp only [follow, hpull], Nat.le_refl _⟩
    | brings bytes =>
      cases hpull : (scan.advance (buffered ++ bytes)).pull with
      | more scan' left =>
        simp only [follow, hpull]
        exact ih scan' left enough
      | done result left =>
        refine ⟨result, left, signs, by simp only [follow, hpull], ?_⟩
        exact Nat.le_succ _

theorem exists_nextOf (buffered : Bytes) (enough : 0 < finals signs) : ∃ result left rest,
    nextOf buffered signs = some (result, left, rest) ∧ finals signs ≤ finals rest + 1 := by
  unfold nextOf
  cases (Scan.header.advance buffered).pull with
  | more scan left => exact exists_follow scan left enough
  | done result left => exact ⟨result, left, signs, rfl, Nat.le_succ _⟩

theorem exists_observeOf (buffered : Bytes) {n : Nat} (enough : n ≤ finals signs) :
    ∃ answers, observeOf buffered signs n = some answers ∧ answers.length = n := by
  induction n generalizing buffered signs with
  | zero => exact ⟨[], rfl, rfl⟩
  | succ n ih =>
    obtain ⟨result, left, rest, hnext, hrest⟩ :=
      exists_nextOf buffered (Nat.lt_of_lt_of_le (Nat.succ_pos n) enough)
    have hmore : n ≤ finals rest := by omega
    obtain ⟨answers, hanswers, hlength⟩ := ih left hmore
    refine ⟨(result, !left.isEmpty) :: answers, ?_, by rw [List.length_cons, hlength]⟩
    simp only [observeOf, hnext, hanswers, Option.map_some]

end Returning

/-- Readers that have carried over the same bytes, over reads that tell the same of the output: calls
of the one and of the other give the same frames and errors, with the same bytes waiting or none, and
come back or do not. What the reads take from the error stream, which of them are empty while the
handle is alive, and what the diagnostics hold make no difference. As many calls come back as the
reads tell of faults and of the end of the output. -/
theorem silence_unnoticed [Memory] {r r' : Reader} {reads reads' : List Read} (n : Nat)
    (carried : r.buffered = r'.buffered) (same : signs reads = signs reads') :
    r.hasBuffered = r'.hasBuffered ∧
    r.observe reads n = r'.observe reads' n ∧
    (n ≤ finals (signs reads) → ∃ answers, r.observe reads n = some answers ∧
      answers.length = n) := by
  refine ⟨?_, ?_, ?_⟩
  · rw [Reader.hasBuffered, Reader.hasBuffered, carried]
  · rw [observe_eq, observe_eq, carried, same]
  · intro enough
    rw [observe_eq]
    exact exists_observeOf r.buffered enough

attribute [local instance] Memory.kilobyte

/-- A frame that one handle gives in silence and the other between empty reads and bytes of the error
stream, a fault inside the next header, and the end of the output. The header value is longer than
the limit, and no read ends inside it. -/
theorem silence_unnoticed_around_a_frame :
    let fault : Fault := ⟨.brokenPipe, "broken pipe"⟩
    let s : Bytes := Frame.marker ++ List.replicate 70 48 ++ [50] ++ Frame.terminator ++ [104, 105]
    let reads : List Read := [⟨[], .ok (s.take 9), true⟩, ⟨[], .ok (s.drop 9), true⟩,
      ⟨[], .error fault, true⟩, ⟨[], .ok [], false⟩]
    let reads' : List Read := [⟨[1], .ok [], true⟩, ⟨[2], .ok (s.take 9), false⟩,
      ⟨[3], .ok [], true⟩, ⟨[], .ok [], true⟩, ⟨[4], .ok (s.drop 9), true⟩,
      ⟨[5], .error fault, false⟩, ⟨[6], .ok [], true⟩, ⟨[7], .ok [], false⟩]
    let r : Reader := { diagnostics := { capacity := 4 } }
    let r' : Reader := { diagnostics := { capacity := 0 } }
    signs reads = signs reads' ∧ finals (signs reads) = 2 ∧
      r.observe reads 2 = some [(.ok ⟨[104, 105]⟩, false), (.error (.io fault), false)] ∧
      r'.observe reads' 2 = r.observe reads 2 ∧ r'.observe reads' 3 = r.observe reads 3 := by
  intro fault s reads reads' r r'
  have hsame : signs reads = signs reads' := by rfl
  have hseen : r.observe reads 2 =
      some [(.ok ⟨[104, 105]⟩, false), (.error (.io fault), false)] := by decide +kernel
  have hcarried : r.buffered = r'.buffered := rfl
  obtain ⟨-, htwo, -⟩ := silence_unnoticed 2 hcarried hsame
  obtain ⟨-, hthree, -⟩ := silence_unnoticed 3 hcarried hsame
  exact ⟨hsame, rfl, hseen, htwo.symm, hthree.symm⟩

end Wire

end WorkerLink
