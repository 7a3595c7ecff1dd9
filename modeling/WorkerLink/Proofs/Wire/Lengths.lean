import WorkerLink.Proofs.Wire.Encoding

/-!
# What counts as a length

`parseLength` reads a header value in words and gives the error of one that is no
length. It is what a reader does with a header value (`advanceTerminator_of_cut`).
It accepts the values of which `States` tells, and no others, and the header of
every payload among them (`accepts_lengths`).
-/

namespace WorkerLink

namespace Frame

/-- The length that a header value states, reckoned in words, or the error with the whole value. -/
def parseLength (field : Bytes) : Except FrameError Nat :=
  let digits := trim field
  if digits ≠ [] ∧ digits.all Bytes.isDigit then
    match Bytes.value? digits with
    | some n => .ok n
    | none => .error (.invalidLength (Text.Utf8.lossy field))
  else .error (.invalidLength (Text.Utf8.lossy field))

/-- Numbers that fit a word are those below the bound on lengths. -/
theorem parseLength_eq (field : Bytes) : parseLength field =
    match parseLength? field with
    | some n => .ok n
    | none => .error (.invalidLength (Text.Utf8.lossy field)) := by
  simp only [parseLength, parseLength?, Bytes.value?_eq]
  by_cases hdigits : trim field ≠ [] ∧ (trim field).all Bytes.isDigit = true
  · rw [if_pos hdigits]
    by_cases hbound : Bytes.value (trim field) < lengthBound
    · rw [Word.fit?_of_lt hbound, if_pos ⟨hdigits.1, hdigits.2, hbound⟩]
    · rw [Word.fit?_of_le (Nat.not_lt.mp hbound), if_neg fun h => hbound h.2.2]
  · rw [if_neg hdigits, if_neg fun h => hdigits ⟨h.1, h.2.1⟩]

theorem parseLength_eq_ok_iff {field : Bytes} {n : Nat} :
    parseLength field = .ok n ↔ States field n := by
  rw [parseLength_eq, ← parseLength?_eq_some_iff]
  cases parseLength? field with
  | none => simp
  | some m => simp

theorem parseLength_eq_error_iff {field : Bytes} :
    parseLength field = .error (.invalidLength (Text.Utf8.lossy field)) ↔
      ∀ n, ¬ States field n := by
  rw [parseLength_eq, ← parseLength?_eq_none_iff]
  cases parseLength? field with
  | none => simp
  | some m => simp

end Frame

namespace Wire

/-- Where a reader stands behind a header value: in the body, or at the end with an error. -/
def behindValue [Memory] (field rest : Bytes) : Pull :=
  match Frame.parseLength field with
  | .ok n =>
    if Memory.reserves n then Scan.advanceBody n [] n rest
    else .done (.error (.allocation n)) rest
  | .error error => .done (.error error) rest

theorem advanceTerminator_of_cut [Memory] {buffered field rest : Bytes}
    (h : Bytes.cut? Frame.terminator buffered = some (field, rest)) :
    Scan.advanceTerminator buffered = behindValue field rest := by
  simp only [Scan.advanceTerminator, behindValue, h, Frame.parseLength_eq]
  cases Frame.parseLength? field with
  | none => rfl
  | some n => rfl

/-- A header value is a length if it is digits between blanks for a number below `2 ^ 64`. Every
other value gives the error that holds all of it, and a reader goes on with that answer. The header
in front of a payload states its length. -/
theorem accepts_lengths [Memory] :
    Frame.lengthBound = 2 ^ 64 ∧
    (∀ field n, Frame.parseLength field = .ok n ↔ Frame.States field n) ∧
    (∀ field, Frame.parseLength field = .error (.invalidLength (Text.Utf8.lossy field)) ↔
      ∀ n, ¬ Frame.States field n) ∧
    (∀ buffered field rest, Bytes.cut? Frame.terminator buffered = some (field, rest) →
      Scan.advanceTerminator buffered = behindValue field rest) ∧
    (∀ payload : Bytes, payload.length < Frame.lengthBound →
      ∃ value, Headed (Frame.encode payload) [] value payload ∧
        Frame.parseLength value = .ok payload.length) := by
  refine ⟨rfl, fun _ _ => Frame.parseLength_eq_ok_iff, fun _ => Frame.parseLength_eq_error_iff,
    fun _ _ _ => advanceTerminator_of_cut, ?_⟩
  intro payload hbound
  refine ⟨Frame.field payload, ?_, ?_⟩
  · have hclean : ¬ Frame.marker <:+: [] := by decide
    have hheaded := headed_encode hclean payload []
    rwa [List.nil_append, List.append_nil, List.append_nil] at hheaded
  · rw [Frame.parseLength_eq, Frame.parseLength?_field hbound]

attribute [local instance] Memory.kilobyte

/-- Zeros in front and blanks around do not matter, and a header is found in front of its like. -/
theorem accepts_lengths_with_zeros :
    Frame.parseLength [9, 48, 48, 55, 13, 10] = .ok 7 ∧
      ∃ value, Headed (Frame.encode (Frame.encode [])) [] value (Frame.encode []) ∧
        Frame.parseLength value = .ok 21 := by
  obtain ⟨-, hok, -, -, hheader⟩ := accepts_lengths
  have hstates : Frame.States [9, 48, 48, 55, 13, 10] 7 := by
    refine ⟨⟨[9], [48, 48, 55], [13, 10], rfl, ?_, ?_, by simp, ?_, rfl⟩, by decide⟩
    · simp [Frame.isBlank]
    · simp [Frame.isBlank]
    · simp [Bytes.isDigit]
  have hlength : (Frame.encode []).length = 21 := by decide +kernel
  refine ⟨(hok _ 7).mpr hstates, ?_⟩
  obtain ⟨value, hheaded, hvalue⟩ := hheader (Frame.encode []) (by rw [hlength]; decide)
  rw [hlength] at hvalue
  exact ⟨value, hheaded, hvalue⟩

end Wire

end WorkerLink
