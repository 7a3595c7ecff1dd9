import WorkerLink.Proofs.Bytes.Decimal
import WorkerLink.Proofs.Wire.HeaderValue
import WorkerLink.Proofs.Wire.Pieces

/-!
# An encoded payload at the front of an output

The marker has no borders, so it is found behind bytes that do not contain it,
and the header value holds no byte of a terminator. What the payload holds does
not matter: it is counted, not searched.
-/

namespace WorkerLink

namespace Frame

def field (payload : Bytes) : Bytes := 32 :: Bytes.decimal payload.length

/-- The header value of a payload states its length. -/
theorem parseLength?_field {payload : Bytes} (h : payload.length < lengthBound) :
    parseLength? (field payload) = some payload.length := by
  have hblank : ∀ b ∈ [(32 : UInt8)], isBlank b = true := List.forall_mem_singleton.mpr rfl
  have hdigits : ∀ b ∈ Bytes.decimal payload.length, Bytes.isDigit b = true := fun b hb =>
    Bytes.isDigit_of_mem_decimal hb
  have hsplit : field payload = [32] ++ Bytes.decimal payload.length ++ [] := by
    rw [field, List.append_nil, List.singleton_append]
  exact parseLength?_eq_some_iff.mpr ⟨⟨[32], _, [], hsplit, hblank, by simp,
    Bytes.decimal_ne_nil _, hdigits, Bytes.value_decimal _⟩, h⟩

theorem length_field_le {payload : Bytes} (h : payload.length < lengthBound) :
    (field payload).length ≤ maxFieldLength := by
  have hdigits : (Bytes.decimal payload.length).length ≤ 20 :=
    Bytes.length_decimal_le (by decide) (Nat.lt_trans h (by decide))
  rw [field, List.length_cons]
  exact Nat.le_trans (Nat.succ_le_succ hdigits) (by decide)

theorem not_mem_field {payload : Bytes} : 13 ∉ field payload := by
  rw [field, List.mem_cons]
  rintro (h | h)
  · exact absurd h (by decide)
  · exact absurd (Bytes.isDigit_of_mem_decimal h) (by decide)

theorem borderless_marker : Bytes.Borderless marker := by
  have short : ∀ k < 15, 0 < k → ¬ marker.drop k <+: marker := by decide
  exact short

end Frame

/-- Stray bytes without a marker, and a payload for which there is memory. -/
structure Piece [Memory] where
  noise : Bytes
  payload : Bytes
  clean : ¬ Frame.marker <:+: noise
  fits : Memory.reserves payload.length

def Piece.wire [Memory] (piece : Piece) : Bytes := piece.noise ++ Frame.encode piece.payload

namespace Wire

/-- `s` starts with the stray bytes `noise` and a frame behind a header value within the limit;
`left` follows. -/
inductive Due [Memory] (s noise : Bytes) (frame : Frame) (left : Bytes) : Prop
  | mk {field body : Bytes} : Headed s noise field body →
      field.length ≤ Frame.maxFieldLength → readBody field body = .ok (frame, left) →
      Due s noise frame left

/-- Whatever a payload holds, the first header is the one in front of it. -/
theorem headed_encode {noise : Bytes} (clean : ¬ Frame.marker <:+: noise) (payload rest : Bytes) :
    Headed (noise ++ Frame.encode payload ++ rest) noise (Frame.field payload)
      (payload ++ rest) := by
  have hsplit : noise ++ Frame.encode payload ++ rest = noise ++ (Frame.marker ++
      (Frame.field payload ++ (Frame.terminator ++ (payload ++ rest)))) := by
    simp only [Frame.encode, Frame.field, List.append_assoc, List.cons_append, List.nil_append]
  refine ⟨Frame.field payload ++ (Frame.terminator ++ (payload ++ rest)), ?_, ?_⟩
  · rw [hsplit]
    exact Bytes.cut?_behind Frame.borderless_marker clean _
  · exact Bytes.cut?_of_not_mem Frame.not_mem_field _

/-- A piece at the front of an output is a frame that can be read. -/
theorem due_wire [Memory] (piece : Piece) (rest : Bytes) :
    Due (piece.wire ++ rest) piece.noise ⟨piece.payload⟩ rest := by
  have hbound : piece.payload.length < Frame.lengthBound :=
    Nat.lt_trans (Memory.lt_of_reserves piece.fits) (by decide)
  exact .mk (headed_encode piece.clean piece.payload rest) (Frame.length_field_le hbound)
    (readBody_eq_ok_iff.mpr ⟨Frame.parseLength?_field hbound, piece.fits, rfl⟩)

end Wire

end WorkerLink
