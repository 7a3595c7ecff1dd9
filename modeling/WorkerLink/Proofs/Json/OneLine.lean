import WorkerLink.Json.Value
import WorkerLink.Proofs.Bytes.Decimal
import WorkerLink.Proofs.Bytes.Utf8

/-!
# An encoding is one line

The compact encoding of a value has no line feed in it: strings escape theirs, and
nothing else that is written is one.
-/

namespace WorkerLink

namespace Bytes

/-- Only a line feed has a line feed in its UTF-8 form. -/
theorem eq_newline_of_mem_encodeChar {c : Char} (h : 10 ∈ String.utf8EncodeChar c) : c = '\n' := by
  have hten : (10 : UInt8).toNat = 10 := rfl
  have hforms := Text.Utf8.forms_encodeChar c
  generalize String.utf8EncodeChar c = s at h hforms
  generalize hnumber : c.toNat = v at hforms
  cases hforms with
  | one _ h₀ =>
    rw [← List.mem_singleton.mp h, hten] at h₀
    rw [← c.ofNat_toNat, hnumber, ← h₀]
  | two _ _ h₀ h₁ =>
    simp only [List.mem_cons, List.not_mem_nil, or_false] at h
    rcases h with rfl | rfl <;> omega
  | three _ _ h₀ h₁ h₂ =>
    simp only [List.mem_cons, List.not_mem_nil, or_false] at h
    rcases h with rfl | rfl | rfl <;> omega
  | four _ _ h₀ h₁ h₂ h₃ =>
    simp only [List.mem_cons, List.not_mem_nil, or_false] at h
    rcases h with rfl | rfl | rfl | rfl <;> omega

theorem newline_not_mem_ofChars {cs : List Char} (h : '\n' ∉ cs) : 10 ∉ ofChars cs := by
  intro hmem
  obtain ⟨c, hc, hbyte⟩ := List.mem_flatMap.mp hmem
  exact h (eq_newline_of_mem_encodeChar hbyte ▸ hc)

theorem newline_not_mem_decimal (n : Nat) : 10 ∉ decimal n := fun h =>
  absurd (isDigit_of_mem_decimal h) (by decide)

end Bytes

namespace Decimal

theorem newline_not_mem_toDigits (n : Nat) : '\n' ∉ Nat.toDigits 10 n := fun h =>
  absurd (Nat.isDigit_of_mem_toDigits (by decide) (by decide) h) (by decide)

theorem newline_not_mem_dropZeros {cs : List Char} (h : '\n' ∉ cs) :
    '\n' ∉ Double.dropZeros cs := by
  intro hmem
  rw [Double.dropZeros, List.mem_reverse] at hmem
  exact h (List.mem_reverse.mp ((List.dropWhile_sublist _).mem hmem))

/-- The text of a number is made of digits, signs, a point and an exponent mark. -/
theorem newline_not_mem_toText (x : Double) : '\n' ∉ x.toText := by
  have hsign : '\n' ∉ if x.negative then ['-'] else [] := by
    split <;> decide
  have hcs := newline_not_mem_dropZeros (newline_not_mem_toDigits x.shortestDigits.digits)
  unfold Double.toText
  dsimp only
  generalize Double.dropZeros (Nat.toDigits 10 x.shortestDigits.digits) = cs at hcs
  have htake (n : Nat) : '\n' ∉ cs.take n := fun h => hcs (List.mem_of_mem_take h)
  have hdrop (n : Nat) : '\n' ∉ cs.drop n := fun h => hcs (List.mem_of_mem_drop h)
  have hzeros (n : Nat) : '\n' ∉ List.replicate n '0' := fun h =>
    absurd (List.eq_of_mem_replicate h) (by decide)
  split
  · rw [List.mem_append, not_or]
    exact ⟨hsign, by decide⟩
  rw [List.mem_append, not_or]
  refine ⟨hsign, ?_⟩
  split
  · simp [hcs, hzeros]
  split
  · split
    · simp [hcs, hzeros]
    · simp [htake, hdrop]
  · have hexponent := newline_not_mem_toDigits
    have htail : '\n' ∉ cs.tail := fun h => hcs (List.mem_of_mem_tail h)
    split <;> split <;> simp [htake, htail, hexponent]

end Decimal

namespace Json

theorem newline_not_mem_escape (c : Char) : '\n' ∉ escape c := by
  have hdigit : ∀ n < 16, '\n' ≠ Nat.digitChar n := by decide
  unfold escape
  split
  · decide
  split
  · decide
  split
  · decide
  split
  · decide
  split
  · decide
  split
  · decide
  split
  · decide
  split
  · next hcontrol =>
    have hfirst := hdigit (c.toNat / 16) (by omega)
    have hlast := hdigit (c.toNat % 16) (by omega)
    simp [hfirst, hlast]
  · next hnewline _ _ _ _ _ =>
    rw [List.mem_singleton]
    exact Ne.symm hnewline

theorem newline_not_mem_encodeText (s : String) : 10 ∉ encodeText s := by
  have hchars : 10 ∉ Bytes.ofChars (s.toList.flatMap escape) := by
    refine Bytes.newline_not_mem_ofChars fun h => ?_
    obtain ⟨c, _, hc⟩ := List.mem_flatMap.mp h
    exact newline_not_mem_escape c hc
  simpa [encodeText] using hchars

theorem newline_not_mem_encodeInteger (n : Int) : 10 ∉ encodeInteger n := by
  have hdecimal := Bytes.newline_not_mem_decimal n.natAbs
  unfold encodeInteger
  split
  · simpa using hdecimal
  · exact hdecimal

mutual

/-- An encoding has no line feed in it. -/
theorem newline_not_mem_encode : (v : Value) → 10 ∉ v.encode
  | .null => by decide
  | .bool true => by decide
  | .bool false => by decide
  | .integer n => newline_not_mem_encodeInteger n
  | .real x => Bytes.newline_not_mem_ofChars (Decimal.newline_not_mem_toText x)
  | .text s => newline_not_mem_encodeText s
  | .array items => by
    have hitems := newline_not_mem_encodeItems items
    simpa [Value.encode] using hitems
  | .object members => by
    have hmembers := newline_not_mem_encodeMembers members
    simpa [Value.encode] using hmembers

theorem newline_not_mem_encodeItems : (items : List Value) → 10 ∉ encodeItems items
  | [] => by simp [encodeItems]
  | [v] => by
    have hv := newline_not_mem_encode v
    simpa [encodeItems] using hv
  | v :: w :: rest => by
    have hv := newline_not_mem_encode v
    have hrest := newline_not_mem_encodeItems (w :: rest)
    simp [encodeItems, hv, hrest]

theorem newline_not_mem_encodeMembers :
    (members : List (String × Value)) → 10 ∉ encodeMembers members
  | [] => by simp [encodeMembers]
  | [(k, v)] => by
    have hk := newline_not_mem_encodeText k
    have hv := newline_not_mem_encode v
    simp [encodeMembers, hk, hv]
  | (k, v) :: m :: rest => by
    have hk := newline_not_mem_encodeText k
    have hv := newline_not_mem_encode v
    have hrest := newline_not_mem_encodeMembers (m :: rest)
    simp [encodeMembers, hk, hv, hrest]

end

end Json

end WorkerLink
