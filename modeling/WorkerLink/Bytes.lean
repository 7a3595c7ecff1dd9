/-!
Byte strings: how a text becomes bytes, decimal digits, and the first place where a pattern occurs.
`cut?` loses nothing: what it returns, with the pattern between, is the string it was given.
-/

namespace WorkerLink

/-- A string of bytes, as it travels through a pipe. -/
abbrev Bytes := List UInt8

namespace Bytes

def ofChars (cs : List Char) : Bytes := cs.flatMap String.utf8EncodeChar

def ofString (s : String) : Bytes := ofChars s.toList

/-- The decimal digits of a number, most significant first. -/
def decimal (n : Nat) : Bytes :=
  if n < 10 then [UInt8.ofNat (48 + n)] else decimal (n / 10) ++ [UInt8.ofNat (48 + n % 10)]

def isDigit (b : UInt8) : Bool := 48 ≤ b && b ≤ 57

/-- The number that a run of decimal digits stands for. -/
def value (digits : Bytes) : Nat :=
  digits.foldl (fun n b => 10 * n + (b.toNat - 48)) 0

/-- What stands before and after the first occurrence of `pattern`. -/
def cut? (pattern : Bytes) : Bytes → Option (Bytes × Bytes)
  | [] => if pattern.isEmpty then some ([], []) else none
  | b :: rest =>
    if pattern.isPrefixOf (b :: rest) then some ([], (b :: rest).drop pattern.length)
    else (cut? pattern rest).map fun (before, after) => (b :: before, after)

def last (n : Nat) (s : Bytes) : Bytes := s.drop (s.length - n)

theorem eq_append_of_cut? {pattern s before after : Bytes}
    (h : cut? pattern s = some (before, after)) : s = before ++ pattern ++ after := by
  induction s generalizing before with
  | nil =>
    simp only [cut?] at h
    split at h
    · simp_all
    · simp at h
  | cons b rest ih =>
    simp only [cut?] at h
    split at h
    · next hp =>
      obtain ⟨t, ht⟩ := List.isPrefixOf_iff_prefix.1 hp
      simp only [Option.some.injEq, Prod.mk.injEq] at h
      obtain ⟨rfl, rfl⟩ := h
      simp [← ht]
    · obtain ⟨⟨x, y⟩, hxy, he⟩ := Option.map_eq_some_iff.1 h
      simp only [Prod.mk.injEq] at he
      obtain ⟨rfl, rfl⟩ := he
      simp [ih hxy]

@[simp] theorem length_last (n : Nat) (s : Bytes) : (last n s).length = min n s.length := by
  simp [last]; omega

end Bytes

end WorkerLink
