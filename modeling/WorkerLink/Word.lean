/-!
Machine words of 64 bits: the bounds of the numbers that fit one.
-/

namespace WorkerLink.Word

/-- A number without a sign fits a word if it is below this. -/
def limit : Nat := 18446744073709551616

/-- A number with a sign fits a word if it is below this and not below its negative. -/
def signedLimit : Nat := 9223372036854775808

/-- The limits are powers of two. -/
theorem limits_eq_pow : limit = Nat.pow 2 64 ∧ signedLimit = Nat.pow 2 63 := by decide

/-- A number without a sign, where it fits a word. -/
def fit? (n : Nat) : Option Nat := if n < limit then some n else none

theorem fit?_of_lt {n : Nat} (h : n < limit) : fit? n = some n := if_pos h

theorem fit?_of_le {n : Nat} (h : limit ≤ n) : fit? n = none := if_neg (Nat.not_lt.mpr h)

/-- A number with a sign fits a word. -/
def fitsSigned (n : Int) : Bool := -(signedLimit : Int) ≤ n && n < signedLimit

end WorkerLink.Word
