import WorkerLink.Bytes
import WorkerLink.Word
import Mathlib.Algebra.Group.Nat.Defs
import Mathlib.Data.List.Induction

/-!
# Decimal digits

The digits that `decimal` writes are digits, at least one, as many as the number
needs, and stand for the number. Digits can be read in words, however many they are:
`value?` gives up as soon as a product or a sum does not fit, and that is when the
number does not (`value?_eq`).
-/

namespace WorkerLink.Bytes

/-- The byte of a digit below ten. -/
theorem digit_of_lt {d : Nat} (h : d < 10) :
    isDigit (UInt8.ofNat (48 + d)) = true ∧ (UInt8.ofNat (48 + d)).toNat - 48 = d := by
  have hnat : (UInt8.ofNat (48 + d)).toNat = 48 + d := by
    rw [UInt8.toNat_ofNat']
    omega
  refine ⟨?_, by omega⟩
  simp only [isDigit, Bool.and_eq_true, decide_eq_true_eq, UInt8.le_iff_toNat_le, hnat]
  exact ⟨Nat.le_add_right 48 d, by change 48 + d ≤ 57; omega⟩

theorem value_concat (digits : Bytes) (b : UInt8) :
    value (digits ++ [b]) = 10 * value digits + (b.toNat - 48) := by
  simp only [value, List.foldl_append, List.foldl_cons, List.foldl_nil]

theorem isDigit_of_mem_decimal {n : Nat} {b : UInt8} (h : b ∈ decimal n) : isDigit b = true := by
  induction n using decimal.induct with
  | case1 n hn =>
    rw [decimal, if_pos hn, List.mem_singleton] at h
    rw [h]
    exact (digit_of_lt hn).1
  | case2 n hn ih =>
    rw [decimal, if_neg hn, List.mem_append, List.mem_singleton] at h
    rcases h with h | rfl
    · exact ih h
    · exact (digit_of_lt (Nat.mod_lt n (by decide))).1

theorem decimal_ne_nil (n : Nat) : decimal n ≠ [] := by
  rw [decimal]
  split
  · exact List.cons_ne_nil _ _
  · exact List.append_ne_nil_of_right_ne_nil _ (List.cons_ne_nil _ _)

/-- The digits of a number stand for it. -/
theorem value_decimal (n : Nat) : value (decimal n) = n := by
  induction n using decimal.induct with
  | case1 n hn =>
    rw [decimal, if_pos hn, ← List.nil_append [UInt8.ofNat (48 + n)], value_concat,
      (digit_of_lt hn).2]
    exact Nat.zero_add n
  | case2 n hn ih =>
    rw [decimal, if_neg hn, value_concat, ih, (digit_of_lt (Nat.mod_lt n (by decide))).2]
    exact Nat.div_add_mod n 10

theorem length_decimal_le {n k : Nat} (pos : 0 < k) (h : n < 10 ^ k) :
    (decimal n).length ≤ k := by
  induction n using decimal.induct generalizing k with
  | case1 n hn =>
    rw [decimal, if_pos hn]
    exact pos
  | case2 n hn ih =>
    obtain ⟨k, rfl⟩ := Nat.exists_eq_succ_of_ne_zero (Nat.ne_of_gt pos)
    rw [Nat.pow_succ] at h
    have hk : 0 < k := by
      by_contra h0
      rw [Nat.eq_zero_of_not_pos h0] at h
      omega
    have hle := ih hk (Nat.div_lt_of_lt_mul (by omega))
    rw [decimal, if_neg hn, List.length_append, List.length_singleton]
    omega

/-- One more digit, in words: nothing where the product or the sum does not fit. -/
def pushDigit? (n : Nat) (b : UInt8) : Option Nat := do
  let tens ← Word.fit? (10 * n)
  Word.fit? (tens + (b.toNat - 48))

/-- The number that a run of digits stands for, reckoned in words. -/
def value? (digits : Bytes) : Option Nat := digits.foldlM pushDigit? 0

theorem value?_concat (digits : Bytes) (b : UInt8) :
    value? (digits ++ [b]) = (value? digits).bind fun n => pushDigit? n b := by
  simp [value?, List.foldlM_append]

theorem pushDigit?_eq (n : Nat) (b : UInt8) :
    (Word.fit? n).bind (fun n => pushDigit? n b) = Word.fit? (10 * n + (b.toNat - 48)) := by
  by_cases hn : 10 * n < Word.limit
  · have hle : n < Word.limit := by omega
    rw [Word.fit?_of_lt hle, Option.bind_some, pushDigit?, Word.fit?_of_lt hn]
    rfl
  · rw [Word.fit?_of_le (show Word.limit ≤ 10 * n + (b.toNat - 48) by omega)]
    by_cases hle : n < Word.limit
    · rw [Word.fit?_of_lt hle, Option.bind_some, pushDigit?, Word.fit?_of_le (Nat.not_lt.mp hn)]
      rfl
    · rw [Word.fit?_of_le (Nat.not_lt.mp hle)]
      rfl

/-- The induction is on the digits from the last one: reading goes on with the number so far. -/
theorem value?_eq (digits : Bytes) : value? digits = Word.fit? (value digits) := by
  induction digits using List.reverseRecOn with
  | nil => rfl
  | append_singleton digits b ih =>
    rw [value?_concat, ih, pushDigit?_eq, value_concat]

end WorkerLink.Bytes
