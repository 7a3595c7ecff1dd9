import WorkerLink.Frame
import Mathlib.Data.List.TakeWhile

/-!
# The lengths that a header value can state

A header value states a length if it is a run of decimal digits between blanks,
and their number is below the bound on lengths (`States`). These are the values
that are accepted, with that number (`parseLength?_eq_some_iff`).
-/

namespace WorkerLink.Frame

theorem isBlank_of_isDigit {b : UInt8} (h : Bytes.isDigit b = true) : isBlank b = false := by
  simp only [Bytes.isDigit, Bool.and_eq_true, decide_eq_true_eq] at h
  simp only [isBlank, Bool.or_eq_false_iff, decide_eq_false_iff_not]
  refine ⟨⟨⟨⟨?_, ?_⟩, ?_⟩, ?_⟩, ?_⟩ <;> rintro rfl <;> exact absurd h.1 (by decide)

/-- The value is a run of digits for the number `n` between blanks, and `n` is below the bound. -/
structure States (field : Bytes) (n : Nat) : Prop where
  split : ∃ before digits after, field = before ++ digits ++ after ∧
    (∀ b ∈ before, isBlank b = true) ∧ (∀ b ∈ after, isBlank b = true) ∧
    digits ≠ [] ∧ (∀ b ∈ digits, Bytes.isDigit b = true) ∧ Bytes.value digits = n
  bounded : n < lengthBound

theorem dropWhile_blanks {blanks rest : Bytes} (h : ∀ b ∈ blanks, isBlank b = true) :
    (blanks ++ rest).dropWhile isBlank = rest.dropWhile isBlank := by
  rw [List.dropWhile_append_of_pos h]

theorem dropWhile_digits {digits rest : Bytes} (some : digits ≠ [])
    (h : ∀ b ∈ digits, Bytes.isDigit b = true) :
    (digits ++ rest).dropWhile isBlank = digits ++ rest := by
  cases digits with
  | nil => exact False.elim (some rfl)
  | cons b digits =>
    have hb : ¬ isBlank b = true := by
      rw [isBlank_of_isDigit (h b List.mem_cons_self)]
      exact Bool.false_ne_true
    rw [List.cons_append, List.dropWhile_cons_of_neg hb]

/-- Just the blanks go from digits between blanks. -/
theorem trim_padded {before digits after : Bytes} (hbefore : ∀ b ∈ before, isBlank b = true)
    (hafter : ∀ b ∈ after, isBlank b = true) (some : digits ≠ [])
    (h : ∀ b ∈ digits, Bytes.isDigit b = true) : trim (before ++ digits ++ after) = digits := by
  have hafter' : ∀ b ∈ after.reverse, isBlank b = true := by
    intro b hb
    exact hafter b (List.mem_reverse.mp hb)
  have hdigits' : ∀ b ∈ digits.reverse, Bytes.isDigit b = true := by
    intro b hb
    exact h b (List.mem_reverse.mp hb)
  have hsome' : digits.reverse ≠ [] := by
    rw [ne_eq, List.reverse_eq_nil_iff]
    exact some
  have hlast : digits.reverse.dropWhile isBlank = digits.reverse := by
    have hrest : (digits.reverse ++ []).dropWhile isBlank = digits.reverse ++ [] :=
      dropWhile_digits hsome' hdigits'
    rwa [List.append_nil] at hrest
  rw [trim, List.append_assoc, dropWhile_blanks hbefore, dropWhile_digits some h,
    List.reverse_append, dropWhile_blanks hafter', hlast, List.reverse_reverse]

/-- What goes from a header value is blanks. -/
theorem trim_split (field : Bytes) : ∃ before after, field = before ++ trim field ++ after ∧
    (∀ b ∈ before, isBlank b = true) ∧ ∀ b ∈ after, isBlank b = true := by
  let left := field.dropWhile isBlank
  refine ⟨field.takeWhile isBlank, (left.reverse.takeWhile isBlank).reverse, ?_, ?_, ?_⟩
  · have hleft : left = trim field ++ (left.reverse.takeWhile isBlank).reverse := by
      rw [trim, ← List.reverse_append, List.takeWhile_append_dropWhile, List.reverse_reverse]
    calc field = field.takeWhile isBlank ++ left := List.takeWhile_append_dropWhile.symm
      _ = field.takeWhile isBlank ++ (trim field ++ (left.reverse.takeWhile isBlank).reverse) := by
        rw [← hleft]
      _ = _ := (List.append_assoc _ _ _).symm
  · intro b hb
    exact List.mem_takeWhile_imp hb
  · intro b hb
    exact List.mem_takeWhile_imp (List.mem_reverse.mp hb)

/-- The header values that are accepted, and what for. -/
theorem parseLength?_eq_some_iff {field : Bytes} {n : Nat} :
    parseLength? field = some n ↔ States field n := by
  unfold parseLength?
  constructor
  · intro h
    obtain ⟨⟨hsome, hdigits, hbound⟩, hvalue⟩ := Option.ite_none_right_eq_some.mp h
    cases hvalue
    obtain ⟨before, after, hsplit, hbefore, hafter⟩ := trim_split field
    have hall := List.all_eq_true.mp hdigits
    exact ⟨⟨before, trim field, after, hsplit, hbefore, hafter, hsome, hall, rfl⟩, hbound⟩
  · rintro ⟨⟨before, digits, after, rfl, hbefore, hafter, hsome, hdigits, rfl⟩, hbound⟩
    have htrim := trim_padded hbefore hafter hsome hdigits
    simp only [htrim]
    exact if_pos ⟨hsome, List.all_eq_true.mpr hdigits, hbound⟩

theorem parseLength?_eq_none_iff {field : Bytes} :
    parseLength? field = none ↔ ∀ n, ¬ States field n := by
  simp only [Option.eq_none_iff_forall_ne_some, ne_eq, parseLength?_eq_some_iff]

end WorkerLink.Frame
