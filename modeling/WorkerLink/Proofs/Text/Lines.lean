import WorkerLink.Text.Split
import Mathlib.Data.List.Basic

/-!
# Terminated parts and a rest

Every list is a row of parts, each with a separator behind it, and a rest without
one (`exists_parts`). There are as many parts as separators, and cutting at the
separators finds these parts first, whatever follows them (`splitOn_terminate`).
-/

namespace WorkerLink.Text

variable {α : Type} {separator : α}

/-- The parts with the separator behind each of them. -/
def terminate (separator : α) (parts : List (List α)) : List α :=
  parts.flatMap fun part => part ++ [separator]

@[simp] theorem terminate_nil : terminate separator [] = [] := rfl

theorem terminate_cons (part : List α) (parts : List (List α)) :
    terminate separator (part :: parts) = part ++ separator :: terminate separator parts := by
  simp [terminate]

variable [DecidableEq α]

theorem splitOn_of_not_mem {s : List α} (h : separator ∉ s) : splitOn separator s = [s] := by
  induction s with
  | nil => rfl
  | cons a s ih =>
    rw [List.mem_cons, not_or] at h
    rw [splitOn, if_neg (Ne.symm h.1), ih h.2]

theorem splitOn_append {part : List α} (h : separator ∉ part) (s : List α) :
    splitOn separator (part ++ separator :: s) = part :: splitOn separator s := by
  induction part with
  | nil => rw [List.nil_append, splitOn, if_pos rfl]
  | cons a part ih =>
    rw [List.mem_cons, not_or] at h
    rw [List.cons_append, splitOn, if_neg (Ne.symm h.1), ih h.2]

/-- Terminated parts are cut off as they are, and the cutting goes on behind them. -/
theorem splitOn_terminate {parts : List (List α)} (h : ∀ part ∈ parts, separator ∉ part)
    (s : List α) :
    splitOn separator (terminate separator parts ++ s) = parts ++ splitOn separator s := by
  induction parts with
  | nil => rfl
  | cons part parts ih =>
    rw [List.forall_mem_cons] at h
    rw [terminate_cons, List.append_assoc, List.cons_append, splitOn_append h.1, ih h.2,
      List.cons_append]

theorem count_parts {parts : List (List α)} {rest : List α}
    (h : ∀ part ∈ parts, separator ∉ part) (last : separator ∉ rest) :
    (terminate separator parts ++ rest).count separator = parts.length := by
  induction parts with
  | nil => exact List.count_eq_zero_of_not_mem last
  | cons part parts ih =>
    rw [List.forall_mem_cons] at h
    have hpart := List.count_eq_zero_of_not_mem h.1
    rw [terminate_cons, List.append_assoc, List.count_append, hpart, List.cons_append,
      List.count_cons_self, ih h.2, List.length_cons, Nat.zero_add]

variable (separator) in
theorem exists_parts (s : List α) : ∃ parts rest, s = terminate separator parts ++ rest ∧
    (∀ part ∈ parts, separator ∉ part) ∧ separator ∉ rest := by
  induction s with
  | nil => exact ⟨[], [], rfl, by simp, by simp⟩
  | cons a s ih =>
    obtain ⟨parts, rest, hwhole, hparts, hrest⟩ := ih
    by_cases ha : a = separator
    · refine ⟨[] :: parts, rest, ?_, by simpa using hparts, hrest⟩
      simp [terminate_cons, ha, hwhole]
    · cases parts with
      | nil => exact ⟨[], a :: rest, by simp [hwhole], by simp, by simp [Ne.symm ha, hrest]⟩
      | cons part parts =>
        rw [List.forall_mem_cons] at hparts
        refine ⟨(a :: part) :: parts, rest, by simp [terminate_cons, hwhole], ?_, hrest⟩
        rw [List.forall_mem_cons]
        exact ⟨by simp [Ne.symm ha, hparts.1], hparts.2⟩

end WorkerLink.Text
