/-!
Cutting a list at each occurrence of a separator. Joining the parts with the separator between them
gives the list back.
-/

namespace WorkerLink.Text

/-- The parts between the separators; always at least one. -/
def splitOn {α : Type} [DecidableEq α] (separator : α) : List α → List (List α)
  | [] => [[]]
  | a :: rest =>
    if a = separator then [] :: splitOn separator rest
    else match splitOn separator rest with
      | [] => [[a]]
      | part :: parts => (a :: part) :: parts

theorem splitOn_ne_nil {α : Type} [DecidableEq α] (separator : α) (s : List α) :
    splitOn separator s ≠ [] := by
  cases s with
  | nil => simp [splitOn]
  | cons a rest =>
    simp only [splitOn]
    split
    · simp
    · split <;> simp

theorem intercalate_splitOn {α : Type} [DecidableEq α] (separator : α) (s : List α) :
    List.intercalate [separator] (splitOn separator s) = s := by
  induction s with
  | nil => simp [splitOn, List.intercalate]
  | cons a rest ih =>
    simp only [splitOn]
    split
    · next h =>
      cases hs : splitOn separator rest with
      | nil => exact absurd hs (splitOn_ne_nil _ _)
      | cons p ps => rw [hs] at ih; simp_all [List.intercalate, List.intersperse]
    · cases hs : splitOn separator rest with
      | nil => exact absurd hs (splitOn_ne_nil _ _)
      | cons p ps =>
        rw [hs] at ih
        cases ps <;> simp_all [List.intercalate, List.intersperse]

end WorkerLink.Text
