import WorkerLink.Json.Decode
import WorkerLink.Proofs.Text.Lines

/-!
# Places by line and column

A decode error names a place by its line and its column, and `byteOffset` finds the
place again. The lines in front of a place, with their ends, are as long as the
place at which its own line starts (`StartsAt`). All lines together are one byte
longer than the payload, as the last one has no end, so the sums of a reckoning in
words all fit (`byteOffset?_eq`).
-/

namespace WorkerLink.Json

/-- The line with the place `i` starts at `start`: with the payload or behind a line feed, and from
there to `i` there is none. -/
structure StartsAt (payload : Bytes) (i start : Nat) : Prop where
  le : start ≤ i
  behind : start = 0 ∨ payload[start - 1]? = some 10
  within : 10 ∉ (payload.take i).drop start

section Places

variable {payload : Bytes} {i start : Nat}

/-- Behind terminated lines a line starts, and it goes on where no line feed follows. -/
theorem startsAt_of_parts {lines : List Bytes} {rest : Bytes}
    (whole : payload.take i = Text.terminate 10 lines ++ rest) (last : 10 ∉ rest) :
    StartsAt payload i (Text.terminate 10 lines).length := by
  have hlength := congrArg List.length whole
  rw [List.length_take, List.length_append] at hlength
  refine ⟨by omega, ?_, ?_⟩
  · rcases List.eq_nil_or_concat lines with rfl | ⟨others, line, rfl⟩
    · exact Or.inl rfl
    · right
      rw [List.concat_eq_append] at whole ⊢
      have hfeed : (payload.take i)[(Text.terminate 10 (others ++ [line])).length - 1]? =
          some 10 := by
        rw [whole]
        simp [Text.terminate]
      rw [List.getElem?_take] at hfeed
      exact (Option.ite_none_right_eq_some.mp hfeed).2
  · rw [whole, List.drop_left]
    exact last

/-- The line feed in front of a later start would stand on the line. -/
theorem StartsAt.not_lt {other : Nat} (h : StartsAt payload i start)
    (h' : StartsAt payload i other) : ¬ start < other := by
  intro hlt
  have hle := h'.le
  have hfeed : payload[other - 1]? = some 10 := h'.behind.resolve_left (by omega)
  apply h.within
  apply List.mem_of_getElem? (i := other - 1 - start)
  rw [List.getElem?_drop, List.getElem?_take, if_pos (by omega), ← hfeed]
  congr 1
  omega

theorem StartsAt.unique {other : Nat} (h : StartsAt payload i start)
    (h' : StartsAt payload i other) : start = other := by
  have hge := h.not_lt h'
  have hle := h'.not_lt h
  omega

/-- In front of a place there are the terminated lines that end where its own line starts, and a
part of that line. -/
theorem StartsAt.exists_parts (h : StartsAt payload i start) : ∃ lines rest,
    payload.take i = Text.terminate 10 lines ++ rest ∧ (∀ line ∈ lines, 10 ∉ line) ∧ 10 ∉ rest ∧
      (Text.terminate 10 lines).length = start := by
  obtain ⟨lines, rest, hwhole, hlines, hrest⟩ := Text.exists_parts 10 (payload.take i)
  exact ⟨lines, rest, hwhole, hlines, hrest, (startsAt_of_parts hwhole hrest).unique h⟩

theorem existsUnique_startsAt (payload : Bytes) (i : Nat) : ∃! start, StartsAt payload i start := by
  obtain ⟨lines, rest, hwhole, -, hrest⟩ := Text.exists_parts 10 (payload.take i)
  have hstarts := startsAt_of_parts hwhole hrest
  exact ⟨_, hstarts, fun _ hother => hother.unique hstarts⟩

theorem sizeOfLines_append (lines more : List Bytes) :
    sizeOfLines (lines ++ more) = sizeOfLines lines + sizeOfLines more := by
  induction lines with
  | nil => exact (Nat.zero_add _).symm
  | cons line lines ih =>
    simp only [List.cons_append, sizeOfLines, ih]
    omega

theorem sizeOfLines_eq (lines : List Bytes) :
    sizeOfLines lines = (Text.terminate 10 lines).length := by
  induction lines with
  | nil => rfl
  | cons line lines ih =>
    simp only [sizeOfLines, Text.terminate_cons, List.length_append, List.length_cons, ih]
    omega

/-- The last line has no end, so the lines with an end each are one byte too long. -/
theorem sizeOfLines_splitOn (payload : Bytes) :
    sizeOfLines (Text.splitOn 10 payload) = payload.length + 1 := by
  obtain ⟨lines, rest, rfl, hlines, hrest⟩ := Text.exists_parts 10 payload
  rw [Text.splitOn_terminate hlines, Text.splitOn_of_not_mem hrest, sizeOfLines_append,
    sizeOfLines_eq lines, List.length_append]
  rfl

theorem sizeOfLines_take_le (payload : Bytes) (n : Nat) :
    sizeOfLines ((Text.splitOn 10 payload).take n) ≤ payload.length + 1 := by
  have hall := sizeOfLines_append ((Text.splitOn 10 payload).take n)
    ((Text.splitOn 10 payload).drop n)
  rw [List.take_append_drop, sizeOfLines_splitOn] at hall
  omega

/-- A column on the line of a place is counted from the start of the line. -/
theorem StartsAt.byteOffset_eq (h : StartsAt payload i start) (column : Nat) :
    byteOffset payload (1 + (payload.take i).count 10) column =
      min (start + (column - 1)) payload.length := by
  obtain ⟨lines, rest, hwhole, hlines, hrest, hstart⟩ := h.exists_parts
  have hcount : (payload.take i).count 10 = lines.length := by
    rw [hwhole, Text.count_parts hlines hrest]
  have hsplit : Text.splitOn 10 payload =
      lines ++ Text.splitOn 10 (rest ++ payload.drop i) := by
    conv_lhs => rw [← List.take_append_drop i payload, hwhole, List.append_assoc,
      Text.splitOn_terminate hlines]
  have hline : 1 + lines.length ≠ 0 := by omega
  simp only [byteOffset, hcount, if_neg hline, Nat.add_sub_cancel_left, hsplit, List.take_left,
    sizeOfLines_eq, hstart]

/-- One more byte: a line feed begins a line, and any other byte is a column further. -/
def moveOn (place : Nat × Nat) (b : UInt8) : Nat × Nat :=
  if b = 10 then (place.1 + 1, 0) else (place.1, place.2 + 1)

theorem foldl_moveOn_line {s : Bytes} (h : 10 ∉ s) (line column : Nat) :
    s.foldl moveOn (line, column) = (line, column + s.length) := by
  induction s generalizing column with
  | nil => rfl
  | cons b s ih =>
    rw [List.mem_cons, not_or] at h
    rw [List.foldl_cons, moveOn, if_neg (Ne.symm h.1), ih h.2, List.length_cons]
    exact congrArg (line, ·) (by omega)

theorem foldl_moveOn_lines {lines : List Bytes} (h : ∀ line ∈ lines, 10 ∉ line) (line : Nat) :
    (Text.terminate 10 lines).foldl moveOn (line, 0) = (line + lines.length, 0) := by
  induction lines generalizing line with
  | nil => rfl
  | cons first lines ih =>
    rw [List.forall_mem_cons] at h
    rw [Text.terminate_cons, List.foldl_append, foldl_moveOn_line h.1, List.foldl_cons, moveOn,
      if_pos rfl, ih h.2, List.length_cons]
    exact congrArg (·, 0) (by omega)

/-- The line and the column that the decoder tells of a place. Its column counts the bytes in front. -/
theorem StartsAt.position_eq (h : StartsAt payload i start) (inside : i ≤ payload.length) :
    position payload i = (1 + (payload.take i).count 10, i - start) := by
  obtain ⟨lines, rest, hwhole, hlines, hrest, hstart⟩ := h.exists_parts
  have hcolumn : rest.length = i - start := by
    have hlength := congrArg List.length hwhole
    rw [List.length_take, List.length_append] at hlength
    omega
  have hfold : position payload i = (payload.take i).foldl moveOn (1, 0) := rfl
  rw [hfold, hwhole, Text.count_parts hlines hrest, List.foldl_append, foldl_moveOn_lines hlines,
    foldl_moveOn_line hrest, hcolumn, Nat.zero_add]

/-- The place of an error is the last byte that was read on its line, or the start of the line where
none was read. -/
theorem StartsAt.toError_byteOffset (h : StartsAt payload i start) (inside : i ≤ payload.length)
    (fault : Fault) : (fault.toError payload i).byteOffset = if start = i then i else i - 1 := by
  have hle := h.le
  have hplace : (fault.toError payload i).byteOffset =
      byteOffset payload (position payload i).1 (position payload i).2 := rfl
  rw [hplace, h.position_eq inside, h.byteOffset_eq]
  split <;> omega

end Places

section Words

/-- A line with its end added to a size, where both sums fit a word. -/
def addLine? (size : Nat) (line : Bytes) : Option Nat := do
  let length ← Word.fit? (line.length + 1)
  Word.fit? (size + length)

/-- The size of lines with their ends, added up from the front in words. -/
def sizeOfLines? (lines : List Bytes) : Option Nat := lines.foldlM addLine? 0

/-- The byte that a line and a column point at, reckoned in words: nothing where a sum does not fit,
save that the last sum stays at the largest word. -/
def byteOffset? (payload : Bytes) (line column : Nat) : Option Nat :=
  if line = 0 then some 0
  else do
    let start ← sizeOfLines? ((Text.splitOn 10 payload).take (line - 1))
    return min (min (start + (column - 1)) (Word.limit - 1)) payload.length

theorem addLine?_eq {size : Nat} {line : Bytes} (fits : size + (line.length + 1) < Word.limit) :
    addLine? size line = some (size + (line.length + 1)) := by
  have hline : line.length + 1 < Word.limit := by omega
  rw [addLine?, Word.fit?_of_lt hline]
  exact Word.fit?_of_lt fits

theorem foldlM_addLine? {size : Nat} {lines : List Bytes}
    (fits : size + sizeOfLines lines < Word.limit) :
    lines.foldlM addLine? size = some (size + sizeOfLines lines) := by
  induction lines generalizing size with
  | nil => rfl
  | cons line lines ih =>
    have hsplit : size + sizeOfLines (line :: lines) =
        size + (line.length + 1) + sizeOfLines lines := by
      rw [sizeOfLines]
      omega
    rw [hsplit] at fits ⊢
    rw [List.foldlM_cons, addLine?_eq (by omega)]
    exact ih fits

/-- No sum on the way is too large for a word. -/
theorem byteOffset?_eq {payload : Bytes} (fits : payload.length + 1 < Word.limit)
    (line column : Nat) :
    byteOffset? payload line column = some (byteOffset payload line column) := by
  rw [byteOffset?, byteOffset]
  split
  · rfl
  · have hle := sizeOfLines_take_le payload (line - 1)
    have hsize : sizeOfLines? ((Text.splitOn 10 payload).take (line - 1)) =
        some (0 + sizeOfLines ((Text.splitOn 10 payload).take (line - 1))) :=
      foldlM_addLine? (by omega)
    rw [hsize]
    simp only [Option.bind_eq_bind, Option.bind_some, Option.pure_def, Option.some.injEq]
    omega

theorem byteOffset_le (payload : Bytes) (line column : Nat) :
    byteOffset payload line column ≤ payload.length := by
  rw [byteOffset]
  split
  · exact Nat.zero_le _
  · exact Nat.min_le_right _ _

end Words

/-- Every place of a payload, its end too, is found again by its line and its column, both counted
from one. Whatever the line and the column, no place behind the end is found, and no sum on the way
is too large for a word. (No payload in memory is nearly as long as the bound that this needs.) -/
theorem byteOffset_inverts (payload : Bytes) :
    (∀ i ≤ payload.length, ∃! start, StartsAt payload i start) ∧
    (∀ i start, i ≤ payload.length → StartsAt payload i start →
      byteOffset payload (1 + (payload.take i).count 10) (i - start + 1) = i) ∧
    (∀ line column, byteOffset payload line column ≤ payload.length) ∧
    (payload.length + 1 < Word.limit → ∀ line column,
      byteOffset? payload line column = some (byteOffset payload line column)) := by
  refine ⟨fun i _ => existsUnique_startsAt payload i, ?_, byteOffset_le payload,
    fun fits => byteOffset?_eq fits⟩
  intro i start inside h
  have hle := h.le
  rw [h.byteOffset_eq]
  omega

/-- Behind two line feeds the third line is empty, and its end is the end of the payload. -/
theorem byteOffset_inverts_on_an_empty_line :
    let payload : Bytes := [123, 10, 10]
    StartsAt payload 3 3 ∧ byteOffset payload 3 1 = 3 ∧
      byteOffset? payload 7 (Word.limit - 1) = some (byteOffset payload 7 (Word.limit - 1)) := by
  intro payload
  have hstart : StartsAt payload 3 3 := ⟨Nat.le_refl 3, Or.inr rfl, List.not_mem_nil⟩
  obtain ⟨-, hfound, -, hwords⟩ := byteOffset_inverts payload
  exact ⟨hstart, hfound 3 3 (Nat.le_refl 3) hstart, hwords (by decide) 7 (Word.limit - 1)⟩

end WorkerLink.Json
