import WorkerLink.Bridge.Feed
import WorkerLink.Proofs.Bytes.Utf8
import WorkerLink.Proofs.Text.Lines

/-!
# The lines of an input

A line of an input ends with a line feed, or with a carriage return and a line
feed, and only the last may stand without an end (`LinesOf`). `lines` finds these
lines and no others (`linesOf_iff`). The texts that a bridge hears are those of the
lines up to the first that is not UTF-8 (`Brings`), whatever the time at which
each is heard.
-/

namespace WorkerLink.Bridge

/-- The input consists of terminated lines and a rest. -/
structure Cut (input : Bytes) (terminated : List Bytes) (rest : Bytes) : Prop where
  whole : input = terminated.flatMap (fun line => line ++ [10]) ++ rest
  lines : ∀ line ∈ terminated, 10 ∉ line
  rest : 10 ∉ rest

theorem exists_cut (input : Bytes) : ∃ terminated rest, Cut input terminated rest := by
  obtain ⟨terminated, rest, hwhole, hlines, hrest⟩ := Text.exists_parts 10 input
  exact ⟨terminated, rest, hwhole, hlines, hrest⟩

theorem Cut.splitOn {input : Bytes} {terminated : List Bytes} {rest : Bytes}
    (h : Cut input terminated rest) : Text.splitOn 10 input = terminated ++ [rest] := by
  have hwhole : input = Text.terminate 10 terminated ++ rest := h.whole
  rw [hwhole, Text.splitOn_terminate h.lines, Text.splitOn_of_not_mem h.rest]

theorem cutLines_of_cut {input : Bytes} {terminated : List Bytes} {rest : Bytes}
    (h : Cut input terminated rest) : cutLines input = (terminated.map dropReturn, rest) := by
  simp [cutLines, h.splitOn]

theorem lines_of_cut {input : Bytes} {terminated : List Bytes} {rest : Bytes}
    (h : Cut input terminated rest) :
    lines input = terminated.map dropReturn ++ if rest = [] then [] else [rest] := by
  simp only [lines, cutLines_of_cut h, List.isEmpty_iff]
  split
  · rw [List.append_nil]
  · rfl

theorem lines_of_not_mem {rest : Bytes} (h : 10 ∉ rest) :
    lines rest = if rest = [] then [] else [rest] :=
  lines_of_cut ⟨rfl, List.forall_mem_nil _, h⟩

theorem lines_append {line : Bytes} (h : 10 ∉ line) (input : Bytes) :
    lines (line ++ [10] ++ input) = dropReturn line :: lines input := by
  obtain ⟨terminated, rest, hcut⟩ := exists_cut input
  have hmore : Cut (line ++ [10] ++ input) (line :: terminated) rest := by
    refine ⟨?_, List.forall_mem_cons.mpr ⟨h, hcut.lines⟩, hcut.rest⟩
    rw [hcut.whole]
    simp
  rw [lines_of_cut hmore, lines_of_cut hcut]
  rfl

/-- The lines of an input. A carriage return in front of a line feed belongs to the end of a line,
and the last line may have no end. -/
inductive LinesOf : Bytes → List Bytes → Prop
  | nil : LinesOf [] []
  | last {rest : Bytes} : rest ≠ [] → 10 ∉ rest → LinesOf rest [rest]
  | feed {line input : Bytes} {lines : List Bytes} : 10 ∉ line → ¬ [13] <:+ line →
      LinesOf input lines → LinesOf (line ++ [10] ++ input) (line :: lines)
  | returnFeed {line input : Bytes} {lines : List Bytes} : 10 ∉ line →
      LinesOf input lines → LinesOf (line ++ [13, 10] ++ input) (line :: lines)

theorem dropReturn_concat (line : Bytes) : dropReturn (line ++ [13]) = line := by
  simp [dropReturn]

theorem dropReturn_of_not_suffix {line : Bytes} (h : ¬ [13] <:+ line) : dropReturn line = line := by
  rw [dropReturn, if_neg]
  rintro hlast
  obtain ⟨front, rfl⟩ := List.getLast?_eq_some_iff.mp hlast
  exact h (List.suffix_append front [13])

theorem LinesOf.lines_eq {input : Bytes} {found : List Bytes} (h : LinesOf input found) :
    lines input = found := by
  induction h with
  | nil => exact lines_of_not_mem List.not_mem_nil
  | last hsome hrest => rw [lines_of_not_mem hrest, if_neg hsome]
  | @feed line input _ hline hnone _ ih =>
    rw [lines_append hline, ih, dropReturn_of_not_suffix hnone]
  | @returnFeed line input _ hline _ ih =>
    have hreturn : 10 ∉ line ++ [13] := by simp [hline]
    have hsame : line ++ [13, 10] ++ input = line ++ [13] ++ [10] ++ input := by simp
    rw [hsame, lines_append hreturn, ih, dropReturn_concat]

theorem LinesOf.cons {line input : Bytes} {found : List Bytes} (h : LinesOf input found)
    (hline : 10 ∉ line) : LinesOf (line ++ [10] ++ input) (dropReturn line :: found) := by
  by_cases hreturn : [13] <:+ line
  · obtain ⟨front, rfl⟩ := hreturn
    have hsame : front ++ [13] ++ [10] ++ input = front ++ [13, 10] ++ input := by simp
    rw [dropReturn_concat, hsame]
    exact .returnFeed (fun hmem => hline (List.mem_append_left _ hmem)) h
  · rw [dropReturn_of_not_suffix hreturn]
    exact .feed hline hreturn h

theorem linesOf_lines (input : Bytes) : LinesOf input (lines input) := by
  obtain ⟨terminated, rest, rfl, hlines, hrest⟩ := exists_cut input
  induction terminated with
  | nil =>
    rw [List.flatMap_nil, List.nil_append, lines_of_not_mem hrest]
    by_cases hnone : rest = []
    · rw [if_pos hnone, hnone]
      exact .nil
    · rw [if_neg hnone]
      exact .last hnone hrest
  | cons line terminated ih =>
    rw [List.forall_mem_cons] at hlines
    rw [List.flatMap_cons, List.append_assoc, lines_append hlines.1]
    exact (ih hlines.2).cons hlines.1

theorem linesOf_iff {input : Bytes} {found : List Bytes} :
    LinesOf input found ↔ lines input = found := by
  constructor
  · exact LinesOf.lines_eq
  · rintro rfl
    exact linesOf_lines input

/-- The texts are those of the lines up to the first that is not the UTF-8 form of any. -/
def Texts (lines : List Bytes) (texts : List String) : Prop :=
  ∃ rest, lines = texts.map Bytes.ofString ++ rest ∧
    ∀ line ∈ rest.head?, ∀ text, line ≠ Bytes.ofString text

theorem texts_decodeLines (lines : List Bytes) : Texts lines (decodeLines lines).1 := by
  induction lines with
  | nil => exact ⟨[], rfl, by simp⟩
  | cons line lines ih =>
    cases hline : Text.Utf8.decode? line with
    | none =>
      rw [decodeLines, hline]
      refine ⟨line :: lines, rfl, ?_⟩
      simpa using Text.Utf8.decode?_eq_none_iff.mp hline
    | some text =>
      obtain ⟨rest, hlines, hrest⟩ := ih
      rw [decodeLines, hline]
      refine ⟨rest, ?_, hrest⟩
      rw [List.map_cons, List.cons_append, ← hlines, Text.Utf8.decode?_eq_some_iff.mp hline]

theorem decodeLines_append (lines more : List Bytes) : (decodeLines (lines ++ more)).1 =
    (decodeLines lines).1 ++ if (decodeLines lines).2 then (decodeLines more).1 else [] := by
  induction lines with
  | nil => rfl
  | cons line lines ih =>
    rw [List.cons_append, decodeLines, decodeLines]
    cases Text.Utf8.decode? line with
    | none => rfl
    | some text => exact congrArg (text :: ·) ih

/-- The texts that an input brings. -/
def Brings (input : Bytes) (texts : List String) : Prop :=
  ∃ lines, LinesOf input lines ∧ Texts lines texts

def Feed.texts (feed : Feed) : List String := feed.lines.map Prod.snd

theorem texts_ofBytes (input : Bytes) (endsAt : Nat) :
    (Feed.ofBytes input endsAt).texts = (decodeLines (lines input)).1 := by
  obtain ⟨terminated, rest, hcut⟩ := exists_cut input
  have hsnd (texts : List String) (time : Nat) :
      (texts.map fun text => (time, text)).map Prod.snd = texts := by
    rw [List.map_map]
    exact List.map_id texts
  rw [lines_of_cut hcut, decodeLines_append]
  simp only [Feed.texts, Feed.ofBytes, cutLines_of_cut hcut, List.isEmpty_iff]
  cases hclean : (decodeLines (terminated.map dropReturn)).2 with
  | false =>
    rw [if_pos (by rfl), if_neg (by simp), hsnd, List.append_nil]
  | true =>
    rw [if_neg (by simp), if_pos rfl]
    by_cases hrest : rest = []
    · rw [if_pos hrest, if_pos hrest, hsnd]
      exact (List.append_nil _).symm
    · rw [if_neg hrest, if_neg hrest, List.map_append, hsnd, hsnd]

theorem brings_ofBytes (input : Bytes) (endsAt : Nat) :
    Brings input (Feed.ofBytes input endsAt).texts := by
  refine ⟨lines input, linesOf_lines input, ?_⟩
  rw [texts_ofBytes]
  exact texts_decodeLines _

end WorkerLink.Bridge
