import WorkerLink.Bytes
import WorkerLink.Text.Split
import WorkerLink.Text.Utf8

/-!
The input of a bridge, line by line. A line ends at a line feed, and a carriage return before the
line feed belongs to the end. What stands after the last line feed is a line of its own, known only
once the input ends. The first line that is not UTF-8 ends the input.
-/

namespace WorkerLink.Bridge

/-- A line without the carriage return that belongs to its end. -/
def dropReturn (line : Bytes) : Bytes := if line.getLast? = some 13 then line.dropLast else line

/-- The terminated lines of an input, and what follows the last of them. -/
def cutLines (input : Bytes) : List Bytes × Bytes :=
  let parts := Text.splitOn 10 input
  (parts.dropLast.map dropReturn, parts.getLast?.getD [])

def lines (input : Bytes) : List Bytes :=
  let (complete, rest) := cutLines input
  if rest.isEmpty then complete else complete ++ [rest]

/-- The texts of lines up to the first that is none, and whether all are texts. -/
def decodeLines : List Bytes → List String × Bool
  | [] => ([], true)
  | line :: rest =>
    match Text.Utf8.decode? line with
    | none => ([], false)
    | some text =>
      let (texts, clean) := decodeLines rest
      (text :: texts, clean)

/-- Lines with the times from which on they can be heard, and the time of the end. -/
structure Feed where
  lines : List (Nat × String) := []
  endsAt : Nat := 0

/-- The lines of an input whose end comes at a time. All but an unterminated line come at once. -/
def Feed.ofBytes (input : Bytes) (endsAt : Nat) : Feed :=
  let (complete, rest) := cutLines input
  let (texts, clean) := decodeLines complete
  let early := texts.map fun text => (0, text)
  if !clean then ⟨early, 0⟩
  else if rest.isEmpty then ⟨early, endsAt⟩
  else ⟨early ++ (decodeLines [rest]).1.map fun text => (endsAt, text), endsAt⟩

end WorkerLink.Bridge
