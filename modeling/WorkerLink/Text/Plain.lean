/-!
Texts without what steers a terminal: control characters other than white space go, and so do
escape sequences, from the escape character to the character that ends them.
-/

namespace WorkerLink.Text.Plain

/-- Where a reader of a text stands. -/
inductive State
  | text
  | escape
  /-- After an escape character and marks that belong to it. -/
  | marked
  /-- Inside a sequence of parameters that a letter ends. -/
  | parameters
  /-- Inside a string for the terminal, which a bell may end. -/
  | title
  /-- Inside a string for the terminal that a bell does not end. -/
  | message
deriving DecidableEq, Repr

/-- White space that is kept though it is a control character. -/
def isKeptControl (n : Nat) : Bool := n = 9 || n = 10 || n = 12 || n = 13

/-- Reads a character: where the reader stands then, and whether the character is text. -/
def step (s : State) (c : Char) : State × Bool :=
  let n := c.toNat
  if 0x80 ≤ n then (.text, true)
  else if n = 0x1B then (.escape, false)
  else if n = 0x18 || n = 0x1A then (.text, false)
  else match s with
    | .title => (if n = 7 then .text else .title, false)
    | .message => (.message, false)
    | .text => (.text, isKeptControl n || (0x20 ≤ n && n < 0x7F))
    | s =>
      if n < 0x20 then if isKeptControl n then (.text, true) else (s, false)
      else if n = 0x7F then (s, false)
      else match s with
        | .parameters => (if n < 0x40 then .parameters else .text, false)
        | .marked => (if n < 0x30 then .marked else .text, false)
        | _ =>
          if n < 0x30 then (.marked, false)
          else if c = '[' then (.parameters, false)
          else if c = ']' then (.title, false)
          else if c = 'P' || c = 'X' || c = '^' || c = '_' then (.message, false)
          else (.text, false)

/-- The text that is left from where a reader stands. -/
def keep : State → List Char → List Char
  | _, [] => []
  | s, c :: rest =>
    let (s, shown) := step s c
    if shown then c :: keep s rest else keep s rest

def ofString (s : String) : String := String.ofList (keep .text s.toList)

end WorkerLink.Text.Plain
