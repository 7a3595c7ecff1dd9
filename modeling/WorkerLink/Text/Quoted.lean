import WorkerLink.Text.Printable

/-!
Quoted text for messages: the text between double quotes, with every character that would be
invisible, or would end the quote, written as an escape.
-/

namespace WorkerLink.Text.Quoted

/-- The digits of a number in lower-case hexadecimal. -/
def hex (n : Nat) : List Char := Nat.toDigits 16 n

def escape (c : Char) : List Char :=
  if c = '\t' then ['\\', 't']
  else if c = '\r' then ['\\', 'r']
  else if c = '\n' then ['\\', 'n']
  else if c = '\x00' then ['\\', '0']
  else if c = '"' then ['\\', '"']
  else if c = '\\' then ['\\', '\\']
  else if isShown c then [c]
  else ['\\', 'u', '\x7b'] ++ hex c.toNat ++ ['\x7d']

def quote (s : String) : String :=
  String.ofList (['"'] ++ s.toList.flatMap escape ++ ['"'])

/-- A list of texts, each in quotes, between brackets. -/
def quoteList (ss : List String) : String :=
  "[" ++ String.intercalate ", " (ss.map quote) ++ "]"

end WorkerLink.Text.Quoted
