import WorkerLink.Bytes

/-!
A place in a JSON text, and the faults that reading from it can meet. A fault is located by the
number of bytes before it; `position` turns that into a line and a column.
-/

namespace WorkerLink.Json

inductive Fault
  | endInList
  | endInObject
  | endInString
  | endInValue
  | expectedColon
  | expectedListCommaOrEnd
  | expectedObjectCommaOrEnd
  | expectedIdent
  | expectedValue
  | invalidEscape
  | invalidNumber
  | numberOutOfRange
  | invalidCodePoint
  | controlCharacter
  | keyNotString
  | loneSurrogate
  | trailingComma
  | trailingCharacters
  | unexpectedEndOfEscape
  | tooDeep
  /-- The text is JSON but not of the wanted shape. -/
  | mismatch (text : String)
deriving DecidableEq, Repr

namespace Fault

def message : Fault → String
  | .endInList => "EOF while parsing a list"
  | .endInObject => "EOF while parsing an object"
  | .endInString => "EOF while parsing a string"
  | .endInValue => "EOF while parsing a value"
  | .expectedColon => "expected `:`"
  | .expectedListCommaOrEnd => "expected `,` or `]`"
  | .expectedObjectCommaOrEnd => "expected `,` or `\x7d`"
  | .expectedIdent => "expected ident"
  | .expectedValue => "expected value"
  | .invalidEscape => "invalid escape"
  | .invalidNumber => "invalid number"
  | .numberOutOfRange => "number out of range"
  | .invalidCodePoint => "invalid unicode code point"
  | .controlCharacter => "control character (\\u0000-\\u001F) found while parsing a string"
  | .keyNotString => "key must be a string"
  | .loneSurrogate => "lone leading surrogate in hex escape"
  | .trailingComma => "trailing comma"
  | .trailingCharacters => "trailing characters"
  | .unexpectedEndOfEscape => "unexpected end of hex escape"
  | .tooDeep => "recursion limit exceeded"
  | .mismatch text => text

def isEnd : Fault → Bool
  | .endInList | .endInObject | .endInString | .endInValue => true
  | _ => false

end Fault

/-- What is left of a text, and how much of it was read. -/
structure Cursor where
  rest : Bytes
  offset : Nat := 0
deriving Repr

/-- A fault in its place. A fault of shape is placed only when the value around it is left, so it
keeps the cursor until then. -/
inductive Failure
  | located (fault : Fault) (offset : Nat)
  | pending (text : String) (cursor : Cursor)

abbrev Parser (α : Type) := Cursor → Except Failure (α × Cursor)

namespace Cursor

def peek? (c : Cursor) : Option UInt8 := c.rest.head?

def advance (c : Cursor) : Cursor :=
  match c.rest with
  | [] => c
  | _ :: rest => ⟨rest, c.offset + 1⟩

def skip (c : Cursor) (n : Nat) : Cursor := ⟨c.rest.drop n, c.offset + n⟩

/-- White space of JSON: space, line feed, tab, carriage return. -/
def isBlank (b : UInt8) : Bool := b = 32 || b = 10 || b = 9 || b = 13

def skipBlank (c : Cursor) : Cursor :=
  c.skip (c.rest.takeWhile isBlank).length

def failure (c : Cursor) (fault : Fault) : Failure := .located fault c.offset

/-- A fault at the next byte, or at the end of the text. -/
def failureAtNext (c : Cursor) (fault : Fault) : Failure :=
  .located fault (if c.rest.isEmpty then c.offset else c.offset + 1)

def mismatch (c : Cursor) (text : String) : Failure := c.failure (.mismatch text)

end Cursor

/-- The line of a place, from one, and the bytes before it on that line. -/
def position (text : Bytes) (offset : Nat) : Nat × Nat :=
  (text.take offset).foldl
    (fun (line, column) (b : UInt8) =>
      if b = 10 then (line + 1, 0) else (line, column + 1)) (1, 0)

end WorkerLink.Json
