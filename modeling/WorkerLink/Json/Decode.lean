import WorkerLink.Json.Shape
import WorkerLink.Text.Split

/-!
Decoding payloads. A payload that is not JSON of the wanted shape gives an error with its kind, its
text, and its place as a line, a column and a byte offset.
-/

namespace WorkerLink

inductive DecodeErrorKind
  /-- The payload ended before its value did. -/
  | endOfFile
  /-- A complete value is followed by something else. -/
  | trailingContent
  | parse
deriving DecidableEq, Repr

def DecodeErrorKind.name : DecodeErrorKind → String
  | .endOfFile => "json-end-of-file"
  | .trailingContent => "json-trailing-content"
  | .parse => "json-parse-error"

/-- A payload could not be decoded. -/
structure DecodeError where
  kind : DecodeErrorKind
  detail : String
  line : Nat
  column : Nat
  byteOffset : Nat
deriving DecidableEq, Repr

def DecodeError.message (e : DecodeError) : String := s!"{e.kind.name}: {e.detail}"

namespace Json

def sizeOfLines : List Bytes → Nat
  | [] => 0
  | line :: rest => line.length + 1 + sizeOfLines rest

/-- The byte that a line and a column point at, both counted from one; at most the length of the
payload. Line zero means that nothing is known. -/
def byteOffset (payload : Bytes) (line column : Nat) : Nat :=
  if line = 0 then 0
  else
    let start := sizeOfLines ((Text.splitOn 10 payload).take (line - 1))
    min (start + (column - 1)) payload.length

def Fault.toError (fault : Fault) (payload : Bytes) (offset : Nat) : DecodeError :=
  let (line, column) := position payload offset
  { kind :=
      if fault.isEnd then .endOfFile
      else if fault = .trailingCharacters then .trailingContent
      else .parse
    detail := s!"{fault.message} at line {line} column {column}"
    line
    column
    byteOffset := byteOffset payload line column }

def Failure.toError (payload : Bytes) : Failure → DecodeError
  | .located fault offset => fault.toError payload offset
  | .pending text c => (Fault.mismatch text).toError payload c.offset

/-- Decodes a payload that is one value of a shape between white space. -/
def decode (shape : Shape) (payload : Bytes) : Except DecodeError Value :=
  let result := do
    let (v, c) ← shape.parser maxDepth ⟨payload, 0⟩
    let c := c.skipBlank
    if c.rest.isEmpty then return v else throw (c.failureAtNext .trailingCharacters)
  match result with
  | .ok v => .ok v
  | .error e => .error (e.toError payload)

end Json

end WorkerLink
