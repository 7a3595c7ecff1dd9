import WorkerLink.Bytes
import WorkerLink.Word

/-!
The wire form of a message: the marker `Content-Length:`, the decimal size of the payload, an empty
line, and the payload. Frames follow one another without anything between them.
-/

namespace WorkerLink

/-- One payload with its length. -/
structure Frame where
  payload : Bytes
deriving DecidableEq, Repr

namespace Frame

/-- Opens every header: `Content-Length:`. -/
def marker : Bytes :=
  Bytes.ofChars ['C', 'o', 'n', 't', 'e', 'n', 't', '-', 'L', 'e', 'n', 'g', 't', 'h', ':']

/-- Ends a header: two line ends. -/
def terminator : Bytes := [13, 10, 13, 10]

/-- Longest header value that is waited for. -/
def maxFieldLength : Nat := 64

/-- Lengths from here on do not fit a machine word. -/
def lengthBound : Nat := Word.limit

/-- The length of a frame, which is the size of its payload. -/
def contentLength (f : Frame) : Nat := f.payload.length

def encode (payload : Bytes) : Bytes :=
  marker ++ [32] ++ Bytes.decimal payload.length ++ terminator ++ payload

theorem encode_ne_nil (payload : Bytes) : encode payload ≠ [] := by
  have hmarker : marker ≠ [] := by decide
  simp [encode, hmarker]

/-- The blanks allowed around a length: space, tab, line feed, form feed, carriage return. -/
def isBlank (b : UInt8) : Bool := b = 32 || b = 9 || b = 10 || b = 12 || b = 13

/-- A header value without the blanks around it. -/
def trim (field : Bytes) : Bytes :=
  ((field.dropWhile isBlank).reverse.dropWhile isBlank).reverse

/-- The length that a header value states: decimal digits between blanks, below `lengthBound`. -/
def parseLength? (field : Bytes) : Option Nat :=
  let digits := trim field
  if digits ≠ [] ∧ digits.all Bytes.isDigit ∧ Bytes.value digits < lengthBound then
    some (Bytes.value digits)
  else none

end Frame

end WorkerLink
