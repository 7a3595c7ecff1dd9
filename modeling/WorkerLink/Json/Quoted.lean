import WorkerLink.Json.Cursor
import WorkerLink.Text.Utf8

/-!
Strings in JSON texts. The bytes between two escapes have to be well-formed UTF-8; that is looked at
only once the closing quote is found.
-/

namespace WorkerLink.Json.Quoted

def hexDigit? (b : UInt8) : Option Nat :=
  if 48 ≤ b && b ≤ 57 then some (b.toNat - 48)
  else if 97 ≤ b && b ≤ 102 then some (b.toNat - 87)
  else if 65 ≤ b && b ≤ 70 then some (b.toNat - 55)
  else none

def hex4 : Parser Nat := fun c =>
  match c.rest with
  | a :: b :: d :: e :: _ =>
    let after := c.skip 4
    match hexDigit? a, hexDigit? b, hexDigit? d, hexDigit? e with
    | some a, some b, some d, some e => .ok (((a * 16 + b) * 16 + d) * 16 + e, after)
    | _, _, _, _ => .error (after.failure .invalidEscape)
  | rest => .error ((c.skip rest.length).failure .endInString)

/-- Steps over one given byte of the second half of a surrogate pair. -/
def pairMark (b : UInt8) : Parser Unit := fun c =>
  match c.peek? with
  | none => .error (c.failure .endInString)
  | some x =>
    if x = b then .ok ((), c.advance) else .error (c.advance.failure .unexpectedEndOfEscape)

/-- A character written as `\u` and four digits, from the digits on. Characters past the first plane
take two such escapes. -/
def unicodeEscape : Parser Char := fun c => do
  let (high, c) ← hex4 c
  if 0xDC00 ≤ high && high ≤ 0xDFFF then throw (c.failure .loneSurrogate)
  else if high < 0xD800 || 0xDBFF < high then return (Char.ofNat high, c)
  else
    let (_, c) ← pairMark 92 c
    let (_, c) ← pairMark 117 c
    let (low, c) ← hex4 c
    if low < 0xDC00 || 0xDFFF < low then throw (c.failure .loneSurrogate)
    else return (Char.ofNat (0x10000 + (high - 0xD800) * 0x400 + (low - 0xDC00)), c)

/-- The character that a letter after a backslash stands for. -/
def simpleEscape? (b : UInt8) : Option UInt8 :=
  if b = 34 || b = 92 || b = 47 then some b
  else if b = 98 then some 8
  else if b = 102 then some 12
  else if b = 110 then some 10
  else if b = 114 then some 13
  else if b = 116 then some 9
  else none

def escape : Parser Bytes := fun c =>
  match c.peek? with
  | none => .error (c.failure .endInString)
  | some b =>
    let c := c.advance
    if b = 117 then (unicodeEscape c).map fun (ch, c) => (Bytes.ofChars [ch], c)
    else match simpleEscape? b with
      | some x => .ok ([x], c)
      | none => .error (c.failure .invalidEscape)

/-- Bytes that stand for themselves in a string. -/
def isPlain (b : UInt8) : Bool := 32 ≤ b && b ≠ 34 && b ≠ 92

/-- What has been read of a string: its parts, newest first, and the place of the first ill-formed
byte. -/
structure Partly where
  parts : List Bytes := []
  broken : Option Nat := none

/-- Adds a run of plain bytes that starts at an offset. -/
def Partly.plain (p : Partly) (offset : Nat) (run : Bytes) : Partly where
  parts := run :: p.parts
  broken := p.broken <|> (Text.Utf8.faultOffset? run).map (offset + ·)

/-- Reads runs of plain bytes and escapes up to the closing quote. Each round but the last takes an
escape, so the length of the text bounds the rounds. -/
def runs (p : Partly) (c : Cursor) : Nat → Except Failure (String × Cursor)
  | 0 => .error (c.failure .endInString)
  | rounds + 1 =>
    let run := c.rest.takeWhile isPlain
    let p := p.plain c.offset run
    let c := c.skip run.length
    match c.peek? with
    | none => .error (c.failure .endInString)
    | some b =>
      if b = 34 then
        match p.broken with
        | some offset => .error (.located .invalidCodePoint (offset + 1))
        | none => .ok (Text.Utf8.lossy p.parts.reverse.flatten, c.advance)
      else if b = 92 then do
        let (part, c) ← escape c.advance
        runs { p with parts := part :: p.parts } c rounds
      else .error (c.advance.failure .controlCharacter)

/-- Reads a string, from behind its opening quote. -/
def parse : Parser String := fun c => runs {} c (c.rest.length + 1)

/-- Passes over an escape, from behind its backslash. Surrogates need no partner here. -/
def passEscape : Parser Unit := fun c =>
  match c.peek? with
  | none => .error (c.failure .endInString)
  | some b =>
    let c := c.advance
    if b = 117 then (hex4 c).map fun (_, c) => ((), c)
    else match simpleEscape? b with
      | some _ => .ok ((), c)
      | none => .error (c.failure .invalidEscape)

/-- Passes over runs of plain bytes and escapes up to the closing quote. -/
def passRuns (c : Cursor) : Nat → Except Failure (Unit × Cursor)
  | 0 => .error (c.failure .endInString)
  | rounds + 1 =>
    let c := c.skip (c.rest.takeWhile isPlain).length
    match c.peek? with
    | none => .error (c.failure .endInString)
    | some b =>
      if b = 34 then .ok ((), c.advance)
      else if b = 92 then do
        let (_, c) ← passEscape c.advance
        passRuns c rounds
      else .error (c.failure .controlCharacter)

/-- Passes over a string, from behind its opening quote. -/
def pass : Parser Unit := fun c => passRuns c (c.rest.length + 1)

end WorkerLink.Json.Quoted
