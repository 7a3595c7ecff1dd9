import WorkerLink.Json.Value
import WorkerLink.Log.Record

/-!
Log records as text: lines with the level, the thread, the target, the message and the fields, or
JSON objects with the fields beside the rest.
-/

namespace WorkerLink.Log

/-- A character of a message on a terminal: those that could steer it are written as escapes. -/
def harmless (c : Char) : List Char :=
  let n := c.toNat
  if n = 0x1B || n = 0x07 || n = 0x08 || n = 0x0C || n = 0x7F then
    let digit (d : Nat) := Nat.digitChar d
    ['\\', 'x', digit (n / 16), digit (n % 16)]
  else if 0x80 ≤ n && n ≤ 0x9F then
    ['\\', 'u', '\x7b'] ++ Nat.toDigits 16 n ++ ['\x7d']
  else [c]

def FieldValue.display : FieldValue → String
  | .number n => toString n
  | .text s => s

def Record.line (r : Record) (thread : String) : String :=
  let message := String.ofList (r.message.toList.flatMap harmless)
  let fields := String.join (r.fields.map fun (name, value) => s!" {name}={value.display}")
  s!"{r.level.name} {thread} {r.target}: {message}{fields}\n"

def FieldValue.json : FieldValue → Json.Value
  | .number n => .integer n
  | .text s => .text s

def Record.object (r : Record) (thread : String) : Json.Value :=
  .object ([("level", .text r.level.name), ("message", .text r.message)] ++
    r.fields.map (fun (name, value) => (name, value.json)) ++
    [("target", .text r.target), ("threadName", .text thread)])

end WorkerLink.Log
