import WorkerLink.Connection.SendError
import WorkerLink.Json.Decode
import WorkerLink.Settings

/-!
Codecs: how the payload of a frame becomes a message, and a message a payload.
-/

namespace WorkerLink

/-- A way to read and to write messages of a type. -/
structure Codec (α : Type) where
  decode : Bytes → Except DecodeError α
  encode : α → Except EncodeError Bytes

/-- A notation: texts that are read as messages, and a text for every message. -/
class Format (α : Type) where
  parse : Bytes → Except DecodeError α
  print : α → Bytes

namespace Codec

def ofFormat (α : Type) [Format α] : Codec α where
  decode := Format.parse
  encode v := .ok (Format.print v)

/-- JSON values of a shape. Every JSON value has an encoding. -/
def json (shape : Json.Shape) : Codec Json.Value where
  decode := Json.decode shape
  encode v := .ok v.encode

end Codec

instance Json.format : Format Json.Value where
  parse := Json.decode .any
  print := Json.Value.encode

end WorkerLink
