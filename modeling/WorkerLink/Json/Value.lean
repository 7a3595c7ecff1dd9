import WorkerLink.Bytes
import WorkerLink.Decimal.Shortest

/-!
JSON values and their compact encoding: no blanks, members in the order of the object, and only the
escapes that JSON demands.
-/

namespace WorkerLink.Json

/-- A JSON value. Numbers without fraction and exponent that fit a machine word are integers. -/
inductive Value
  | null
  | bool (b : Bool)
  | integer (n : Int)
  | real (x : Decimal.Double)
  | text (s : String)
  | array (items : List Value)
  | object (members : List (String × Value))
deriving Repr

/-- One character of a string: quote, backslash and controls are escaped. -/
def escape (c : Char) : List Char :=
  if c = '"' then ['\\', '"']
  else if c = '\\' then ['\\', '\\']
  else if c = '\n' then ['\\', 'n']
  else if c = '\r' then ['\\', 'r']
  else if c = '\t' then ['\\', 't']
  else if c.toNat = 8 then ['\\', 'b']
  else if c.toNat = 12 then ['\\', 'f']
  else if c.toNat < 32 then
    ['\\', 'u', '0', '0', Nat.digitChar (c.toNat / 16), Nat.digitChar (c.toNat % 16)]
  else [c]

def encodeText (s : String) : Bytes :=
  [34] ++ Bytes.ofChars (s.toList.flatMap escape) ++ [34]

/-- The digits of an integer, with a sign if it is negative. -/
def encodeInteger (n : Int) : Bytes :=
  if n < 0 then 45 :: Bytes.decimal n.natAbs else Bytes.decimal n.natAbs

mutual

def Value.encode : Value → Bytes
  | .null => [110, 117, 108, 108]
  | .bool true => [116, 114, 117, 101]
  | .bool false => [102, 97, 108, 115, 101]
  | .integer n => encodeInteger n
  | .real x => Bytes.ofChars x.toText
  | .text s => encodeText s
  | .array items => [91] ++ encodeItems items ++ [93]
  | .object members => [123] ++ encodeMembers members ++ [125]

def encodeItems : List Value → Bytes
  | [] => []
  | [v] => v.encode
  | v :: w :: rest => v.encode ++ [44] ++ encodeItems (w :: rest)

def encodeMembers : List (String × Value) → Bytes
  | [] => []
  | [(k, v)] => encodeText k ++ [58] ++ v.encode
  | (k, v) :: m :: rest => encodeText k ++ [58] ++ v.encode ++ [44] ++ encodeMembers (m :: rest)

end

/-- Adds a member to members sorted by the bytes of their names. A repeated name keeps its last
value. -/
def insertMember (name : String) (value : Value) :
    List (String × Value) → List (String × Value)
  | [] => [(name, value)]
  | (k, v) :: rest =>
    if name = k then (name, value) :: rest
    else if name < k then (name, value) :: (k, v) :: rest
    else (k, v) :: insertMember name value rest

end WorkerLink.Json
