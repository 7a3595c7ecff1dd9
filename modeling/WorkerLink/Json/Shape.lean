import WorkerLink.Json.Skip
import WorkerLink.Json.Value
import WorkerLink.Text.Quoted

/-!
Reading JSON values of a wanted shape. Records are written as objects, where unknown members are
passed over, or as arrays of their fields in order. Brackets may nest to a fixed depth.
-/

namespace WorkerLink.Json

/-- What a value has to look like. -/
inductive Shape
  | any
  /-- An integer from `low` to `high`, of a type with a name. -/
  | integer (name : String) (low high : Int)
  | boolean
  | text
  | list (item : Shape)
  | optional (inner : Shape)
  | pair (first second : Shape)
  | record (name : String) (fields : List (String × Shape))
  /-- One of a few names, as a string or as the only member of an object, with `null`. -/
  | choice (names : List String)

def maxDepth : Nat := 127

def named (s : String) : String := "`" ++ s ++ "`"

/-- A failure whose place is the cursor that `leave` makes of the cursor it met. -/
def settle {α : Type} (leave : Cursor → Cursor) : Except Failure α → Except Failure α
  | .error (.pending text c) => .error ((leave c).mismatch text)
  | r => r

namespace Items

def next (first : Bool) (c : Cursor) : Except Failure (Bool × Cursor) :=
  let c := c.skipBlank
  match c.peek? with
  | none => .error (c.failureAtNext .endInList)
  | some b =>
    if b = 93 then .ok (false, c)
    else if first then .ok (true, c)
    else if b = 44 then
      let c := c.advance.skipBlank
      match c.peek? with
      | none => .error (c.failureAtNext .endInValue)
      | some b => if b = 93 then .error (c.failureAtNext .trailingComma) else .ok (true, c)
    else .error (c.failureAtNext .expectedListCommaOrEnd)

def close (c : Cursor) : Except Failure Cursor :=
  let c := c.skipBlank
  match c.peek? with
  | none => .error (c.failureAtNext .endInList)
  | some b =>
    if b = 93 then .ok c.advance
    else if b = 44 then
      let c := c.advance.skipBlank
      .error (c.failureAtNext (if c.peek? = some 93 then .trailingComma else .trailingCharacters))
    else .error (c.failureAtNext .trailingCharacters)

def leave (c : Cursor) : Cursor :=
  let c := c.skipBlank
  if c.peek? = some 93 then c.advance
  else if c.peek? = some 44 then c.advance.skipBlank
  else c

/-- The items of a list up to its closing bracket. -/
def read (item : Parser Value) (found : List Value) (c : Cursor) :
    Nat → Except Failure (List Value × Cursor)
  | 0 => .error (c.failure .endInList)
  | fuel + 1 => do
    let (more, c) ← next found.isEmpty c
    if more then
      let (v, c) ← item c
      read item (v :: found) c fuel
    else return (found.reverse, ← close c)

end Items

namespace Members

/-- Whether another member follows in an object; its name then starts at the cursor. -/
def next (first : Bool) (c : Cursor) : Except Failure (Bool × Cursor) :=
  let c := c.skipBlank
  match c.peek? with
  | none => .error (c.failureAtNext .endInObject)
  | some b =>
    if b = 125 then .ok (false, c)
    else if first then
      if b = 34 then .ok (true, c) else .error (c.failureAtNext .keyNotString)
    else if b = 44 then
      let c := c.advance.skipBlank
      match c.peek? with
      | none => .error (c.failureAtNext .endInValue)
      | some b =>
        if b = 34 then .ok (true, c)
        else if b = 125 then .error (c.failureAtNext .trailingComma)
        else .error (c.failureAtNext .keyNotString)
    else .error (c.failureAtNext .expectedObjectCommaOrEnd)

def close (c : Cursor) : Except Failure Cursor :=
  let c := c.skipBlank
  match c.peek? with
  | none => .error (c.failureAtNext .endInObject)
  | some b =>
    if b = 125 then .ok c.advance
    else if b = 44 then .error (c.failureAtNext .trailingComma)
    else .error (c.failureAtNext .trailingCharacters)

def leave (c : Cursor) : Cursor :=
  let c := c.skipBlank
  if c.peek? = some 125 then c.advance else c

def colon (c : Cursor) : Except Failure Cursor :=
  let c := c.skipBlank
  match c.peek? with
  | none => .error (c.failureAtNext .endInObject)
  | some b => if b = 58 then .ok c.advance else .error (c.failureAtNext .expectedColon)

/-- The members of an object up to its closing bracket, sorted by name. -/
def read (value : Parser Value) (found : List (String × Value)) (first : Bool) (c : Cursor) :
    Nat → Except Failure (List (String × Value) × Cursor)
  | 0 => .error (c.failure .endInObject)
  | fuel + 1 => do
    let (more, c) ← next first c
    if more then
      let (name, c) ← Quoted.parse c.advance
      let (v, c) ← value (← colon c)
      read value (insertMember name v found) false c fuel
    else return (found, ← close c)

end Members

/-- A value that opens no bracket, or one whose bracket is read by `inside`. -/
def simple (b : UInt8) (c : Cursor) (inside : Except Failure (Value × Cursor)) :
    Except Failure (Value × Cursor) := do
  if b = 110 then return (.null, ← ident c.advance [117, 108, 108])
  else if b = 116 then return (.bool true, ← ident c.advance [114, 117, 101])
  else if b = 102 then return (.bool false, ← ident c.advance [97, 108, 115, 101])
  else if b = 45 || Bytes.isDigit b then
    let negative := b = 45
    match ← Number.parse negative (if negative then c.advance else c) with
    | (.integer n, c) => return (.integer n, c)
    | (.real x, c) => return (.real x, c)
  else if b = 34 then
    let (s, c) ← Quoted.parse c.advance
    return (.text s, c)
  else if b = 91 || b = 123 then inside
  else throw (c.failureAtNext .expectedValue)

/-- Any value with at most so many brackets open at once. -/
def anyValue : Nat → Parser Value
  | 0 => fun c =>
    let c := c.skipBlank
    match c.peek? with
    | none => .error (c.failureAtNext .endInValue)
    | some b => simple b c (.error (c.failureAtNext .tooDeep))
  | depth + 1 => fun c =>
    let c := c.skipBlank
    match c.peek? with
    | none => .error (c.failureAtNext .endInValue)
    | some b => simple b c <|
      let fuel := c.rest.length
      if b = 91 then
        (Items.read (anyValue depth) [] c.advance fuel).map fun (vs, c) => (.array vs, c)
      else
        (Members.read (anyValue depth) [] true c.advance fuel).map fun (ms, c) => (.object ms, c)

/-- What a value that is not of the wanted shape is called. -/
def describe : Value → String
  | .null => "null"
  | .bool b => "boolean " ++ named (toString b)
  | .integer n => "integer " ++ named (toString n)
  | .real x => "floating point " ++ named (String.ofList x.toText)
  | .text s => "string " ++ Text.Quoted.quote s
  | .array _ => "sequence"
  | .object _ => "map"

/-- The failure of a value that is not what is wanted. A value without brackets is read first; a
bracket is refused where it stands. -/
def unexpected (wanted : String) (c : Cursor) : Failure :=
  match c.peek? with
  | none => c.failureAtNext .expectedValue
  | some b =>
    match simple b c (.ok (if b = 91 then .array [] else .object [], c)) with
    | .ok (v, c) => c.mismatch s!"invalid type: {describe v}, expected {wanted}"
    | .error e => e

namespace Shape

/-- A record written as an array: its fields in order. -/
def inOrder (wanted : String) (count : Nat) (found : List Value) (c : Cursor) :
    List (Parser Value) → Except Failure (List Value × Cursor)
  | [] => .ok (found.reverse, c)
  | field :: fields => do
    let (more, c) ← Items.next (count = 0) c
    if !more then throw (.pending s!"invalid length {count}, expected {wanted}" c)
    let (v, c) ← field c
    inOrder wanted (count + 1) (v :: found) c fields

/-- The values of fields in their order, unless one is missing. -/
def gather (found : List (String × Value)) (c : Cursor) :
    List String → Except Failure (List Value)
  | [] => .ok []
  | name :: names =>
    match found.lookup name with
    | none => .error (.pending s!"missing field {named name}" c)
    | some v => (gather found c names).map (v :: ·)

/-- A record written as an object: its fields by name. -/
def byName (fields : List (String × Parser Value)) (found : List (String × Value)) (first : Bool)
    (c : Cursor) : Nat → Except Failure (List Value × Cursor)
  | 0 => .error (c.failure .endInObject)
  | fuel + 1 => do
    let (more, c) ← Members.next first c
    if more then
      let (name, c) ← Quoted.parse c.advance
      match fields.lookup name with
      | none =>
        let c ← Skip.value (← Members.colon c)
        byName fields found false c fuel
      | some field =>
        if (found.lookup name).isSome then
          throw (.pending s!"duplicate field {named name}" c)
        let (v, c) ← field (← Members.colon c)
        byName fields ((name, v) :: found) false c fuel
    else return (← gather found c (fields.map (·.1)), c)

def elements (n : Nat) : String := if n = 1 then "1 element" else s!"{n} elements"

/-- Reads a record whose fields are read by the given parsers. -/
def recordWith (name : String) (fields : List (String × Parser Value)) (open? : Bool) :
    Parser Value := fun c =>
  let c := c.skipBlank
  match c.peek? with
  | none => .error (c.failureAtNext .endInValue)
  | some b =>
    let finish (vs : List Value) (c : Cursor) : Value × Cursor :=
      (.object ((fields.map (·.1)).zip vs), c)
    if b = 91 then
      if !open? then .error (c.failureAtNext .tooDeep)
      else do
        let wanted := s!"struct {name} with {elements fields.length}"
        let (vs, c) ← settle Items.leave (inOrder wanted 0 [] c.advance (fields.map (·.2)))
        return finish vs (← Items.close c)
    else if b = 123 then
      if !open? then .error (c.failureAtNext .tooDeep)
      else do
        let (vs, c) ← settle Members.leave (byName fields [] true c.advance c.rest.length)
        return finish vs (← Members.close c)
    else .error (unexpected s!"struct {name}" c)

def alternatives : List String → String
  | [] => "there are no variants"
  | [a] => s!"expected {named a}"
  | [a, b] => s!"expected {named a} or {named b}"
  | names => "expected one of " ++ String.intercalate ", " (names.map named)

def nameOf (names : List String) : Parser Value := fun c =>
  let c := c.skipBlank
  match c.peek? with
  | none => .error (c.failureAtNext .endInValue)
  | some b =>
    if b ≠ 34 then .error (unexpected "variant identifier" c)
    else do
      let (s, c) ← Quoted.parse c.advance
      if names.contains s then return (.text s, c)
      else throw (c.mismatch s!"unknown variant {named s}, {alternatives names}")

/-- One of a few names, as a string or as the only member of an object. -/
def choiceOf (names : List String) (open? : Bool) : Parser Value := fun c =>
  let c := c.skipBlank
  match c.peek? with
  | none => .error (c.failureAtNext .endInValue)
  | some b =>
    if b = 34 then nameOf names c
    else if b ≠ 123 then .error (c.failureAtNext .expectedValue)
    else if !open? then .error (c.failureAtNext .tooDeep)
    else do
      let (v, c) ← nameOf names c.advance
      let c := (← Members.colon c).skipBlank
      let c ← match c.peek? with
        | none => throw (c.failureAtNext .endInValue)
        | some b =>
          if b = 110 then ident c.advance [117, 108, 108] else throw (unexpected "unit" c)
      let c := c.skipBlank
      match c.peek? with
      | none => throw (c.failure .endInObject)
      | some b => if b = 125 then return (v, c.advance) else throw (c.failure .expectedValue)

def integerOf (name : String) (low high : Int) : Parser Value := fun c =>
  let c := c.skipBlank
  match c.peek? with
  | none => .error (c.failureAtNext .endInValue)
  | some b =>
    if b ≠ 45 && !Bytes.isDigit b then .error (unexpected name c)
    else do
      let negative := b = 45
      match ← Number.parse negative (if negative then c.advance else c) with
      | (.integer n, c) =>
        if low ≤ n ∧ n ≤ high then return (.integer n, c)
        else throw (c.mismatch s!"invalid value: integer {named (toString n)}, expected {name}")
      | (.real x, c) =>
        throw (c.mismatch s!"invalid type: {describe (.real x)}, expected {name}")

/-- A value that starts with a given byte, if it does. -/
def startingWith (p : UInt8 → Bool) (wanted : String) (read : Parser Value) : Parser Value :=
  fun c =>
    let c := c.skipBlank
    match c.peek? with
    | none => .error (c.failureAtNext .endInValue)
    | some b => if p b then read c else .error (unexpected wanted c)

mutual

/-- Reads a value of a shape, with at most so many brackets open at once. -/
def parser : Shape → Nat → Parser Value
  | .any, depth => anyValue depth
  | .integer name low high, _ => integerOf name low high
  | .boolean, _ => startingWith (fun b => b = 116 || b = 102) "a boolean" (anyValue 0)
  | .text, _ => startingWith (· = 34) "a string" (anyValue 0)
  | .list item, depth =>
    startingWith (· = 91) "a sequence" fun c =>
      if depth = 0 then .error (c.failureAtNext .tooDeep)
      else (Items.read (item.parser (depth - 1)) [] c.advance c.rest.length).map
        fun (vs, c) => (.array vs, c)
  | .optional inner, depth => fun c =>
    let c := c.skipBlank
    if c.peek? = some 110 then (ident c.advance [117, 108, 108]).map fun c => (.null, c)
    else inner.parser depth c
  | .pair first second, depth =>
    startingWith (· = 91) "a tuple of size 2" fun c =>
      if depth = 0 then .error (c.failureAtNext .tooDeep)
      else do
        let fields := [first.parser (depth - 1), second.parser (depth - 1)]
        let (vs, c) ← settle Items.leave (inOrder "a tuple of size 2" 0 [] c.advance fields)
        return (.array vs, ← Items.close c)
  | .record name fields, depth =>
    recordWith name (fieldParsers fields (depth - 1)) (depth ≠ 0)
  | .choice names, depth => choiceOf names (depth ≠ 0)

def fieldParsers : List (String × Shape) → Nat → List (String × Parser Value)
  | [], _ => []
  | (name, shape) :: fields, depth => (name, shape.parser depth) :: fieldParsers fields depth

end

def unsigned (name : String) (bits : Nat) : Shape := .integer name 0 (Nat.pow 2 bits - 1)

def signed (name : String) (bits : Nat) : Shape :=
  .integer name (-Nat.pow 2 (bits - 1)) (Nat.pow 2 (bits - 1) - 1)

end Shape

end WorkerLink.Json
