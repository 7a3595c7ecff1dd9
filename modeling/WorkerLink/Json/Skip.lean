import WorkerLink.Json.Number
import WorkerLink.Json.Quoted

/-!
Passing over a value that nobody wants. The kinds of the open brackets stand on a stack, so depth is
no limit here, and numbers and strings are not evaluated.
-/

namespace WorkerLink.Json

/-- The rest of a name such as `null`, from behind its first letter. -/
def ident (c : Cursor) : Bytes → Except Failure Cursor
  | [] => .ok c
  | b :: name =>
    match c.peek? with
    | none => .error (c.failure .endInValue)
    | some x => if x = b then ident c.advance name else .error (c.advance.failure .expectedIdent)

namespace Skip

/-- The kind of an open bracket. -/
inductive Bracket
  | list
  | object
deriving DecidableEq, Repr

/-- What comes next: a value; or, in the innermost bracket, a comma or the closing bracket, where
right behind the opening bracket a first item may come instead. -/
inductive Expect
  | value
  | more (afterItem : Bool)
deriving DecidableEq, Repr

/-- The name of a member and the colon behind it. -/
def memberName (c : Cursor) : Except Failure Cursor := do
  let c := c.skipBlank
  match c.peek? with
  | none => throw (c.failureAtNext .endInObject)
  | some b =>
    if b ≠ 34 then throw (c.failureAtNext .keyNotString)
    let (_, c) ← Quoted.pass c.advance
    let c := c.skipBlank
    match c.peek? with
    | none => throw (c.failureAtNext .endInObject)
    | some b => if b = 58 then return c.advance else throw (c.failureAtNext .expectedColon)

/-- Goes on until the brackets are closed. Each step but those from a value to what follows it
consumes a byte. -/
def steps (openings : List Bracket) (expect : Expect) (c : Cursor) :
    Nat → Except Failure Cursor
  | 0 => .error (c.failure .endInValue)
  | fuel + 1 =>
    match expect with
    | .value =>
      let c := c.skipBlank
      match c.peek? with
      | none => .error (c.failureAtNext .endInValue)
      | some b => do
        if b = 91 then steps (.list :: openings) (.more false) c.advance fuel
        else if b = 123 then steps (.object :: openings) (.more false) c.advance fuel
        else
          let c ←
            if b = 110 then ident c.advance [117, 108, 108]
            else if b = 116 then ident c.advance [114, 117, 101]
            else if b = 102 then ident c.advance [97, 108, 115, 101]
            else if b = 45 then (·.2) <$> Number.pass c.advance
            else if Bytes.isDigit b then (·.2) <$> Number.pass c
            else if b = 34 then (·.2) <$> Quoted.pass c.advance
            else throw (c.failureAtNext .expectedValue)
          steps openings (.more true) c fuel
    | .more afterItem =>
      match openings with
      | [] => .ok c
      | bracket :: outer =>
        let c := c.skipBlank
        let item (c : Cursor) : Except Failure Cursor := do
          let c ← if bracket = .object then memberName c else pure c
          steps (bracket :: outer) .value c fuel
        match c.peek? with
        | none =>
          .error (c.failureAtNext (if bracket = .list then .endInList else .endInObject))
        | some b =>
          if b = 44 && afterItem then item c.advance
          else if b = (if bracket = .list then 93 else 125) then
            steps outer (.more true) c.advance fuel
          else if afterItem then
            .error (c.failureAtNext
              (if bracket = .list then .expectedListCommaOrEnd else .expectedObjectCommaOrEnd))
          else item c

/-- Passes over a value. White space behind it stays. -/
def value (c : Cursor) : Except Failure Cursor := steps [] .value c (2 * c.rest.length + 2)

end Skip

end WorkerLink.Json
