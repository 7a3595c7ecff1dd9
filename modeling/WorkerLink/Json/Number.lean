import WorkerLink.Json.Cursor
import WorkerLink.Decimal.Shortest
import WorkerLink.Word

/-!
Numbers in JSON texts. A number without fraction and exponent is an integer if it fits a machine
word. Every other number is a double: the digits that fit a word, times a power of ten. One beyond
the largest double is refused.
-/

namespace WorkerLink.Json

inductive Number
  | integer (n : Int)
  | real (x : Decimal.Double)

namespace Number

/-- The digits at a cursor, and the cursor behind them. -/
def digits (c : Cursor) : Bytes × Cursor :=
  let ds := c.rest.takeWhile Bytes.isDigit
  (ds, c.skip ds.length)

/-- Takes digits into a significand for as long as it fits a word, and leaves the others. -/
def takeIn (significand : Nat) : Bytes → Nat × Bytes
  | [] => (significand, [])
  | d :: ds =>
    match Word.fit? (10 * significand + (d.toNat - 48)) with
    | some significand => takeIn significand ds
    | none => (significand, d :: ds)

/-- Exponents beyond this are not computed with. -/
def maxExponent : Nat := 2147483647

/-- Reads the digits of an exponent one by one. `none` stands for an exponent beyond `maxExponent`,
found at the cursor that is returned. -/
def exponentDigits (value : Nat) (c : Cursor) : Bytes → Option Nat × Cursor
  | [] => (some value, c)
  | d :: ds =>
    let value := 10 * value + (d.toNat - 48)
    if maxExponent < value then (none, c.advance) else exponentDigits value c.advance ds

def ofDecimal (negative : Bool) (significand : Nat) (e : Int) (c : Cursor) :
    Except Failure (Number × Cursor) :=
  match Decimal.Double.ofDecimal? negative significand e with
  | some x => .ok (.real x, c)
  | none => .error (c.failure .numberOutOfRange)

def exponent (negative : Bool) (significand : Nat) (scale : Int) (c : Cursor) :
    Except Failure (Number × Cursor) :=
  let c := c.advance
  let (down, c) := match c.peek? with
    | some 43 => (false, c.advance)
    | some 45 => (true, c.advance)
    | _ => (false, c)
  match c.peek? with
  | none => .error (c.failure .endInValue)
  | some b =>
    if !Bytes.isDigit b then .error (c.advance.failure .invalidNumber)
    else
      match exponentDigits 0 c (digits c).1 with
      | (some e, c) =>
        ofDecimal negative significand (if down then scale - e else scale + e) c
      | (none, c') =>
        if significand ≠ 0 && !down then .error (c'.failure .numberOutOfRange)
        else .ok (.real (Decimal.Double.zero negative), (digits c).2)

/-- `scale` counts the digits of the whole part that the significand leaves out. The digits behind
the point go on filling it all the same. -/
def fraction (negative : Bool) (significand : Nat) (scale : Int) (c : Cursor) :
    Except Failure (Number × Cursor) :=
  let (ds, c) := digits c.advance
  if ds.isEmpty then
    .error (c.failureAtNext (if c.rest.isEmpty then .endInValue else .invalidNumber))
  else
    let (significand, left) := takeIn significand ds
    let scale := scale + left.length - ds.length
    match c.peek? with
    | some 101 | some 69 => exponent negative significand scale c
    | _ => ofDecimal negative significand scale c

/-- An integer, or a double where it does not fit a signed word. Negative zero is a double. -/
def ofWord (negative : Bool) (n : Nat) (c : Cursor) : Except Failure (Number × Cursor) :=
  if !negative then .ok (.integer n, c)
  else if 0 < n && n ≤ Word.signedLimit then .ok (.integer (-n), c)
  else ofDecimal true n 0 c

def parse (negative : Bool) : Parser Number := fun c =>
  match c.peek? with
  | none => .error (c.failure .endInValue)
  | some first =>
    if !Bytes.isDigit first then .error (c.advance.failure .invalidNumber)
    else
      let (whole, after) := if first = 48 then ([48], c.advance) else digits c
      if first = 48 && (after.peek?.map Bytes.isDigit).getD false then
        .error (after.failureAtNext .invalidNumber)
      else
        let (significand, left) := takeIn 0 whole
        match after.peek? with
        | some 46 => fraction negative significand left.length after
        | some 101 | some 69 => exponent negative significand left.length after
        | _ =>
          if left.isEmpty then ofWord negative significand after
          else ofDecimal negative significand left.length after

def pass : Parser Unit := fun c =>
  match c.peek? with
  | none => .error (c.failure .invalidNumber)
  | some first =>
    if !Bytes.isDigit first then .error (c.advance.failure .invalidNumber)
    else
      let after := if first = 48 then c.advance else (digits c).2
      if first = 48 && (after.peek?.map Bytes.isDigit).getD false then
        .error (after.failureAtNext .invalidNumber)
      else
        match after.peek? with
        | some 46 =>
          let (ds, c) := digits after.advance
          if ds.isEmpty then .error (c.failureAtNext .invalidNumber)
          else match c.peek? with
            | some 101 | some 69 => passExponent c
            | _ => .ok ((), c)
        | some 101 | some 69 => passExponent after
        | _ => .ok ((), after)
where
  /-- Passes over an exponent, from its letter on. -/
  passExponent (c : Cursor) : Except Failure (Unit × Cursor) :=
    let c := c.advance
    let c := match c.peek? with
      | some 43 | some 45 => c.advance
      | _ => c
    let (ds, after) := digits c
    if ds.isEmpty then .error (c.advance.failure .invalidNumber) else .ok ((), after)

end Number

end WorkerLink.Json
