/-!
Binary floating point numbers of 64 bits, and the one read for a decimal. A finite number is
`mantissa · 2 ^ exponent`; products and quotients are taken exactly, in natural numbers, and then
rounded.
-/

namespace WorkerLink.Decimal

/-- A finite double: a sign, and `mantissa · 2 ^ exponent` with a mantissa below `2 ^ 53`. -/
structure Double where
  negative : Bool
  mantissa : Nat
  exponent : Int
deriving DecidableEq, Repr

/-- A quotient rounded to the nearest integer; halves go to the even neighbour. -/
def roundDiv (num den : Nat) : Nat :=
  let q := num / den
  let r := num % den
  if 2 * r < den || (2 * r = den && q % 2 = 0) then q else q + 1

/-- `num / den` divided by `2 ^ e`, as a pair of naturals. -/
def scaled (num den : Nat) (e : Int) : Nat × Nat :=
  (num * Nat.pow 2 (-e).toNat, den * Nat.pow 2 e.toNat)

namespace Double

def minExponent : Int := -1074

def maxExponent : Int := 971

def zero (negative : Bool) : Double := ⟨negative, 0, minExponent⟩

/-- The double nearest to `num / den`, unless that is beyond the largest one. -/
def ofRatio? (negative : Bool) (num den : Nat) : Option Double :=
  if num = 0 then some (zero negative)
  else
    let guess : Int := (num.log2 : Int) - den.log2 - 53
    let (n, d) := scaled num den guess
    let exact := if d * Nat.pow 2 53 ≤ n then guess + 1 else guess
    let e := max exact minExponent
    let (n, d) := scaled num den e
    let m := roundDiv n d
    let (m, e) := if m = Nat.pow 2 53 then (Nat.pow 2 52, e + 1) else (m, e)
    if maxExponent < e then none else some ⟨negative, m, e⟩

def mul? (x y : Double) : Option Double :=
  let (num, den) := scaled (x.mantissa * y.mantissa) 1 (-(x.exponent + y.exponent))
  ofRatio? (x.negative != y.negative) num den

def div? (x y : Double) : Option Double :=
  let (num, den) := scaled x.mantissa y.mantissa (y.exponent - x.exponent)
  ofRatio? (x.negative != y.negative) num den

/-- `10 ^ n`, unless that is beyond the largest double. -/
def powerOfTen? (n : Nat) : Option Double :=
  if n ≤ 308 then ofRatio? false (Nat.pow 10 n) 1 else none

/-- `x · 10 ^ e`, by one product or quotient where the power of ten is a double, and by several
quotients below that. Every step rounds, so the result need not be the nearest double. -/
def scale? (x : Double) (e : Int) : Option Double :=
  match powerOfTen? e.natAbs with
  | some power => if 0 ≤ e then x.mul? power else x.div? power
  | none =>
    if x.mantissa = 0 then some x
    else if 0 ≤ e then none
    else do
      let part ← x.div? (← powerOfTen? 308)
      part.scale? (e + 308)
termination_by (-e).toNat

def ofDecimal? (negative : Bool) (significand : Nat) (e : Int) : Option Double := do
  (← ofRatio? negative significand 1).scale? e

end Double

end WorkerLink.Decimal
