import WorkerLink.Decimal.Double

/-!
The shortest decimal text of a double: the fewest digits to which it is the nearest double, and of
those the ones nearest to it. For one digit, two digits and so on the two neighbours on that decimal grid are
tried; the first grid with a hit wins.
-/

namespace WorkerLink.Decimal

structure Digits where
  digits : Nat
  exponent : Int
deriving DecidableEq, Repr

namespace Double

/-- Four times the number and the bounds of the reals that round to it, over one power of two: half
a step up, and half a step down, which is a quarter of a step at a power of two. -/
def bounds (x : Double) : Nat × Nat × Nat :=
  let v := 4 * x.mantissa
  let low := if x.mantissa = Nat.pow 2 52 && minExponent < x.exponent then v - 1 else v - 2
  (low, v, v + 2)

/-- The power of ten of the first digit of `num / den`. -/
def leading (num den : Nat) : Int :=
  if den ≤ num then (Nat.toDigits 10 (num / den)).length - 1
  else
    let count := (Nat.toDigits 10 (den / num)).length
    if num * Nat.pow 10 (count - 1) = den then -((count : Int) - 1) else -(count : Int)

/-- The best decimal with `count` digits to which `x` is the nearest double, if there is one. -/
def onGrid? (x : Double) (count : Nat) : Option Digits :=
  let (low, v, high) := x.bounds
  let e := x.exponent - 2
  let (num, den) := scaled v 1 (-e)
  let k := leading num den - (count - 1)
  let unit := Nat.pow 10 k.toNat
  let part := Nat.pow 10 (-k).toNat
  let weight (n : Nat) := n * Nat.pow 2 e.toNat * part
  let step := unit * Nat.pow 2 (-e).toNat
  let floor := weight v / step
  let inside (d : Nat) : Bool :=
    let w := d * step
    if x.mantissa % 2 = 0 then weight low ≤ w && w ≤ weight high
    else weight low < w && w < weight high
  let below := weight v - floor * step
  let above := (floor + 1) * step - weight v
  match inside floor, inside (floor + 1) with
  | false, false => none
  | true, false => some ⟨floor, k⟩
  | false, true => some ⟨floor + 1, k⟩
  | true, true =>
    if below < above || (below = above && floor % 2 = 0) then some ⟨floor, k⟩
    else some ⟨floor + 1, k⟩

/-- The digits of the shortest decimal. Seventeen always suffice. -/
def shortestDigits (x : Double) : Digits :=
  (((List.range 17).map (· + 1)).findSome? x.onGrid?).getD ⟨x.mantissa, 0⟩

/-- The part of a text without the zeros at its end. -/
def dropZeros (cs : List Char) : List Char := (cs.reverse.dropWhile (· = '0')).reverse

/-- The text of a double: positional from `10 ^ -5` up to `10 ^ 16`, always with a point there, and
with an exponent elsewhere. -/
def toText (x : Double) : List Char :=
  let sign := if x.negative then ['-'] else []
  if x.mantissa = 0 then sign ++ ['0', '.', '0']
  else
    let d := x.shortestDigits
    let all := Nat.toDigits 10 d.digits
    let cs := dropZeros all
    let first : Int := d.exponent + (all.length - 1)
    let body :=
      if -5 ≤ first ∧ first < 0 then
        ['0', '.'] ++ List.replicate (-first - 1).toNat '0' ++ cs
      else if 0 ≤ first ∧ first < 16 then
        let whole := first.toNat + 1
        if cs.length ≤ whole then
          cs ++ List.replicate (whole - cs.length) '0' ++ ['.', '0']
        else cs.take whole ++ ['.'] ++ cs.drop whole
      else
        let fraction := if cs.length ≤ 1 then [] else ['.'] ++ cs.drop 1
        let mark := if first < 0 then ['e', '-'] else ['e', '+']
        cs.take 1 ++ fraction ++ mark ++ Nat.toDigits 10 first.natAbs
    sign ++ body

end Double

end WorkerLink.Decimal
