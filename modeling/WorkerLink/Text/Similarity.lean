/-!
How alike two words are, after Jaro: letters match if they are equal and not far apart, and matched
letters in another order count half. The measure is a fraction between 0 and 1.
-/

namespace WorkerLink.Text

/-- A fraction of natural numbers. -/
structure Fraction where
  num : Nat
  den : Nat
deriving DecidableEq, Repr

namespace Fraction

/-- Less than, for denominators that are not zero. -/
def less (a b : Fraction) : Bool := a.num * b.den < b.num * a.den

end Fraction

namespace Similarity

/-- How far apart two letters may be and still match. -/
def reach (a b : List Char) : Nat := max a.length b.length / 2 - 1

/-- The first unmatched place of a letter among those in reach of a position. -/
def partner? (reach position : Nat) (c : Char) (b : List (Char × Bool)) : Option Nat :=
  (b.zipIdx.find? fun ((d, matched), j) =>
    !matched && c = d && position ≤ j + reach && j ≤ position + reach).map (·.2)

/-- Matches letters from left to right: the matched letters of the first word in order, and the
second word with a mark at each letter that is matched. -/
def matchLetters (reach : Nat) : Nat → List Char → List (Char × Bool) → List Char × List (Char × Bool)
  | _, [], b => ([], b)
  | position, c :: rest, b =>
    match partner? reach position c b with
    | none => matchLetters reach (position + 1) rest b
    | some j =>
      let (matched, b) := matchLetters reach (position + 1) rest (b.set j (c, true))
      (c :: matched, b)

def jaro (a b : List Char) : Fraction :=
  if a.isEmpty && b.isEmpty then ⟨1, 1⟩
  else
    let (inA, marked) := matchLetters (reach a b) 0 a (b.map fun c => (c, false))
    let inB := (marked.filter (·.2)).map (·.1)
    let m := inA.length
    if m = 0 then ⟨0, 1⟩
    else
      let moved := ((inA.zip inB).filter fun (c, d) => c ≠ d).length / 2
      ⟨m * m * b.length + m * m * a.length + (m - moved) * a.length * b.length,
        3 * a.length * b.length * m⟩

def threshold : Fraction := ⟨7, 10⟩

/-- The most similar of some words, if one is similar at all; of equals, the last. -/
def closest? (word : List Char) (candidates : List (List Char)) : Option (List Char) :=
  let step (best : Option (Fraction × List Char)) (candidate : List Char) :=
    let measure := jaro word candidate
    if !threshold.less measure then best
    else match best with
      | some (most, _) => if measure.less most then best else some (measure, candidate)
      | none => some (measure, candidate)
  (candidates.foldl step none).map (·.2)

end Similarity

end WorkerLink.Text
