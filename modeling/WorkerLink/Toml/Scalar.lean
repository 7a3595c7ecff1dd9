import WorkerLink.Settings.Value
import WorkerLink.Word

/-!
The bare words of TOML: booleans, numbers, dates and times. A whole number has 64 bits with its
sign. Digits may be grouped by single underscores, each between two digits.
-/

namespace WorkerLink.Toml.Scalar

open WorkerLink.Settings (Value)

/-- Digits without the underscores between them. -/
def ungroup (isDigit : Char → Bool) : List Char → Option (List Char)
  | [] => none
  | [c] => if isDigit c then some [c] else none
  | c :: '_' :: rest => if isDigit c then (ungroup isDigit rest).map (c :: ·) else none
  | c :: rest => if isDigit c then (ungroup isDigit rest).map (c :: ·) else none

def digitValue (c : Char) : Nat :=
  let n := c.toNat
  if n < 65 then n - 48 else if n < 97 then n - 55 else n - 87

def isDigitOf (base : Nat) (c : Char) : Bool :=
  let n := c.toNat
  (c.isDigit || (65 ≤ n && n ≤ 70) || (97 ≤ n && n ≤ 102)) && digitValue c < base

def valueOf (base : Nat) (digits : List Char) : Nat :=
  digits.foldl (fun n c => base * n + digitValue c) 0

/-- A number of digits of a base, behind the sign of the base. -/
def natural? (base : Nat) (cs : List Char) : Option Nat :=
  (ungroup (isDigitOf base) cs).map (valueOf base)

/-- Whole digits of a decimal number, which start with no zero unless they are one. -/
def whole? (cs : List Char) : Option (List Char) :=
  match ungroup Char.isDigit cs with
  | some ('0' :: _ :: _) => none
  | digits => digits

def sign (cs : List Char) : Bool × List Char :=
  match cs with
  | '-' :: rest => (true, rest)
  | '+' :: rest => (false, rest)
  | cs => (false, cs)

/-- A whole number of 64 bits, if it is in range. -/
def word (n : Int) : Option Value :=
  if Word.fitsSigned n then some (.integer n) else none

def integer? (cs : List Char) : Option Value :=
  match cs with
  | '0' :: 'x' :: digits => (natural? 16 digits).bind fun n => word n
  | '0' :: 'o' :: digits => (natural? 8 digits).bind fun n => word n
  | '0' :: 'b' :: digits => (natural? 2 digits).bind fun n => word n
  | cs =>
    let (negative, digits) := sign cs
    (whole? digits).bind fun digits =>
      let n := valueOf 10 digits
      word (if negative then -n else n)

def isExponent (cs : List Char) : Bool := (ungroup Char.isDigit (sign cs).2).isSome

def isExponentPart : List Char → Bool
  | [] => true
  | letter :: cs => (letter = 'e' || letter = 'E') && isExponent cs

/-- A number with a fraction, an exponent or both, or a name for infinity or for no number. -/
def isReal (cs : List Char) : Bool :=
  let (_, cs) := sign cs
  if cs = "inf".toList || cs = "nan".toList then true
  else
    let digits := cs.takeWhile fun c => c.isDigit || c = '_'
    let rest := cs.drop digits.length
    (whole? digits).isSome &&
      match rest with
      | '.' :: rest =>
        let fraction := rest.takeWhile fun c => c.isDigit || c = '_'
        (ungroup Char.isDigit fraction).isSome && isExponentPart (rest.drop fraction.length)
      | [] => false
      | rest => isExponentPart rest

/-! Dates and times -/

/-- So many digits and the text behind them, as a number. -/
def fixed? (count : Nat) (cs : List Char) : Option (Nat × List Char) :=
  let digits := cs.take count
  if digits.length = count && digits.all Char.isDigit then
    some (valueOf 10 digits, cs.drop count)
  else none

def past? (c : Char) : List Char → Option (List Char)
  | [] => none
  | d :: rest => if c = d then some rest else none

def daysIn (year month : Nat) : Nat :=
  if month = 2 then
    if year % 4 = 0 && (year % 100 ≠ 0 || year % 400 = 0) then 29 else 28
  else if month = 4 || month = 6 || month = 9 || month = 11 then 30 else 31

def date? (cs : List Char) : Option (List Char) := do
  let (year, cs) ← fixed? 4 cs
  let (month, cs) ← fixed? 2 (← past? '-' cs)
  let (day, cs) ← fixed? 2 (← past? '-' cs)
  if 1 ≤ month && month ≤ 12 && 1 ≤ day && day ≤ daysIn year month then some cs else none

def hourMinute? (cs : List Char) : Option (List Char) := do
  let (hour, cs) ← fixed? 2 cs
  let (minute, cs) ← fixed? 2 (← past? ':' cs)
  if hour < 24 && minute < 60 then some cs else none

/-- Past a time of day, with or without a fraction of a second. -/
def time? (cs : List Char) : Option (List Char) := do
  let (second, cs) ← fixed? 2 (← past? ':' (← hourMinute? cs))
  if 60 < second then none
  else match cs with
    | '.' :: rest =>
      let fraction := rest.takeWhile Char.isDigit
      if fraction = [] then none else some (rest.drop fraction.length)
    | cs => some cs

def isOffset : List Char → Bool
  | [] => true
  | ['Z'] | ['z'] => true
  | c :: rest => (c = '+' || c = '-') && hourMinute? rest = some []

/-- A date, a time, or both, perhaps with an offset. -/
def isMoment (cs : List Char) : Bool :=
  match date? cs with
  | some [] => true
  | some (mark :: rest) =>
    (mark = 'T' || mark = 't' || mark = ' ') && ((time? rest).map isOffset).getD false
  | none => time? cs = some []

def ofWord? (cs : List Char) : Option Value :=
  if cs = "true".toList then some (.boolean true)
  else if cs = "false".toList then some (.boolean false)
  else if isMoment cs then some (.moment (String.ofList cs))
  else if isReal cs then some (.real (String.ofList cs))
  else integer? cs

def endsWord (c : Char) : Bool :=
  c = ',' || c = ']' || c = '\x7d' || c = '#' || c = ' ' || c = '\t' || c = '\n' || c = '\r'

/-- Reads a bare word. A date takes a time behind a single blank along. -/
def read (cs : List Char) : Option (Value × List Char) :=
  let word := cs.takeWhile fun c => !endsWord c
  let rest := cs.drop word.length
  let longer := match rest with
    | ' ' :: more => word ++ ' ' :: more.takeWhile fun c => !endsWord c
    | _ => word
  if date? word = some [] && isMoment longer then
    some (.moment (String.ofList longer), cs.drop longer.length)
  else (ofWord? word).map fun value => (value, rest)

end WorkerLink.Toml.Scalar
