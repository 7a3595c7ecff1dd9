import WorkerLink.Bytes

/-!
What `echo` and `printf` write. Both know escapes with a backslash; the conversions of `printf` take
arguments in order, and the format is used again as long as arguments are left.
-/

namespace WorkerLink.Sandbox.Shell

def isOctal (c : Char) : Bool := '0' ≤ c && c ≤ '7'

/-- The byte of up to three octal digits, and the rest. -/
def octal (limit : Nat) (s : List Char) : Char × List Char :=
  let digits := (s.take limit).takeWhile isOctal
  (Char.ofNat (digits.foldl (fun n c => 8 * n + (c.toNat - 48)) 0 % 256), s.drop digits.length)

/-- The character that a letter after a backslash stands for. -/
def escape? : Char → Option Char
  | '\\' => some '\\'
  | 'a' => some (Char.ofNat 7)
  | 'b' => some (Char.ofNat 8)
  | 'f' => some (Char.ofNat 12)
  | 'n' => some '\n'
  | 'r' => some '\r'
  | 't' => some '\t'
  | 'v' => some (Char.ofNat 11)
  | _ => none

/-- The words of an `echo` with their escapes resolved. `\c` ends the output at once. -/
def unescapeWords : Nat → List Char → List Char × Bool
  | 0, _ => ([], true)
  | _, [] => ([], true)
  | fuel + 1, '\\' :: c :: rest =>
    if c = 'c' then ([], false)
    else if c = '0' then
      let (byte, rest) := octal 3 rest
      let (text, goesOn) := unescapeWords fuel rest
      (byte :: text, goesOn)
    else
      let front := match escape? c with
        | some e => [e]
        | none => ['\\', c]
      let (text, goesOn) := unescapeWords fuel rest
      (front ++ text, goesOn)
  | fuel + 1, c :: rest =>
    let (text, goesOn) := unescapeWords fuel rest
    (c :: text, goesOn)

def echo (args : List (List Char)) : List Char :=
  let (silent, words) := match args with
    | ['-', 'n'] :: rest => (true, rest)
    | _ => (false, args)
  let text := List.intercalate [' '] words
  let (text, goesOn) := unescapeWords (text.length + 1) text
  if goesOn && !silent then text ++ ['\n'] else text

/-- A decimal number with a sign, and whether all of the text belongs to it. -/
def integer (s : List Char) : Int × Bool :=
  let (negative, digits) := match s with
    | '-' :: rest => (true, rest)
    | '+' :: rest => (false, rest)
    | _ => (false, s)
  let front := digits.takeWhile Char.isDigit
  let n : Nat := front.foldl (fun n c => 10 * n + (c.toNat - 48)) 0
  (if negative then -n else n, !front.isEmpty && front.length = digits.length)

def pad (left zero : Bool) (width : Nat) (s : List Char) : List Char :=
  let missing := width - s.length
  if left then s ++ List.replicate missing ' '
  else List.replicate missing (if zero then '0' else ' ') ++ s

def convert (c : Char) (precision : Option Nat) (arg : List Char) : Option (List Char) :=
  match c with
  | 's' => some (arg.take (precision.getD arg.length))
  | 'b' => some (unescapeWords (arg.length + 1) arg).1
  | 'c' => some (arg.take 1)
  | 'd' | 'i' | 'u' => some (toString (integer arg).1).toList
  | 'x' => some (Nat.toDigits 16 (integer arg).1.toNat)
  | 'X' => some ((Nat.toDigits 16 (integer arg).1.toNat).map Char.toUpper)
  | 'o' => some (Nat.toDigits 8 (integer arg).1.toNat)
  | _ => none

/-- One use of a format: what it writes, and the arguments that are left. -/
def formatOnce : Nat → List Char → List (List Char) → List Char × List (List Char)
  | 0, _, args => ([], args)
  | _, [], args => ([], args)
  | fuel + 1, '\\' :: c :: rest, args =>
    if isOctal c then
      let (byte, rest) := octal 3 (c :: rest)
      let (text, args) := formatOnce fuel rest args
      (byte :: text, args)
    else
      let front := match escape? c with
        | some e => [e]
        | none => ['\\', c]
      let (text, args) := formatOnce fuel rest args
      (front ++ text, args)
  | fuel + 1, '%' :: '%' :: rest, args =>
    let (text, args) := formatOnce fuel rest args
    ('%' :: text, args)
  | fuel + 1, '%' :: rest, args =>
    let flags := rest.takeWhile fun c => c = '-' || c = '0'
    let rest := rest.drop flags.length
    let width := rest.takeWhile Char.isDigit
    let rest := rest.drop width.length
    let (precision, rest) := match rest with
      | '.' :: rest => (some (rest.takeWhile Char.isDigit), rest.dropWhile Char.isDigit)
      | _ => (none, rest)
    match rest with
    | c :: rest =>
      match convert c (precision.map fun p => (integer p).1.toNat) (args.head?.getD []) with
      | some field =>
        let field := pad (flags.contains '-') (flags.contains '0' && c ≠ 's')
          (integer width).1.toNat field
        let (text, args) := formatOnce fuel rest args.tail
        (field ++ text, args)
      | none => ([], args)
    | [] => ([], args)
  | fuel + 1, c :: rest, args =>
    let (text, args) := formatOnce fuel rest args
    (c :: text, args)

/-- Uses a format until no arguments are left. A format that takes none is used once. -/
def formatAll : Nat → List Char → List (List Char) → List Char
  | 0, _, _ => []
  | fuel + 1, format, args =>
    let (text, rest) := formatOnce (format.length + 1) format args
    if rest.isEmpty || rest.length = args.length then text
    else text ++ formatAll fuel format rest

def printf : List (List Char) → List Char
  | [] => []
  | format :: args => formatAll (args.length + 1) format args

end WorkerLink.Sandbox.Shell
