import WorkerLink.Settings.Value
import WorkerLink.Text.Blank
import WorkerLink.Text.Split
import WorkerLink.Text.Utf8
import WorkerLink.Toml.Quoted
import WorkerLink.Word

/-!
The layer of settings that environment variables give. A variable speaks of a setting if its name
starts with the mark of the program; two underscores, or a point, lead into a table. What the
variable holds is read as a value of the kind that it looks like, and a text that looks like a list
of texts is one.
-/

namespace WorkerLink.Settings.Environment

abbrev Variables := List (Bytes × Bytes)

/-- The mark that names of settings start with, in small letters. -/
def mark : List Char := "rpcpipe_".toList

def points : List Char → List Char
  | '_' :: '_' :: rest => '.' :: points rest
  | c :: rest => c :: points rest
  | [] => []

/-- The way to the value that a variable names: nothing if it does not speak of settings. An empty
name on the way ends it. -/
def pathOf (name : String) : List String :=
  let name := (Text.trim name.toList).map Char.toLower
  if mark.isPrefixOf name then
    ((Text.splitOn '.' (points (name.drop mark.length))).takeWhile (· ≠ [])).map String.ofList
  else []

/-! Reading values -/

def isSpace (c : Char) : Bool := c = ' ' || c = '\t' || c = '\n' || c = '\x0c' || c = '\r'

def skipSpace (cs : List Char) : List Char := cs.dropWhile isSpace

def isSeparator (c : Char) : Bool :=
  c = ',' || c = '\x7b' || c = '\x7d' || c = '[' || c = ']'

def isNameCharacter (c : Char) : Bool := c.isAlphanum || c = '_' || c = '-'

def integer? (cs : List Char) : Option Int :=
  let (negative, digits) := match cs with
    | '-' :: rest => (true, rest)
    | '+' :: rest => (false, rest)
    | cs => (false, cs)
  if digits = [] || !digits.all Char.isDigit then none
  else
    let n := Bytes.value (Bytes.ofChars digits)
    if negative then if n ≤ Word.signedLimit then some (-n) else none
    else if n < Word.limit then some n else none

/-- Names of numbers that are not finite, in small letters. -/
def isNonFinite (cs : List Char) : Bool :=
  ["inf", "infinity", "nan"].any fun name => cs.map Char.toLower = name.toList

/-- A number with a point or an exponent, or one that is not finite. -/
def isReal (cs : List Char) : Bool :=
  let unsigned (cs : List Char) := match cs with
    | '-' :: rest | '+' :: rest => rest
    | cs => cs
  let cs := unsigned cs
  if isNonFinite cs then true
  else
    let whole := cs.takeWhile Char.isDigit
    let rest := cs.drop whole.length
    let (fraction, rest) := match rest with
      | '.' :: rest => (rest.takeWhile Char.isDigit, rest.dropWhile Char.isDigit)
      | rest => ([], rest)
    (whole ≠ [] || fraction ≠ []) &&
      match rest with
      | [] => true
      | letter :: exponent =>
        (letter = 'e' || letter = 'E') && unsigned exponent ≠ [] &&
          (unsigned exponent).all Char.isDigit

def ofWord (cs : List Char) : Value :=
  if cs = "true".toList then .boolean true
  else if cs = "false".toList then .boolean false
  else match integer? cs with
    | some n => .integer n
    | none => if isReal cs then .real (String.ofList cs) else .text (String.ofList cs)

/-- The name of an entry, and what follows its equals sign. -/
def entryName? (cs : List Char) : Option (String × List Char) := do
  let cs := skipSpace cs
  let (name, rest) ← match cs with
    | '"' :: rest => Toml.Quoted.body rest
    | cs =>
      let name := cs.takeWhile isNameCharacter
      if name = [] then none else some (name, cs.drop name.length)
  match skipSpace rest with
  | '=' :: rest => some (String.ofList name, rest)
  | _ => none

mutual
/-- A value with the white space around it, and what follows. -/
def value? : Nat → List Char → Option (Value × List Char)
  | 0, _ => none
  | fuel + 1, cs => do
    let (value, rest) ← match skipSpace cs with
      | '"' :: rest =>
        (Toml.Quoted.body rest).map fun (text, rest) => (Value.text (String.ofList text), rest)
      | '[' :: rest => (items? fuel [] rest).map fun (items, rest) => (.list items, rest)
      | '\x7b' :: rest => (entries? fuel [] rest).map fun (entries, rest) => (.table entries, rest)
      | '\'' :: c :: '\'' :: rest => some (.text (String.singleton c), rest)
      | '\'' :: _ => none
      | cs =>
        let word := cs.takeWhile fun c => !isSeparator c
        some (ofWord (Text.trim word), cs.drop word.length)
    return (value, skipSpace rest)
def items? : Nat → List Value → List Char → Option (List Value × List Char)
  | 0, _, _ => none
  | fuel + 1, before, cs =>
    match cs with
    | ']' :: rest => some (before, rest)
    | cs => do
      let (item, rest) ← value? fuel cs
      match rest with
      | ',' :: rest => items? fuel (before ++ [item]) rest
      | ']' :: rest => some (before ++ [item], rest)
      | _ => none
def entries? : Nat → Layer → List Char → Option (Layer × List Char)
  | 0, _, _ => none
  | fuel + 1, before, cs =>
    match cs with
    | '\x7d' :: rest => some (before, rest)
    | cs => do
      let (name, rest) ← entryName? cs
      let (value, rest) ← value? fuel rest
      match rest with
      | ',' :: rest => entries? fuel (before ++ [(name, value)]) rest
      | '\x7d' :: rest => some (before ++ [(name, value)], rest)
      | _ => none
end

/-- A text that is read as a list of texts: it has a comma, and no bracket or quote in front. -/
def isListing (cs : List Char) : Bool :=
  cs.contains ',' &&
    match cs with
    | c :: _ => c ≠ '[' && c ≠ '\x7b' && c ≠ '"' && c ≠ '\''
    | [] => true

/-- The value that a variable holds. What cannot be read to its end is a text as a whole. -/
def valueOf (written : String) : Value :=
  let cs := Text.trim written.toList
  if isListing cs then
    .list ((Text.splitOn ',' cs).map fun part => .text (String.ofList (Text.trim part)))
  else match value? (cs.length + 1) cs with
    | some (value, []) => value
    | _ => .text (String.ofList cs)

def nest (value : Value) : List String → Value
  | [] => value
  | name :: path => .table [(name, nest value path)]

def layer (environment : Variables) : Layer :=
  environment.filterMap fun (name, value) =>
    match pathOf (Text.Utf8.lossy name) with
    | [] => none
    | name :: path => some (name, nest (valueOf (Text.Utf8.lossy value)) path)

end WorkerLink.Settings.Environment
