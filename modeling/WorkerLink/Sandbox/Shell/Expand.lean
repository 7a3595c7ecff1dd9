import WorkerLink.Sandbox.Shell.Format
import WorkerLink.Sandbox.Shell.Parser

/-!
Expansion of words: variables, parameters, lengths and sums. The outputs of scripts are not known
here; `firstOutput?` finds the next one that has to be run, and `resolveOutput` puts in what it
wrote. After that a word becomes its fields.
-/

namespace WorkerLink.Sandbox.Shell

structure Values where
  named : List (List Char × List Char) := []
  /-- The name of the script and its parameters. -/
  parameters : List (List Char) := []
  status : Nat := 0
  pid : Nat := 0

namespace Values

def set (v : Values) (name value : List Char) : Values :=
  { v with named := (name, value) :: v.named.filter fun entry => entry.1 ≠ name }

/-- The value of a variable or a parameter; empty if there is none. -/
def get (v : Values) (name : List Char) : List Char :=
  match name with
  | ['?'] => (toString v.status).toList
  | ['$'] => (toString v.pid).toList
  | ['#'] => (toString (v.parameters.length - 1)).toList
  | ['@'] | ['*'] => List.intercalate [' '] v.parameters.tail
  | ['!'] => []
  | _ =>
    if name.all Char.isDigit then (v.parameters[(integer name).1.toNat]?).getD []
    else ((v.named.find? fun entry => entry.1 = name).map (·.2)).getD []

end Values

/-! Sums -/

def skipSpace (s : List Char) : List Char := s.dropWhile Char.isWhitespace

mutual

def sumAtom (v : Values) : Nat → List Char → Option (Int × List Char)
  | 0, _ => none
  | fuel + 1, s =>
    match skipSpace s with
    | '-' :: rest => (sumAtom v fuel rest).map fun (n, rest) => (-n, rest)
    | '+' :: rest => sumAtom v fuel rest
    | '(' :: rest =>
      match sumTerms v fuel rest with
      | some (n, rest) => match skipSpace rest with
        | ')' :: rest => some (n, rest)
        | _ => none
      | none => none
    | c :: rest =>
      let s := c :: rest
      if c.isDigit then some ((integer (s.takeWhile Char.isDigit)).1, s.dropWhile Char.isDigit)
      else if isNameStart c then
        some ((integer (v.get (s.takeWhile isNamePart))).1, s.dropWhile isNamePart)
      else none
    | [] => none

def sumFactors (v : Values) : Nat → Int → List Char → Option (Int × List Char)
  | 0, _, _ => none
  | fuel + 1, n, s =>
    match skipSpace s with
    | '*' :: rest => do
      let (m, rest) ← sumAtom v fuel rest
      sumFactors v fuel (n * m) rest
    | '/' :: rest => do
      let (m, rest) ← sumAtom v fuel rest
      if m = 0 then none else sumFactors v fuel (Int.tdiv n m) rest
    | '%' :: rest => do
      let (m, rest) ← sumAtom v fuel rest
      if m = 0 then none else sumFactors v fuel (Int.tmod n m) rest
    | rest => some (n, rest)

def sumRest (v : Values) : Nat → Int → List Char → Option (Int × List Char)
  | 0, _, _ => none
  | fuel + 1, n, s =>
    let term (rest : List Char) : Option (Int × List Char) := do
      let (m, rest) ← sumAtom v fuel rest
      sumFactors v fuel m rest
    match skipSpace s with
    | '+' :: rest => do
      let (m, rest) ← term rest
      sumRest v fuel (n + m) rest
    | '-' :: rest => do
      let (m, rest) ← term rest
      sumRest v fuel (n - m) rest
    | rest => some (n, rest)

def sumTerms (v : Values) : Nat → List Char → Option (Int × List Char)
  | 0, _ => none
  | fuel + 1, s => do
    let (n, rest) ← sumAtom v fuel s
    let (n, rest) ← sumFactors v fuel n rest
    sumRest v fuel n rest

end

/-- The value of a sum; nothing where it is none. -/
def sumText (v : Values) (s : List Char) : List Char :=
  match sumTerms v (4 * s.length + 4) s with
  | some (n, rest) => if (skipSpace rest).isEmpty then (toString n).toList else []
  | none => []

/-! Fields -/

/-- The text of a part, and whether it is to be split. -/
def partText (v : Values) : Part → List Char × Bool
  | .text s => (s, false)
  | .value name quoted => (v.get name, !quoted)
  | .length name => ((toString (v.get name).length).toList, false)
  | .sum inner => (sumText v (texts inner), false)
  | .output _ quoted => ([], !quoted)
  | .result s quoted => (s, !quoted)
where
  /-- The texts of parts, one after another. -/
  texts : List Part → List Char
    | [] => []
    | part :: rest => (partText v part).1 ++ texts rest

def wordText (v : Values) (word : Word) : List Char := partText.texts v word

/-- Adds a text that is to be split to fields of which the last is still open. -/
def addSplit (fields : List (List Char)) (current : Option (List Char)) :
    List Char → List (List Char) × Option (List Char)
  | [] => (fields, current)
  | c :: rest =>
    if c = ' ' || c = '\t' || c = '\n' then
      match current with
      | some field => addSplit (fields ++ [field]) none rest
      | none => addSplit fields none rest
    else addSplit fields (some (current.getD [] ++ [c])) rest

def wordFields (v : Values) (word : Word) : List (List Char) :=
  let (fields, current) := word.foldl
    (fun (fields, current) part =>
      let (text, split) := partText v part
      if split then addSplit fields current text else (fields, some (current.getD [] ++ text)))
    (([], none) : List (List Char) × Option (List Char))
  fields ++ current.toList

/-! Outputs of scripts -/

/-- The first script of a word whose output is not known. -/
def wordOutput? (word : Word) : Option Script :=
  word.findSome? fun
    | .output script _ => some script
    | _ => none

def resolveWord (s : List Char) : Word → Word
  | [] => []
  | .output _ quoted :: rest => .result s quoted :: rest
  | part :: rest => part :: resolveWord s rest

/-- The first script of a command whose output is not known. -/
def firstOutput? : Command → Option Script
  | .simple assignments words redirects =>
    (assignments.findSome? fun entry => wordOutput? entry.2).or
      ((words.findSome? wordOutput?).or
        (redirects.findSome? fun | .mk _ _ target => wordOutput? target))
  | _ => none

def updateFirst {α : Type} (has : α → Bool) (change : α → α) : List α → List α
  | [] => []
  | a :: rest => if has a then change a :: rest else a :: updateFirst has change rest

/-- A command with the output of its first script. -/
def resolveOutput (s : List Char) : Command → Command
  | .simple assignments words redirects =>
    if assignments.any fun entry => (wordOutput? entry.2).isSome then
      .simple
        (updateFirst (fun entry => (wordOutput? entry.2).isSome)
          (fun entry => (entry.1, resolveWord s entry.2)) assignments)
        words redirects
    else if words.any fun word => (wordOutput? word).isSome then
      .simple assignments (updateFirst (fun word => (wordOutput? word).isSome) (resolveWord s) words)
        redirects
    else
      .simple assignments words
        (updateFirst (fun | .mk _ _ target => (wordOutput? target).isSome)
          (fun | .mk stream kind target => .mk stream kind (resolveWord s target)) redirects)
  | other => other

end WorkerLink.Sandbox.Shell
