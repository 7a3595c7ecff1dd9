import WorkerLink.Toml.Quoted
import WorkerLink.Toml.Scalar
import WorkerLink.Toml.Tree

/-!
Keys and values of TOML. A list may go over several lines and may end with a comma; a table in
braces stands on one line and may not. Nested values are read with fuel, of which the length of the
text is enough.
-/

namespace WorkerLink.Toml

open WorkerLink.Settings (Value)

def skipBlank (cs : List Char) : List Char := cs.dropWhile Quoted.isBlank

def isKeyCharacter (c : Char) : Bool := c.isAlphanum || c = '_' || c = '-'

def keyPart? (cs : List Char) : Option (String × List Char) :=
  let bare := cs.takeWhile isKeyCharacter
  if bare ≠ [] then some (String.ofList bare, cs.drop bare.length)
  else (Quoted.line? cs).map fun (text, rest) => (String.ofList text, rest)

/-- A key of parts with points between them, and what follows it and its blanks. -/
def key? : Nat → List Char → Option (List String × List Char)
  | 0, _ => none
  | fuel + 1, cs => do
    let (part, rest) ← keyPart? (skipBlank cs)
    match skipBlank rest with
    | '.' :: rest => do
      let (parts, rest) ← key? fuel rest
      return (part :: parts, rest)
    | rest => some ([part], rest)

/-- Past the end of a line, and of a comment in front of it. The end of the text counts as one. -/
def endOfLine? (cs : List Char) : Option (List Char) :=
  let rest := match skipBlank cs with
    | '#' :: comment => comment.dropWhile fun c => !Quoted.isControl c
    | rest => rest
  match rest with
  | [] => some []
  | '\n' :: rest => some rest
  | '\r' :: '\n' :: rest => some rest
  | _ => none

def skipLines : Nat → List Char → List Char
  | 0, cs => cs
  | fuel + 1, cs =>
    match skipBlank cs with
    | [] => []
    | c :: rest =>
      if c = '#' || c = '\n' || c = '\r' then
        match endOfLine? (c :: rest) with
        | some rest => skipLines fuel rest
        | none => c :: rest
      else c :: rest

mutual
def value? : Nat → List Char → Option (Value × List Char)
  | 0, _ => none
  | fuel + 1, cs =>
    match cs with
    | '"' :: _ | '\'' :: _ =>
      (Quoted.any? cs).map fun (text, rest) => (.text (String.ofList text), rest)
    | '[' :: rest => (items? fuel [] rest).map fun (items, rest) => (.list items, rest)
    | '\x7b' :: rest =>
      match skipBlank rest with
      | '\x7d' :: rest => some (.table [], rest)
      | rest => (entries? fuel [] rest).map fun (entries, rest) => (.table (toLayer entries), rest)
    | cs => Scalar.read cs
/-- The items of a list behind those before, up to its closing bracket. -/
def items? : Nat → List Value → List Char → Option (List Value × List Char)
  | 0, _, _ => none
  | fuel + 1, before, cs =>
    match skipLines cs.length cs with
    | ']' :: rest => some (before, rest)
    | cs => do
      let (item, rest) ← value? fuel cs
      match skipLines rest.length rest with
      | ',' :: rest => items? fuel (before ++ [item]) rest
      | ']' :: rest => some (before ++ [item], rest)
      | _ => none
/-- The entries of a table behind those before, up to its closing brace. -/
def entries? : Nat → Entries → List Char → Option (Entries × List Char)
  | 0, _, _ => none
  | fuel + 1, before, cs => do
    let (path, rest) ← key? cs.length cs
    let (value, rest) ← value? fuel (skipBlank (← Scalar.past? '=' rest))
    let entries ← before.add path value
    match skipBlank rest with
    | ',' :: rest => entries? fuel entries rest
    | '\x7d' :: rest => some (entries, rest)
    | _ => none
end

end WorkerLink.Toml
