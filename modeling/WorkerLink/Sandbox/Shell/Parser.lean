import WorkerLink.Sandbox.Shell.Syntax

/-!
Reading scripts: lists of pipelines with `;`, `&`, `&&` and `||`, groups and subshells, assignments,
redirections, quotes and expansions. A script that cannot be read gives `none`.

The fuel bounds the depth of nesting together with the length of a list; the length of the text is
always enough.
-/

namespace WorkerLink.Sandbox.Shell

def isBlank (c : Char) : Bool := c = ' ' || c = '\t'

def isBreak (c : Char) : Bool := isBlank c || c ∈ ['\n', ';', '&', '|', '<', '>', '(', ')']

def isNameStart (c : Char) : Bool := c.isAlpha || c = '_'

def isNamePart (c : Char) : Bool := isNameStart c || c.isDigit

/-- The text without blanks and comments in front. A comment starts where a word may start. -/
def skipBlanks : List Char → List Char
  | '\\' :: '\n' :: rest => skipBlanks rest
  | c :: rest =>
    if isBlank c then skipBlanks rest
    else if c = '#' then rest.dropWhile (· ≠ '\n')
    else c :: rest
  | [] => []

/-- The text without blanks, line ends and empty statements in front. -/
def skipLines : Nat → List Char → List Char
  | 0, s => s
  | fuel + 1, s =>
    match skipBlanks s with
    | '\n' :: rest => skipLines fuel rest
    | rest => rest

/-- A name in front of a text, or a single digit or sign that stands for a parameter. -/
def parameterName (s : List Char) : Option (List Char × List Char) :=
  match s with
  | c :: rest =>
    if isNameStart c then some (s.takeWhile isNamePart, s.dropWhile isNamePart)
    else if c.isDigit || c ∈ ['?', '$', '#', '@', '*', '!'] then some ([c], rest)
    else none
  | [] => none

/-- The rest after a name and an equals sign in front of a text. -/
def assignment? (s : List Char) : Option (List Char × List Char) :=
  let name := s.takeWhile isNamePart
  match s.dropWhile isNamePart with
  | '=' :: rest => if name.head?.any isNameStart then some (name, rest) else none
  | _ => none

/-- The stream number and the sign of a redirection in front of a text. -/
def redirect? (s : List Char) : Option (Nat × RedirectKind × List Char) :=
  let digits := s.takeWhile Char.isDigit
  let number (default : Nat) : Nat :=
    if digits.isEmpty then default
    else digits.foldl (fun n c => 10 * n + (c.toNat - 48)) 0
  match s.dropWhile Char.isDigit with
  | '>' :: '&' :: rest => some (number 1, .duplicate, rest)
  | '<' :: '&' :: rest => some (number 0, .duplicate, rest)
  | '>' :: '>' :: rest | '>' :: '|' :: rest | '>' :: rest => some (number 1, .write, rest)
  | '<' :: rest => some (number 0, .read, rest)
  | _ => none

def closesGroup (s : List Char) : Bool :=
  match s with
  | '}' :: rest => rest.head?.all isBreak
  | _ => false

mutual

def dollar (quoted : Bool) : Nat → List Char → Option (Part × List Char)
  | 0, _ => none
  | fuel + 1, s =>
    match s with
    | '(' :: '(' :: rest => do
      let (parts, rest) ← sumParts fuel 0 rest
      return (.sum parts, rest)
    | '(' :: rest => do
      let (script, rest) ← statements fuel rest
      match rest with
      | ')' :: rest => return (.output script quoted, rest)
      | _ => none
    | '{' :: '#' :: rest =>
      match parameterName rest with
      | some (name, '}' :: rest) => some (.length name, rest)
      | _ => none
    | '{' :: rest =>
      match parameterName rest with
      | some (name, '}' :: rest) => some (.value name quoted, rest)
      | _ => none
    | _ =>
      match parameterName s with
      | some (name, rest) => some (.value name quoted, rest)
      | none => some (.text ['$'], s)

/-- The parts of a sum up to its closing brackets, inside so many brackets of its own. -/
def sumParts : Nat → Nat → List Char → Option (List Part × List Char)
  | 0, _, _ => none
  | fuel + 1, depth, s =>
    match s with
    | [] => none
    | '$' :: rest => do
      let (part, rest) ← dollar true fuel rest
      let (parts, rest) ← sumParts fuel depth rest
      return (part :: parts, rest)
    | ')' :: ')' :: rest =>
      if depth = 0 then some ([], rest)
      else do
        let (parts, rest) ← sumParts fuel (depth - 1) (')' :: rest)
        return (.text [')'] :: parts, rest)
    | c :: rest => do
      let depth := if c = '(' then depth + 1 else if c = ')' then depth - 1 else depth
      let (parts, rest) ← sumParts fuel depth rest
      return (.text [c] :: parts, rest)

/-- The parts between double quotes, after the first of them. -/
def doubleQuoted : Nat → List Char → Option (List Part × List Char)
  | 0, _ => none
  | fuel + 1, s =>
    match s with
    | [] => none
    | '"' :: rest => some ([], rest)
    | '\\' :: '\n' :: rest => doubleQuoted fuel rest
    | '\\' :: c :: rest => do
      let (parts, rest) ← doubleQuoted fuel rest
      let kept := if c ∈ ['$', '\x60', '"', '\\'] then [c] else ['\\', c]
      return (.text kept :: parts, rest)
    | '$' :: rest => do
      let (part, rest) ← dollar true fuel rest
      let (parts, rest) ← doubleQuoted fuel rest
      return (part :: parts, rest)
    | c :: rest => do
      let (parts, rest) ← doubleQuoted fuel rest
      return (.text [c] :: parts, rest)

/-- The parts of a word; none where no word starts. -/
def wordParts : Nat → List Char → Option (List Part × List Char)
  | 0, _ => none
  | fuel + 1, s =>
    match s with
    | [] => some ([], [])
    | '\'' :: rest =>
      match rest.dropWhile (· ≠ '\'') with
      | _ :: after => do
        let (parts, after) ← wordParts fuel after
        return (.text (rest.takeWhile (· ≠ '\'')) :: parts, after)
      | [] => none
    | '"' :: rest => do
      let (inner, rest) ← doubleQuoted fuel rest
      let (parts, rest) ← wordParts fuel rest
      return (.text [] :: inner ++ parts, rest)
    | '\\' :: '\n' :: rest => wordParts fuel rest
    | '\\' :: c :: rest => do
      let (parts, rest) ← wordParts fuel rest
      return (.text [c] :: parts, rest)
    | '$' :: rest => do
      let (part, rest) ← dollar false fuel rest
      let (parts, rest) ← wordParts fuel rest
      return (part :: parts, rest)
    | c :: rest =>
      if isBreak c then some ([], s)
      else do
        let (parts, rest) ← wordParts fuel rest
        return (.text [c] :: parts, rest)

/-- Assignments, words and redirections of a command. -/
def simpleCommand : Nat → List (List Char × Word) → List Word → List Redirect → List Char →
    Option (Command × List Char)
  | 0, _, _, _, _ => none
  | fuel + 1, assignments, words, redirects, s =>
    let s := skipBlanks s
    match redirect? s with
    | some (stream, kind, rest) => do
      let (target, rest) ← wordParts fuel (skipBlanks rest)
      if target.isEmpty then none
      else simpleCommand fuel assignments words (redirects ++ [.mk stream kind target]) rest
    | none =>
      match (if words.isEmpty then assignment? s else none) with
      | some (name, rest) => do
        let (value, rest) ← wordParts fuel rest
        simpleCommand fuel (assignments ++ [(name, value)]) words redirects rest
      | none => do
        let (word, rest) ← wordParts fuel s
        if word.isEmpty then
          if assignments.isEmpty && words.isEmpty && redirects.isEmpty then none
          else return (.simple assignments words redirects, s)
        else simpleCommand fuel assignments (words ++ [word]) redirects rest

def command : Nat → List Char → Option (Command × List Char)
  | 0, _ => none
  | fuel + 1, s =>
    match skipBlanks s with
    | '(' :: rest => do
      let (body, rest) ← statements fuel rest
      match rest with
      | ')' :: rest => return (.subshell body, rest)
      | _ => none
    | '{' :: c :: rest =>
      if isBreak c then do
        let (body, rest) ← statements fuel rest
        match rest with
        | '}' :: rest => return (.group body, rest)
        | _ => none
      else simpleCommand fuel [] [] [] ('{' :: c :: rest)
    | s => simpleCommand fuel [] [] [] s

def pipeline : Nat → List Char → Option (List Command × List Char)
  | 0, _ => none
  | fuel + 1, s => do
    let (first, rest) ← command fuel s
    match skipBlanks rest with
    | '|' :: '|' :: _ => return ([first], skipBlanks rest)
    | '|' :: rest => do
      let (others, rest) ← pipeline fuel (skipLines rest.length rest)
      return (first :: others, rest)
    | rest => return ([first], rest)

/-- The pipelines that depend on those before them. -/
def dependents : Nat → List Char → Option (List (Bool × List Command) × List Char)
  | 0, _ => none
  | fuel + 1, s =>
    let more (onSuccess : Bool) (rest : List Char) :
        Option (List (Bool × List Command) × List Char) := do
      let (next, rest) ← pipeline fuel (skipLines rest.length rest)
      let (others, rest) ← dependents fuel rest
      return ((onSuccess, next) :: others, rest)
    match skipBlanks s with
    | '&' :: '&' :: rest => more true rest
    | '|' :: '|' :: rest => more false rest
    | rest => some ([], rest)

/-- Statements up to the end, or to a closing bracket. -/
def statements : Nat → List Char → Option (Script × List Char)
  | 0, _ => none
  | fuel + 1, s =>
    match skipLines s.length s with
    | [] => some ([], [])
    | ')' :: rest => some ([], ')' :: rest)
    | s =>
      if closesGroup s then some ([], s)
      else do
        let (first, rest) ← pipeline fuel s
        let (others, rest) ← dependents fuel rest
        match skipBlanks rest with
        | '&' :: rest => do
          let (after, rest) ← statements fuel rest
          return (.mk first others true :: after, rest)
        | ';' :: rest | '\n' :: rest => do
          let (after, rest) ← statements fuel rest
          return (.mk first others false :: after, rest)
        | rest =>
          if rest.isEmpty || rest.head? = some ')' || closesGroup rest then
            return ([.mk first others false], rest)
          else none

end

def parse? (s : List Char) : Option Script :=
  match statements (4 * s.length + 8) s with
  | some (script, []) => some script
  | _ => none

end WorkerLink.Sandbox.Shell
