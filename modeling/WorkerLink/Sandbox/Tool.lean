import WorkerLink.Sandbox.Shell.Format

/-!
The tools of the sandbox. A tool reads its input, writes its output, and ends with a status; each
step of it says what it needs next.
-/

namespace WorkerLink.Sandbox

inductive Tool
  | copy
  | front (left : Nat)
  | frontLines (left : Nat)
  | back (count : Nat) (kept : List Char)
  /-- Puts characters for others, or leaves them out. -/
  | translate (change : List (Char × Option Char))
  | count (sofar : Nat)
  | sleep (ms : Nat)
  | sleeping (time : Nat)
  /-- Writes texts to the output and the error stream. -/
  | say (out err : List Char) (status : Nat)

inductive ToolStep
  | reads (max : Nat)
  | sleeps (time : Nat)
  /-- It writes to a stream and goes on, or ends with a status. -/
  | writes (stream : Nat) (text : List Char) (next : Except Nat Tool)

namespace Tool

def readSize : Nat := 64 * 1024

def step (now : Nat) : Tool → ToolStep
  | .copy => .reads readSize
  | .front left => if left = 0 then .writes 1 [] (.error 0) else .reads (min left readSize)
  | .frontLines left => if left = 0 then .writes 1 [] (.error 0) else .reads readSize
  | .back _ _ | .translate _ | .count _ => .reads readSize
  | .sleep ms => .sleeps (now + ms)
  | .sleeping time => .sleeps time
  | .say out err status =>
    if out ≠ [] then .writes 1 out (.ok (.say [] err status))
    else .writes 2 err (.error status)

/-- The part of a text that makes up so many lines, and how many it makes up. -/
def takeLines : Nat → List Char → List Char × Nat
  | 0, _ => ([], 0)
  | _ + 1, [] => ([], 0)
  | n + 1, c :: rest =>
    if c = '\n' then
      let (text, lines) := takeLines n rest
      (c :: text, lines + 1)
    else
      let (text, lines) := takeLines (n + 1) rest
      (c :: text, lines)

/-- What the tool does with bytes that it has read; an empty read is the end of the input. -/
def absorb (text : List Char) : Tool → ToolStep
  | .copy => .writes 1 text (if text = [] then .error 0 else .ok .copy)
  | .front left => .writes 1 text (if text = [] then .error 0 else .ok (.front (left - text.length)))
  | .frontLines left =>
    let (whole, lines) := takeLines left text
    .writes 1 whole (if text = [] then .error 0 else .ok (.frontLines (left - lines)))
  | .back n kept =>
    if text = [] then .writes 1 kept (.error 0)
    else
      let all := kept ++ text
      .writes 1 [] (.ok (.back n (all.drop (all.length - n))))
  | .translate change =>
    let changed := text.filterMap fun c => match change.find? fun entry => entry.1 = c with
      | some (_, other) => other
      | none => some c
    .writes 1 changed (if text = [] then .error 0 else .ok (.translate change))
  | .count sofar =>
    if text = [] then .writes 1 ((toString sofar).toList ++ ['\n']) (.error 0)
    else .writes 1 [] (.ok (.count (sofar + text.length)))
  | tool => .writes 1 [] (.ok tool)

/-! Arguments -/

/-- A set of characters as `tr` reads it: escapes and ranges. -/
def characters : Nat → List Char → List Char
  | 0, _ => []
  | _, [] => []
  | fuel + 1, '\\' :: c :: rest =>
    if Shell.isOctal c then
      let (byte, rest) := Shell.octal 3 (c :: rest)
      byte :: characters fuel rest
    else ((Shell.escape? c).getD c) :: characters fuel rest
  | fuel + 1, a :: '-' :: b :: rest =>
    (List.range (b.toNat + 1 - a.toNat)).map (fun i => Char.ofNat (a.toNat + i)) ++
      characters fuel rest
  | fuel + 1, c :: rest => c :: characters fuel rest

/-- Pairs characters of two sets; the last one of the second set stands for all that are missing. -/
def pairUp (source target : List Char) : List (Char × Option Char) :=
  let last := target.getLast?
  let rec go : List Char → List Char → List (Char × Option Char)
    | [], _ => []
    | s :: rest, [] => (s, last) :: go rest []
    | s :: rest, t :: more => (s, some t) :: go rest more
  go source target

/-- A duration in seconds, perhaps with a fraction and a unit, in milliseconds. -/
def duration? (s : List Char) : Option Nat :=
  let (s, unit) := match s.getLast? with
    | some 's' => (s.dropLast, 1)
    | some 'm' => (s.dropLast, 60)
    | some 'h' => (s.dropLast, 3600)
    | _ => (s, 1)
  let whole := s.takeWhile Char.isDigit
  match s.dropWhile Char.isDigit with
  | [] => if whole.isEmpty then none else some ((Shell.integer whole).1.toNat * 1000 * unit)
  | '.' :: fraction =>
    if fraction.all Char.isDigit then
      let thousandths := (fraction ++ ['0', '0', '0']).take 3
      some (((Shell.integer whole).1.toNat * 1000 + (Shell.integer thousandths).1.toNat) * unit)
    else none
  | _ => none

def complain (text : String) : Tool := .say [] (text ++ "\n").toList 1

/-- A count after a letter, in the same argument or the next one. -/
def countAfter (letter : Char) : List (List Char) → Option Nat
  | ['-', c] :: n :: [] => if c = letter && (Shell.integer n).2 then some (Shell.integer n).1.toNat else none
  | ('-' :: c :: n) :: [] => if c = letter && (Shell.integer n).2 then some (Shell.integer n).1.toNat else none
  | _ => none

/-- The tool of a program with arguments, its name not among them. What reads a device instead of
its input names it. -/
def ofArguments (program : String) (args : List (List Char)) : Tool :=
  match program with
  | "cat" =>
    match args.find? fun a => a ≠ ['-'] with
    | none => .copy
    | some file => complain s!"cat: {String.ofList file}: No such file or directory"
  | "head" =>
    match countAfter 'c' args with
    | some n => .front n
    | none =>
      match countAfter 'n' args with
      | some n => .frontLines n
      | none => if args.isEmpty then .frontLines 10 else complain "head: invalid argument"
  | "tail" =>
    match countAfter 'c' args with
    | some n => .back n []
    | none => complain "tail: invalid argument"
  | "tr" =>
    match args with
    | [['-', 'd'], set] => .translate ((characters (set.length + 1) set).map fun c => (c, none))
    | [source, target] =>
      .translate (pairUp (characters (source.length + 1) source)
        (characters (target.length + 1) target))
    | _ => complain "tr: missing operand"
  | "wc" => .count 0
  | "sleep" =>
    match args with
    | [time] =>
      match duration? time with
      | some ms => .sleep ms
      | none => complain s!"sleep: invalid time interval '{String.ofList time}'"
    | _ => complain "sleep: missing operand"
  | "echo" =>
    match args with
    | ['-', 'n'] :: rest => .say (List.intercalate [' '] rest) [] 0
    | _ => .say (List.intercalate [' '] args ++ ['\n']) [] 0
  | "printf" => .say (Shell.printf args) [] 0
  | "false" => .say [] [] 1
  | _ => .say [] [] 0

end Tool

end WorkerLink.Sandbox
