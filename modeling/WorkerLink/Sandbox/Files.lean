import WorkerLink.Fault

/-!
The files of the sandbox in which workers run: a few directories, links and devices, and the
programs that the sandbox knows. Paths are lists of characters, one for each byte.
-/

namespace WorkerLink.Sandbox

inductive Node
  | directory
  /-- A program that the sandbox can run, by its name. -/
  | program (name : List Char)
  | plain
  | nullDevice
  | zeroDevice
deriving DecidableEq, Repr

/-- The place of a file: the names on the way from the root. -/
abbrev Place := List (List Char)

namespace Files

/-- The names of a path written with slashes, empty names left out. -/
def namesOf (path : List Char) : Place :=
  (path.splitBy fun a b => (a = '/') = (b = '/')).filter fun part => part.head? ≠ some '/'

def pathOf (place : Place) : List Char :=
  if place.isEmpty then ['/'] else place.flatMap fun name => '/' :: name

/-- The place of a path that is written in a program. -/
def placeOf (path : String) : Place := namesOf path.toList

def directories : List Place :=
  ["/", "/usr", "/usr/bin", "/usr/sbin", "/usr/lib", "/usr/local", "/usr/local/bin",
    "/usr/share", "/etc", "/dev", "/tmp", "/var", "/var/tmp", "/home", "/root", "/opt", "/proc",
    "/sys", "/run", "/mnt", "/srv"].map placeOf

def links : List (Place × Place) :=
  [("/bin", "/usr/bin"), ("/sbin", "/usr/sbin"), ("/lib", "/usr/lib")].map fun (a, b) =>
    (placeOf a, placeOf b)

def programs : List (List Char) :=
  ["sh", "dash", "cat", "sleep", "head", "tail", "tr", "wc", "echo", "printf", "true", "false",
    "pwd"].map String.toList

def others : List (Place × Node) :=
  [(placeOf "/dev/null", .nullDevice), (placeOf "/dev/zero", .zeroDevice),
    (placeOf "/etc/passwd", .plain), (placeOf "/etc/hostname", .plain)]

def nodeAt? (place : Place) : Option Node :=
  if place ∈ directories then some .directory
  else match others.find? fun entry => entry.1 = place with
    | some (_, node) => some node
    | none =>
      match place.getLast? with
      | some name =>
        if place.dropLast = placeOf "/usr/bin" ∧ name ∈ programs then some (.program name) else none
      | none => none

def walk : Place → List (List Char) → Except Fault Place
  | place, [] => .ok place
  | place, name :: rest =>
    if nodeAt? place ≠ some .directory then .error .throughFile
    else if name = ['.'] then walk place rest
    else if name = ['.', '.'] then walk place.dropLast rest
    else
      let next := place ++ [name]
      match links.find? fun link => link.1 = next with
      | some (_, target) => walk target rest
      | none => if (nodeAt? next).isSome then walk next rest else .error .noSuchFile

/-- What a path leads to, from a place. A slash at the end asks for a directory. -/
def lookUp (start : Place) (path : List Char) : Except Fault (Place × Node) := do
  if path.isEmpty then throw .noSuchFile
  let place ← walk (if path.head? = some '/' then [] else start) (namesOf path)
  match nodeAt? place with
  | none => throw .noSuchFile
  | some node =>
    if path.getLast? = some '/' ∧ node ≠ .directory then throw .throughFile
    return (place, node)

def programAt (start : Place) (path : List Char) : Except Fault (List Char) := do
  match (← lookUp start path).2 with
  | .program name => return name
  | _ => throw .notPermitted

/-- Where programs are looked for unless a variable says otherwise. -/
def defaultSearch : List Char := "/usr/local/bin:/usr/bin:/bin".toList

/-- The directories of a search path. An empty one is the present directory. -/
def searched (search : List Char) : List (List Char) :=
  go search []
where
  /-- The directories of the rest, after the characters of one that has begun. -/
  go : List Char → List Char → List (List Char)
    | [], part => [part.reverse]
    | c :: rest, part => if c = ':' then part.reverse :: go rest [] else go rest (c :: part)

/-- The first program of a name along a search path. A name with a slash is a path. -/
def findProgram (start : Place) (search : List Char) (name : List Char) :
    Except Fault (List Char) :=
  if name.isEmpty then .error .noSuchFile
  else if name.contains '/' then programAt start name
  else
    let tries := (searched search).map fun directory =>
      programAt start (if directory.isEmpty then name else directory ++ ['/'] ++ name)
    match tries.find? (·.isOk) with
    | some found => found
    | none =>
      if tries.any fun | .error fault => fault = .notPermitted | .ok _ => false then
        .error .notPermitted
      else .error .noSuchFile

end Files

end WorkerLink.Sandbox
