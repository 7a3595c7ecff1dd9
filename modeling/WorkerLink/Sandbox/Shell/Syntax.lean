/-!
Scripts of the shell. Texts are lists of characters, one for each byte.
-/

namespace WorkerLink.Sandbox.Shell

/-- How a stream of a command is redirected. -/
inductive RedirectKind
  | read
  | write
  | duplicate
deriving DecidableEq, Repr

mutual

/-- A part of a word. What a part expands to is split at blanks unless it is quoted. -/
inductive Part
  | text (s : List Char)
  /-- The value of a variable or a parameter. -/
  | value (name : List Char) (quoted : Bool)
  | length (name : List Char)
  | sum (inner : List Part)
  | output (script : List Statement) (quoted : Bool)
  | result (s : List Char) (quoted : Bool)

inductive Redirect
  | mk (stream : Nat) (kind : RedirectKind) (target : List Part)

inductive Command
  | simple (assignments : List (List Char × List Part)) (words : List (List Part))
      (redirects : List Redirect)
  | group (body : List Statement)
  | subshell (body : List Statement)

/-- Pipelines that depend on one another, in the foreground or the background. Each of the rest
runs after a success, or after a failure. -/
inductive Statement
  | mk (first : List Command) (rest : List (Bool × List Command)) (background : Bool)

end

abbrev Script := List Statement

abbrev Word := List Part

end WorkerLink.Sandbox.Shell
