import WorkerLink.Settings.Value

/-!
Tables of TOML while they are being written. A name is given once. A table that a header declares is
declared once, but a table that is only on the way to another may be declared later; a key with
points in it goes through tables that such keys made and through no declared one.
-/

namespace WorkerLink.Toml

open WorkerLink.Settings (Value)

inductive Origin
  /-- It is on the way to a table of a header. -/
  | implied
  | declared
  /-- It is on the way to a key with points in it. -/
  | dotted
deriving DecidableEq, Repr

inductive Node
  | leaf (value : Value)
  | table (origin : Origin) (entries : List (String × Node))
  /-- Tables in a row; the last one is open. -/
  | tables (items : List (List (String × Node)))

abbrev Entries := List (String × Node)

namespace Entries

def get? (entries : Entries) (name : String) : Option Node :=
  (entries.find? fun entry => entry.1 = name).map (·.2)

def replace (entries : Entries) (name : String) (node : Node) : Entries :=
  entries.map fun entry => if entry.1 = name then (name, node) else entry

/-- Changes the table at the end of a path. Tables that are not there are made on the way. -/
def descend (dotted : Bool) (change : Entries → Option Entries) :
    List String → Entries → Option Entries
  | [], entries => change entries
  | name :: path, entries =>
    match get? entries name with
    | none =>
      (descend dotted change path []).map fun inner =>
        entries ++ [(name, .table (if dotted then .dotted else .implied) inner)]
    | some (.table origin inner) =>
      if dotted && origin = .declared then none
      else
        (descend dotted change path inner).map fun inner =>
          entries.replace name (.table origin inner)
    | some (.tables items) =>
      if dotted then none
      else
        (descend dotted change path (items.getLast?.getD [])).map fun last =>
          entries.replace name (.tables (items.dropLast ++ [last]))
    | some (.leaf _) => none

def add (entries : Entries) (key : List String) (value : Value) : Option Entries :=
  match key.getLast? with
  | none => none
  | some name =>
    descend true
      (fun inner => if (inner.get? name).isSome then none else some (inner ++ [(name, .leaf value)]))
      key.dropLast entries

def declare (entries : Entries) (path : List String) : Option Entries :=
  match path.getLast? with
  | none => none
  | some name =>
    descend false
      (fun inner => match inner.get? name with
        | none => some (inner ++ [(name, .table .declared [])])
        | some (.table .implied sub) => some (inner.replace name (.table .declared sub))
        | some _ => none)
      path.dropLast entries

/-- Starts the next of the tables in a row of a header. -/
def declareNext (entries : Entries) (path : List String) : Option Entries :=
  match path.getLast? with
  | none => none
  | some name =>
    descend false
      (fun inner => match inner.get? name with
        | none => some (inner ++ [(name, .tables [[]])])
        | some (.tables items) => some (inner.replace name (.tables (items ++ [[]])))
        | some _ => none)
      path.dropLast entries

end Entries

mutual
def Node.toValue : Node → Value
  | .leaf value => value
  | .table _ entries => .table (toLayer entries)
  | .tables items => .list (toTables items)
def toLayer : List (String × Node) → List (String × Value)
  | [] => []
  | (name, node) :: rest => (name, node.toValue) :: toLayer rest
def toTables : List (List (String × Node)) → List Value
  | [] => []
  | entries :: rest => .table (toLayer entries) :: toTables rest
end

end WorkerLink.Toml
