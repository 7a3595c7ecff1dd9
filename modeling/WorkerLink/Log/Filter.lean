import WorkerLink.Log.Record
import WorkerLink.Text.Blank
import WorkerLink.Text.Split

/-!
Log filters: comma-separated directives such as `info,rpcpipe::reader=debug`. A record is kept when
the most specific directive that applies to its target admits its level; of two directives for the
same target the later counts.
-/

namespace WorkerLink.Log

/-- The most that is let through: nothing, or records up to a level. -/
inductive Limit
  | off
  | upTo (level : Level)
deriving DecidableEq, Repr

def Limit.admits : Limit → Level → Bool
  | .off, _ => false
  | .upTo limit, level => limit.rank ≤ level.rank

inductive FilterError
  | directive
  | level
deriving DecidableEq, Repr

def FilterError.message : FilterError → String
  | .directive => "invalid filter directive"
  | .level => "error parsing level filter: expected one of \"off\", \"error\", \"warn\", " ++
      "\"info\", \"debug\", \"trace\", or a number 0-5"

structure Directive where
  /-- What the target of a record starts with. -/
  target : Option (List Char) := none
  fields : List (List Char) := []
  /-- It speaks of records inside a span, or of the value of a field. -/
  inSpan : Bool := false
  limit : Limit := .upTo .trace
deriving DecidableEq, Repr

namespace Directive

/-- The names of the limits, in order of the numbers that may stand for them. -/
def limitNames : List (List Char × Limit) :=
  [("off".toList, .off), ("error".toList, .upTo .error), ("warn".toList, .upTo .warn),
   ("info".toList, .upTo .info), ("debug".toList, .upTo .debug), ("trace".toList, .upTo .trace)]

/-- A number from 0 to 5, with or without a plus sign. -/
def limitOfNumber? (cs : List Char) : Option Limit :=
  let digits := match cs with
    | '+' :: rest => rest
    | _ => cs
  if digits = [] || !digits.all Char.isDigit then none
  else
    let n := digits.foldl (fun n c => 10 * n + (c.toNat - '0'.toNat)) 0
    (limitNames[n]?).map (·.2)

def limit? (cs : List Char) : Option Limit :=
  match limitOfNumber? cs with
  | some limit => some limit
  | none => limitNames.lookup (cs.map Char.toLower)

/-- A limit after an equals sign. Nothing there stands for everything. -/
def limitAfter (cs : List Char) : Except FilterError Limit :=
  if cs = [] then .ok (.upTo .trace)
  else match limit? cs with
    | some limit => .ok limit
    | none => .error .level

/-- Characters that a directive may start with, apart from an opening bracket. -/
def startsName (c : Char) : Bool :=
  c = '-' || c = ':' || c = '_' || c.isAlphanum || 0x80 ≤ c.toNat

/-- A directive that is a name alone: a limit for all targets if it names one, else a target. -/
def ofName (cs : List Char) : Directive :=
  match limit? cs with
  | some limit => { limit }
  | none => { target := some cs }

/-- The inside of a span's brackets: what it says of fields, and what follows it. -/
def span? (cs : List Char) : Option (List (List Char) × Bool × List Char) :=
  let (name, rest) := cs.span fun c => c ≠ ']' && c ≠ '\x7b'
  match rest with
  | [] => none
  | close :: rest =>
    if close = ']' then some ([], true, rest)
    else
      let (field, rest) := rest.span (· ≠ '\x7d')
      match rest with
      | _ :: ']' :: rest =>
        if field = [] then none
        else some ([field.takeWhile (· ≠ '=')], name ≠ [] || field.contains '=', rest)
      | _ => none

/-- Reads one directive. Positions are found in the text without the blanks around it and then used
on the text as written, so a blank in front moves into the target. -/
def parse (written : List Char) : Except FilterError Directive :=
  let text := Text.trim written
  match text with
  | [] => .error .directive
  | first :: _ =>
    if first ≠ '[' && !startsName first then .error .directive
    else
      let (name, rest) := text.span fun c => c ≠ '=' && c ≠ '['
      let target := if name = [] then none else some (written.take name.length)
      match rest with
      | [] => .ok (ofName written)
      | mark :: inside =>
        if mark = '=' then do
          return { target, limit := ← limitAfter (written.drop (name.length + 1)) }
        else
          match span? inside with
          | none => .error .directive
          | some (fields, inSpan, []) => .ok { target, fields, inSpan }
          | some (fields, inSpan, mark :: level) =>
            if mark = '=' then do
              let skipped := text.length - level.length
              return { target, fields, inSpan, limit := ← limitAfter (written.drop skipped) }
            else .error .directive

def appliesTo (d : Directive) (r : Record) : Bool :=
  !d.inSpan &&
    (match d.target with
      | none => true
      | some target => target.isPrefixOf r.target.toList) &&
    d.fields.all fun name =>
      String.ofList name = "message" || r.fields.any fun (n, _) => n = String.ofList name

/-- How much a directive says: the length of its target, then the number of its fields. -/
def specificity (d : Directive) : Nat × Nat :=
  ((d.target.map fun t => t.length + 1).getD 0, d.fields.length)

/-- The later of two directives counts unless it says less. -/
def prefer (earlier later : Directive) : Directive :=
  let (a, m) := earlier.specificity
  let (b, n) := later.specificity
  if a < b || (a = b && m ≤ n) then later else earlier

end Directive

abbrev Filter := List Directive

namespace Filter

/-- Reads the directives between commas; empty ones are passed over. -/
def parse (s : String) : Except FilterError Filter :=
  ((Text.splitOn ',' s.toList).filter (· ≠ [])).mapM Directive.parse

def keeps (f : Filter) (r : Record) : Bool :=
  match f.filter (·.appliesTo r) with
  | [] => false
  | d :: rest => (rest.foldl Directive.prefer d).limit.admits r.level

end Filter

end WorkerLink.Log
