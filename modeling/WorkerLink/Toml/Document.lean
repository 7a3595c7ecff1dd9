import WorkerLink.Toml.Inline

/-!
Documents of TOML: lines with a key and a value, headers of tables, blank lines and comments. The
keys in front of the first header belong to the document itself.
-/

namespace WorkerLink.Toml

/-- A document that is being read: what was written, and the table that is open. -/
structure Document where
  entries : Entries := []
  header : List String := []

namespace Document

def header? (closing : List Char) (cs : List Char) : Option (List String × List Char) := do
  let (path, rest) ← key? cs.length cs
  if closing.isPrefixOf rest then some (path, rest.drop closing.length) else none

/-- Reads what stands on a line: a header, or a key with its value. -/
def line? (d : Document) (cs : List Char) : Option (Document × List Char) :=
  match cs with
  | '[' :: '[' :: rest => do
    let (path, rest) ← header? [']', ']'] rest
    return (⟨← d.entries.declareNext path, path⟩, rest)
  | '[' :: rest => do
    let (path, rest) ← header? [']'] rest
    return (⟨← d.entries.declare path, path⟩, rest)
  | cs => do
    let (key, rest) ← key? cs.length cs
    let (value, rest) ← value? cs.length (skipBlank (← Scalar.past? '=' rest))
    let entries ← Entries.descend false (fun inner => inner.add key value) d.header d.entries
    return ({ d with entries }, rest)

def lines? : Nat → Document → List Char → Option Document
  | 0, _, _ => none
  | fuel + 1, d, cs =>
    match endOfLine? cs with
    | some [] => some d
    | some rest => lines? fuel d rest
    | none => do
      let (d, rest) ← d.line? (skipBlank cs)
      match ← endOfLine? rest with
      | [] => some d
      | rest => lines? fuel d rest

end Document

/-- The values of a document, by name. A mark of the byte order in front is passed over. -/
def read? (text : String) : Option WorkerLink.Settings.Layer :=
  let cs := match text.toList with
    | '\ufeff' :: rest => rest
    | cs => cs
  (Document.lines? (cs.length + 1) {} cs).map fun d => toLayer d.entries

end WorkerLink.Toml
