import Questline.Toml.Line

/-! # TOML documents

The lines of a document are put together to one table: entries belong to the header above them, and
those before the first header to the root.

* `Toml.document?`: the root table of a text, none when it is not a document. -/

namespace Questline

namespace Toml

/-- A header with the entries below it. -/
structure Section where
  array : Bool
  path : KeyPath
  entries : List (KeyPath × Value)

/-- The entries in front of the first header, and the sections. -/
def sections : List Line → List (KeyPath × Value) × List Section
  | [] => ([], [])
  | .entry path v :: rest =>
    let (entries, later) := sections rest
    ((path, v) :: entries, later)
  | .header path :: rest =>
    let (entries, later) := sections rest
    ([], ⟨false, path, entries⟩ :: later)
  | .arrayHeader path :: rest =>
    let (entries, later) := sections rest
    ([], ⟨true, path, entries⟩ :: later)

/-- Adds a table with a header to the table that holds it. Only a table that so far just stood in
the way to another may be there already. -/
def addTable (key : String) (entries : List (KeyPath × Value)) (parent : Table) : Option Table :=
  match parent.get? key with
  | none => (addEntries (.bare .declared) entries).map fun t => parent.set key t.toValue
  | some (.table .implied old) =>
    (addEntries ⟨.declared, old⟩ entries).map fun t => parent.set key t.toValue
  | some _ => none

/-- Adds a table to an array of tables, which it may open. -/
def addToArray (key : String) (entries : List (KeyPath × Value)) (parent : Table) : Option Table :=
  match parent.get? key with
  | none => (addEntries (.bare .declared) entries).map fun t => parent.set key (.tables [t.toValue])
  | some (.tables items) =>
    (addEntries (.bare .declared) entries).map fun t =>
      parent.set key (.tables (items ++ [t.toValue]))
  | some _ => none

/-- Adds the table of a section at the end of its path. -/
def addSection (root : Table) (s : Section) : Option Table :=
  Table.within .implied
    (if s.array then addToArray s.path.last s.entries else addTable s.path.last s.entries)
    s.path.front root

/-- **The root table of a text.** -/
def document? (text : String) : Option Table := do
  let (entries, later) := sections (← lines text.toList)
  let root ← addEntries (.bare .declared) entries
  later.foldlM addSection root

end Toml

end Questline
