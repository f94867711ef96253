import Questline.Binary64.Basic

/-! # TOML values and tables

A table remembers how it came to be, because that decides what may still be added to it: one written
inline is closed, one with a header of its own may not get another, one that only stands in the way
to another may still get its header, and one made by a dotted key may only grow by dotted keys.

* `Toml.Table.within`: changes the table at the end of a path, making the tables on the way.
* `Toml.Table.addEntry`: adds the value of a dotted key. -/

namespace Questline

namespace Toml

/-- How a table came to be. -/
inductive Origin where
  /-- Written in braces. -/
  | inlined
  /-- Has a header of its own, or is the root. -/
  | declared
  /-- Stands in the path of a header. -/
  | implied
  /-- Stands in the path of a dotted key. -/
  | dotted
deriving DecidableEq

/-- A value of a key. -/
inductive Value where
  | str (s : String)
  | int (i : Int64)
  | float (x : Binary64)
  | bool (b : Bool)
  /-- A date, a time, or both. -/
  | moment
  | arr (items : List Value)
  | table (origin : Origin) (entries : List (String × Value))
  /-- An array of tables with headers of their own. -/
  | tables (items : List Value)

/-- A table with its entries in the order of the text. -/
structure Table where
  origin : Origin
  entries : List (String × Value)

namespace Table

/-- A table without entries. -/
def bare (origin : Origin) : Table := ⟨origin, []⟩

/-- A table as the value of a key. -/
def toValue (t : Table) : Value := .table t.origin t.entries

/-- What stands under a key. -/
def get? (t : Table) (key : String) : Option Value := t.entries.lookup key

/-- Overwrites the value of a key, or adds it at the end. -/
def setEntry (key : String) (v : Value) : List (String × Value) → List (String × Value)
  | [] => [(key, v)]
  | (k, old) :: rest => if k = key then (key, v) :: rest else (k, old) :: setEntry key v rest

/-- The table with a key set to a value. -/
def set (t : Table) (key : String) (v : Value) : Table :=
  { t with entries := setEntry key v t.entries }

/-- **Changes the table at the end of a path.** Tables that are missing on the way are made, of an
array of tables the last is meant, and nothing leads through a value or an inline table. A dotted
key does not lead through a table with a header either. -/
def within (made : Origin) (change : Table → Option Table) : List String → Table → Option Table
  | [], t => change t
  | key :: path, t =>
    match t.get? key with
    | none => (within made change path (bare made)).map fun child => t.set key child.toValue
    | some (.table origin entries) =>
      if origin = .inlined ∨ (made = .dotted ∧ origin = .declared) then none
      else (within made change path ⟨origin, entries⟩).map fun child => t.set key child.toValue
    | some (.tables items) =>
      match items.getLast? with
      | some (.table origin entries) =>
        (within made change path ⟨origin, entries⟩).map fun child =>
          t.set key (.tables (items.dropLast ++ [child.toValue]))
      | _ => none
    | some _ => none

/-- Adds the value of a new key. -/
def addNew (key : String) (v : Value) (t : Table) : Option Table :=
  match t.get? key with
  | some _ => none
  | none => some (t.set key v)

/-- **Adds the value of a key** at the end of a path of dotted keys; a path has to end at a table
that dotted keys made. -/
def addEntry (t : Table) (path : List String) (key : String) (v : Value) : Option Table :=
  within .dotted
    (fun t => if path.isEmpty || t.origin = .dotted then addNew key v t else none) path t

end Table

end Toml

end Questline
