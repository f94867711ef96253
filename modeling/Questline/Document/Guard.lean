import Questline.Guard.Facts
import Questline.Guard.Basic
import Questline.Json.Record

/-! # Guards and facts as JSON

A guard is an object with one key, its operator, over an array of arguments. A literal is a scalar:
integers of 64 bits stay integers, any other number is floating point.

* `Guard.toJson` and `Guard.ofJson?`; `Literal.toJson` and `Literal.ofJson?`; `Facts.toJson` and
  `Facts.ofJson?`. -/

namespace Questline

namespace Literal

/-- A literal as a scalar. A number that is not finite is written as null. -/
def toJson : Literal → Json
  | .bool b => .bool b
  | .int i => .int i.toInt
  | .float x => .ofBinary64 x
  | .text s => .str s

/-- Reads a literal. An integer that does not fit 64 bits is rounded. -/
def ofJson? : Json → Option Literal
  | .bool b => some (.bool b)
  | .int i =>
    if Json.fitsInt64 i then some (.int (Int64.ofInt i)) else some (.float (Binary64.ofInt i))
  | .float x => some (.float x)
  | .str s => some (.text s)
  | _ => none

end Literal

namespace Guard

mutual

/-- **A guard as JSON:** its operator over its arguments. -/
def toJson : Guard → Json
  | .compare op path literal => .obj [(op.name, .arr [.str path, literal.toJson])]
  | .oneOf path candidates => .obj [("in", .arr [.str path, .ofList Literal.toJson candidates])]
  | .flag space name expected => .obj [("flag", .arr [.str space, .str name, .bool expected])]
  | .all guards => .obj [("all", .arr (toJsonList guards))]
  | .any guards => .obj [("any", .arr (toJsonList guards))]
  | .not guard => .obj [("not", toJson guard)]

/-- Guards as JSON, one by one. -/
def toJsonList : List Guard → List Json
  | [] => []
  | g :: rest => toJson g :: toJsonList rest

end

/-- Reads a guard without guards inside. -/
def leafOfJson? (op : String) : List Json → Option Guard
  | [.str path, j] =>
    if op = "in" then (j.list? Literal.ofJson?).map (.oneOf path)
    else match Comparison.ofName? op with
      | some c => (Literal.ofJson? j).map (.compare c path)
      | none => none
  | [.str space, .str name, .bool expected] =>
    if op = "flag" then some (.flag space name expected) else none
  | _ => none

mutual

/-- **Reads a guard**, an object with exactly one key. -/
def ofJson? : Json → Option Guard
  | .obj [(op, .arr items)] =>
    if op = "all" then (ofJsonList? items).map .all
    else if op = "any" then (ofJsonList? items).map .any
    else leafOfJson? op items
  | .obj [(op, j)] => if op = "not" then (ofJson? j).map .not else none
  | _ => none

/-- Reads guards, all of them or none. -/
def ofJsonList? : List Json → Option (List Guard)
  | [] => some []
  | j :: rest =>
    match ofJson? j, ofJsonList? rest with
    | some g, some gs => some (g :: gs)
    | _, _ => none

end

end Guard

namespace ItemStack

/-- A stack as JSON. -/
def toJson (s : ItemStack) : Json := .obj [("qty", .ofInt64 s.qty)]

/-- Reads a stack. -/
def ofJson? (j : Json) : Option ItemStack := do
  let r ← j.record? ["qty"]
  return ⟨← r.required "qty" Json.int64?⟩

end ItemStack

namespace Facts

/-- **Facts as JSON**, a table for each category. -/
def toJson (f : Facts) : Json :=
  .obj [("rel", .ofTable .ofInt64 f.rel), ("inv", .ofTable ItemStack.toJson f.inv),
    ("currency", .ofTable .ofInt64 f.currency), ("flag", .ofTable .bool f.flag),
    ("state", .ofTable Literal.toJson f.state)]

/-- **Reads facts.** A category that is left out is empty. -/
def ofJson? (j : Json) : Option Facts := do
  let r ← j.record? ["rel", "inv", "currency", "flag", "state"]
  return {
    rel := ← r.withDefault "rel" .empty (Json.table? Json.int64?)
    inv := ← r.withDefault "inv" .empty (Json.table? ItemStack.ofJson?)
    currency := ← r.withDefault "currency" .empty (Json.table? Json.int64?)
    flag := ← r.withDefault "flag" .empty (Json.table? Json.bool?)
    state := ← r.withDefault "state" .empty (Json.table? Literal.ofJson?) }

end Facts

end Questline
