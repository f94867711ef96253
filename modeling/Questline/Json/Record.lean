import Questline.Json.Basic

/-! # Reading records from JSON values

A record is written as an object, whose unknown keys are skipped and whose known keys stand once,
or as an array of its fields in their order, of which the last may be left out. A field may be
required, have a default, or be optional; an optional field is absent also when it is null.

* `Json.record?`: the fields of a record. `Record.required`, `withDefault`, `optional` and
  `optionalOrAbsent`: a field by its name.
* `Json.string?`, `bool?`, `int64?`, `uint32?`, `uint64?`, `binary64?`, `list?`, `dict?`, `name?`,
  `any?`: the readers of single values. -/

namespace Questline

namespace Json

/-! ### Single values -/

/-- A text. -/
def string? : Json → Option String
  | .str s => some s
  | _ => none

/-- A truth value. -/
def bool? : Json → Option Bool
  | .bool b => some b
  | _ => none

/-- Whether an integer is one of 64 bits with a sign. -/
def fitsInt64 (i : Int) : Bool :=
  decide (-0x8000000000000000 ≤ i) && decide (i < 0x8000000000000000)

/-- An integer of 64 bits with a sign. -/
def int64? : Json → Option Int64
  | .int i => if fitsInt64 i then some (Int64.ofInt i) else none
  | _ => none

/-- An integer of 32 bits without a sign. -/
def uint32? : Json → Option UInt32
  | .int i => if 0 ≤ i ∧ i < 0x100000000 then some (UInt32.ofNat i.toNat) else none
  | _ => none

/-- An integer of 64 bits without a sign. -/
def uint64? : Json → Option UInt64
  | .int i => if 0 ≤ i ∧ i < 0x10000000000000000 then some (UInt64.ofNat i.toNat) else none
  | _ => none

/-- Any number, integers being rounded. -/
def binary64? : Json → Option Binary64
  | .int i => some (Binary64.ofInt i)
  | .float x => some x
  | _ => none

/-- An array, of which every item has to be read. -/
def list? {α : Type} (read : Json → Option α) : Json → Option (List α)
  | .arr items => items.mapM read
  | _ => none

/-- A dictionary of values; of two equal keys the last counts. -/
def dict? {α : Type} (read : Json → Option α) : Json → Option (Dict α)
  | .obj fields => (fields.mapM fun e => (read e.2).map fun v => (e.1, v)).map Dict.ofList
  | _ => none

/-- A dictionary of dictionaries. -/
def table? {α : Type} (read : Json → Option α) : Json → Option (Table α) := dict? (dict? read)

/-- One of several names, written as a text or as the only key of an object that holds null. -/
def name? {α : Type} (ofName? : String → Option α) : Json → Option α
  | .str s => ofName? s
  | .obj [(s, .null)] => ofName? s
  | _ => none

/-- Any value that is readable throughout, with its keys in order. -/
def any? (j : Json) : Option Json := if j.readable then some j.sortKeys else none

/-! ### Records -/

/-- The fields of a record, and whether they were told apart by their position. -/
structure Record where
  positional : Bool
  fields : List (String × Json)

/-- **The fields of a record** with these field names. -/
def record? (names : List String) : Json → Option Record
  | .obj fields =>
    if names.all fun n => (fields.filter (·.1 == n)).length ≤ 1 then some ⟨false, fields⟩ else none
  | .arr items => if items.length ≤ names.length then some ⟨true, names.zip items⟩ else none
  | _ => none

namespace Record

/-- What stands under a name, if anything does. -/
def get? (r : Record) (name : String) : Option Json := r.fields.lookup name

/-- **A field that has to be there.** -/
def required {α : Type} (r : Record) (name : String) (read : Json → Option α) : Option α :=
  (r.get? name).bind read

/-- **A field with a default** for when it is left out. Null is not left out. -/
def withDefault {α : Type} (r : Record) (name : String) (default : α) (read : Json → Option α) :
    Option α :=
  match r.get? name with
  | some j => read j
  | none => some default

/-- A field that is absent when it is null or left out. -/
def optionalOrAbsent {α : Type} (r : Record) (name : String) (read : Json → Option α) :
    Option (Option α) :=
  match r.get? name with
  | none => some none
  | some .null => some none
  | some j => (read j).map some

/-- A field that is absent when it is null or left out of an object; an array has to hold it. -/
def optional {α : Type} (r : Record) (name : String) (read : Json → Option α) :
    Option (Option α) :=
  if r.positional && (r.get? name).isNone then none else r.optionalOrAbsent name read

end Record

/-! ### Writing -/

/-- An optional value, null when it is absent. -/
def ofOption {α : Type} (write : α → Json) : Option α → Json
  | some a => write a
  | none => .null

/-- A list as an array. -/
def ofList {α : Type} (write : α → Json) (items : List α) : Json := .arr (items.map write)

/-- Texts as an array. -/
def ofStrings (items : List String) : Json := ofList .str items

/-- A dictionary as an object, its keys in order. -/
def ofDict {α : Type} (write : α → Json) (d : Dict α) : Json := .obj (d.map write).entries

/-- A dictionary of dictionaries as an object of objects. -/
def ofTable {α : Type} (write : α → Json) (t : Table α) : Json := ofDict (ofDict write) t

/-- An integer of 64 bits with a sign as a number. -/
def ofInt64 (i : Int64) : Json := .int i.toInt

/-- A field that is left out when it is absent. -/
def fieldOf {α : Type} (name : String) (write : α → Json) : Option α → List (String × Json)
  | some a => [(name, write a)]
  | none => []

/-- A list field that is left out when it is empty. -/
def listFieldOf {α : Type} (name : String) (write : α → Json) : List α → List (String × Json)
  | [] => []
  | items => [(name, ofList write items)]

end Json

end Questline
