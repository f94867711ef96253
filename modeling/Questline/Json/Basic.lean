import Questline.Decimal.Reading
import Questline.Dict

/-! # JSON values

The tree of a JSON text. An integer of 64 bits and any other number are told apart, because
documents may ask for the one and refuse the other. The fields of an object are kept in the order
of the text, repeated keys included.

Some texts are well formed and still stand for nothing that a document can hold: a number beyond
the largest, a string with half of a surrogate pair, a tree nested too deep. They are `unreadable`;
a reader that skips them does not notice.

* `Json.readable`: nothing unreadable anywhere inside.
* `Json.sortKeys`: the same value with the keys of every object in increasing order, the last of
  equal keys staying.
* `Json.nesting`: how deep a value is. `Json.trimDepth`: the same value with what is nested deeper
  than a limit made unreadable. -/

namespace Questline

/-- A JSON value. -/
inductive Json where
  | null
  | bool (b : Bool)
  | int (i : Int)
  | float (x : Binary64)
  | str (s : String)
  | arr (items : List Json)
  | obj (fields : List (String × Json))
  | unreadable

namespace Json

instance : Inhabited Json := ⟨.null⟩

/-- The number that a numeral stands for. -/
def ofNumeral (n : Numeral) : Json :=
  match n.toWord? with
  | some i => .int i
  | none =>
    match n.toBinary64? with
    | some x => .float x
    | none => .unreadable

/-- A floating point number as a value; infinities and `nan` have no numeral and become null. -/
def ofBinary64 (x : Binary64) : Json := if x.isFinite then .float x else .null

mutual

/-- Nothing unreadable anywhere inside. -/
def readable : Json → Bool
  | .arr items => readableItems items
  | .obj fields => readableFields fields
  | .unreadable => false
  | _ => true

/-- Nothing unreadable in the items of an array. -/
def readableItems : List Json → Bool
  | [] => true
  | j :: rest => readable j && readableItems rest

/-- Nothing unreadable in the values of fields; a key that could not be read made the whole
object unreadable. -/
def readableFields : List (String × Json) → Bool
  | [] => true
  | (_, j) :: rest => readable j && readableFields rest

end

mutual

/-- The keys of every object in increasing order; of equal keys the last stays. -/
def sortKeys : Json → Json
  | .arr items => .arr (sortKeysItems items)
  | .obj fields => .obj (Dict.ofList (sortKeysFields fields)).entries
  | j => j

/-- The items of an array, sorted inside. -/
def sortKeysItems : List Json → List Json
  | [] => []
  | j :: rest => sortKeys j :: sortKeysItems rest

/-- The fields of an object, sorted inside but still in their own order. -/
def sortKeysFields : List (String × Json) → List (String × Json)
  | [] => []
  | (k, j) :: rest => (k, sortKeys j) :: sortKeysFields rest

end

mutual

/-- The value with every array and object below the first `limit` levels made unreadable. -/
def trimDepth (limit : Nat) : Json → Json
  | .arr items => match limit with
    | 0 => .unreadable
    | limit + 1 => .arr (trimDepthItems limit items)
  | .obj fields => match limit with
    | 0 => .unreadable
    | limit + 1 => .obj (trimDepthFields limit fields)
  | j => j

/-- The items of an array, each trimmed. -/
def trimDepthItems (limit : Nat) : List Json → List Json
  | [] => []
  | j :: rest => trimDepth limit j :: trimDepthItems limit rest

/-- The fields of an object, each trimmed. -/
def trimDepthFields (limit : Nat) : List (String × Json) → List (String × Json)
  | [] => []
  | (k, j) :: rest => (k, trimDepth limit j) :: trimDepthFields limit rest

end

mutual

/-- How many arrays and objects are nested in each other. -/
def nesting : Json → Nat
  | .arr items => nestingItems items + 1
  | .obj fields => nestingFields fields + 1
  | _ => 0

/-- The deepest nesting among items. -/
def nestingItems : List Json → Nat
  | [] => 0
  | j :: rest => max (nesting j) (nestingItems rest)

/-- The deepest nesting among the values of fields. -/
def nestingFields : List (String × Json) → Nat
  | [] => 0
  | (_, j) :: rest => max (nesting j) (nestingFields rest)

end

/-- How many arrays and objects of a document may be nested in each other. -/
def nestingLimit : Nat := 127

/-- The value as a document: what is nested beyond the limit is unreadable. -/
def document (j : Json) : Json := j.trimDepth nestingLimit

end Json

end Questline
