import Questline.Document.Guard
import Questline.State.Basic

/-! # Game states as JSON

* `State.fieldNames` and `State.fields`: the known keys, and what is written under them.
* `State.toJson` and `State.ofJson?`: every field is written, and every field may be left out. -/

namespace Questline

namespace GameId

/-- An id is written as its text. -/
def toJson (id : GameId) : Json := .str id.text

/-- Reads an id in any of its spellings. -/
def ofJson? (j : Json) : Option GameId := j.string?.bind ofText?

end GameId

namespace State

/-- The keys of a state, in the order of the array form. -/
def fieldNames : List String :=
  ["gameId", "currentNodeId", "visited", "failures", "retries", "flags", "objectives", "resources",
    "relationships", "inventory", "currency"]

/-- The fields that are written of a state. -/
def fields (s : State) : List (String × Json) :=
  [("gameId", s.gameId.toJson), ("currentNodeId", .ofOption .str s.current),
    ("visited", .ofStrings s.visited), ("failures", .ofStrings s.failures),
    ("retries", .int s.retries.toNat), ("flags", .ofDict .bool s.flags),
    ("objectives", .ofDict .str s.objectives), ("resources", .ofDict .ofBinary64 s.resources),
    ("relationships", .ofTable .ofInt64 s.relationships),
    ("inventory", .ofTable ItemStack.toJson s.inventory),
    ("currency", .ofTable .ofInt64 s.currency)]

/-- **A state as JSON**, with all its fields. -/
def toJson (s : State) : Json := .obj s.fields

/-- **Reads a state.** Every field may be left out, and is then as in a blank state. -/
def ofJson? (j : Json) : Option State := do
  let r ← j.record? fieldNames
  return {
    gameId := ← r.withDefault "gameId" .nil GameId.ofJson?
    current := ← r.optionalOrAbsent "currentNodeId" Json.string?
    visited := ← r.withDefault "visited" [] (Json.list? Json.string?)
    failures := ← r.withDefault "failures" [] (Json.list? Json.string?)
    retries := ← r.withDefault "retries" 0 Json.uint32?
    flags := ← r.withDefault "flags" .empty (Json.dict? Json.bool?)
    objectives := ← r.withDefault "objectives" .empty (Json.dict? Json.string?)
    resources := ← r.withDefault "resources" .empty (Json.dict? Json.binary64?)
    relationships := ← r.withDefault "relationships" .empty (Json.table? Json.int64?)
    inventory := ← r.withDefault "inventory" .empty (Json.table? ItemStack.ofJson?)
    currency := ← r.withDefault "currency" .empty (Json.table? Json.int64?) }

end State

end Questline
