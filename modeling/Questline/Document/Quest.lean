import Questline.Document.Guard
import Questline.Quest.Basic

/-! # Quests as JSON

What is absent or empty is left out of acts, nodes and edges; a quest always names its nodes and
edges.

* `Act.fieldNames`, `Node.fieldNames`, `Edge.fieldNames`, `Quest.fieldNames`: the known keys.
  `Act.fields`, `Node.fields`, `Edge.fields`, `Quest.fields`: what is written under them.
* `Act.toJson` and `Act.ofJson?`; `Node.toJson` and `Node.ofJson?`; `Edge.toJson` and
  `Edge.ofJson?`; `Quest.toJson` and `Quest.ofJson?`. -/

namespace Questline

namespace Act

/-- The keys of an act, in the order of the array form. -/
def fieldNames : List String := ["type", "id", "key", "val", "status", "delta"]

/-- The fields that are written of an act. -/
def fields (a : Act) : List (String × Json) :=
  ("type", .str a.kind) :: (Json.fieldOf "id" .str a.id ++ Json.fieldOf "key" .str a.key ++
    Json.fieldOf "val" (fun j => j) a.val ++ Json.fieldOf "status" .str a.status ++
    Json.fieldOf "delta" .ofBinary64 a.delta)

/-- **An act as JSON.** -/
def toJson (a : Act) : Json := .obj a.fields

/-- **Reads an act**, of which only the kind is required. Any other field is absent also when it
is null. -/
def ofJson? (j : Json) : Option Act := do
  let r ← j.record? fieldNames
  return {
    kind := ← r.required "type" Json.string?
    id := ← r.optionalOrAbsent "id" Json.string?
    key := ← r.optionalOrAbsent "key" Json.string?
    val := ← r.optionalOrAbsent "val" Json.any?
    status := ← r.optionalOrAbsent "status" Json.string?
    delta := ← r.optionalOrAbsent "delta" Json.binary64? }

end Act

namespace NodeKind

/-- A kind is written by its name. -/
def toJson (k : NodeKind) : Json := .str k.name

/-- Reads a kind by its name. -/
def ofJson? : Json → Option NodeKind := Json.name? ofName?

end NodeKind

namespace Node

/-- The keys of a node, in the order of the array form. -/
def fieldNames : List String :=
  ["id", "type", "synopsis", "enterIf", "onSuccess", "onFail", "hint"]

/-- The fields that are written of a node. -/
def fields (n : Node) : List (String × Json) :=
  [("id", .str n.id), ("type", n.kind.toJson), ("synopsis", .str n.synopsis)] ++
    Json.listFieldOf "enterIf" Guard.toJson n.enterIf ++
    Json.listFieldOf "onSuccess" Act.toJson n.onSuccess ++
    Json.listFieldOf "onFail" Act.toJson n.onFail ++ Json.fieldOf "hint" .str n.hint

/-- **A node as JSON.** -/
def toJson (n : Node) : Json := .obj n.fields

/-- **Reads a node.** Guards, acts and the hint may be left out. -/
def ofJson? (j : Json) : Option Node := do
  let r ← j.record? fieldNames
  return {
    id := ← r.required "id" Json.string?
    kind := ← r.required "type" NodeKind.ofJson?
    synopsis := ← r.required "synopsis" Json.string?
    enterIf := ← r.withDefault "enterIf" [] (Json.list? Guard.ofJson?)
    onSuccess := ← r.withDefault "onSuccess" [] (Json.list? Act.ofJson?)
    onFail := ← r.withDefault "onFail" [] (Json.list? Act.ofJson?)
    hint := ← r.optionalOrAbsent "hint" Json.string? }

end Node

namespace Edge

/-- The keys of an edge, in the order of the array form. -/
def fieldNames : List String := ["from", "to", "guard"]

/-- The fields that are written of an edge. -/
def fields (e : Edge) : List (String × Json) :=
  [("from", .str e.source), ("to", .str e.target)] ++
    Json.listFieldOf "guard" Guard.toJson e.guards

/-- **An edge as JSON.** -/
def toJson (e : Edge) : Json := .obj e.fields

/-- **Reads an edge.** The guards may be left out. -/
def ofJson? (j : Json) : Option Edge := do
  let r ← j.record? fieldNames
  return {
    source := ← r.required "from" Json.string?
    target := ← r.required "to" Json.string?
    guards := ← r.withDefault "guard" [] (Json.list? Guard.ofJson?) }

end Edge

namespace Quest

/-- The keys of a quest, in the order of the array form. -/
def fieldNames : List String := ["graphId", "start", "nodes", "edges"]

/-- The fields that are written of a quest. -/
def fields (q : Quest) : List (String × Json) :=
  [("graphId", .str q.id), ("start", .str q.start), ("nodes", .ofList Node.toJson q.nodes),
    ("edges", .ofList Edge.toJson q.edges)]

/-- **A quest as JSON.** -/
def toJson (q : Quest) : Json := .obj q.fields

/-- **Reads a quest**, which need not be sound. -/
def ofJson? (j : Json) : Option Quest := do
  let r ← j.record? fieldNames
  return {
    id := ← r.required "graphId" Json.string?
    start := ← r.required "start" Json.string?
    nodes := ← r.withDefault "nodes" [] (Json.list? Node.ofJson?)
    edges := ← r.withDefault "edges" [] (Json.list? Edge.ofJson?) }

end Quest

end Questline
