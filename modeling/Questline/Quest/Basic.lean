import Questline.Act
import Questline.Guard.Basic

/-! # Quests

A quest is the authored graph that a game moves through: nodes, which guards may close, and directed
edges between them, which guards may bar. The order of nodes and edges is the order in which they
are considered.

* `Quest.node?`: the first node with an id. `Quest.leaving`: the edges that leave an id.
* `Quest.check`: the first fault of a quest, or none: ids are declared once, the start is a node and
  both ends of every edge are nodes. -/

namespace Questline

/-- What a node is for. -/
inductive NodeKind where
  | beat
  | objective
  | gate
  | setpiece
deriving DecidableEq

namespace NodeKind

/-- The name of a kind in a document. -/
def name : NodeKind → String
  | .beat => "beat"
  | .objective => "objective"
  | .gate => "gate"
  | .setpiece => "setpiece"

/-- The kind of a name. -/
def ofName? : String → Option NodeKind
  | "beat" => some .beat
  | "objective" => some .objective
  | "gate" => some .gate
  | "setpiece" => some .setpiece
  | _ => none

@[simp] theorem ofName?_name (k : NodeKind) : ofName? k.name = some k := by cases k <;> rfl

end NodeKind

/-- A scene of a quest: what is asked before it is entered, and the templates that acts are matched
with. -/
structure Node where
  id : String
  kind : NodeKind
  synopsis : String
  /-- All of these have to hold for the node to be entered. -/
  enterIf : List Guard
  /-- Templates of acts that succeed on the node, applied when one of them is met. -/
  onSuccess : List Act
  /-- Templates of acts that fail on the node, applied when one of them is met. -/
  onFail : List Act
  hint : Option String

/-- A way from one id to another. -/
structure Edge where
  source : String
  target : String
  /-- All of these have to hold for the edge to be taken. -/
  guards : List Guard

/-- **A quest:** the nodes and the edges between them, with an id and the id of the first node. -/
structure Quest where
  id : String
  start : String
  nodes : List Node
  edges : List Edge

/-- What can be wrong with a quest. -/
inductive QuestFault where
  | duplicateNode (quest node : String)
  | unknownStart (quest node : String)
  | danglingEdge (quest source target missing : String)
deriving DecidableEq

namespace QuestFault

/-- The text by which a fault is reported. -/
def message : QuestFault → String
  | .duplicateNode quest node =>
    "graph '" ++ quest ++ "' declares node '" ++ node ++ "' more than once"
  | .unknownStart quest node => "graph '" ++ quest ++ "' starts at unknown node '" ++ node ++ "'"
  | .danglingEdge quest source target missing =>
    "graph '" ++ quest ++ "' has edge " ++ source ++ " -> " ++ target ++
      " referencing unknown node '" ++ missing ++ "'"

end QuestFault

namespace Quest

/-- A quest without nodes. -/
def bare (id start : String) : Quest := ⟨id, start, [], []⟩

instance : Inhabited Quest := ⟨bare "" ""⟩

/-- The ids of the nodes, in order. -/
def ids (q : Quest) : List String := q.nodes.map Node.id

/-- **The first node with an id.** -/
def node? (q : Quest) (id : String) : Option Node := q.nodes.find? (·.id == id)

/-- **The edges that leave an id**, in order. -/
def leaving (q : Quest) (id : String) : List Edge := q.edges.filter (·.source == id)

/-- The first id of a list that repeats an earlier one. -/
def firstRepeat? (seen : List String) : List String → Option String
  | [] => none
  | id :: rest => if id ∈ seen then some id else firstRepeat? (id :: seen) rest

/-- The end of an edge that is not among the ids, its source before its target. -/
def missingEnd? (ids : List String) (e : Edge) : Option String :=
  [e.source, e.target].find? (· ∉ ids)

/-- The fault of an edge that ends at no node. -/
def edgeFault? (q : Quest) (e : Edge) : Option QuestFault :=
  (missingEnd? q.ids e).map fun missing => .danglingEdge q.id e.source e.target missing

/-- **The first fault of a quest**, none when it is sound. -/
def check (q : Quest) : Option QuestFault :=
  match firstRepeat? [] q.ids with
  | some id => some (.duplicateNode q.id id)
  | none =>
    if q.start ∉ q.ids then some (.unknownStart q.id q.start)
    else q.edges.findSome? q.edgeFault?

end Quest

end Questline
