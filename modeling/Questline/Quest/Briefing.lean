import Questline.Guard.Text
import Questline.Quest.Fingerprint
import Questline.Quest.Frontier

/-! # Briefings

What a narrator is told about the quest before a turn: the current node, the nodes that can be
reached from it, with a hint and the guards that were passed, and the fingerprint of the quest. A
state that stands nowhere in the quest is corrupt, and there is no briefing.

* `Quest.briefing`: the briefing of a state, or what is wrong with the state.
* `gatingGuards`: the guards on the way to a node, those of the edge first. -/

namespace Questline

/-- What can be wrong with the place where a state stands. -/
inductive PlaceFault where
  | noCurrentNode
  | unknownCurrentNode (node quest : String)
deriving DecidableEq

namespace PlaceFault

/-- What a narrator is told instead of a briefing. -/
def message : PlaceFault → String
  | .noCurrentNode => "game state has no current node"
  | .unknownCurrentNode node quest =>
    "current node '" ++ node ++ "' is not present in graph '" ++ quest ++ "'"

end PlaceFault

/-- A node in short. -/
structure NodeSummary where
  id : String
  kind : NodeKind
  synopsis : String
deriving DecidableEq

/-- A node that can be reached. -/
structure FrontierEntry where
  id : String
  kind : NodeKind
  synopsis : String
  hint : Option String
  /-- The guards on the way to the node, as text. -/
  guardSummary : Option String
deriving DecidableEq

/-- What a narrator is told before a turn. -/
structure Briefing where
  node : NodeSummary
  frontier : List FrontierEntry
  fingerprint : String
deriving DecidableEq

/-- Adds a guard to a list unless the same guard is there already. -/
def addGuard (guards : List Guard) (g : Guard) : List Guard :=
  if guards.any (·.same g) then guards else guards ++ [g]

/-- **The guards on the way to a node:** those of the edge, then those of the node that are not
among them yet. -/
def gatingGuards (e : Edge) (target : Node) : List Guard := target.enterIf.foldl addGuard e.guards

namespace Node

/-- A node in short. -/
def summary (n : Node) : NodeSummary := ⟨n.id, n.kind, n.synopsis⟩

end Node

namespace FrontierEntry

/-- The entry of an open edge and its target. -/
def ofEdge (e : Edge) (target : Node) : FrontierEntry :=
  ⟨target.id, target.kind, target.synopsis, target.hint, Guard.summary (gatingGuards e target)⟩

end FrontierEntry

namespace Quest

/-- **The briefing of a state**, with an entry for each edge that can be taken from the
current node. -/
def briefing (q : Quest) (s : State) : Except PlaceFault Briefing :=
  match s.current with
  | none => .error .noCurrentNode
  | some id =>
    match q.node? id with
    | none => .error (.unknownCurrentNode id q.id)
    | some n => .ok {
        node := n.summary
        frontier := (q.openEdges s.facts n.id).map fun e => .ofEdge e.1 e.2
        fingerprint := q.fingerprint }

end Quest

end Questline
