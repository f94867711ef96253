import Questline.Draw
import Questline.Guard.Verdict
import Questline.Quest.Basic
import Questline.State.Basic

/-! # The active node and the frontier

Where a game stands in its quest, and where it can go from there.

* `Quest.active?`: the node a turn is played on. The game stays on its current node while that can
  be entered; otherwise one of all nodes that can be entered is drawn, the current id being the key
  of the draw.
* `Quest.openEdges`: the edges that can be taken from an id, each with the node it leads to.
* `Quest.frontier`: the nodes they lead to, in the order of the edges. -/

namespace Questline

namespace Node

/-- Whether a node can be entered on given facts. -/
def enterableOn (n : Node) (f : Facts) : Bool := Guard.allHold n.enterIf f

/-- Whether a node can be entered in a state. -/
def enterable (n : Node) (s : State) : Bool := n.enterableOn s.facts

end Node

namespace Quest

/-- The key of the draw for a game without a current node. -/
def startKey : String := "start"

/-- The node that the current id of a state names. -/
def currentNode? (q : Quest) (s : State) : Option Node := s.current.bind q.node?

/-- The nodes that can be entered in a state, in order. -/
def enterableNodes (q : Quest) (s : State) : List Node := q.nodes.filter (·.enterable s)

/-- The node drawn among all that can be entered. -/
def drawnNode? (q : Quest) (s : State) : Option Node :=
  Draw.choose (s.current.getD startKey) (q.enterableNodes s)

/-- **The node a turn is played on**, none when no node can be entered. -/
def active? (q : Quest) (s : State) : Option Node :=
  match (q.currentNode? s).filter (·.enterable s) with
  | some n => some n
  | none => q.drawnNode? s

/-- Whether an edge to a node can be taken on given facts. -/
def passable (f : Facts) (e : Edge) (target : Node) : Bool :=
  target.enterableOn f && Guard.allHold e.guards f

/-- **The edges that can be taken from an id**, each with its target. -/
def openEdges (q : Quest) (f : Facts) (id : String) : List (Edge × Node) :=
  (q.leaving id).filterMap fun e =>
    ((q.node? e.target).filter (passable f e)).map fun target => (e, target)

/-- **The frontier of an id:** the nodes that can be reached from it now. -/
def frontier (q : Quest) (s : State) (id : String) : List Node :=
  (q.openEdges s.facts id).map Prod.snd

end Quest

end Questline
