import Questline.Quest.Frontier
import Questline.Quest.Outcome

/-! # Turns

A turn finds the active node, lets the acts work on the state and keeps the books: where the game
stands, what it visited, what failed and how often in a row. After a success the game moves to a
node drawn from the frontier of the new state, the id of the active node being the key of the draw.

* `Quest.play`: one turn. `Quest.playAll`: the turns of a list of act lists, one after the other;
  `Quest.stateAfter` and `Quest.historyOf`: the state and the history they leave.
* `TurnRecord`: what the history of a game remembers of a turn. -/

namespace Questline

/-- What the history of a game remembers of a turn: the node, and the acts that changed
something. -/
structure TurnRecord where
  node : Option String
  actions : List Act

namespace TurnRecord

/-- The record of a turn on no node. -/
def blank : TurnRecord := ⟨none, []⟩

instance : Inhabited TurnRecord := ⟨blank⟩

/-- **Whether the turn moved the story on:** one of its acts is progress. -/
def progressed (r : TurnRecord) (completed : String) : Bool :=
  r.actions.any fun a => a.effect.isProgress completed

end TurnRecord

/-- What a turn was played on, and what it left behind. -/
structure Turn where
  /-- The id of the node it was played on, none at a dead end. -/
  active : Option String
  branch : Option Branch
  state : State
  record : TurnRecord

namespace Turn

/-- Whether no node could be entered. -/
def deadEnd (t : Turn) : Bool := t.active.isNone

end Turn

namespace State

/-- The state standing on a node, which counts as visited unless it was the last one visited. -/
def arrive (s : State) (id : String) : State :=
  { s with
    current := some id
    visited := if s.visited.getLast? = some id then s.visited else s.visited ++ [id] }

/-- The state after one more failure on an id. -/
def fail (s : State) (id : String) : State :=
  { s with failures := s.failures ++ [id], retries := s.retries + 1 }

end State

namespace Quest

/-- The state after a success on an id: a new start of the count of retries, and a step to a node
of the frontier if there is one. -/
def advance (q : Quest) (s : State) (id : String) : State :=
  let s := { s with retries := 0 }
  match Draw.choose id (q.frontier s id) with
  | some target => { s with current := some target.id }
  | none => s

/-- The state after the outcome of a branch on an id. -/
def settle (q : Quest) (branch : Option Branch) (s : State) (id : String) : State :=
  match branch with
  | some .success => q.advance (s.arrive id) id
  | some .failure => (s.arrive id).fail id
  | none => s.arrive id

/-- **One turn.** At a dead end nothing changes and the record is blank. -/
def play (q : Quest) (s : State) (acts : List Act) : Turn :=
  match q.active? s with
  | none => { active := none, branch := none, state := s, record := .blank }
  | some n =>
    let o := n.outcome acts s
    { active := some n.id
      branch := o.branch
      state := q.settle o.branch o.state n.id
      record := ⟨some n.id, o.effective⟩ }

/-- **The turns of a list of act lists**, each from the state that the one before it left. -/
def playAll (q : Quest) (s : State) : List (List Act) → List Turn
  | [] => []
  | acts :: rest => let t := q.play s acts; t :: q.playAll t.state rest

/-- The state after the turns of a list of act lists. -/
def stateAfter (q : Quest) (s : State) (actLists : List (List Act)) : State :=
  actLists.foldl (fun s acts => (q.play s acts).state) s

/-- The history that the turns of a list of act lists leave. -/
def historyOf (q : Quest) (s : State) (actLists : List (List Act)) : List TurnRecord :=
  (q.playAll s actLists).map Turn.record

end Quest

end Questline
