import Questline.Quest.Basic
import Questline.State.Basic

/-! # Outcomes

The acts of a turn are matched against the templates of the active node. If one fits a template of
success, all templates of success are applied; else the same is tried with those of failure. The
acts only choose the branch: what is applied are the templates.

* `Node.branch?`: the branch that acts choose. `Node.templates`: the templates of a branch.
* `applyAll`: the state after a list of acts, and those of them that changed something.
* `Node.outcome`: all of it together. -/

namespace Questline

/-- The branch of a node that a turn takes. -/
inductive Branch where
  | success
  | failure
deriving DecidableEq

namespace Branch

/-- The name of a branch in a document. -/
def name : Branch → String
  | .success => "success"
  | .failure => "failure"

/-- The branch of a name. -/
def ofName? : String → Option Branch
  | "success" => some .success
  | "failure" => some .failure
  | _ => none

@[simp] theorem ofName?_name (b : Branch) : ofName? b.name = some b := by cases b <;> rfl

end Branch

/-- What the acts of a turn do to a state. -/
structure Outcome where
  success : Bool
  branch : Option Branch
  state : State
  /-- The templates that were applied. -/
  applied : List Act
  /-- Those of them that changed the state. -/
  effective : List Act

/-- Applies acts one after the other: the last state, and the acts that changed the state they were
applied to. -/
def applyAll (s : State) : List Act → State × List Act
  | [] => (s, [])
  | a :: rest =>
    let (last, effective) := applyAll (s.apply a.effect) rest
    (last, if s.changes a.effect then a :: effective else effective)

namespace Node

/-- Whether one of the acts satisfies one of the templates. -/
def anyFits (acts templates : List Act) : Bool := acts.any fun a => templates.any a.fits

/-- **The branch that acts choose.** -/
def branch? (n : Node) (acts : List Act) : Option Branch :=
  if anyFits acts n.onSuccess then some .success
  else if anyFits acts n.onFail then some .failure
  else none

/-- The templates of a branch; none are applied without one. -/
def templates (n : Node) : Option Branch → List Act
  | some .success => n.onSuccess
  | some .failure => n.onFail
  | none => []

/-- **The outcome of acts** on a node. -/
def outcome (n : Node) (acts : List Act) (s : State) : Outcome :=
  let branch := n.branch? acts
  let (last, effective) := applyAll s (n.templates branch)
  { success := branch == some .success
    branch
    state := last
    applied := n.templates branch
    effective }

end Node

end Questline
