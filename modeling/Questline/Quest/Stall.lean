import Questline.Quest.Turn
import Questline.Settings

/-! # Stalled games

A game is stuck when its player cannot get on. Four reasons are looked for in this order: no
progress in the last turns, a current node that can no longer be entered, critical resources that
are used up, and too many failures in a row.

* `Quest.stall?`: the first reason that applies. `Quest.diagnose`: the reason with advice. -/

namespace Questline

/-- Why a game is stuck. -/
inductive Stall where
  | noProgress
  | preconditionsNotMet (node : String)
  | resourcesDepleted (resources : List String)
  | maxRetriesExceeded (retries : UInt32)
deriving DecidableEq

namespace Stall

/-- A reason in words. -/
def text : Stall → String
  | .noProgress => "No objective progress in recent turns"
  | .preconditionsNotMet node => "Preconditions for current node '" ++ node ++ "' are no longer met"
  | .resourcesDepleted resources => "Critical resources depleted: " ++ ", ".intercalate resources
  | .maxRetriesExceeded retries =>
    "Maximum retries exceeded (" ++ decimalText retries.toNat ++ " attempts)"

/-- What may help; the kind of the reason decides. -/
def advice : Stall → List String
  | .noProgress =>
    ["Offer a clue pointing at the current objective",
      "Introduce an NPC or event that opens a new lead",
      "Remind the player of unexplored options"]
  | .preconditionsNotMet _ =>
    ["Revisit an earlier scene to regain what was lost",
      "Offer an alternative route around this gate"]
  | .resourcesDepleted _ =>
    ["Offer a chance to rest or recover", "Introduce a merchant, healer or supply cache"]
  | .maxRetriesExceeded _ =>
    ["Lower the difficulty of the current challenge",
      "Provide a different approach to the obstacle",
      "Let the story move on with a partial success"]

end Stall

/-- Whether a game is stuck, why, and what may help. -/
structure Diagnosis where
  stuck : Bool
  reason : Option Stall
  suggestions : List String
deriving DecidableEq

namespace Diagnosis

/-- The diagnosis of a reason, or of none. -/
def ofReason : Option Stall → Diagnosis
  | some reason => ⟨true, some reason, reason.advice⟩
  | none => ⟨false, none, []⟩

/-- The reason in words, if there is one. -/
def text? (d : Diagnosis) : Option String := d.reason.map Stall.text

end Diagnosis

namespace Quest

/-- The last `count` turns of a history. -/
def lastTurns (history : List TurnRecord) (count : Nat) : List TurnRecord :=
  history.drop (history.length - count)

/-- No turn of a full window at the end of the history moved the story on. -/
def idle (history : List TurnRecord) (c : Settings) : Bool :=
  let window := c.maxStuckTurns.toNat
  0 < window && window ≤ history.length &&
    (lastTurns history window).all fun r => !r.progressed c.completedStatus

/-- The current node if it can no longer be entered. -/
def closedNode? (q : Quest) (s : State) : Option Node :=
  (q.currentNode? s).filter fun n => !n.enterable s

/-- The critical resources that the state knows and that are used up, in order. -/
def depleted (s : State) (c : Settings) : List String :=
  c.criticalResources.filter fun key =>
    match s.resource? key with
    | some level => level.le .zero
    | none => false

/-- **The first reason for which a game is stuck.** -/
def stall? (q : Quest) (s : State) (history : List TurnRecord) (c : Settings) : Option Stall :=
  if idle history c then some .noProgress
  else match q.closedNode? s with
    | some n => some (.preconditionsNotMet n.id)
    | none =>
      if depleted s c ≠ [] then some (.resourcesDepleted (depleted s c))
      else if c.maxRetries ≤ s.retries then some (.maxRetriesExceeded s.retries)
      else none

/-- **The diagnosis of a game** after the turns of a history. -/
def diagnose (q : Quest) (s : State) (history : List TurnRecord) (c : Settings) : Diagnosis :=
  .ofReason (q.stall? s history c)

end Quest

end Questline
