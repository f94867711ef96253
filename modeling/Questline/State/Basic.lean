import Questline.Act
import Questline.GameId
import Questline.Guard.Facts

/-! # The state of a game

One snapshot of a game: where it stands in the quest, what it has been through, and the flags,
objectives, resources and belongings that acts change and guards read. Each turn takes a snapshot
and yields the next.

* `State.apply`: the state after an effect. `State.changes`: whether the effect counts as a change.
* `State.facts`: what guards read of a state.
* `splitFlagKey`: a flag key as the namespace and the name that guards use. -/

namespace Questline

/-- A snapshot of a game. -/
structure State where
  gameId : GameId
  /-- The id of the node where the game stands. -/
  current : Option String
  /-- The nodes played, in order. -/
  visited : List String
  /-- The nodes on which a turn failed, in order. -/
  failures : List String
  /-- How many turns failed since the last success. -/
  retries : UInt32
  flags : Dict Bool
  /-- The status of each objective. -/
  objectives : Dict String
  /-- The level of each resource. -/
  resources : Dict Binary64
  relationships : Table Int64
  inventory : Table ItemStack
  currency : Table Int64
deriving DecidableEq

/-- The namespace of a flag key without a dot. -/
def globalSpace : String := "global"

/-- **A flag key as a namespace and a name**, parted at the first dot. -/
def splitFlagKey (key : String) : String × String :=
  let front := key.toList.takeWhile (· ≠ '.')
  match key.toList.dropWhile (· ≠ '.') with
  | _ :: name => (String.ofList front, String.ofList name)
  | [] => (globalSpace, key)

namespace State

/-- A state in which nothing has happened. -/
def blank : State :=
  ⟨.nil, none, [], [], 0, .empty, .empty, .empty, .empty, .empty, .empty⟩

instance : Inhabited State := ⟨blank⟩

/-- **The state in which a game starts** at a node. -/
def fresh (id : GameId) (start : String) : State :=
  { blank with gameId := id, current := some start }

/-- Whether a flag is raised; an absent flag is not. -/
def flag (s : State) (key : String) : Bool := (s.flags.get? key).getD false

/-- The status of an objective. -/
def objective? (s : State) (id : String) : Option String := s.objectives.get? id

/-- The level of a resource. -/
def resource? (s : State) (key : String) : Option Binary64 := s.resources.get? key

/-- The state with a flag set. -/
def withFlag (s : State) (key : String) (value : Bool) : State :=
  { s with flags := s.flags.insert key value }

/-- The state with an objective at a status. -/
def withObjective (s : State) (id status : String) : State :=
  { s with objectives := s.objectives.insert id status }

/-- The state with a resource at a level. -/
def withResource (s : State) (key : String) (level : Binary64) : State :=
  { s with resources := s.resources.insert key level }

/-- The state with a relationship at a value. -/
def withRelationship (s : State) (entity stat : String) (value : Int64) : State :=
  { s with relationships := s.relationships.put entity stat value }

/-! ### Effects -/

/-- **The state after an effect.** A resource that is not there yet starts at zero. -/
def apply (s : State) : Effect → State
  | .setObjective id status => s.withObjective id status
  | .setFlag key value => s.withFlag key value
  | .addResource key delta =>
    s.withResource key (((s.resource? key).getD .zero).add delta)
  | .malformed _ _ => s
  | .unrecognized _ => s

/-- **Whether an effect counts as a change:** a new status, a flag turned over, or a difference that
is not zero. -/
def changes (s : State) : Effect → Bool
  | .setObjective id status => s.objective? id != some status
  | .setFlag key value => s.flag key != value
  | .addResource _ delta => !delta.equals .zero
  | .malformed _ _ => false
  | .unrecognized _ => false

/-! ### Facts -/

/-- The flags by namespace and name, written in the order of their keys. -/
def flagTable (flags : Dict Bool) : Table Bool :=
  flags.entries.foldl
    (fun t e => t.put (splitFlagKey e.1).1 (splitFlagKey e.1).2 e.2) .empty

/-- What guards read of the progress through the quest. -/
def progressFacts (s : State) : Dict Literal :=
  let d := Dict.empty.insert "retries" (.int (Int64.ofNat s.retries.toNat))
  match s.current with
  | some id => d.insert "currentNodeId" (.text id)
  | none => d

/-- The free scalars that guards read: the status of each objective, the level of each resource and
the progress through the quest. -/
def scalarTable (s : State) : Table Literal :=
  ((Dict.empty.insert "objectives" (s.objectives.map .text)).insert "resources"
    (s.resources.map .float)).insert "progress" s.progressFacts

/-- **What guards read of a state.** -/
def facts (s : State) : Facts where
  rel := s.relationships
  inv := s.inventory
  currency := s.currency
  flag := flagTable s.flags
  state := s.scalarTable

end State

end Questline
