import Questline.Json.Basic

/-! # Acts and their effects

An act is a loosely filled record: its kind and some of an id, a key, a value, a status and a
difference. Authors write acts as templates into the nodes of a quest, players and models emit them
during a turn; they share one shape. An act is read as its effect on the state of a game.

* `Act.fits`: whether an emitted act satisfies a template; only the kind and the id count.
* `Act.effect`: what an act does when it is applied.
* `Effect.isProgress`: whether an effect moves the story on. -/

namespace Questline

/-- The kind of acts that set the status of an objective. -/
def objectiveKind : String := "OBJECTIVE_UPDATE"

/-- The kind of acts that set a flag. -/
def flagKind : String := "FLAG_SET"

/-- The kind of acts that add to a resource. -/
def resourceKind : String := "RESOURCE_UPDATE"

/-- An act as it is written or emitted. -/
structure Act where
  kind : String
  id : Option String
  key : Option String
  /-- A truth value or a number, but anything may be written here. -/
  val : Option Json
  status : Option String
  delta : Option Binary64

namespace Act

/-- An act of a kind with nothing filled in. -/
def ofKind (kind : String) : Act := ⟨kind, none, none, none, none, none⟩

instance : Inhabited Act := ⟨ofKind ""⟩

/-- The act that sets the status of an objective. -/
def objective (id status : String) : Act :=
  { ofKind objectiveKind with id := some id, status := some status }

/-- The act that sets a flag. -/
def flag (key : String) (value : Bool) : Act :=
  { ofKind flagKind with key := some key, val := some (.bool value) }

/-- The act that adds to a resource. -/
def resource (key : String) (delta : Binary64) : Act :=
  { ofKind resourceKind with key := some key, delta := some delta }

/-- **Whether an act satisfies a template:** the kinds agree, and so do the ids if the template has
one. -/
def fits (act template : Act) : Bool :=
  act.kind == template.kind &&
    match template.id with
    | some id => act.id == some id
    | none => true

end Act

/-- Why an act of a known kind has no effect. -/
inductive Defect where
  | objectiveWithoutStatus
  | flagWithoutValue
  | resourceWithoutDelta
deriving DecidableEq

namespace Defect

/-- The text by which a defect is reported. -/
def message : Defect → String
  | .objectiveWithoutStatus => "objective update needs an id and a status"
  | .flagWithoutValue => "flag set needs a key and a boolean val"
  | .resourceWithoutDelta => "resource update needs a key and a numeric delta"

end Defect

/-- What an act does to the state of a game. -/
inductive Effect where
  /-- An objective takes a status. -/
  | setObjective (id status : String)
  /-- A flag takes a value. -/
  | setFlag (key : String) (value : Bool)
  /-- A resource level grows by a difference, without limits. -/
  | addResource (key : String) (delta : Binary64)
  /-- An act of a known kind that lacks what it needs. -/
  | malformed (kind : String) (defect : Defect)
  /-- An act of no known kind. -/
  | unrecognized (kind : String)
deriving DecidableEq

namespace Effect

/-- **Whether an effect that changes something is progress:** an objective reaches the completed
status or a flag is raised. -/
def isProgress (completed : String) : Effect → Bool
  | .setObjective _ status => status == completed
  | .setFlag _ value => value
  | _ => false

end Effect

namespace Act

/-- The flag or resource that an act is about: its key, else its id. -/
def target? (act : Act) : Option String := act.key.or act.id

/-- The truth value of an act, if its value is one. -/
def truth? (act : Act) : Option Bool :=
  match act.val with
  | some (.bool b) => some b
  | _ => none

/-- The difference of an act: its own field, else its value if that is a number. -/
def amount? (act : Act) : Option Binary64 :=
  match act.delta, act.val with
  | some x, _ => some x
  | none, some (.int i) => some (Binary64.ofInt i)
  | none, some (.float x) => some x
  | none, _ => none

/-- The effect of an act on an objective, which has to be named by its id. -/
def objectiveEffect (act : Act) : Effect :=
  match act.id, act.status with
  | some id, some status => .setObjective id status
  | _, _ => .malformed act.kind .objectiveWithoutStatus

/-- The effect of an act on a flag, whose value has to be a truth value. -/
def flagEffect (act : Act) : Effect :=
  match act.target?, act.truth? with
  | some key, some value => .setFlag key value
  | _, _ => .malformed act.kind .flagWithoutValue

/-- The effect of an act on a resource. -/
def resourceEffect (act : Act) : Effect :=
  match act.target?, act.amount? with
  | some key, some delta => .addResource key delta
  | _, _ => .malformed act.kind .resourceWithoutDelta

/-- **The effect of an act.** -/
def effect (act : Act) : Effect :=
  if act.kind = objectiveKind then act.objectiveEffect
  else if act.kind = flagKind then act.flagEffect
  else if act.kind = resourceKind then act.resourceEffect
  else .unrecognized act.kind

end Act

end Questline
