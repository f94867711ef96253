import Questline.Document.Quest
import Questline.Document.State
import Questline.Quest.Briefing
import Questline.Quest.Stall

/-! # Turn records, diagnoses, outcomes, briefings and settings as JSON

What the engine reports, and what is kept between turns, with a reader and a writer for each. -/

namespace Questline

namespace TurnRecord

/-- The keys of a record, in the order of the array form. -/
def fieldNames : List String := ["nodeId", "actions"]

/-- The fields that are written of a record: no node is named when the turn was played on none. -/
def fields (r : TurnRecord) : List (String × Json) :=
  Json.fieldOf "nodeId" .str r.node ++ [("actions", .ofList Act.toJson r.actions)]

/-- **A record as JSON.** -/
def toJson (r : TurnRecord) : Json := .obj r.fields

/-- **Reads a record.** Both of its fields may be left out. -/
def ofJson? (j : Json) : Option TurnRecord := do
  let r ← j.record? fieldNames
  return {
    node := ← r.optionalOrAbsent "nodeId" Json.string?
    actions := ← r.withDefault "actions" [] (Json.list? Act.ofJson?) }

end TurnRecord

namespace Branch

/-- A branch is written by its name. -/
def toJson (b : Branch) : Json := .str b.name

/-- Reads a branch by its name. -/
def ofJson? : Json → Option Branch := Json.name? ofName?

end Branch

namespace Outcome

/-- **An outcome as JSON**, with a branch that is null when none was taken. -/
def toJson (o : Outcome) : Json :=
  .obj [("success", .bool o.success), ("branch", .ofOption Branch.toJson o.branch),
    ("newGameState", o.state.toJson), ("appliedActions", .ofList Act.toJson o.applied),
    ("effectiveActions", .ofList Act.toJson o.effective)]

/-- **Reads an outcome.** Only the branch may be left out, or null. -/
def ofJson? (j : Json) : Option Outcome := do
  let r ← j.record? ["success", "branch", "newGameState", "appliedActions", "effectiveActions"]
  return {
    success := ← r.required "success" Json.bool?
    branch := ← r.optional "branch" Branch.ofJson?
    state := ← r.required "newGameState" State.ofJson?
    applied := ← r.required "appliedActions" (Json.list? Act.ofJson?)
    effective := ← r.required "effectiveActions" (Json.list? Act.ofJson?) }

end Outcome

namespace Stall

/-- **A reason as JSON**, its kind among its fields. -/
def toJson : Stall → Json
  | .noProgress => .obj [("kind", .str "noProgress")]
  | .preconditionsNotMet node =>
    .obj [("kind", .str "preconditionsNotMet"), ("nodeId", .str node)]
  | .resourcesDepleted resources =>
    .obj [("kind", .str "resourcesDepleted"), ("resources", .ofStrings resources)]
  | .maxRetriesExceeded retries =>
    .obj [("kind", .str "maxRetriesExceeded"), ("retries", .int retries.toNat)]

/-- Reads a reason of a kind from the rest of its fields. -/
def ofKind? (kind : String) (j : Json) : Option Stall :=
  match kind with
  | "noProgress" =>
    match j with
    | .obj _ => some .noProgress
    | .arr [] => some .noProgress
    | _ => none
  | "preconditionsNotMet" => do
    let r ← j.record? ["nodeId"]
    return .preconditionsNotMet (← r.required "nodeId" Json.string?)
  | "resourcesDepleted" => do
    let r ← j.record? ["resources"]
    return .resourcesDepleted (← r.required "resources" (Json.list? Json.string?))
  | "maxRetriesExceeded" => do
    let r ← j.record? ["retries"]
    return .maxRetriesExceeded (← r.required "retries" Json.uint32?)
  | _ => none

/-- **Reads a reason.** The kind stands anywhere among the keys of an object, or first in an array;
nothing in a reason is skipped unread. -/
def ofJson? (j : Json) : Option Stall :=
  if !j.readable then none
  else match j with
    | .obj fields =>
      match fields.filter (·.1 == "kind") with
      | [(_, .str kind)] => ofKind? kind (.obj (fields.filter (·.1 != "kind")))
      | _ => none
    | .arr (.str kind :: rest) => ofKind? kind (.arr rest)
    | _ => none

end Stall

namespace Diagnosis

/-- **A diagnosis as JSON**, with a reason that is null when the game is not stuck. -/
def toJson (d : Diagnosis) : Json :=
  .obj [("isStuck", .bool d.stuck), ("reason", .ofOption Stall.toJson d.reason),
    ("suggestions", .ofStrings d.suggestions)]

/-- **Reads a diagnosis**, which may be stuck without a reason. -/
def ofJson? (j : Json) : Option Diagnosis := do
  let r ← j.record? ["isStuck", "reason", "suggestions"]
  return {
    stuck := ← r.required "isStuck" Json.bool?
    reason := ← r.optional "reason" Stall.ofJson?
    suggestions := ← r.required "suggestions" (Json.list? Json.string?) }

end Diagnosis

namespace NodeSummary

/-- A node in short as JSON. -/
def toJson (n : NodeSummary) : Json :=
  .obj [("id", .str n.id), ("type", n.kind.toJson), ("synopsis", .str n.synopsis)]

/-- Reads a node in short. -/
def ofJson? (j : Json) : Option NodeSummary := do
  let r ← j.record? ["id", "type", "synopsis"]
  return {
    id := ← r.required "id" Json.string?
    kind := ← r.required "type" NodeKind.ofJson?
    synopsis := ← r.required "synopsis" Json.string? }

end NodeSummary

namespace FrontierEntry

/-- An entry as JSON. A hint or a guard summary that is absent is written as null. -/
def toJson (e : FrontierEntry) : Json :=
  .obj [("id", .str e.id), ("type", e.kind.toJson), ("synopsis", .str e.synopsis),
    ("hint", .ofOption .str e.hint), ("guardSummary", .ofOption .str e.guardSummary)]

/-- Reads an entry, where the hint and the guard summary may be null. -/
def ofJson? (j : Json) : Option FrontierEntry := do
  let r ← j.record? ["id", "type", "synopsis", "hint", "guardSummary"]
  return {
    id := ← r.required "id" Json.string?
    kind := ← r.required "type" NodeKind.ofJson?
    synopsis := ← r.required "synopsis" Json.string?
    hint := ← r.optional "hint" Json.string?
    guardSummary := ← r.optional "guardSummary" Json.string? }

end FrontierEntry

namespace Briefing

/-- **A briefing as JSON.** -/
def toJson (b : Briefing) : Json :=
  .obj [("activeNode", b.node.toJson), ("frontier", .ofList FrontierEntry.toJson b.frontier),
    ("hash", .str b.fingerprint)]

/-- **Reads a briefing.** Its fingerprint is read as it stands. -/
def ofJson? (j : Json) : Option Briefing := do
  let r ← j.record? ["activeNode", "frontier", "hash"]
  return {
    node := ← r.required "activeNode" NodeSummary.ofJson?
    frontier := ← r.required "frontier" (Json.list? FrontierEntry.ofJson?)
    fingerprint := ← r.required "hash" Json.string? }

end Briefing

namespace Settings

/-- **Settings as JSON.** -/
def toJson (c : Settings) : Json :=
  .obj [("max_stuck_turns", .int c.maxStuckTurns.toNat), ("max_retries", .int c.maxRetries.toNat),
    ("critical_resources", .ofStrings c.criticalResources),
    ("completed_status", .str c.completedStatus)]

/-- **Reads settings**; what is left out is standard. -/
def ofJson? (j : Json) : Option Settings := do
  let r ← j.record? ["max_stuck_turns", "max_retries", "critical_resources", "completed_status"]
  return {
    maxStuckTurns := ← r.withDefault "max_stuck_turns" Settings.standard.maxStuckTurns Json.uint64?
    maxRetries := ← r.withDefault "max_retries" Settings.standard.maxRetries Json.uint32?
    criticalResources := ← r.withDefault "critical_resources" Settings.standard.criticalResources
      (Json.list? Json.string?)
    completedStatus := ← r.withDefault "completed_status" Settings.standard.completedStatus
      Json.string? }

end Settings

end Questline
