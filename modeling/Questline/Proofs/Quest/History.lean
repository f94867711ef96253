import Questline.Proofs.Json.Reread
import Questline.Proofs.Quest.Stall
import Questline.Proofs.Quest.Written

/-! # Histories kept as texts

The acts of a history are not all read back as they were: null is read as an absent value and a
number that is not finite as an absent difference, and an act can change its effect by that. What
stays is whether it is progress, for that is asked of its kind, its id, its key, its status and a
truth value, all of which a text holds. A diagnosis asks nothing else of a history.

* `Act.readBack`, `TurnRecord.readBack`: an act and a record in a document that is read back.
* `Act.isProgress_congr`: what progress is asked of. `Act.isProgress_readBack`,
  `TurnRecord.progressed_readBack`: progress stays progress.
* `TurnRecord.isSome_historyOfText?_iff`, `TurnRecord.historyOfText?_eq_some`: when the text of a
  history is read, and what is read of it.
* `Quest.diagnose_congr`: what a diagnosis asks of a history.
* `Quest.diagnose_kept`: the diagnosis of a history that was kept as a text. -/

namespace Questline

namespace Act

variable {a : Act}

/-! ### Acts -/

/-- An act with its value and its difference as they are read back, the value where it may be nested
`depth` deep. -/
def readBack (depth : Nat) (a : Act) : Act :=
  { a with val := a.val.map (Json.readBack depth), delta := a.delta.map Json.rereadNumber }

theorem readBack_toJson (depth : Nat) (a : Act) :
    a.toJson.readBack (depth + 1) = (a.readBack depth).toJson := by
  simp only [toJson, fields, readBack, Json.readBack_obj, List.map_cons, List.map_append,
    Json.map_fieldOf, Json.fieldOf_map, Json.readBack_str, Json.readBack_ofBinary64]

/-- **An act is read back when its value is readable.** -/
theorem isSome_ofJson?_toJson_iff (a : Act) :
    (ofJson? a.toJson).isSome ↔ ∀ v ∈ a.val, v.readable = true := by
  constructor
  · intro h v hv
    obtain ⟨b, hb⟩ := Option.isSome_iff_exists.mp h
    obtain ⟨r, hrecord, hread⟩ := ofJson?_eq_some_iff.mp hb
    obtain rfl := Option.some.inj ((record?_toJson a).symm.trans hrecord)
    have hget : Json.Record.get? ⟨false, a.fields⟩ "val" = some v := by
      simp [fields, Json.Record.get?, List.lookup_append, Json.lookup_fieldOf,
        Dict.lookup_cons_eq, Option.mem_def.mp hv]
    have hval := hread.val
    rw [Json.Record.optionalOrAbsent_eq, hget, Option.elim_some] at hval
    by_contra hreadable
    have hany : Json.any? v = none := if_neg hreadable
    cases v with
    | null => exact hreadable rfl
    | _ => simp [Json.orAbsent?, hany] at hval
  · intro h
    rw [ofJson?_toJson h, Option.isSome_some]

/-- The truth value of an act is the value that it has. -/
theorem truth?_eq_some_iff {b : Bool} : a.truth? = some b ↔ a.val = some (.bool b) := by
  unfold truth?
  split
  · simp_all
  · rename_i hval
    simp only [reduceCtorEq, false_iff]
    exact hval b

theorem truth?_readBack (depth : Nat) (a : Act) : (a.readBack depth).truth? = a.truth? := by
  refine Option.ext fun b => ?_
  simp [truth?_eq_some_iff, readBack, Json.readBack_eq_bool_iff]

theorem storedValue?_eq_bool_iff {v : Json} {b : Bool} :
    storedValue? v = some (.bool b) ↔ v = .bool b := by
  cases v <;> simp [storedValue?, Json.sortKeys]

theorem truth?_stored (a : Act) : a.stored.truth? = a.truth? := by
  refine Option.ext fun b => ?_
  simp [truth?_eq_some_iff, stored, Option.bind_eq_some_iff, storedValue?_eq_bool_iff]

/-- No resource is progress. -/
theorem isProgress_resourceEffect (a : Act) (completed : String) :
    a.resourceEffect.isProgress completed = false := by
  unfold resourceEffect
  split <;> rfl

/-- **What progress is asked of.** The difference of an act is not among it, and of its value only
the truth value is. -/
theorem isProgress_congr (a b : Act) (hkind : b.kind = a.kind) (hid : b.id = a.id)
    (hkey : b.key = a.key) (hstatus : b.status = a.status) (htruth : b.truth? = a.truth?)
    (completed : String) : b.effect.isProgress completed = a.effect.isProgress completed := by
  have htarget : b.target? = a.target? := by rw [target?, target?, hkey, hid]
  have hobjective : b.objectiveEffect = a.objectiveEffect := by
    rw [objectiveEffect, objectiveEffect, hid, hstatus, hkind]
  have hflag : b.flagEffect = a.flagEffect := by
    rw [flagEffect, flagEffect, htarget, htruth, hkind]
  rw [effect, effect, hkind, hobjective, hflag]
  split_ifs
  · rfl
  · rfl
  · rw [isProgress_resourceEffect, isProgress_resourceEffect]
  · rfl

/-- **Progress stays progress** when an act is read back. -/
theorem isProgress_readBack (depth : Nat) (a : Act) (completed : String) :
    (a.readBack depth).stored.effect.isProgress completed = a.effect.isProgress completed := by
  have htruth : (a.readBack depth).stored.truth? = a.truth? := by
    rw [truth?_stored, truth?_readBack]
  exact isProgress_congr a (a.readBack depth).stored rfl rfl rfl rfl htruth completed

end Act

namespace TurnRecord

variable {r : TurnRecord} {history : List TurnRecord}

/-! ### Records -/

/-- A record with its acts as they are read back. -/
def readBack (depth : Nat) (r : TurnRecord) : TurnRecord :=
  { r with actions := r.actions.map (Act.readBack depth) }

/-- What is read of a record. -/
def stored (r : TurnRecord) : TurnRecord := { r with actions := r.actions.map Act.stored }

theorem readBack_toJson (depth : Nat) (r : TurnRecord) :
    r.toJson.readBack (depth + 3) = (r.readBack depth).toJson := by
  have hactions : (Json.ofList Act.toJson r.actions).readBack (depth + 2) =
      .ofList Act.toJson (r.actions.map (Act.readBack depth)) := by
    rw [Json.readBack_ofList, Json.ofList, List.map_map]
    exact congrArg Json.arr (List.map_congr_left fun a _ => a.readBack_toJson depth)
  simp only [toJson, fields, readBack, Json.readBack_obj, List.map_cons, List.map_nil,
    List.map_append, Json.map_fieldOf, Json.readBack_str, hactions]

theorem record?_toJson (r : TurnRecord) : r.toJson.record? fieldNames = some ⟨false, r.fields⟩ := by
  have hkeys : (r.fields.map Prod.fst).Sublist fieldNames := by
    rw [fields, List.map_append]
    exact (Json.keys_fieldOf_sublist _ _ _).append (List.Sublist.refl ["actions"])
  exact Json.record?_obj hkeys (by decide)

/-- A record is read back when its acts are. -/
theorem ofJson?_toJson (r : TurnRecord) :
    ofJson? r.toJson = (Json.list? Act.ofJson? (.ofList Act.toJson r.actions)).map
      fun actions => { r with actions } := by
  let f : Json.Record := ⟨false, r.fields⟩
  obtain ⟨hnode, hactions⟩ : f.get? "nodeId" = r.node.map .str ∧
      f.get? "actions" = some (.ofList Act.toJson r.actions) := by
    simp [f, fields, Json.Record.get?, List.lookup_append, Json.lookup_fieldOf,
      Dict.lookup_cons_eq]
  open Json.Record in
  rw [ofJson?, Json.bind_of_eq_some (record?_toJson r),
    Json.bind_of_eq_some (optionalOrAbsent_of_map_str hnode), withDefault_of_get? hactions]
  cases Json.list? Act.ofJson? (.ofList Act.toJson r.actions) <;> rfl

/-- **A record is read back** as far as its text can hold it. -/
theorem ofJson?_toJson_eq_some (h : ∀ a ∈ r.actions, ∀ v ∈ a.val, v.readable = true) :
    ofJson? r.toJson = some r.stored := by
  have hactions : Json.list? Act.ofJson? (.ofList Act.toJson r.actions) =
      some (r.actions.map Act.stored) :=
    Json.list?_map fun a ha => Act.ofJson?_toJson (h a ha)
  rw [ofJson?_toJson, hactions]
  rfl

theorem isSome_ofJson?_toJson_iff (r : TurnRecord) :
    (ofJson? r.toJson).isSome ↔ ∀ a ∈ r.actions, ∀ v ∈ a.val, v.readable = true := by
  rw [ofJson?_toJson, Option.isSome_map, Json.ofList, Json.isSome_list?_iff, List.forall_mem_map]
  exact forall₂_congr fun a _ => a.isSome_ofJson?_toJson_iff

theorem progressed_readBack (depth : Nat) (r : TurnRecord) (completed : String) :
    (r.readBack depth).stored.progressed completed = r.progressed completed := by
  rw [progressed, progressed, stored, readBack, List.map_map, List.any_map]
  exact congrArg r.actions.any (funext fun a => a.isProgress_readBack depth completed)

/-! ### Histories -/

/-- The values of the acts of a history. -/
def values (history : List TurnRecord) : List Json :=
  history.flatMap fun r => r.actions.filterMap Act.val

theorem forall_mem_values {P : Json → Prop} :
    (∀ v ∈ values history, P v) ↔ ∀ r ∈ history, ∀ a ∈ r.actions, ∀ v ∈ a.val, P v := by
  simp only [values, List.forall_mem_flatMap, List.forall_mem_filterMap, Option.mem_def]

/-- How deep the value of an act may be nested: around it lie the act, the acts of its record, the
record and the history. -/
def valueDepth : Nat := Json.nestingLimit - 4

theorem le_valueDepth_iff {n : Nat} : n ≤ valueDepth ↔ n + 4 ≤ Json.nestingLimit := by
  unfold valueDepth Json.nestingLimit
  omega

/-- What is read of the text of a history is what is read of its records. -/
theorem historyOfText?_historyText (history : List TurnRecord) :
    historyOfText? (historyText history) =
      Json.list? ofJson? (.ofList toJson (history.map (readBack valueDepth))) := by
  have hlimit : Json.nestingLimit = valueDepth + 3 + 1 := rfl
  have hrecords : (history.map fun r => r.toJson.readBack (valueDepth + 3)) =
      (history.map (readBack valueDepth)).map toJson := by
    rw [List.map_map]
    exact List.map_congr_left fun r _ => r.readBack_toJson valueDepth
  rw [historyOfText?, historyText, Json.ofDocument?_text_eq_readBack, Option.bind_some, hlimit,
    Json.readBack_ofList, hrecords, Json.ofList]

section Values

variable (hwritable : ∀ v ∈ values history, v.Writable)

include hwritable

/-- The values are read back readable just when they are not nested too deep. -/
theorem forall_readable_readBack_iff (depth : Nat) :
    (∀ r ∈ history, ∀ a ∈ (readBack depth r).actions, ∀ v ∈ a.val, v.readable = true) ↔
      ∀ v ∈ values history, v.nesting ≤ depth := by
  rw [forall_mem_values] at hwritable ⊢
  simp only [readBack, Act.readBack, List.forall_mem_map, Option.mem_map, forall_exists_index,
    and_imp, forall_apply_eq_imp_iff₂]
  refine forall₂_congr fun r hr => forall₂_congr fun a ha => forall₂_congr fun v hv => ?_
  exact Json.readable_readBack_iff (hwritable r hr a ha v hv)

/-- **The text of a history is read** just when no value is nested too deep for it. -/
theorem isSome_historyOfText?_iff :
    (historyOfText? (historyText history)).isSome ↔
      ∀ v ∈ values history, v.nesting + 4 ≤ Json.nestingLimit := by
  simp only [← le_valueDepth_iff, ← forall_readable_readBack_iff hwritable,
    historyOfText?_historyText, Json.ofList, Json.isSome_list?_iff, List.forall_mem_map,
    isSome_ofJson?_toJson_iff]

/-- **What is read of the text of a history:** record by record what a text can hold. -/
theorem historyOfText?_eq_some
    (hnesting : ∀ v ∈ values history, v.nesting + 4 ≤ Json.nestingLimit) :
    historyOfText? (historyText history) =
      some (history.map fun r => (r.readBack valueDepth).stored) := by
  simp only [← le_valueDepth_iff, ← forall_readable_readBack_iff hwritable] at hnesting
  rw [historyOfText?_historyText, Json.ofList, List.map_map]
  exact Json.list?_map fun r hr => ofJson?_toJson_eq_some (hnesting r hr)

end Values

end TurnRecord

namespace Quest

/-! ### Diagnoses -/

/-- **A diagnosis asks of a history only which turns were progress.** -/
theorem diagnose_congr {history history' : List TurnRecord} {c : Settings}
    (h : history'.map (·.progressed c.completedStatus) =
      history.map (·.progressed c.completedStatus)) (q : Quest) (s : State) :
    q.diagnose s history' c = q.diagnose s history c := by
  have hidle (turns : List TurnRecord) : idle turns c =
      let window := c.maxStuckTurns.toNat
      let progress := turns.map (·.progressed c.completedStatus)
      0 < window && window ≤ progress.length &&
        (progress.drop (progress.length - window)).all (! ·) := by
    simp [idle, lastTurns, ← List.map_drop, List.all_map, Function.comp_def]
  rw [diagnose, diagnose, stall?, stall?, hidle, hidle, h]

/-- **A diagnosis does not depend on whether the history was kept as a text.** The text is read, and
what is read is diagnosed as the history was, on every quest, in every state and with all
settings. -/
theorem diagnose_kept {history : List TurnRecord}
    (hwritable : ∀ v ∈ TurnRecord.values history, v.Writable)
    (hnesting : ∀ v ∈ TurnRecord.values history, v.nesting + 4 ≤ Json.nestingLimit) :
    ∃ history', TurnRecord.historyOfText? (TurnRecord.historyText history) = some history' ∧
      ∀ (q : Quest) (s : State) (c : Settings),
        q.diagnose s history' c = q.diagnose s history c := by
  have hread := TurnRecord.historyOfText?_eq_some hwritable hnesting
  refine ⟨_, hread, fun q s c => diagnose_congr ?_ q s⟩
  rw [List.map_map]
  exact List.map_congr_left fun r _ => r.progressed_readBack _ c.completedStatus

/-- Two turns at a market. A price is infinite and has a finite one beside it, a sign is null, a
note holds a bit of everything, and a lamp is lit. -/
def market : List TurnRecord :=
  [{ node := some "market"
     actions := [
      { Act.resource "gold" (.infinity true) with val := some (.int 1) },
      { Act.ofKind flagKind with key := some "sign", val := some .null },
      { Act.ofKind "NOTE" with
        val := some (.obj [("b", .arr [.null, .float .zero]), ("a", .bool true)]) }] },
    { node := none, actions := [{ Act.flag "lamp" true with delta := some .nan }] }]

/-- Not all acts of the market are read back with their effects: the price becomes finite. -/
example : (market.map fun r => (r.readBack TurnRecord.valueDepth).stored.actions.map Act.effect) ≠
    market.map fun r => r.actions.map Act.effect := by decide +kernel

theorem diagnose_kept_market :
    ((∀ v ∈ TurnRecord.values market, v.Writable) ∧
      ∀ v ∈ TurnRecord.values market, v.nesting + 4 ≤ Json.nestingLimit) ∧
    ∃ history', TurnRecord.historyOfText? (TurnRecord.historyText market) = some history' ∧
      ∀ (q : Quest) (s : State) (c : Settings),
        q.diagnose s history' c = q.diagnose s market c := by
  have hvalues : TurnRecord.values market = [.int 1, .null,
      .obj [("b", .arr [.null, .float .zero]), ("a", .bool true)], .bool true] := rfl
  have hzero : Binary64.zero.isFinite = true := by decide +kernel
  have hwritable : ∀ v ∈ TurnRecord.values market, v.Writable := by
    rw [hvalues]
    simp [Json.Writable, Json.leaves, Json.leavesFields, Json.leavesItems, Json.LeafInRange,
      Json.readable, hzero]
  have hnesting : ∀ v ∈ TurnRecord.values market, v.nesting + 4 ≤ Json.nestingLimit := by
    rw [hvalues]
    decide
  exact ⟨⟨hwritable, hnesting⟩, diagnose_kept hwritable hnesting⟩

end Quest

end Questline
