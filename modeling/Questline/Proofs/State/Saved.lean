import Questline.Document.Text
import Questline.Proofs.GameId
import Questline.Proofs.Json.Values

/-! # Saved states read back

A state is read back from its text just when all its levels are finite. A level that is infinite or
a `nan` is written as null, which is no number, and then nothing of the state is read.

That the numeral of a finite number is read as that number is assumed of the levels of the state:
it does not hold of every number.

* `State.ofJson?_toJson`: all but the levels is read back from the fields of any state.
* `State.printable_toJson`, `State.nesting_toJson_le`: the fields make up a document.
* `State.ofText?_text_eq_some_iff`, `State.ofText?_text_eq_none_iff`: what is read from the text. -/

namespace Questline

theorem GameId.ofJson?_toJson (id : GameId) : ofJson? id.toJson = some id := by
  rw [ofJson?, toJson, Json.string?, Option.bind_some, ofText?_text]

theorem ItemStack.ofJson?_toJson (stack : ItemStack) : ofJson? stack.toJson = some stack := by
  show (Json.int64? (.ofInt64 stack.qty)).bind (fun qty => some ⟨qty⟩) = some stack
  rw [Json.int64?_ofInt64, Option.bind_some]

namespace State

variable {s : State}

/-- **Every level is finite.** -/
def LevelsFinite (s : State) : Prop :=
  ∀ key level, s.resource? key = some level → level.isFinite = true

/-! ### Fields -/

theorem record?_toJson (s : State) : s.toJson.record? fieldNames = some ⟨false, s.fields⟩ :=
  Json.record?_obj (.refl fieldNames) (by decide)

/-- All but the levels is read back from the fields of any state. -/
theorem ofJson?_toJson (s : State) :
    ofJson? s.toJson = (Json.dict? Json.binary64? (.ofDict .ofBinary64 s.resources)).map
      fun resources => { s with resources } := by
  let r : Json.Record := ⟨false, s.fields⟩
  obtain ⟨hid, hcurrent, hvisited, hfailures, hretries, hflags, hobjectives, hresources,
      hrelationships, hinventory, hcurrency⟩ :
      r.get? "gameId" = some s.gameId.toJson ∧
      r.get? "currentNodeId" = some (.ofOption .str s.current) ∧
      r.get? "visited" = some (.ofStrings s.visited) ∧
      r.get? "failures" = some (.ofStrings s.failures) ∧
      r.get? "retries" = some (.int s.retries.toNat) ∧
      r.get? "flags" = some (.ofDict .bool s.flags) ∧
      r.get? "objectives" = some (.ofDict .str s.objectives) ∧
      r.get? "resources" = some (.ofDict .ofBinary64 s.resources) ∧
      r.get? "relationships" = some (.ofTable .ofInt64 s.relationships) ∧
      r.get? "inventory" = some (.ofTable ItemStack.toJson s.inventory) ∧
      r.get? "currency" = some (.ofTable .ofInt64 s.currency) := by
    simp [r, fields, Json.Record.get?, Dict.lookup_cons_eq]
  have hids : ∀ ids, Json.list? Json.string? (.ofStrings ids) = some ids :=
    fun ids => Json.list?_ofList fun _ _ => rfl
  have htruths : Json.dict? Json.bool? (.ofDict .bool s.flags) = some s.flags :=
    Json.dict?_ofDict fun _ _ => rfl
  have hstatus : Json.dict? Json.string? (.ofDict .str s.objectives) = some s.objectives :=
    Json.dict?_ofDict fun _ _ => rfl
  open Json Json.Record in
  rw [ofJson?, bind_of_eq_some (record?_toJson s),
    withDefault_of_get? hid, bind_of_eq_some (GameId.ofJson?_toJson s.gameId),
    bind_of_eq_some (optionalOrAbsent_string? hcurrent),
    withDefault_of_get? hvisited, bind_of_eq_some (hids s.visited),
    withDefault_of_get? hfailures, bind_of_eq_some (hids s.failures),
    withDefault_of_get? hretries, bind_of_eq_some (uint32?_toNat s.retries),
    withDefault_of_get? hflags, bind_of_eq_some htruths,
    withDefault_of_get? hobjectives, bind_of_eq_some hstatus, withDefault_of_get? hresources]
  cases Json.dict? Json.binary64? (.ofDict .ofBinary64 s.resources) with
  | none => rfl
  | some resources =>
    open Json Json.Record in
    rw [bind_of_eq_some rfl,
      withDefault_of_get? hrelationships,
      bind_of_eq_some (table?_ofTable int64?_ofInt64 s.relationships),
      withDefault_of_get? hinventory,
      bind_of_eq_some (table?_ofTable ItemStack.ofJson?_toJson s.inventory),
      withDefault_of_get? hcurrency, bind_of_eq_some (table?_ofTable int64?_ofInt64 s.currency)]
    rfl

/-- A level that is not finite keeps the levels from being read. -/
theorem dict?_resources (s : State) [Decidable s.LevelsFinite] :
    Json.dict? Json.binary64? (.ofDict .ofBinary64 s.resources) =
      if s.LevelsFinite then some s.resources else none := by
  have hread := Json.binary64?_ofBinary64
  split
  · rename_i hfinite
    refine Json.dict?_ofDict fun e he => ?_
    rw [hread, if_pos (hfinite e.1 e.2 (Dict.get?_eq_some_iff.mpr he))]
  · rename_i hnot
    have hbad : ∃ key level, s.resource? key = some level ∧ level.isFinite = false := by
      simpa [LevelsFinite] using hnot
    obtain ⟨key, level, hlevel, hbad⟩ := hbad
    refine Json.dict?_ofDict_eq_none ⟨(key, level), Dict.get?_eq_some_iff.mp hlevel, ?_⟩
    rw [hread, hbad]
    rfl

/-! ### Documents -/

theorem printable_toJson
    (hback : ∀ key level, s.resource? key = some level → level.isFinite = true →
      Json.ReadsBack level) : Json.Printable s.toJson := by
  have hids : ∀ ids, Json.Printable (.ofStrings ids) :=
    fun ids => Json.printable_ofList fun _ _ => trivial
  have hcurrent : Json.Printable (.ofOption .str s.current) := by
    cases s.current <;> trivial
  have hlevels : Json.Printable (.ofDict .ofBinary64 s.resources) :=
    Json.printable_ofDict fun e he =>
      Json.printable_ofBinary64 (hback e.1 e.2 (Dict.get?_eq_some_iff.mpr he))
  have hnumbers : ∀ t : Table Int64, Json.Printable (.ofTable .ofInt64 t) :=
    fun t => Json.printable_ofDict fun _ _ =>
      Json.printable_ofDict fun e _ => Json.printable_ofInt64 e.2
  have hstack : ∀ stack : ItemStack, Json.Printable stack.toJson :=
    fun stack => ⟨Json.printable_ofInt64 stack.qty, trivial⟩
  have hstacks : Json.Printable (.ofTable ItemStack.toJson s.inventory) :=
    Json.printable_ofDict fun _ _ => Json.printable_ofDict fun e _ => hstack e.2
  exact ⟨trivial, hcurrent, hids s.visited, hids s.failures, Json.printable_toNat s.retries,
    Json.printable_ofDict fun _ _ => trivial, Json.printable_ofDict fun _ _ => trivial, hlevels,
    hnumbers s.relationships, hstacks, hnumbers s.currency, trivial⟩

theorem nesting_toJson_le (s : State) : Json.nesting s.toJson ≤ 4 := by
  have hids : ∀ ids, Json.nesting (.ofStrings ids) ≤ 1 :=
    fun ids => Json.nesting_ofList_le fun _ _ => le_rfl
  have hcurrent : Json.nesting (.ofOption .str s.current) = 0 := by
    cases s.current <;> rfl
  have htruths : Json.nesting (.ofDict .bool s.flags) ≤ 1 :=
    Json.nesting_ofDict_le fun _ _ => le_rfl
  have hstatus : Json.nesting (.ofDict .str s.objectives) ≤ 1 :=
    Json.nesting_ofDict_le fun _ _ => le_rfl
  have hlevels : Json.nesting (.ofDict .ofBinary64 s.resources) ≤ 1 :=
    Json.nesting_ofDict_le fun e _ => (Json.nesting_ofBinary64 e.2).le
  have hnumbers : ∀ t : Table Int64, Json.nesting (.ofTable .ofInt64 t) ≤ 2 :=
    fun t => Json.nesting_ofDict_le fun _ _ => Json.nesting_ofDict_le fun _ _ => le_rfl
  have hstacks : Json.nesting (.ofTable ItemStack.toJson s.inventory) ≤ 3 :=
    Json.nesting_ofDict_le fun _ _ => Json.nesting_ofDict_le fun _ _ => le_rfl
  have hvisited := hids s.visited
  have hfailures := hids s.failures
  have hrelationships := hnumbers s.relationships
  have hcurrency := hnumbers s.currency
  simp only [toJson, fields, Json.nesting, Json.nestingFields, GameId.toJson]
  omega

/-! ### Texts -/

section Text

variable (hback : ∀ key level, s.resource? key = some level → level.isFinite = true →
  Json.ReadsBack level)

include hback

theorem ofText?_text [Decidable s.LevelsFinite] :
    ofText? s.text = if s.LevelsFinite then some s else none := by
  have hnesting : Json.nesting s.toJson ≤ Json.nestingLimit :=
    (nesting_toJson_le s).trans (by decide)
  rw [ofText?, text, Json.ofDocument?_text _ (printable_toJson hback) hnesting, Option.bind_some,
    ofJson?_toJson, dict?_resources]
  split <;> rfl

/-- **A state is read back from its text just when its levels are finite.** -/
theorem ofText?_text_eq_some_iff : ofText? s.text = some s ↔ s.LevelsFinite := by
  classical
  rw [ofText?_text hback]
  split <;> simp [*]

/-- **Else nothing is read.** -/
theorem ofText?_text_eq_none_iff : ofText? s.text = none ↔ ¬s.LevelsFinite := by
  classical
  rw [ofText?_text hback]
  split <;> simp [*]

end Text

end State

end Questline
