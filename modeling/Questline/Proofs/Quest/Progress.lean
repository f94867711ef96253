import Questline.Proofs.Quest.Effective
import Questline.Proofs.Quest.Selection

/-! # Progress

A turn moves the story on when one of the acts on its record is progress. The record holds the acts
that changed the state they were applied to, and the templates of a branch can overwrite each other.
So a turn that gains a flag or an objective is always recorded as progress, and a turn that is
recorded as progress gains one unless its record also holds the opposite write.

* `State.Gains`: between two states a flag was raised or an objective completed.
* `Effect.Opposed`: progress and its opposite in one list of effects.
* `Quest.exists_applyAll_play`: a turn applies acts and records the effective ones.
* `Quest.progressed_of_gains`: a turn that gains is recorded as progress.
* `Quest.progressed_iff`: a turn is recorded as progress just when it gains or its record opposes
  itself. It may do so without a gain: `Quest.progress_without_gain`. -/

namespace Questline

/-- **A gain between two states:** a flag is raised that was not, or an objective reaches the
completed status that did not have it. -/
def State.Gains (completed : String) (s s' : State) : Prop :=
  (∃ key, s.flag key = false ∧ s'.flag key = true) ∨
    ∃ id, s.objective? id ≠ some completed ∧ s'.objective? id = some completed

namespace Effect

/-- **Progress beside its opposite:** one flag is raised and lowered, or one objective gets the
completed status and another one. -/
def Opposed (completed : String) (effects : List Effect) : Prop :=
  (∃ key, .setFlag key true ∈ effects ∧ .setFlag key false ∈ effects) ∨
    ∃ id status, status ≠ completed ∧ .setObjective id completed ∈ effects ∧
      .setObjective id status ∈ effects

theorem isProgress_iff {completed : String} {e : Effect} :
    e.isProgress completed = true ↔
      (∃ key, e = .setFlag key true) ∨ ∃ id, e = .setObjective id completed := by
  cases e <;> simp [isProgress]

end Effect

/-! ### The acts of a turn -/

section Acts

variable {s : State} {acts : List Act} {completed : String}

theorem exists_progress_of_gains (h : State.Gains completed s (applyAll s acts).1) :
    ∃ a ∈ (applyAll s acts).2, a.effect.isProgress completed = true := by
  rcases h with ⟨key, hbefore, hafter⟩ | ⟨id, hbefore, hafter⟩
  · have hne : (applyAll s acts).1.flag key ≠ s.flag key := by rw [hbefore, hafter]; decide
    obtain ⟨a, ha, m, hlast, hm⟩ := exists_effective_of_ne (State.tracked_flag key) hne
    have heffect := State.effect_of_flag_ne hm
    rw [hlast, hafter] at heffect
    exact ⟨a, ha, Effect.isProgress_iff.mpr (.inl ⟨key, heffect⟩)⟩
  · have hne : (applyAll s acts).1.objective? id ≠ s.objective? id := by
      rw [hafter]
      exact hbefore.symm
    obtain ⟨a, ha, m, hlast, hm⟩ := exists_effective_of_ne (State.tracked_objective? id) hne
    obtain ⟨status, hstatus, heffect⟩ := State.effect_of_objective?_ne hm
    obtain rfl : status = completed :=
      Option.some.inj (hstatus.symm.trans (hlast.trans hafter))
    exact ⟨a, ha, Effect.isProgress_iff.mpr (.inr ⟨id, heffect⟩)⟩

theorem gains_or_opposed {a : Act} (ha : a ∈ (applyAll s acts).2)
    (hprogress : a.effect.isProgress completed = true) :
    State.Gains completed s (applyAll s acts).1 ∨
      Effect.Opposed completed ((applyAll s acts).2.map Act.effect) := by
  have hmem : a.effect ∈ (applyAll s acts).2.map Act.effect := List.mem_map_of_mem ha
  rcases Effect.isProgress_iff.mp hprogress with ⟨key, heffect⟩ | ⟨id, heffect⟩
  · have hkept := stays_or_overwritten (State.tracked_flag key) (v := true) ha
      (fun m hm => State.changes_setFlag_iff.mp (heffect ▸ hm))
      (fun m => by rw [heffect, State.flag_apply_setFlag])
    rcases hkept with ⟨hbefore, hafter⟩ | ⟨b, hb, m, hlow, hne⟩
    · exact .inl (.inl ⟨key, Bool.eq_false_iff.mpr hbefore, hafter⟩)
    · have hlowered := State.effect_of_flag_ne hne
      rw [Bool.eq_false_iff.mpr hlow] at hlowered
      exact .inr (.inl ⟨key, heffect ▸ hmem, hlowered ▸ List.mem_map_of_mem hb⟩)
  · have hkept := stays_or_overwritten (State.tracked_objective? id) (v := some completed) ha
      (fun m hm => State.changes_setObjective_iff.mp (heffect ▸ hm))
      (fun m => by rw [heffect, State.objective?_apply_setObjective])
    rcases hkept with ⟨hbefore, hafter⟩ | ⟨b, hb, m, hother, hne⟩
    · exact .inl (.inr ⟨id, hbefore, hafter⟩)
    · obtain ⟨status, hstatus, hwritten⟩ := State.effect_of_objective?_ne hne
      have hstatus_ne : status ≠ completed := fun h => hother (h ▸ hstatus)
      exact .inr (.inr ⟨id, status, hstatus_ne, heffect ▸ hmem,
        hwritten ▸ List.mem_map_of_mem hb⟩)

end Acts

namespace Quest

variable {q : Quest} {s : State} {acts : List Act} {completed : String}

/-- **A turn applies acts** to the state and keeps the books, and its record holds those of the acts
that were effective. At a dead end there are none. -/
theorem exists_applyAll_play (q : Quest) (s : State) (acts : List Act) :
    ∃ templates current visited failures retries,
      (q.play s acts).state =
        { (applyAll s templates).1 with current, visited, failures, retries } ∧
      (q.play s acts).record.actions = (applyAll s templates).2 := by
  cases hactive : q.active? s with
  | none =>
    rw [play_of_active?_eq_none hactive]
    exact ⟨[], _, _, _, _, rfl, rfl⟩
  | some n =>
    obtain ⟨place, _, _, _, hsettle, -⟩ :=
      settle_cases q (n.outcome acts s).branch (n.outcome acts s).state n.id
    rw [play_of_active? hactive, hsettle]
    exact ⟨n.templates (n.branch? acts), _, _, _, _, rfl, rfl⟩

/-- **A turn that gains is recorded as progress.** -/
theorem progressed_of_gains (h : State.Gains completed s (q.play s acts).state) :
    (q.play s acts).record.progressed completed = true := by
  obtain ⟨templates, _, _, _, _, hstate, hrecord⟩ := exists_applyAll_play q s acts
  rw [hstate] at h
  rw [TurnRecord.progressed, hrecord, List.any_eq_true]
  exact exists_progress_of_gains h

/-- **A turn is recorded as progress just when it gains or its record opposes itself.** -/
theorem progressed_iff (q : Quest) (s : State) (acts : List Act) (completed : String) :
    (q.play s acts).record.progressed completed = true ↔
      State.Gains completed s (q.play s acts).state ∨
        Effect.Opposed completed ((q.play s acts).record.actions.map Act.effect) := by
  constructor
  · intro h
    obtain ⟨a, ha, hprogress⟩ := List.any_eq_true.mp h
    obtain ⟨templates, _, _, _, _, hstate, hrecord⟩ := exists_applyAll_play q s acts
    rw [hrecord] at ha ⊢
    rw [hstate]
    exact gains_or_opposed ha hprogress
  · rintro (hgains | ⟨key, hraised, -⟩ | ⟨id, -, -, hcompleted, -⟩)
    · exact progressed_of_gains hgains
    · obtain ⟨a, ha, heffect⟩ := List.mem_map.mp hraised
      exact List.any_eq_true.mpr ⟨a, ha, Effect.isProgress_iff.mpr (.inl ⟨key, heffect⟩)⟩
    · obtain ⟨a, ha, heffect⟩ := List.mem_map.mp hcompleted
      exact List.any_eq_true.mpr ⟨a, ha, Effect.isProgress_iff.mpr (.inr ⟨id, heffect⟩)⟩

/-- A torch that flares up and dies: its templates raise a flag and lower it again. -/
def flare : Quest where
  id := "cave"
  start := "torch"
  nodes := [
    { id := "torch", kind := .beat, synopsis := "Light the torch.", enterIf := []
      onSuccess := [.flag "torch.lit" true, .flag "torch.lit" false], onFail := [], hint := none }]
  edges := []

/-- The turn on the torch is progress, and no flag is raised and no objective completed by it. -/
theorem progress_without_gain :
    ¬ ∀ (q : Quest) (s : State) (acts : List Act) (completed : String),
      (q.play s acts).record.progressed completed = true →
        State.Gains completed s (q.play s acts).state := by
  intro h
  have hflags : (flare.play (.fresh .nil "torch") [.ofKind flagKind]).state.flags =
      Dict.empty.insert "torch.lit" false := by decide +kernel
  have hobjectives : (flare.play (.fresh .nil "torch") [.ofKind flagKind]).state.objectives =
      Dict.empty := by decide +kernel
  rcases h flare (.fresh .nil "torch") [.ofKind flagKind] "complete" (by decide +kernel) with
    ⟨key, -, hraised⟩ | ⟨id, -, hcompleted⟩
  · rw [State.flag, hflags, Dict.get?_insert] at hraised
    split at hraised <;> cases hraised
  · rw [State.objective?, hobjectives] at hcompleted
    cases hcompleted

end Quest

end Questline
