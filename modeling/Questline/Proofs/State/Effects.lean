import Questline.State.Basic

/-! # Effects on flags and objectives

A flag or an objective is altered by the one effect that sets it. What is seen of a state is tracked
when no effect alters it without counting as a change; flags and objectives are.

* `State.effect_of_flag_ne`, `State.effect_of_objective?_ne`: the effect that alters a flag, or an
  objective.
* `State.Tracked`: no effect alters the value silently. `State.tracked_flag`,
  `State.tracked_objective?`: it holds of flags and objectives. -/

namespace Questline

namespace State

variable {β : Type} {s : State} {e : Effect}

@[simp] theorem flag_apply_setFlag (s : State) (key : String) (value : Bool) :
    (s.apply (.setFlag key value)).flag key = value := by
  simp only [apply, withFlag, flag, Dict.get?_insert_self, Option.getD_some]

@[simp] theorem objective?_apply_setObjective (s : State) (id status : String) :
    (s.apply (.setObjective id status)).objective? id = some status := by
  simp only [apply, withObjective, objective?, Dict.get?_insert_self]

theorem changes_setFlag_iff {key : String} {value : Bool} :
    s.changes (.setFlag key value) = true ↔ s.flag key ≠ value := bne_iff_ne

theorem changes_setObjective_iff {id status : String} :
    s.changes (.setObjective id status) = true ↔ s.objective? id ≠ some status := bne_iff_ne

/-- A flag is altered by setting it, and by nothing else. -/
theorem effect_of_flag_ne {key : String} (h : (s.apply e).flag key ≠ s.flag key) :
    e = .setFlag key ((s.apply e).flag key) := by
  cases e with
  | setFlag k value =>
    by_cases hk : key = k
    · subst hk
      rw [flag_apply_setFlag]
    · refine absurd ?_ h
      simp only [apply, withFlag, flag, Dict.get?_insert_of_ne s.flags value hk]
  | _ => exact absurd rfl h

/-- An objective is altered by setting its status, and by nothing else. -/
theorem effect_of_objective?_ne {id : String}
    (h : (s.apply e).objective? id ≠ s.objective? id) :
    ∃ status, (s.apply e).objective? id = some status ∧ e = .setObjective id status := by
  cases e with
  | setObjective i status =>
    by_cases hi : id = i
    · subst hi
      exact ⟨status, objective?_apply_setObjective s id status, rfl⟩
    · refine absurd ?_ h
      simp only [apply, withObjective, objective?, Dict.get?_insert_of_ne s.objectives status hi]
  | _ => exact absurd rfl h

/-- **Tracked:** an effect that alters the value counts as a change. -/
def Tracked (f : State → β) : Prop := ∀ s e, f (s.apply e) ≠ f s → s.changes e = true

theorem tracked_flag (key : String) : Tracked fun s => s.flag key := by
  intro s e h
  rw [effect_of_flag_ne h, changes_setFlag_iff]
  exact h.symm

theorem tracked_objective? (id : String) : Tracked fun s => s.objective? id := by
  intro s e h
  obtain ⟨status, hstatus, rfl⟩ := effect_of_objective?_ne h
  rw [changes_setObjective_iff, ← hstatus]
  exact h.symm

end State

end Questline
