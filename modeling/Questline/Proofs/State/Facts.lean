import Mathlib.Tactic.SplitIfs
import Questline.Proofs.Guard.Path
import Questline.Proofs.Guard.Reading
import Questline.State.Basic

/-! # What a state shows to guards

The free scalars that guards read of a state, one key at a time, and the frame of its position: the
current node shows in one path only.

* `State.find?_scalarTable`, `State.get?_progressFacts`: the scalar at a pair of keys.
* `State.agrees_of_current`: two states that differ only in the current node show the same in every
  reading but `State.positionPath`. -/

namespace Questline

namespace State

/-- The path that shows where a game stands. -/
def positionPath : String := "state.progress.currentNodeId"

theorem segments_positionPath : segments positionPath = ["state", "progress", "currentNodeId"] := by
  decide

theorem get?_progressFacts (s : State) (key : String) :
    s.progressFacts.get? key =
      if key = "currentNodeId" then s.current.map .text
      else if key = "retries" then some (.int (Int64.ofNat s.retries.toNat))
      else none := by
  unfold progressFacts
  cases s.current with
  | none =>
    by_cases hk : key = "currentNodeId"
    · subst hk; rfl
    · simp [Dict.get?_insert, hk]
  | some id => simp [Dict.get?_insert]

theorem find?_scalarTable (s : State) (space key : String) :
    s.scalarTable.find? space key =
      if space = "progress" then s.progressFacts.get? key
      else if space = "resources" then (s.resources.get? key).map .float
      else if space = "objectives" then (s.objectives.get? key).map .text
      else none := by
  unfold scalarTable Table.find?
  simp only [Dict.get?_insert, Dict.get?_empty]
  split_ifs <;> simp

/-- A scalar is the same in two states if the entry of its space is. -/
theorem find?_scalarTable_congr {s s' : State} {space key : String}
    (hprogress : space = "progress" → s.progressFacts.get? key = s'.progressFacts.get? key)
    (hresources : space = "resources" → s.resources.get? key = s'.resources.get? key)
    (hobjectives : space = "objectives" → s.objectives.get? key = s'.objectives.get? key) :
    s.scalarTable.find? space key = s'.scalarTable.find? space key := by
  rw [find?_scalarTable, find?_scalarTable]
  split_ifs with h h h
  · exact hprogress h
  · rw [hresources h]
  · rw [hobjectives h]
  · rfl

theorem resolve_of_current (s : State) (c c' : Option String) {path : String}
    (h : path ≠ positionPath) :
    { s with current := c }.facts.resolve path = { s with current := c' }.facts.resolve path := by
  refine Facts.resolve_congr rfl rfl rfl (fun _ _ _ => rfl) fun space key hpath => ?_
  refine find?_scalarTable_congr (fun hspace => ?_) (fun _ => rfl) (fun _ => rfl)
  have hkey : key ≠ "currentNodeId" := by
    rintro rfl
    subst hspace
    exact h (segments_injective (hpath.trans segments_positionPath.symm))
  rw [get?_progressFacts, get?_progressFacts, if_neg hkey, if_neg hkey]

/-- **Only one path shows the current node.** -/
theorem agrees_of_current (s : State) (c c' : Option String) {r : Reading}
    (h : r ≠ .path positionPath) :
    r.Agrees { s with current := c }.facts { s with current := c' }.facts := by
  cases r with
  | path p => exact resolve_of_current s c c' fun hp => h (congrArg Reading.path hp)
  | flag space name => rfl

end State

end Questline
