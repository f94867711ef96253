import Questline.Proofs.Quest.Move
import Questline.Proofs.Quest.Progress
import Questline.Proofs.Quest.Run
import Questline.Quest.Stall

/-! # The alarm for no progress

The first reason for which a game counts as stuck is that no turn of a full window is recorded as
progress. A turn that gains is recorded as progress, so over the turns of such a window no flag was
raised and no objective completed: the alarm is never false.

* `Quest.idle_iff`, `Quest.stall?_eq_noProgress_iff`: when the alarm is raised.
* `Quest.mem_lastTurns`: the places of the last turns. `Quest.idle_append_of_le`: older turns are
  not looked at.
* `Quest.not_gains_of_noProgress`: in a run that ends with the alarm no turn of the window
  gained. -/

namespace Questline

namespace Quest

variable {q : Quest} {s : State} {history : List TurnRecord} {c : Settings}

theorem idle_iff :
    idle history c = true ↔
      0 < c.maxStuckTurns.toNat ∧ c.maxStuckTurns.toNat ≤ history.length ∧
        ∀ r ∈ lastTurns history c.maxStuckTurns.toNat,
          r.progressed c.completedStatus = false := by
  simp only [idle, Bool.and_eq_true, decide_eq_true_eq, List.all_eq_true, Bool.not_eq_true',
    and_assoc]

/-- The alarm for no progress is the first, and no other check raises it. -/
theorem stall?_eq_noProgress_iff :
    q.stall? s history c = some .noProgress ↔ idle history c = true := by
  unfold stall?
  constructor
  · intro h
    by_contra hidle
    rw [if_neg hidle] at h
    split at h
    · cases h
    · split_ifs at h <;> cases h
  · intro h
    rw [if_pos h]

theorem reason_diagnose (q : Quest) (s : State) (history : List TurnRecord) (c : Settings) :
    (q.diagnose s history c).reason = q.stall? s history c := by
  unfold diagnose
  cases q.stall? s history c with
  | none => rfl
  | some reason => rfl

theorem stuck_diagnose_iff :
    (q.diagnose s history c).stuck = true ↔ (q.diagnose s history c).reason ≠ none := by
  unfold diagnose
  cases q.stall? s history c with
  | none => simp [Diagnosis.ofReason]
  | some reason => simp [Diagnosis.ofReason]

theorem mem_lastTurns {r : TurnRecord} {count i : Nat} (hr : history[i]? = some r)
    (hlast : history.length ≤ i + count) : r ∈ lastTurns history count := by
  obtain ⟨hi, rfl⟩ := List.getElem?_eq_some_iff.mp hr
  rw [lastTurns, List.mem_drop_iff_getElem]
  refine ⟨i - (history.length - count), by omega, ?_⟩
  congr 1
  omega

theorem length_lastTurns {count : Nat} (h : count ≤ history.length) :
    (lastTurns history count).length = count := by
  rw [lastTurns, List.length_drop, Nat.sub_sub_self h]

/-- Turns before the window are not looked at. -/
theorem idle_append_of_le {older recent : List TurnRecord}
    (h : c.maxStuckTurns.toNat ≤ recent.length) :
    idle (older ++ recent) c = idle recent c := by
  have hplace : older.length + recent.length - c.maxStuckTurns.toNat =
      older.length + (recent.length - c.maxStuckTurns.toNat) := by omega
  have hturns : lastTurns (older ++ recent) c.maxStuckTurns.toNat =
      lastTurns recent c.maxStuckTurns.toNat := by
    rw [lastTurns, lastTurns, List.length_append, hplace, List.drop_length_add_append]
  rw [Bool.eq_iff_iff, idle_iff, idle_iff, hturns, List.length_append]
  exact and_congr_right fun _ => and_congr_left fun _ => ⟨fun _ => h, fun _ => by omega⟩

/-- **The alarm is never false.** When a run ends with the alarm for no progress, none of the last
turns, as many as the window has, raised a flag or completed an objective. -/
theorem not_gains_of_noProgress {actLists : List (List Act)}
    (halarm : (q.diagnose (q.stateAfter s actLists) (q.historyOf s actLists) c).reason =
      some .noProgress)
    {i : Nat} (hi : i < actLists.length)
    (hlast : actLists.length ≤ i + c.maxStuckTurns.toNat) :
    ¬ State.Gains c.completedStatus (q.stateAfter s (actLists.take i))
      (q.stateAfter s (actLists.take (i + 1))) := by
  intro hgains
  rw [reason_diagnose, stall?_eq_noProgress_iff, idle_iff] at halarm
  obtain ⟨-, -, hidle⟩ := halarm
  have hmem : (q.play (q.stateAfter s (actLists.take i)) actLists[i]).record ∈
      lastTurns (q.historyOf s actLists) c.maxStuckTurns.toNat :=
    mem_lastTurns (getElem?_historyOf q s hi) (by rwa [length_historyOf])
  rw [stateAfter_take_succ q s hi] at hgains
  have hprogress := progressed_of_gains hgains
  rw [hidle _ hmem] at hprogress
  cases hprogress

/-- After the crossing two turns in which the river is only looked at: with a window of two the
alarm is raised, and the first of them gained nothing. -/
theorem not_gains_after_crossing :
    let q := twoBanks []
    let s := State.fresh .nil "near"
    let c := { Settings.standard with maxStuckTurns := 2 }
    let actLists := [[Act.objective "cross" "complete"], [.ofKind "LOOK"], []]
    ((q.diagnose (q.stateAfter s actLists) (q.historyOf s actLists) c).reason =
        some .noProgress ∧
      1 < actLists.length ∧ actLists.length ≤ 1 + c.maxStuckTurns.toNat) ∧
    ¬ State.Gains c.completedStatus (q.stateAfter s (actLists.take 1))
      (q.stateAfter s (actLists.take 2)) := by
  intro q s c actLists
  have halarm : (q.diagnose (q.stateAfter s actLists) (q.historyOf s actLists) c).reason =
      some .noProgress := by decide +kernel
  have hi : 1 < actLists.length := by decide
  have hlast : actLists.length ≤ 1 + c.maxStuckTurns.toNat := by decide
  exact ⟨⟨halarm, hi, hlast⟩, not_gains_of_noProgress halarm hi hlast⟩

end Quest

end Questline
