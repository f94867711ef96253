import Mathlib.Data.List.DropRight
import Mathlib.Data.Nat.PSub
import Mathlib.Order.Bounds.Basic
import Questline.Proofs.Quest.Position
import Questline.Proofs.Quest.Stall

/-! # The diagnosis

Four reasons for which a game counts as stuck are tried in order, and the first that applies is
given. The first of them asks for a window of turns without progress at the end of the history. The
idle turns there fill the window or they do not, so of a history only their number counts. The
window is cut out by a difference and a place, and neither is ever out of range.

* `Quest.idleTurns`, `Quest.isGreatest_idleTurns`: the idle turns at the end of a history.
  `Quest.idle_iff_fillsWindow`: when they fill the window.
* `Quest.idle?`: the first rule with its ranges checked. `Quest.idle?_eq_some`: no check fails.
* `Quest.FirstReason`: the order of the reasons. `Quest.diagnosis_by_priority`: the diagnosis gives
  the first one. -/

namespace Questline

namespace Quest

variable {q : Quest} {s : State} {history : List TurnRecord} {c : Settings} {completed : String}

/-! ### Idle turns -/

/-- **So many idle turns fill the window** of the settings, which is not empty. -/
def FillsWindow (idleCount : Nat) (c : Settings) : Prop :=
  0 < c.maxStuckTurns.toNat ∧ c.maxStuckTurns.toNat ≤ idleCount

/-- How many turns at the end of a history made no progress. -/
def idleTurns (history : List TurnRecord) (completed : String) : Nat :=
  (history.rtakeWhile fun r => !r.progressed completed).length

/-- Turns without progress at the end of a history are among the idle ones there. -/
theorem length_le_idleTurns {recent : List TurnRecord} (hsuffix : recent <:+ history)
    (hidle : ∀ r ∈ recent, r.progressed completed = false) :
    recent.length ≤ idleTurns history completed := by
  obtain ⟨older, rfl⟩ := hsuffix
  have hall : ∀ r ∈ recent.reverse, (!r.progressed completed) = true := fun r hr => by
    rw [hidle r (List.mem_reverse.mp hr), Bool.not_false]
  rw [idleTurns, List.rtakeWhile, List.length_reverse, List.reverse_append,
    List.takeWhile_append_of_pos hall, List.length_append, List.length_reverse]
  exact Nat.le_add_right _ _

theorem idle_of_mem_rtakeWhile {r : TurnRecord}
    (hr : r ∈ history.rtakeWhile fun r => !r.progressed completed) :
    r.progressed completed = false := by
  simpa using List.mem_rtakeWhile_imp hr

/-- **The idle turns are the longest end** of the history without progress. -/
theorem isGreatest_idleTurns (history : List TurnRecord) (completed : String) :
    IsGreatest {n | ∃ recent, recent <:+ history ∧ recent.length = n ∧
      ∀ r ∈ recent, r.progressed completed = false} (idleTurns history completed) := by
  constructor
  · exact ⟨_, List.rtakeWhile_suffix _ history, rfl, fun r hr => idle_of_mem_rtakeWhile hr⟩
  · rintro n ⟨recent, hsuffix, rfl, hidle⟩
    exact length_le_idleTurns hsuffix hidle

theorem lastTurns_suffix (history : List TurnRecord) (count : Nat) :
    lastTurns history count <:+ history :=
  List.drop_suffix _ history

/-- **The first rule applies** just when the idle turns fill the window. -/
theorem idle_iff_fillsWindow :
    idle history c = true ↔ FillsWindow (idleTurns history c.completedStatus) c := by
  rw [idle_iff, FillsWindow]
  refine and_congr_right fun _ => ?_
  have hidleEnd := List.rtakeWhile_suffix (fun r => !r.progressed c.completedStatus) history
  constructor
  · rintro ⟨hlength, hidle⟩
    have hle := length_le_idleTurns (lastTurns_suffix history _) hidle
    rwa [length_lastTurns hlength] at hle
  · intro hle
    have hlength : c.maxStuckTurns.toNat ≤ history.length := hle.trans hidleEnd.length_le
    refine ⟨hlength, fun r hr => ?_⟩
    -- both are ends of the history, and the window is the shorter one
    have hwindow : lastTurns history c.maxStuckTurns.toNat <:+
        history.rtakeWhile fun r => !r.progressed c.completedStatus := by
      refine List.suffix_of_suffix_length_le (lastTurns_suffix history _) hidleEnd ?_
      rwa [length_lastTurns hlength]
    exact idle_of_mem_rtakeWhile (hwindow.subset hr)

/-! ### Ranges -/

/-- The turns from a place on. There are none at a place behind the end. -/
def turnsFrom? (history : List TurnRecord) (start : Nat) : Option (List TurnRecord) :=
  if start ≤ history.length then some (history.drop start) else none

/-- The first rule with its ranges checked: the length less the window must be a number, and a place
of the history. -/
def idle? (history : List TurnRecord) (c : Settings) : Option Bool :=
  let window := c.maxStuckTurns.toNat
  if 0 < window ∧ window ≤ history.length then do
    let start ← Nat.psub history.length window
    let recent ← turnsFrom? history start
    return !recent.any fun r => r.progressed c.completedStatus
  else
    return false

/-- **The window is never out of range**, however large it is. -/
theorem idle?_eq_some (history : List TurnRecord) (c : Settings) :
    idle? history c = some (idle history c) := by
  unfold idle?
  simp only
  split_ifs with hwindow
  · have hstart := Nat.psub_eq_sub hwindow.2
    have hturns : turnsFrom? history (history.length - c.maxStuckTurns.toNat) =
        some (lastTurns history c.maxStuckTurns.toNat) := if_pos (Nat.sub_le _ _)
    simp only [hstart, hturns, Option.bind_eq_bind, Option.bind_some, Option.pure_def]
    rw [idle, decide_eq_true hwindow.1, decide_eq_true hwindow.2, List.not_any_eq_all_not]
    rfl
  · have hidle : ¬ idle history c = true := fun h =>
      hwindow ⟨(idle_iff.mp h).1, (idle_iff.mp h).2.1⟩
    rw [Bool.eq_false_iff.mpr hidle]
    rfl

/-! ### The order of the reasons -/

/-- **The game stands on a closed node** with an id: it is the current one, and the first node with
it has a guard that fails. -/
def ClosedAt (q : Quest) (s : State) (id : String) : Prop :=
  s.current = some id ∧ ∃ n, q.FirstNamed id n ∧ ¬ n.OpenIn s

/-- The critical resources that the state knows with a level of zero or less, in order. -/
def usedUp (s : State) (c : Settings) : List String :=
  c.criticalResources.filter fun key => ∃ level ∈ s.resource? key, level.le .zero = true

/-- **The first reason that applies**, or none, after so many idle turns. -/
inductive FirstReason (q : Quest) (s : State) (idleCount : Nat) (c : Settings) :
    Option Stall → Prop where
  | noProgress (hidle : FillsWindow idleCount c) : FirstReason q s idleCount c (some .noProgress)
  | preconditionsNotMet {id : String} (hidle : ¬ FillsWindow idleCount c)
      (hclosed : q.ClosedAt s id) : FirstReason q s idleCount c (some (.preconditionsNotMet id))
  | resourcesDepleted (hidle : ¬ FillsWindow idleCount c) (hopen : ∀ id, ¬ q.ClosedAt s id)
      (hused : usedUp s c ≠ []) :
      FirstReason q s idleCount c (some (.resourcesDepleted (usedUp s c)))
  | maxRetriesExceeded (hidle : ¬ FillsWindow idleCount c) (hopen : ∀ id, ¬ q.ClosedAt s id)
      (hused : usedUp s c = []) (hretries : c.maxRetries ≤ s.retries) :
      FirstReason q s idleCount c (some (.maxRetriesExceeded s.retries))
  | none (hidle : ¬ FillsWindow idleCount c) (hopen : ∀ id, ¬ q.ClosedAt s id)
      (hused : usedUp s c = []) (hretries : ¬ c.maxRetries ≤ s.retries) :
      FirstReason q s idleCount c none

theorem closedAt_iff {id : String} :
    q.ClosedAt s id ↔ ∃ n, q.closedNode? s = some n ∧ n.id = id := by
  simp only [closedNode?, Option.filter_eq_some_iff, currentNode?_eq_some_iff,
    Bool.not_eq_true', ← Bool.not_eq_true, Node.enterable_iff]
  constructor
  · rintro ⟨hcurrent, n, hfirst, hclosed⟩
    exact ⟨n, ⟨⟨id, hcurrent, hfirst⟩, hclosed⟩, hfirst.1⟩
  · rintro ⟨n, ⟨⟨id', hcurrent, hfirst⟩, hclosed⟩, hid⟩
    obtain rfl : id' = id := hfirst.1.symm.trans hid
    exact ⟨hcurrent, n, hfirst, hclosed⟩

theorem closedNode?_eq_none_iff : q.closedNode? s = none ↔ ∀ id, ¬ q.ClosedAt s id := by
  rw [Option.eq_none_iff_forall_ne_some]
  constructor
  · intro hnone id hclosed
    obtain ⟨n, hn, -⟩ := closedAt_iff.mp hclosed
    exact hnone n hn
  · intro hopen n hn
    exact hopen n.id (closedAt_iff.mpr ⟨n, hn, rfl⟩)

theorem depleted_eq_usedUp (s : State) (c : Settings) : depleted s c = usedUp s c := by
  refine List.filter_congr fun key _ => ?_
  cases s.resource? key with
  | none => simp
  | some level => simp

/-- The reason that is found is the first one. -/
theorem firstReason_stall? (q : Quest) (s : State) (history : List TurnRecord) (c : Settings) :
    q.FirstReason s (idleTurns history c.completedStatus) c (q.stall? s history c) := by
  by_cases hidle : idle history c = true
  · rw [stall?, if_pos hidle]
    exact .noProgress (idle_iff_fillsWindow.mp hidle)
  · rw [stall?, if_neg hidle, depleted_eq_usedUp]
    rw [idle_iff_fillsWindow] at hidle
    cases hnode : q.closedNode? s with
    | some n => exact .preconditionsNotMet hidle (closedAt_iff.mpr ⟨n, hnode, rfl⟩)
    | none =>
      have hopen := closedNode?_eq_none_iff.mp hnode
      simp only
      split_ifs with hused hretries
      · exact .resourcesDepleted hidle hopen hused
      · exact .maxRetriesExceeded hidle hopen (not_not.mp hused) hretries
      · exact .none hidle hopen (not_not.mp hused) hretries

/-- **The reason that is found is the first one, and no other is.** -/
theorem stall?_eq_iff {reason : Option Stall} :
    q.stall? s history c = reason ↔
      q.FirstReason s (idleTurns history c.completedStatus) c reason := by
  constructor
  · rintro rfl
    exact firstReason_stall? q s history c
  · intro h
    rw [stall?, depleted_eq_usedUp]
    cases h with
    | noProgress hidle => rw [if_pos (idle_iff_fillsWindow.mpr hidle)]
    | preconditionsNotMet hidle hclosed =>
      obtain ⟨n, hnode, rfl⟩ := closedAt_iff.mp hclosed
      rw [if_neg (mt idle_iff_fillsWindow.mp hidle), hnode]
    | resourcesDepleted hidle hopen hused =>
      rw [if_neg (mt idle_iff_fillsWindow.mp hidle), closedNode?_eq_none_iff.mpr hopen]
      exact if_pos hused
    | maxRetriesExceeded hidle hopen hused hretries =>
      rw [if_neg (mt idle_iff_fillsWindow.mp hidle), closedNode?_eq_none_iff.mpr hopen]
      simp only [hused, ne_eq, not_true_eq_false, if_false, if_pos hretries]
    | none hidle hopen hused hretries =>
      rw [if_neg (mt idle_iff_fillsWindow.mp hidle), closedNode?_eq_none_iff.mpr hopen]
      simp only [hused, ne_eq, not_true_eq_false, if_false, if_neg hretries]

/-- A diagnosis is that of a reason just when it was found. -/
theorem diagnose_eq_ofReason_iff {reason : Option Stall} :
    q.diagnose s history c = .ofReason reason ↔ q.stall? s history c = reason := by
  constructor
  · intro h
    have hreason := congrArg Diagnosis.reason h
    rw [reason_diagnose] at hreason
    rw [hreason]
    cases reason <;> rfl
  · rintro rfl
    rfl

/-- **The diagnosis gives the first reason that applies**, with its advice. Let `k` be the length of
the longest end of the history without progress. The diagnosis says stuck for a reason just when
that is the first one after `k` idle turns, and not stuck, without advice, just when there is none.
The window is never out of range, and turns before it are not looked at. -/
theorem diagnosis_by_priority (q : Quest) (s : State) (history : List TurnRecord) (c : Settings) :
    ∃ k, IsGreatest {n | ∃ recent, recent <:+ history ∧ recent.length = n ∧
        ∀ r ∈ recent, r.progressed c.completedStatus = false} k ∧
      (∀ reason, q.diagnose s history c = ⟨true, some reason, reason.advice⟩ ↔
        q.FirstReason s k c (some reason)) ∧
      (q.diagnose s history c = ⟨false, none, []⟩ ↔ q.FirstReason s k c none) ∧
      idle? history c = some (idle history c) ∧
      ∀ older recent, history = older ++ recent → c.maxStuckTurns.toNat ≤ recent.length →
        q.diagnose s history c = q.diagnose s recent c := by
  refine ⟨_, isGreatest_idleTurns history c.completedStatus, fun reason => ?_, ?_,
    idle?_eq_some history c, ?_⟩
  · rw [← stall?_eq_iff, ← diagnose_eq_ofReason_iff, Diagnosis.ofReason]
  · rw [← stall?_eq_iff, ← diagnose_eq_ofReason_iff, Diagnosis.ofReason]
  · rintro older recent rfl hwindow
    rw [diagnose, diagnose, stall?, stall?, idle_append_of_le hwindow]

/-- A crossing before five idle turns is not looked at, as the window has five turns. -/
theorem diagnosis_by_priority_after_crossing :
    let q := twoBanks []
    let s := State.fresh .nil "far"
    let older : List TurnRecord := [⟨some "near", [.objective "cross" "complete"]⟩]
    let recent : List TurnRecord := List.replicate 5 ⟨some "far", []⟩
    Settings.standard.maxStuckTurns.toNat ≤ recent.length ∧
      q.diagnose s (older ++ recent) .standard = q.diagnose s recent .standard := by
  intro q s older recent
  have hwindow : Settings.standard.maxStuckTurns.toNat ≤ recent.length := by decide
  obtain ⟨-, -, -, -, -, hrecent⟩ := diagnosis_by_priority q s (older ++ recent) .standard
  exact ⟨hwindow, hrecent older recent rfl hwindow⟩

/-- Ten failures on a closed bank: five idle turns fill the window, after four the bank is named. -/
example :
    let q := twoBanks [.flag "story" "bridge" true]
    let s := { State.fresh .nil "far" with retries := 10 }
    let history (count : Nat) : List TurnRecord :=
      ⟨some "near", [.objective "cross" "complete"]⟩ :: List.replicate count ⟨some "far", []⟩
    (q.diagnose s (history 5) .standard).reason = some .noProgress ∧
      (q.diagnose s (history 4) .standard).reason = some (.preconditionsNotMet "far") := by
  decide

end Quest

end Questline
