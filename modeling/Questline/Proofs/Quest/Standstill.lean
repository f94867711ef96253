import Questline.Proofs.Quest.Move
import Questline.Proofs.Quest.Run
import Questline.Proofs.Quest.Stall

/-! # Games that stand still

A game stands still when a turn leaves the state that it was played from: every later turn is then
the same turn. This happens at a dead end, where no node can be entered, and to a player whose acts
fit no template of the current node. The first idle turn may still write the node down as visited,
and guards do not read what was visited.

* `Quest.playAll_eq_replicate`, `Quest.stateAfter_eq_state`: runs that stand still.
* `Quest.deadEnd_run`: a dead end is for good, and the alarm for no progress is raised.
* `Quest.idle_run`: idle turns stay on the current node. -/

namespace Questline

/-! ### Arrivals -/

namespace State

variable {s : State} {id : String}

theorem arrive_of_current (h : s.current = some id) :
    s.arrive id = { s with
      visited := if s.visited.getLast? = some id then s.visited else s.visited ++ [id] } := by
  rw [arrive, ← h]

/-- The second arrival in a row changes nothing. -/
theorem arrive_arrive (s : State) (id : String) : (s.arrive id).arrive id = s.arrive id := by
  have hlast : (s.arrive id).visited.getLast? = some id := by
    unfold arrive
    split_ifs with h
    · exact h
    · simp
  rw [arrive_of_current rfl, if_pos hlast]

/-- Guards do not read what was visited. -/
theorem facts_arrive_of_current (h : s.current = some id) : (s.arrive id).facts = s.facts := by
  rw [arrive_of_current h]
  rfl

end State

namespace Quest

variable {q : Quest} {s : State} {t : Turn} {actLists : List (List Act)}

/-! ### Runs that stand still -/

section Still

variable (hfirst : ∀ acts ∈ actLists, q.play s acts = t)
  (hagain : ∀ acts ∈ actLists, q.play t.state acts = t)

include hfirst hagain

/-- A turn that comes again in the state that it leaves is all there is to a run. -/
theorem playAll_eq_replicate : q.playAll s actLists = List.replicate actLists.length t := by
  induction actLists generalizing s with
  | nil => rfl
  | cons acts rest ih =>
    have hrest : ∀ more ∈ rest, q.play t.state more = t :=
      fun more hmore => hagain more (List.mem_cons_of_mem acts hmore)
    rw [playAll, hfirst acts List.mem_cons_self, ih hrest hrest, List.length_cons,
      List.replicate_succ]

theorem stateAfter_eq_state (hne : actLists ≠ []) : q.stateAfter s actLists = t.state := by
  induction actLists generalizing s with
  | nil => exact absurd rfl hne
  | cons acts rest ih =>
    have hrest : ∀ more ∈ rest, q.play t.state more = t :=
      fun more hmore => hagain more (List.mem_cons_of_mem acts hmore)
    rw [stateAfter_cons, hfirst acts List.mem_cons_self]
    by_cases hend : rest = []
    · rw [hend, stateAfter_nil]
    · exact ih hrest hrest hend

end Still

/-! ### Dead ends -/

theorem exists_deadEnd_iff :
    (∃ acts, (q.play s acts).deadEnd = true) ↔ ∀ n ∈ q.nodes, n.enterable s = false := by
  rw [← active?_eq_none_iff_forall]
  constructor
  · rintro ⟨acts, hdead⟩
    exact deadEnd_play_iff.mp hdead
  · intro hnone
    exact ⟨[], deadEnd_play_iff.mpr hnone⟩

/-- Records without acts at the end of a history, as many as the window has, raise the alarm. -/
theorem idle_append {history records : List TurnRecord} {c : Settings}
    (hrecords : ∀ r ∈ records, r.actions = []) (hwindow : 0 < c.maxStuckTurns.toNat)
    (hlength : c.maxStuckTurns.toNat ≤ records.length) : idle (history ++ records) c = true := by
  rw [idle_append_of_le hlength, idle_iff]
  refine ⟨hwindow, hlength, fun r hr => ?_⟩
  rw [TurnRecord.progressed, hrecords r (List.mem_of_mem_drop hr), List.any_nil]

/-- **A dead end is for good.** It comes up just when no node can be entered; then every turn of
every run is a dead end, the state stays as it is and the records are blank. A history that ends in
a full window of such records raises the alarm for no progress. -/
theorem deadEnd_run (q : Quest) (s : State) :
    ((∃ acts, (q.play s acts).deadEnd = true) ↔ ∀ n ∈ q.nodes, n.enterable s = false) ∧
    ((∀ n ∈ q.nodes, n.enterable s = false) → ∀ actLists,
      (∀ t ∈ q.playAll s actLists, t.deadEnd = true ∧ t.branch = none ∧ t.state = s ∧
        t.record.node = none ∧ t.record.actions = []) ∧
      q.stateAfter s actLists = s) ∧
    ∀ (history records : List TurnRecord) (c : Settings),
      (∀ r ∈ records, r.node = none ∧ r.actions = []) → 0 < c.maxStuckTurns.toNat →
      c.maxStuckTurns.toNat ≤ records.length →
        (q.diagnose s (history ++ records) c).reason = some .noProgress ∧
          (q.diagnose s (history ++ records) c).stuck = true := by
  refine ⟨exists_deadEnd_iff, fun hclosed actLists => ?_, fun history records c hrecords hwindow
    hlength => ?_⟩
  · have hplay : ∀ acts ∈ actLists, q.play s acts = ⟨none, none, s, .blank⟩ :=
      fun acts _ => play_of_active?_eq_none (active?_eq_none_iff_forall.mpr hclosed) acts
    constructor
    · intro t ht
      rw [playAll_eq_replicate hplay hplay] at ht
      obtain rfl := List.eq_of_mem_replicate ht
      exact ⟨rfl, rfl, rfl, rfl, rfl⟩
    · by_cases hnil : actLists = []
      · rw [hnil, stateAfter_nil]
      · exact stateAfter_eq_state hplay hplay hnil
  · have hreason : (q.diagnose s (history ++ records) c).reason = some .noProgress := by
      rw [reason_diagnose, stall?_eq_noProgress_iff]
      exact idle_append (fun r hr => (hrecords r hr).2) hwindow hlength
    refine ⟨hreason, ?_⟩
    rw [stuck_diagnose_iff, hreason]
    exact Option.some_ne_none _

/-- A river whose only bank is closed to all who have not built the bridge. -/
def closedBank : Quest where
  id := "river"
  start := "far"
  nodes := [farBank [.flag "story" "bridge" true]]
  edges := []

/-- Two turns at the closed bank after a crossing, with a window of two. -/
theorem deadEnd_run_closedBank :
    let s := State.fresh .nil "far"
    let actLists := [[Act.objective "cross" "complete"], []]
    let history : List TurnRecord := [⟨some "near", [.objective "cross" "complete"]⟩]
    let records := closedBank.historyOf s actLists
    let c := { Settings.standard with maxStuckTurns := 2 }
    ((∀ n ∈ closedBank.nodes, n.enterable s = false) ∧
      (∀ r ∈ records, r.node = none ∧ r.actions = []) ∧ 0 < c.maxStuckTurns.toNat ∧
      c.maxStuckTurns.toNat ≤ records.length) ∧
    (∃ acts, (closedBank.play s acts).deadEnd = true) ∧
    (∀ t ∈ closedBank.playAll s actLists, t.deadEnd = true ∧ t.branch = none ∧ t.state = s ∧
      t.record.node = none ∧ t.record.actions = []) ∧
    closedBank.stateAfter s actLists = s ∧
    (closedBank.diagnose s (history ++ records) c).reason = some .noProgress ∧
      (closedBank.diagnose s (history ++ records) c).stuck = true := by
  intro s actLists history records c
  obtain ⟨hiff, hrun, halarm⟩ := deadEnd_run closedBank s
  have hclosed : ∀ n ∈ closedBank.nodes, n.enterable s = false := by decide +kernel
  obtain ⟨hturns, hstate⟩ := hrun hclosed actLists
  have hrecords : ∀ r ∈ records, r.node = none ∧ r.actions = [] := by
    intro r hr
    obtain ⟨t, ht, rfl⟩ := List.mem_map.mp hr
    obtain ⟨-, -, -, hnode, hactions⟩ := hturns t ht
    exact ⟨hnode, hactions⟩
  have hwindow : 0 < c.maxStuckTurns.toNat := by decide
  have hlength : c.maxStuckTurns.toNat ≤ records.length := by
    rw [length_historyOf]
    decide
  exact ⟨⟨hclosed, hrecords, hwindow, hlength⟩, hiff.mpr hclosed, hturns, hstate,
    halarm history records c hrecords hwindow hlength⟩

/-! ### Idle turns -/

variable {n : Node} {acts : List Act}

theorem current_of_currentNode? (h : q.currentNode? s = some n) : s.current = some n.id := by
  obtain ⟨id, hcurrent, hnode⟩ := Option.bind_eq_some_iff.mp h
  rw [hcurrent, (node?_eq_some hnode).2]

theorem branch?_of_not_fits (h : ∀ a ∈ acts, ∀ t ∈ n.onSuccess ++ n.onFail, a.fits t = false) :
    n.branch? acts = none := by
  have hnone : ∀ templates, templates ⊆ n.onSuccess ++ n.onFail →
      Node.anyFits acts templates = false := by
    intro templates hsub
    simp only [Node.anyFits, List.any_eq_false, Bool.not_eq_true]
    exact fun a ha t ht => h a ha t (hsub ht)
  rw [Node.branch?, hnone n.onSuccess (List.subset_append_left _ _),
    hnone n.onFail (List.subset_append_right _ _)]
  rfl

/-- Acts that fit no template of the active node only write it down as visited. -/
theorem play_of_not_fits (hactive : q.active? s = some n)
    (hacts : ∀ a ∈ acts, ∀ t ∈ n.onSuccess ++ n.onFail, a.fits t = false) :
    q.play s acts = ⟨some n.id, none, s.arrive n.id, ⟨some n.id, []⟩⟩ := by
  rw [play_of_active? hactive, Node.outcome, branch?_of_not_fits hacts]
  rfl

/-- **Idle turns stay on the current node.** Where the acts of a run fit no template of the current
node, which can be entered, every turn is played on it without a branch and without acts on its
record. After the first turn the node is the last one visited, nothing else has changed, and all
later turns leave the state as it is. -/
theorem idle_run (hcurrent : q.currentNode? s = some n) (henter : n.enterable s = true)
    (hidle : ∀ acts ∈ actLists, ∀ a ∈ acts, ∀ t ∈ n.onSuccess ++ n.onFail, a.fits t = false) :
    (∀ t ∈ q.playAll s actLists,
      t.active = some n.id ∧ t.branch = none ∧ t.record.node = some n.id ∧ t.record.actions = []) ∧
    ∀ i < actLists.length, q.stateAfter s (actLists.take (i + 1)) =
      { s with
        visited := if s.visited.getLast? = some n.id then s.visited else s.visited ++ [n.id] } := by
  have hid : s.current = some n.id := current_of_currentNode? hcurrent
  -- the node is open again after the arrival, and the second arrival changes nothing
  have hopen : n.enterable (s.arrive n.id) = true := by
    rw [Node.enterable, State.facts_arrive_of_current hid]
    exact henter
  have hstays : q.active? (s.arrive n.id) = some n := by
    refine active?_of_enterable ?_ hopen
    rw [← hcurrent, currentNode?, currentNode?, hid]
    rfl
  have hfirst : ∀ acts ∈ actLists,
      q.play s acts = ⟨some n.id, none, s.arrive n.id, ⟨some n.id, []⟩⟩ :=
    fun acts hacts => play_of_not_fits (active?_of_enterable hcurrent henter) (hidle acts hacts)
  have hagain : ∀ acts ∈ actLists,
      q.play (s.arrive n.id) acts = ⟨some n.id, none, s.arrive n.id, ⟨some n.id, []⟩⟩ := by
    intro acts hacts
    rw [play_of_not_fits hstays (hidle acts hacts), State.arrive_arrive]
  constructor
  · intro t ht
    rw [playAll_eq_replicate hfirst hagain] at ht
    obtain rfl := List.eq_of_mem_replicate ht
    exact ⟨rfl, rfl, rfl, rfl⟩
  · intro i hi
    have hne : actLists.take (i + 1) ≠ [] := by
      rw [ne_eq, List.take_eq_nil_iff]
      rintro (hzero | rfl)
      · cases hzero
      · cases hi
    rw [stateAfter_eq_state (fun acts hacts => hfirst acts (List.mem_of_mem_take hacts))
      (fun acts hacts => hagain acts (List.mem_of_mem_take hacts)) hne]
    exact State.arrive_of_current hid

/-- On the near bank, which is not the last place visited before, the river is looked at, a flag is
set that no template asks for, and nothing is done. -/
theorem idle_run_near_bank :
    let q := twoBanks []
    let s := { State.fresh .nil "near" with visited := ["far"] }
    let actLists := [[Act.ofKind "LOOK"], [.flag "story.bridge" true], []]
    ∃ n, (q.currentNode? s = some n ∧ n.enterable s = true ∧
      ∀ acts ∈ actLists, ∀ a ∈ acts, ∀ t ∈ n.onSuccess ++ n.onFail, a.fits t = false) ∧
    (∀ t ∈ q.playAll s actLists,
      t.active = some n.id ∧ t.branch = none ∧ t.record.node = some n.id ∧ t.record.actions = []) ∧
    ∀ i < actLists.length, q.stateAfter s (actLists.take (i + 1)) =
      { s with
        visited := if s.visited.getLast? = some n.id then s.visited else s.visited ++ [n.id] } := by
  intro q s actLists
  obtain ⟨n, hcurrent⟩ : ∃ n, q.currentNode? s = some n := ⟨_, rfl⟩
  have henter : n.enterable s = true := by
    obtain rfl := Option.some.inj hcurrent
    decide +kernel
  have hidle : ∀ acts ∈ actLists, ∀ a ∈ acts, ∀ t ∈ n.onSuccess ++ n.onFail, a.fits t = false := by
    obtain rfl := Option.some.inj hcurrent
    decide +kernel
  exact ⟨n, ⟨hcurrent, henter, hidle⟩, idle_run hcurrent henter hidle⟩

end Quest

end Questline
