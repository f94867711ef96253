import Questline.Proofs.Quest.Diagnosis
import Questline.Proofs.Quest.Names
import Questline.Proofs.Quest.Place

/-! # Drift

A game drifts when the node where it stands can no longer be entered, say because its own templates
closed it. The next turn then leaves that node, or is a dead end. The briefing is still given on the
node where the game stands, so it is on the node of the next turn just when the game has not
drifted. Being stuck for want of preconditions is exactly drift.

* `Quest.active?_eq_some_iff`, `Quest.id_active?_eq_some_iff`: the game stays on its current node
  just when that is open. `Quest.forall_active?_id_ne_iff`: it leaves it when that is closed.
* `Quest.active_play_briefed_iff`: when the turn is played on the node of the briefing. It need not
  be: `Quest.briefed_elsewhere`.
* `Quest.preconditionsNotMet_iff`: the diagnosis names the current node just when the game leaves
  it. -/

namespace Questline

namespace Quest

variable {q : Quest} {s : State} {n : Node}

theorem currentNode?_of_mem (hq : q.check = none) (hn : n ∈ q.nodes)
    (hs : s.current = some n.id) : q.currentNode? s = some n := by
  rw [currentNode?, hs, Option.bind_some, node?_of_mem hq hn]

/-- **The game stays on its current node just when that is open.** -/
theorem active?_eq_some_iff (hcurrent : q.currentNode? s = some n) :
    q.active? s = some n ↔ n.enterable s = true :=
  ⟨enterable_of_active?, active?_of_enterable hcurrent⟩

/-- In a sound quest no other node has the id of the current one. -/
theorem id_active?_eq_some_iff (hq : q.check = none) (hn : n ∈ q.nodes)
    (hs : s.current = some n.id) :
    (q.active? s).map Node.id = some n.id ↔ n.enterable s = true := by
  rw [← active?_eq_some_iff (currentNode?_of_mem hq hn hs), Option.map_eq_some_iff]
  constructor
  · rintro ⟨m, hactive, hid⟩
    rw [hactive, eq_of_id_eq hq (mem_nodes_of_active? hactive) hn hid]
  · intro hactive
    exact ⟨n, hactive, rfl⟩

/-- The game leaves its current node, for another one or for none, when that is closed. -/
theorem forall_active?_id_ne_iff (hq : q.check = none) (hn : n ∈ q.nodes)
    (hs : s.current = some n.id) :
    (∀ m, q.active? s = some m → m.id ≠ n.id) ↔ n.enterable s = false := by
  rw [Bool.eq_false_iff, ne_eq, ← id_active?_eq_some_iff hq hn hs, Option.map_eq_some_iff]
  constructor
  · rintro hleaves ⟨m, hactive, hid⟩
    exact hleaves m hactive hid
  · intro hstays m hactive hid
    exact hstays ⟨m, hactive, hid⟩

theorem exists_active? (hopen : ∃ m ∈ q.nodes, m.enterable s = true) :
    ∃ m, q.active? s = some m := by
  obtain ⟨m, hm, henter⟩ := hopen
  refine Option.ne_none_iff_exists'.mp fun hnone => ?_
  have hmem : m ∈ q.enterableNodes s := mem_enterableNodes_iff.mpr ⟨hm, henter⟩
  rw [active?_eq_none_iff.mp hnone] at hmem
  cases hmem

/-! ### The briefing -/

/-- A briefing is on the current node. -/
theorem node_of_briefing {b : Briefing} (h : q.briefing s = .ok b) :
    ∃ n ∈ q.nodes, s.current = some n.id ∧ b.node = n.summary := by
  obtain ⟨n, hn, hcurrent, rfl⟩ := eq_of_briefing h
  exact ⟨n, hn, hcurrent, rfl⟩

/-- **The turn is played on the node of the briefing, which is the current one, just when that is
open.** Then the acts choose between its templates; else between those of another open node. -/
theorem active_play_briefed_iff {b : Briefing} (hq : q.check = none) (hb : q.briefing s = .ok b)
    (hopen : ∃ m ∈ q.nodes, m.enterable s = true) (acts : List Act) :
    ∃ n, s.current = some b.node.id ∧ q.node? b.node.id = some n ∧
      ((q.play s acts).active = some b.node.id ↔ n.enterable s = true) ∧
      (n.enterable s = true → (q.play s acts).branch = n.branch? acts) ∧
      (n.enterable s = false → ∃ m ∈ q.nodes, m.enterable s = true ∧ m.id ≠ b.node.id ∧
        (q.play s acts).active = some m.id ∧ (q.play s acts).branch = m.branch? acts) := by
  obtain ⟨n, hn, hcurrent, hnode⟩ := node_of_briefing hb
  have hid : b.node.id = n.id := congrArg NodeSummary.id hnode
  obtain ⟨m, hactive⟩ := exists_active? hopen
  have hstays := id_active?_eq_some_iff hq hn hcurrent
  rw [hactive, Option.map_some] at hstays
  have hplayed : (q.play s acts).active = some m.id := by rw [play_of_active? hactive]
  have hbranch : (q.play s acts).branch = m.branch? acts := by
    rw [play_of_active? hactive]
    rfl
  rw [hid, hplayed, hbranch]
  refine ⟨n, hcurrent, node?_of_mem hq hn, hstays, fun henter => ?_, fun hclosed => ?_⟩
  · have hsame := active?_of_enterable (currentNode?_of_mem hq hn hcurrent) henter
    rw [Option.some.inj (hactive.symm.trans hsame)]
  · have hne : m.id ≠ n.id := by
      intro heq
      rw [hstays.mp (congrArg some heq)] at hclosed
      cases hclosed
    exact ⟨m, mem_nodes_of_active? hactive, enterable_of_active? hactive, hne, rfl, rfl⟩

/-- After the crossing to a far bank that is open from the near one only. -/
theorem active_play_briefed_crossing :
    let q := twoBanks [.compare .eq State.positionPath (.text "near")]
    let s := q.stateAfter (.fresh .nil "near") [[.objective "cross" "complete"]]
    ∃ b, (q.check = none ∧ q.briefing s = .ok b ∧ ∃ m ∈ q.nodes, m.enterable s = true) ∧
      ∃ n, s.current = some b.node.id ∧ q.node? b.node.id = some n ∧
        ((q.play s []).active = some b.node.id ↔ n.enterable s = true) ∧
        (n.enterable s = true → (q.play s []).branch = n.branch? []) ∧
        (n.enterable s = false → ∃ m ∈ q.nodes, m.enterable s = true ∧ m.id ≠ b.node.id ∧
          (q.play s []).active = some m.id ∧ (q.play s []).branch = m.branch? []) := by
  intro q s
  have hcheck : q.check = none := by decide
  have hstands : q.StandsIn s := ⟨"far", by decide, by decide +kernel⟩
  obtain ⟨n, b, -, -, hb, -⟩ := exists_briefing_of_standsIn hstands
  have hopen : ∃ m ∈ q.nodes, m.enterable s = true := by decide +kernel
  exact ⟨b, ⟨hcheck, hb, hopen⟩, active_play_briefed_iff hcheck hb hopen []⟩

/-- A game that stands on a closed bank is briefed on it and played on the other one. -/
theorem briefed_elsewhere :
    ¬ ∀ (q : Quest) (s : State) (b : Briefing) (acts : List Act), q.check = none →
      q.briefing s = .ok b → (∃ m ∈ q.nodes, m.enterable s = true) →
        (q.play s acts).active = some b.node.id := by
  intro h
  have hstands : (twoBanks [.flag "story" "bridge" true]).StandsIn (.fresh .nil "far") :=
    ⟨"far", by decide, rfl⟩
  obtain ⟨n, b, hcurrent, -, hb, hnode, -⟩ := exists_briefing_of_standsIn hstands
  have hid : b.node.id = "far" := hnode.trans (Option.some.inj hcurrent).symm
  have hplayed := h _ _ b [] (by decide) hb (by decide +kernel)
  rw [hid] at hplayed
  revert hplayed
  decide +kernel

/-! ### The diagnosis -/

variable {history : List TurnRecord} {c : Settings}

theorem stall?_eq_preconditionsNotMet_iff (hidle : idle history c = false) {id : String} :
    q.stall? s history c = some (.preconditionsNotMet id) ↔
      ∃ n, q.closedNode? s = some n ∧ n.id = id := by
  rw [stall?_eq_iff, ← closedAt_iff]
  constructor
  · intro h
    cases h with
    | preconditionsNotMet _ hclosed => exact hclosed
  · intro hclosed
    exact .preconditionsNotMet (mt idle_iff_fillsWindow.mpr (Bool.eq_false_iff.mp hidle)) hclosed

theorem closedNode?_eq_some_iff (hcurrent : q.currentNode? s = some n) {m : Node} :
    q.closedNode? s = some m ↔ m = n ∧ n.enterable s = false := by
  rw [closedNode?, hcurrent, Option.filter_eq_some_iff]
  constructor
  · rintro ⟨hsame, hclosed⟩
    obtain rfl := Option.some.inj hsame
    exact ⟨rfl, by simpa using hclosed⟩
  · rintro ⟨rfl, hclosed⟩
    exact ⟨rfl, by simpa using hclosed⟩

/-- The current node is named when it is closed. -/
theorem reason_eq_preconditionsNotMet_iff (hcurrent : q.currentNode? s = some n)
    (hidle : idle history c = false) :
    (q.diagnose s history c).reason = some (.preconditionsNotMet n.id) ↔
      n.enterable s = false := by
  rw [reason_diagnose, stall?_eq_preconditionsNotMet_iff hidle]
  constructor
  · rintro ⟨m, hclosed, -⟩
    exact ((closedNode?_eq_some_iff hcurrent).mp hclosed).2
  · intro hclosed
    exact ⟨n, (closedNode?_eq_some_iff hcurrent).mpr ⟨rfl, hclosed⟩, rfl⟩

/-- **The diagnosis names the current node just when the game leaves it** for another node or for
none. So a dead end always counts as stuck. -/
theorem preconditionsNotMet_iff (hq : q.check = none) (hn : n ∈ q.nodes)
    (hs : s.current = some n.id) (hreason : (q.diagnose s history c).reason ≠ some .noProgress) :
    ((q.diagnose s history c).reason = some (.preconditionsNotMet n.id) ↔
      ∀ m, q.active? s = some m → m.id ≠ n.id) ∧
    ∀ acts, (q.play s acts).deadEnd = true →
      (q.diagnose s history c).stuck = true ∧
        (q.diagnose s history c).reason = some (.preconditionsNotMet n.id) := by
  have hidle : idle history c = false := by
    rw [reason_diagnose, ne_eq, stall?_eq_noProgress_iff] at hreason
    exact Bool.eq_false_iff.mpr hreason
  have hcurrent := currentNode?_of_mem hq hn hs
  have hnamed : (q.diagnose s history c).reason = some (.preconditionsNotMet n.id) ↔
      ∀ m, q.active? s = some m → m.id ≠ n.id := by
    rw [reason_eq_preconditionsNotMet_iff hcurrent hidle, forall_active?_id_ne_iff hq hn hs]
  refine ⟨hnamed, fun acts hdead => ?_⟩
  have hstall : (q.diagnose s history c).reason = some (.preconditionsNotMet n.id) := by
    rw [hnamed, deadEnd_play_iff.mp hdead]
    rintro m ⟨⟩
  have hstuck : (q.diagnose s history c).stuck = true := by
    rw [stuck_diagnose_iff, hstall]
    exact Option.some_ne_none _
  exact ⟨hstuck, hstall⟩

/-- A game without a history on a far bank that has just been closed. -/
theorem preconditionsNotMet_on_far_bank :
    let guards := [Guard.flag "story" "bridge" true]
    let q := twoBanks guards
    let s := State.fresh .nil "far"
    let d := q.diagnose s [] .standard
    (q.check = none ∧ farBank guards ∈ q.nodes ∧ s.current = some (farBank guards).id ∧
      d.reason ≠ some .noProgress) ∧
    (d.reason = some (.preconditionsNotMet (farBank guards).id) ↔
      ∀ m, q.active? s = some m → m.id ≠ (farBank guards).id) ∧
    ∀ acts, (q.play s acts).deadEnd = true →
      d.stuck = true ∧ d.reason = some (.preconditionsNotMet (farBank guards).id) := by
  intro guards q s d
  have hcheck : q.check = none := by decide
  have hmem : farBank guards ∈ q.nodes := List.mem_cons_of_mem _ List.mem_cons_self
  have hreason : d.reason ≠ some .noProgress := by decide +kernel
  exact ⟨⟨hcheck, hmem, rfl, hreason⟩, preconditionsNotMet_iff hcheck hmem rfl hreason⟩

end Quest

end Questline
