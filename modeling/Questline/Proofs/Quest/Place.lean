import Questline.Proofs.Quest.Move
import Questline.Proofs.Quest.Run
import Questline.Quest.Briefing

/-! # Where a game stands

A game stands in its quest when its current id names a node. A sound quest starts on a node, a turn
ends on the node it was played on or on one it moved to, and a dead end changes nothing. So a game
never leaves its quest, and there is always a briefing.

* `Quest.StandsIn`: the current id of a state names a node of the quest.
* `Quest.standsIn_play`: a turn stays in the quest.
* `Quest.exists_briefing_stateAfter`: after any run there is a briefing on the node where the game
  stands. -/

namespace Questline

namespace Quest

variable {q : Quest} {s : State}

theorem node?_isSome_iff {id : String} : (q.node? id).isSome ↔ id ∈ q.ids := by
  rw [node?, List.find?_isSome, ids, List.mem_map]
  simp only [beq_iff_eq]

/-- A sound quest starts on one of its nodes. -/
theorem start_mem_ids_of_check (h : q.check = none) : q.start ∈ q.ids := by
  unfold check at h
  split at h
  · cases h
  · split at h
    · cases h
    · rename_i hstart
      exact not_not.mp hstart

/-- Both ends of every edge of a sound quest are nodes. -/
theorem ends_mem_ids_of_check (h : q.check = none) {e : Edge} (he : e ∈ q.edges) :
    e.source ∈ q.ids ∧ e.target ∈ q.ids := by
  unfold check at h
  split at h
  · cases h
  · split at h
    · cases h
    · have hends := List.findSome?_eq_none_iff.mp h e he
      rw [edgeFault?, Option.map_eq_none_iff, missingEnd?, List.find?_eq_none] at hends
      simpa using hends

/-- **The game stands in the quest:** its current id is the id of a node. -/
def StandsIn (q : Quest) (s : State) : Prop := ∃ id ∈ q.ids, s.current = some id

/-! ### Turns -/

/-- A turn stays in the quest. -/
theorem standsIn_play (s : State) (acts : List Act) (h : q.StandsIn s) :
    q.StandsIn (q.play s acts).state := by
  cases hactive : q.active? s with
  | none =>
    rw [play_of_active?_eq_none hactive]
    exact h
  | some n =>
    have hn : n ∈ q.nodes :=
      (mem_enterableNodes_iff.mp (mem_enterableNodes_of_active? hactive)).1
    have hid : n.id ∈ q.ids := List.mem_map_of_mem hn
    obtain ⟨place, _, _, _, hsettle, hplace⟩ :=
      settle_cases q (n.outcome acts s).branch (n.outcome acts s).state n.id
    rw [play_of_active? hactive, hsettle]
    rcases hplace with rfl | hplace
    · exact ⟨n.id, hid, rfl⟩
    · exact ⟨place, hplace, rfl⟩

/-! ### Runs -/

theorem briefing_of_node? {n : Node} {id : String} (hcurrent : s.current = some id)
    (hnode : q.node? id = some n) :
    q.briefing s = .ok
      { node := n.summary
        frontier := (q.openEdges s.facts n.id).map fun e => .ofEdge e.1 e.2
        fingerprint := q.fingerprint } := by
  rw [briefing, hcurrent]
  simp only [hnode]

/-- A briefing tells of the current node and its open edges. -/
theorem eq_of_briefing {b : Briefing} (h : q.briefing s = .ok b) :
    ∃ n ∈ q.nodes, s.current = some n.id ∧
      b = { node := n.summary
            frontier := (q.openEdges s.facts n.id).map fun e => .ofEdge e.1 e.2
            fingerprint := q.fingerprint } := by
  unfold briefing at h
  split at h
  · cases h
  · rename_i id hcurrent
    split at h
    · cases h
    · rename_i n hnode
      obtain ⟨hn, rfl⟩ := node?_eq_some hnode
      exact ⟨n, hn, hcurrent, (Except.ok.inj h).symm⟩

/-- There is a briefing wherever the game stands in the quest, and it is on that node. -/
theorem exists_briefing_of_standsIn (h : q.StandsIn s) :
    ∃ n b, s.current = some n.id ∧ q.node? n.id = some n ∧ q.briefing s = .ok b ∧
      b.node.id = n.id ∧ b.node = n.summary := by
  obtain ⟨id, hid, hcurrent⟩ := h
  obtain ⟨n, hnode⟩ := Option.isSome_iff_exists.mp (node?_isSome_iff.mpr hid)
  have hbriefing := briefing_of_node? hcurrent hnode
  obtain ⟨-, rfl⟩ := node?_eq_some hnode
  exact ⟨n, _, hcurrent, hnode, hbriefing, rfl, rfl⟩

/-- **A game never leaves its quest.** From the start of a sound quest, or from any of its nodes,
every run ends on a node, and there is a briefing on it. -/
theorem exists_briefing_stateAfter (hq : q.check = none)
    (hs : (∃ gameId, s = .fresh gameId q.start) ∨ q.StandsIn s)
    (actLists : List (List Act)) :
    ∃ n b, (q.stateAfter s actLists).current = some n.id ∧ q.node? n.id = some n ∧
      q.briefing (q.stateAfter s actLists) = .ok b ∧ b.node.id = n.id ∧ b.node = n.summary := by
  have hstart : q.StandsIn s := by
    rcases hs with ⟨gameId, rfl⟩ | hs
    · exact ⟨q.start, start_mem_ids_of_check hq, rfl⟩
    · exact hs
  exact exists_briefing_of_standsIn (stateAfter_keeps standsIn_play hstart actLists)

/-- A far bank that is left as soon as it is reached: the game moves there, is drawn elsewhere and
moves again. -/
theorem exists_briefing_after_crossings :
    let q := twoBanks [.compare .eq State.positionPath (.text "near")]
    let s := State.fresh .nil "near"
    let cross := [Act.objective "cross" "complete"]
    (q.check = none ∧ ∃ gameId, s = .fresh gameId q.start) ∧
      ∃ n b, (q.stateAfter s [cross, [], cross]).current = some n.id ∧ q.node? n.id = some n ∧
        q.briefing (q.stateAfter s [cross, [], cross]) = .ok b ∧ b.node.id = n.id ∧
          b.node = n.summary := by
  intro q s cross
  have hcheck : q.check = none := by decide
  have hfresh : ∃ gameId, s = .fresh gameId q.start := ⟨.nil, rfl⟩
  exact ⟨⟨hcheck, hfresh⟩, exists_briefing_stateAfter hcheck (.inl hfresh) [cross, [], cross]⟩

end Quest

end Questline
