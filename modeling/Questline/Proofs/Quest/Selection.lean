import Mathlib.Tactic.ByContra
import Questline.Quest.Turn

/-! # Selection, frontier and turn

What the definitions of a turn amount to, case by case.

* `Quest.node?_eq_some`: a node that is found is one of the quest and has the id.
* `Quest.enterable_of_active?`, `Quest.active?_of_enterable`: the active node can be entered, and
  is the current one while that can be entered. `Quest.active?_eq_none_iff`: when there is none.
* `Quest.mem_frontier_iff`: the nodes that open edges lead to.
* `Quest.play_of_active?`: the turn on a node. `Quest.current_play_of_not_success`: it ends there
  unless it succeeds. `Quest.advance_cases`: a success stays when the frontier is empty, else moves
  to one of its nodes. `Quest.settle_cases`: what the books of a turn change. -/

namespace Questline

namespace Draw

theorem mem_of_choose {α : Type} {key : String} {items : List α} {x : α}
    (h : choose key items = some x) : x ∈ items := List.mem_of_getElem? h

theorem choose_eq_none_iff {α : Type} {key : String} {items : List α} :
    choose key items = none ↔ items = [] := by
  constructor
  · intro h
    by_contra hne
    have hlt : pick key items.length < items.length :=
      index_lt _ (List.length_pos_iff.mpr hne)
    rw [choose, List.getElem?_eq_getElem hlt] at h
    cases h
  · rintro rfl
    rfl

end Draw

namespace Quest

variable {q : Quest} {s : State} {n : Node} {id : String}

theorem node?_eq_some (h : q.node? id = some n) : n ∈ q.nodes ∧ n.id = id :=
  ⟨List.mem_of_find?_eq_some h, by simpa using List.find?_some h⟩

/-! ### The active node -/

theorem mem_enterableNodes_iff : n ∈ q.enterableNodes s ↔ n ∈ q.nodes ∧ n.enterable s = true := by
  rw [enterableNodes, List.mem_filter]

/-- The active node is one that can be entered. -/
theorem mem_enterableNodes_of_active? (h : q.active? s = some n) : n ∈ q.enterableNodes s := by
  unfold active? at h
  split at h
  · rename_i c hc
    obtain ⟨hcurrent, henter⟩ := Option.filter_eq_some_iff.mp hc
    obtain rfl := Option.some.inj h
    obtain ⟨id, -, hid⟩ := Option.bind_eq_some_iff.mp hcurrent
    exact mem_enterableNodes_iff.mpr ⟨(node?_eq_some hid).1, henter⟩
  · exact Draw.mem_of_choose h

theorem enterable_of_active? (h : q.active? s = some n) : n.enterable s = true :=
  (mem_enterableNodes_iff.mp (mem_enterableNodes_of_active? h)).2

theorem mem_nodes_of_active? (h : q.active? s = some n) : n ∈ q.nodes :=
  (mem_enterableNodes_iff.mp (mem_enterableNodes_of_active? h)).1

/-- There is no active node just when no node can be entered. -/
theorem active?_eq_none_iff : q.active? s = none ↔ q.enterableNodes s = [] := by
  constructor
  · intro h
    unfold active? at h
    split at h
    · cases h
    · exact Draw.choose_eq_none_iff.mp h
  · intro h
    cases hactive : q.active? s with
    | none => rfl
    | some n =>
      have hmem := mem_enterableNodes_of_active? hactive
      rw [h] at hmem
      cases hmem

theorem active?_eq_none_iff_forall :
    q.active? s = none ↔ ∀ n ∈ q.nodes, n.enterable s = false := by
  rw [active?_eq_none_iff, enterableNodes, List.filter_eq_nil_iff]
  simp only [Bool.not_eq_true]

/-- The game stays on its current node while that can be entered. -/
theorem active?_of_enterable (hcurrent : q.currentNode? s = some n)
    (henter : n.enterable s = true) : q.active? s = some n := by
  have hstay : (q.currentNode? s).filter (·.enterable s) = some n :=
    Option.filter_eq_some_iff.mpr ⟨hcurrent, henter⟩
  rw [active?, hstay]

/-! ### The frontier -/

theorem mem_frontier_iff :
    n ∈ q.frontier s id ↔ ∃ e ∈ q.leaving id, q.node? e.target = some n ∧
      n.enterable s = true ∧ Guard.allHold e.guards s.facts = true := by
  simp only [frontier, openEdges, List.mem_map, List.mem_filterMap, Option.map_eq_some_iff,
    Option.filter_eq_some_iff, passable, Bool.and_eq_true, Node.enterable]
  constructor
  · rintro ⟨_, ⟨e, he, target, ⟨htarget, hopen⟩, rfl⟩, rfl⟩
    exact ⟨e, he, htarget, hopen⟩
  · rintro ⟨e, he, htarget, hopen⟩
    exact ⟨(e, n), ⟨e, he, n, ⟨htarget, hopen⟩, rfl⟩, rfl⟩

theorem mem_nodes_of_mem_frontier (h : n ∈ q.frontier s id) : n ∈ q.nodes := by
  obtain ⟨e, -, hnode, -⟩ := mem_frontier_iff.mp h
  exact (node?_eq_some hnode).1

/-! ### Turns -/

theorem play_of_active?_eq_none (h : q.active? s = none) (acts : List Act) :
    q.play s acts = { active := none, branch := none, state := s, record := .blank } := by
  rw [play, h]

theorem play_of_active? (h : q.active? s = some n) (acts : List Act) :
    q.play s acts =
      { active := some n.id
        branch := (n.outcome acts s).branch
        state := q.settle (n.outcome acts s).branch (n.outcome acts s).state n.id
        record := ⟨some n.id, (n.outcome acts s).effective⟩ } := by
  rw [play, h]

theorem deadEnd_play_iff {acts : List Act} :
    (q.play s acts).deadEnd = true ↔ q.active? s = none := by
  cases hactive : q.active? s with
  | none =>
    rw [play_of_active?_eq_none hactive]
    exact ⟨fun _ => rfl, fun _ => rfl⟩
  | some n =>
    rw [play_of_active? hactive]
    constructor
    · intro h
      cases h
    · intro h
      cases h

theorem state_play_of_success {acts : List Act} (h : q.active? s = some n)
    (hbranch : (q.play s acts).branch = some .success) :
    (q.play s acts).state = q.advance ((n.outcome acts s).state.arrive n.id) n.id := by
  rw [play_of_active? h] at hbranch ⊢
  show q.settle (n.outcome acts s).branch (n.outcome acts s).state n.id = _
  rw [show (n.outcome acts s).branch = some .success from hbranch]
  rfl

/-- The game stays on the node that was played unless the turn succeeded. -/
theorem current_play_of_not_success {acts : List Act} (h : q.active? s = some n)
    (hbranch : (q.play s acts).branch ≠ some .success) :
    (q.play s acts).state.current = some n.id := by
  rw [play_of_active? h] at hbranch ⊢
  show (q.settle (n.outcome acts s).branch (n.outcome acts s).state n.id).current = some n.id
  rcases hchosen : (n.outcome acts s).branch with _ | _ | _
  · rfl
  · exact absurd hchosen hbranch
  · rfl

/-- **After a success** the game stays when the frontier is empty, else it moves to one of its
nodes. -/
theorem advance_cases (q : Quest) (s : State) (id : String) :
    (q.frontier { s with retries := 0 } id = [] ∧ q.advance s id = { s with retries := 0 }) ∨
      ∃ target ∈ q.frontier { s with retries := 0 } id,
        q.advance s id = { s with retries := 0, current := some target.id } := by
  unfold advance
  cases hdraw : Draw.choose id (q.frontier { s with retries := 0 } id) with
  | none => exact .inl ⟨Draw.choose_eq_none_iff.mp hdraw, by simp [hdraw]⟩
  | some target => exact .inr ⟨target, Draw.mem_of_choose hdraw, by simp [hdraw]⟩

/-- **The books of a turn** hold the position, the visits, the failures and the retries. Whatever
the branch, the position is the node that was played or a node of the quest. -/
theorem settle_cases (q : Quest) (branch : Option Branch) (s : State) (id : String) :
    ∃ place visited failures retries,
      q.settle branch s id = { s with current := some place, visited, failures, retries } ∧
        (place = id ∨ place ∈ q.ids) := by
  rcases branch with _ | _ | _
  · exact ⟨id, _, _, _, rfl, .inl rfl⟩
  · show ∃ place visited failures retries, q.advance (s.arrive id) id =
      { s with current := some place, visited, failures, retries } ∧ (place = id ∨ place ∈ q.ids)
    rcases advance_cases q (s.arrive id) id with ⟨-, hstay⟩ | ⟨target, htarget, hmove⟩
    · rw [hstay]
      exact ⟨id, _, _, _, rfl, .inl rfl⟩
    · rw [hmove]
      have hmem : target.id ∈ q.ids := List.mem_map_of_mem (mem_nodes_of_mem_frontier htarget)
      exact ⟨target.id, _, _, _, rfl, .inr hmem⟩
  · exact ⟨id, _, _, _, rfl, .inl rfl⟩

end Quest

end Questline
