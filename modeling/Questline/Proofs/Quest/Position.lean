import Questline.Proofs.Quest.Frontier

/-! # Where a turn is played, and where it ends

A turn is played on the current node while that is open, else on the open node at the place that
the seed picks; the place is always one of the list. A failure, or acts that fit nothing, leave the
game on that node. After a success the frontier is looked up in the new state, with its books
written, and the game moves to a node of it if there is one.

* `Draw.choose_of_ne_nil`: a draw from a list that is not empty.
* `Quest.FirstNamed`: the first node with an id. `Quest.active?_eq_drawnNode?`: when the node is
  drawn.
* `Quest.selection`: which node is active, in any quest.
* `State.succeedOn`: the books of a success. `Quest.exists_wayOut_of_mem_frontier`: how a node of
  the frontier is reached.
* `Quest.position_after_turn`: where a turn ends, in any quest. -/

namespace Questline

/-- A list that is not empty has a place for every key, and the member there is drawn. -/
theorem Draw.choose_of_ne_nil {α : Type} (key : String) {items : List α} (h : items ≠ []) :
    ∃ hplace : pick key items.length < items.length,
      choose key items = some items[pick key items.length] := by
  have hplace : pick key items.length < items.length := index_lt _ (List.length_pos_iff.mpr h)
  exact ⟨hplace, List.getElem?_eq_getElem hplace⟩

/-- **The books of a success:** the count of retries starts again, and the game stands on the node
that was played, which counts as visited unless it was the last one visited. -/
def State.succeedOn (s : State) (id : String) : State :=
  { s with
    retries := 0
    current := some id
    visited := if s.visited.getLast? = some id then s.visited else s.visited ++ [id] }

namespace Quest

variable {q : Quest} {s : State} {n : Node} {id : String} {acts : List Act}

/-! ### Selection -/

/-- **The first node with an id**, in the order of the quest. -/
def FirstNamed (q : Quest) (id : String) (n : Node) : Prop :=
  n.id = id ∧ ∃ front back, q.nodes = front ++ n :: back ∧ ∀ m ∈ front, m.id ≠ id

theorem node?_eq_some_iff : q.node? id = some n ↔ q.FirstNamed id n := by
  rw [node?, List.find?_eq_some_iff_append, FirstNamed]
  simp only [beq_iff_eq, Bool.not_eq_true', beq_eq_false_iff_ne, ne_eq]

theorem currentNode?_eq_some_iff :
    q.currentNode? s = some n ↔ ∃ id, s.current = some id ∧ q.FirstNamed id n := by
  simp only [currentNode?, Option.bind_eq_some_iff, node?_eq_some_iff]

theorem enterableNodes_eq (q : Quest) (s : State) :
    q.enterableNodes s = q.nodes.filter fun n => n.OpenIn s := by
  refine congrArg (q.nodes.filter ·) (funext fun n => ?_)
  rw [Bool.eq_iff_iff, decide_eq_true_eq]
  exact Node.enterable_iff

/-- The node is drawn unless the current one is open. -/
theorem active?_eq_drawnNode? (h : ∀ n, q.currentNode? s = some n → ¬ n.OpenIn s) :
    q.active? s = q.drawnNode? s := by
  have hleft : (q.currentNode? s).filter (·.enterable s) = none := by
    rw [Option.filter_eq_none_iff]
    intro n hcurrent henter
    exact h n hcurrent (Node.enterable_iff.mp henter)
  rw [active?, hleft]

/-- **Which node is active**, in any quest, sound or not. There is none just when no node is open,
and it is always an open node of the quest: the first one with the current id if that is open, else
the one at the place that the seed picks among the open nodes. That place is one of the list. -/
theorem selection (q : Quest) (s : State) :
    (q.active? s = none ↔ ∀ n ∈ q.nodes, ¬ n.OpenIn s) ∧
    (∀ n, q.active? s = some n → n ∈ q.nodes ∧ n.OpenIn s) ∧
    (∀ id n, s.current = some id → q.FirstNamed id n → n.OpenIn s → q.active? s = some n) ∧
    ((∀ id n, s.current = some id → q.FirstNamed id n → ¬ n.OpenIn s) →
      let candidates := q.nodes.filter fun n => n.OpenIn s
      let place := Draw.index (Draw.seed (s.current.getD startKey)) candidates.length
      candidates ≠ [] →
        ∃ h : place < candidates.length, q.active? s = some candidates[place]) ∧
    ∀ key count, 0 < count → Draw.index (Draw.seed key) count < count := by
  refine ⟨?_, fun n hactive => ?_, fun id n hid hfirst hopen => ?_, fun hclosed => ?_,
    fun key count hcount => Draw.index_lt _ hcount⟩
  · rw [active?_eq_none_iff_forall]
    simp only [← Bool.not_eq_true, Node.enterable_iff]
  · exact ⟨mem_nodes_of_active? hactive, Node.enterable_iff.mp (enterable_of_active? hactive)⟩
  · exact active?_of_enterable (currentNode?_eq_some_iff.mpr ⟨id, hid, hfirst⟩)
      (Node.enterable_iff.mpr hopen)
  · intro candidates place hne
    have hdrawn : q.active? s = q.drawnNode? s := active?_eq_drawnNode? fun n hcurrent => by
      obtain ⟨id, hid, hfirst⟩ := currentNode?_eq_some_iff.mp hcurrent
      exact hclosed id n hid hfirst
    rw [hdrawn, drawnNode?, enterableNodes_eq]
    exact Draw.choose_of_ne_nil (s.current.getD startKey) hne

/-! ### The end of a turn -/

/-- A node of the frontier is the first with the id where an edge ends, and both are open. -/
theorem exists_wayOut_of_mem_frontier (h : n ∈ q.frontier s id) :
    ∃ e ∈ q.edges, e.source = id ∧ e.OpenIn s ∧ q.FirstNamed e.target n ∧ n.OpenIn s := by
  obtain ⟨e, hleaving, hnode, henter, hguards⟩ := mem_frontier_iff.mp h
  obtain ⟨he, hsource⟩ := List.mem_filter.mp hleaving
  exact ⟨e, he, beq_iff_eq.mp hsource, Guard.allHold_iff.mp hguards, node?_eq_some_iff.mp hnode,
    Node.enterable_iff.mp henter⟩

/-- After a success the game stays where it is if there is no frontier, else it moves along an open
edge to an open node. -/
theorem state_play_cases_of_success (h : q.active? s = some n)
    (hbranch : (q.play s acts).branch = some .success) :
    let p := (n.outcome acts s).state.succeedOn n.id
    (q.frontier p n.id = [] ∧ (q.play s acts).state = p) ∨
      ∃ target ∈ q.frontier p n.id,
        (q.play s acts).state = { p with current := some target.id } := by
  rw [state_play_of_success h hbranch]
  exact advance_cases q ((n.outcome acts s).state.arrive n.id) n.id

/-- **Where a turn ends**, in any quest, sound or not. A turn that is not a dead end is played on a
node of the quest. If it does not succeed, the game stays there. If it succeeds, let `p` be the
outcome with the books of a success: the new state is `p` if the frontier in `p` is empty, else it
is `p` moved to the end of an edge that leaves the node and is open in `p`, as is the node there. -/
theorem position_after_turn (hplayed : (q.play s acts).deadEnd = false) :
    ∃ n ∈ q.nodes, q.active? s = some n ∧ (q.play s acts).active = some n.id ∧
      ((q.play s acts).branch ≠ some .success → (q.play s acts).state.current = some n.id) ∧
      ((q.play s acts).branch = some .success →
        let p := (n.outcome acts s).state.succeedOn n.id
        (q.frontier p n.id = [] → (q.play s acts).state = p) ∧
        (q.frontier p n.id ≠ [] → ∃ e ∈ q.edges, e.source = n.id ∧ e.OpenIn p ∧
          ∃ target, q.FirstNamed e.target target ∧ target.OpenIn p ∧
            (q.play s acts).state = { p with current := some target.id })) := by
  have hsome : q.active? s ≠ none := by
    intro hnone
    rw [deadEnd_play_iff.mpr hnone] at hplayed
    cases hplayed
  obtain ⟨n, hactive⟩ := Option.ne_none_iff_exists'.mp hsome
  have hid : (q.play s acts).active = some n.id := by rw [play_of_active? hactive]
  refine ⟨n, mem_nodes_of_active? hactive, hactive, hid, current_play_of_not_success hactive,
    fun hbranch => ?_⟩
  intro p
  rcases state_play_cases_of_success hactive hbranch with ⟨hnil, hstay⟩ | ⟨target, hmem, hmove⟩
  · exact ⟨fun _ => hstay, fun hne => absurd hnil hne⟩
  · obtain ⟨e, he, hsource, hedge, hfirst, hopen⟩ := exists_wayOut_of_mem_frontier hmem
    exact ⟨fun hnil => absurd hmem (by rw [hnil]; exact List.not_mem_nil),
      fun _ => ⟨e, he, hsource, hedge, target, hfirst, hopen, hmove⟩⟩

/-- The gate of a castle. What is done there lets down the bridge. -/
def gate : Node :=
  { id := "gate", kind := .objective, synopsis := "Let down the bridge.", enterIf := []
    onSuccess := [.flag "story.bridge" true], onFail := [], hint := none }

/-- A moat that can be forded until the bridge over it is down. -/
def moat : Quest where
  id := "moat"
  start := "gate"
  nodes := [
    gate,
    { id := "ford", kind := .beat, synopsis := "Through the water.", enterIf := []
      onSuccess := [], onFail := [], hint := none },
    { id := "bridge", kind := .beat, synopsis := "Over the bridge."
      enterIf := [.flag "story" "bridge" true], onSuccess := [], onFail := [], hint := none }]
  edges := [⟨"gate", "ford", [.flag "story" "bridge" false]⟩, ⟨"gate", "bridge", []⟩]

/-- Before the turn only the ford can be reached, after its templates only the bridge, and that is
where the game goes. -/
theorem position_after_bridge :
    let s := State.fresh .nil "gate"
    let t := moat.play s [.flag "story.bridge" true]
    (t.deadEnd = false ∧ t.branch = some .success ∧
      (moat.frontier s "gate").map Node.id = ["ford"]) ∧
    t.active = some "gate" ∧ t.state.current = some "bridge" := by
  intro s t
  have hplayed : t.deadEnd = false := rfl
  have hbranch : t.branch = some .success := by decide
  have hbefore : (moat.frontier s "gate").map Node.id = ["ford"] := by decide
  obtain ⟨n, -, hactive, hid, -, hsuccess⟩ := position_after_turn hplayed
  obtain rfl : gate = n := Option.some.inj hactive
  have hafter : moat.frontier ((gate.outcome [.flag "story.bridge" true] s).state.succeedOn "gate")
      "gate" ≠ [] := fun hnil => by
    have hids := congrArg (List.map Node.id) hnil
    revert hids
    decide
  obtain ⟨e, he, -, hedge, target, ⟨htarget, -⟩, -, hmove⟩ := (hsuccess hbranch).2 hafter
  refine ⟨⟨hplayed, hbranch, hbefore⟩, hid, ?_⟩
  rcases List.mem_cons.mp he with rfl | he
  · -- the way to the ford is closed by then
    exact absurd hedge (by decide)
  · obtain rfl := List.mem_singleton.mp he
    rw [hmove, htarget]

end Quest

end Questline
