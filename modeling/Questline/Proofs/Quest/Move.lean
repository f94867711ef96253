import Questline.Proofs.Quest.Selection
import Questline.Proofs.State.Facts

/-! # Moves

A successful turn may move the game to a node of the frontier. The guards of that node were tested
before the move, and the next turn tests them again after it. In between only the position has
changed, so the move stands unless the node's own guards read the position.

* `Node.ReadsPosition`: a guard of the node reads where the game stands.
* `Node.enterable_of_current`: a node that does not read the position is open wherever the game
  stands, or nowhere.
* `Quest.exists_target_of_move`: a move leads to a node of the frontier.
* `Quest.active?_after_move`: the next turn is played on the node just when it is still open, hence
  always if it does not read the position. Else it need not be: `Quest.move_undone`. -/

namespace Questline

/-- **A guard of the node reads the current node** of the state. -/
def Node.ReadsPosition (n : Node) : Prop := ∃ g ∈ n.enterIf, g.Reads (.path State.positionPath)

theorem Node.enterable_of_current {n : Node} (h : ¬ n.ReadsPosition) (s : State)
    (c c' : Option String) :
    n.enterable { s with current := c } = n.enterable { s with current := c' } := by
  refine Guard.allHold_congr fun g hg r hr => State.agrees_of_current s c c' ?_
  rintro rfl
  exact h ⟨g, hg, hr⟩

namespace Quest

variable {q : Quest} {s : State} {acts : List Act} {a b : String}

/-- A successful turn that ends on another node than it was played on has moved to a node of the
frontier, and only the position has changed since the frontier was found. -/
theorem exists_target_of_move (hbranch : (q.play s acts).branch = some .success)
    (hactive : (q.play s acts).active = some a) (hmove : (q.play s acts).state.current = some b)
    (hne : b ≠ a) :
    ∃ target, q.node? b = some target ∧
      target ∈ q.frontier { (q.play s acts).state with current := some a } a := by
  cases hnode : q.active? s with
  | none =>
    rw [play_of_active?_eq_none hnode] at hactive
    cases hactive
  | some n =>
    have hid : n.id = a := by
      rw [play_of_active? hnode] at hactive
      exact Option.some.inj hactive
    subst hid
    rw [state_play_of_success hnode hbranch] at hmove ⊢
    rcases advance_cases q ((n.outcome acts s).state.arrive n.id) n.id with
      ⟨-, hstay⟩ | ⟨target, htarget, hstep⟩
    · rw [hstay] at hmove
      exact absurd (Option.some.inj hmove).symm hne
    · rw [hstep] at hmove ⊢
      have hid : target.id = b := Option.some.inj hmove
      obtain ⟨e, -, hfound, -⟩ := mem_frontier_iff.mp htarget
      refine ⟨target, ?_, htarget⟩
      rw [← hid, (node?_eq_some hfound).2, hfound]

/-- **After a move** the next turn is played on the node that was moved to just when that node can
still be entered, and it can if none of its guards reads the position. -/
theorem active?_after_move (hbranch : (q.play s acts).branch = some .success)
    (hactive : (q.play s acts).active = some a) (hmove : (q.play s acts).state.current = some b)
    (hne : b ≠ a) :
    ∃ target, q.node? b = some target ∧
      target ∈ q.frontier { (q.play s acts).state with current := some a } a ∧
      (q.active? (q.play s acts).state = some target ↔
        target.enterable (q.play s acts).state = true) ∧
      (¬ target.ReadsPosition → q.active? (q.play s acts).state = some target) := by
  obtain ⟨target, hnode, htarget⟩ := exists_target_of_move hbranch hactive hmove hne
  have hcurrent : q.currentNode? (q.play s acts).state = some target := by
    rw [currentNode?, hmove, Option.bind_some, hnode]
  have hstays : q.active? (q.play s acts).state = some target ↔
      target.enterable (q.play s acts).state = true :=
    ⟨fun h => (mem_enterableNodes_iff.mp (mem_enterableNodes_of_active? h)).2,
      active?_of_enterable hcurrent⟩
  refine ⟨target, hnode, htarget, hstays, fun hreads => hstays.mpr ?_⟩
  obtain ⟨e, -, -, hopen, -⟩ := mem_frontier_iff.mp htarget
  rw [← hopen]
  exact target.enterable_of_current hreads (q.play s acts).state (q.play s acts).state.current
    (some a)

/-- The far bank of a river, which guards may close. -/
def farBank (enterIf : List Guard) : Node :=
  { id := "far", kind := .setpiece, synopsis := "The far bank.", enterIf
    onSuccess := [], onFail := [], hint := none }

/-- Two banks of a river: crossing it leads from the near one to the far one. -/
def twoBanks (enterIf : List Guard) : Quest where
  id := "river"
  start := "near"
  nodes := [
    { id := "near", kind := .objective, synopsis := "Cross the river.", enterIf := []
      onSuccess := [.objective "cross" "complete"], onFail := [], hint := none },
    farBank enterIf]
  edges := [⟨"near", "far", []⟩]

/-- The crossing opens the far bank, which does not read the position, and the next turn is played
there. -/
theorem active?_after_crossing :
    let guards := [Guard.compare .eq "state.objectives.cross" (.text "complete")]
    let t := (twoBanks guards).play (.fresh .nil "near") [.objective "cross" "complete"]
    (t.branch = some .success ∧ t.active = some "near" ∧ t.state.current = some "far" ∧
      "far" ≠ "near") ∧
    ¬ (farBank guards).ReadsPosition ∧
      (twoBanks guards).active? t.state = some (farBank guards) := by
  intro guards t
  have hbranch : t.branch = some .success := by decide
  have hactive : t.active = some "near" := by decide
  have hmove : t.state.current = some "far" := by decide +kernel
  have hne : "far" ≠ "near" := by decide
  have hreads : ¬ (farBank guards).ReadsPosition := by
    rintro ⟨g, hg, n, p, hp, -, hr⟩
    obtain rfl := List.mem_singleton.mp hg
    cases hp
    revert hr
    decide
  obtain ⟨target, hnode, -, -, hplayed⟩ := active?_after_move hbranch hactive hmove hne
  obtain rfl : farBank guards = target := Option.some.inj hnode
  exact ⟨⟨hbranch, hactive, hmove, hne⟩, hreads, hplayed hreads⟩

/-- A far bank that can only be entered from the near one is left again at once. -/
theorem move_undone :
    ¬ ∀ (q : Quest) (s : State) (acts : List Act) (a b : String), q.check = none →
      (q.play s acts).branch = some .success → (q.play s acts).active = some a →
        (q.play s acts).state.current = some b → b ≠ a →
          (q.active? (q.play s acts).state).map Node.id = some b := by
  intro h
  have hstays := h (twoBanks [.compare .eq State.positionPath (.text "near")]) (.fresh .nil "near")
    [.objective "cross" "complete"] "near" "far" (by decide) (by decide) (by decide)
    (by decide +kernel) (by decide)
  revert hstays
  decide +kernel

end Quest

end Questline
