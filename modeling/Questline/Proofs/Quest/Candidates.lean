import Questline.Proofs.Quest.Books
import Questline.Proofs.Quest.Position

/-! # Candidates

A draw looks at its key and at how many candidates there are. So the node that a game goes on to
when it leaves the current one is known from the current id and the ids of the open nodes in order,
and the node that a success moves to from the id that was played and the ids of the frontier. All
else in the states, the nodes and the edges may differ.

* `Draw.choose_map`: a draw looks at no candidate.
* `Quest.Leaves`: the game leaves its current node. `Quest.id_active?_of_leaves`: where it goes.
* `Quest.SucceedsAmong`: a turn succeeds on an id, with candidates to move to.
  `Quest.current_advance`, `Quest.current_play_of_succeedsAmong`: where it moves.
* `Quest.choice_of_candidates`: two games with the same candidates choose alike. -/

namespace Questline

/-- **A draw looks at no candidate**, only at how many there are. -/
theorem Draw.choose_map {α β : Type} (f : α → β) (key : String) (items : List α) :
    choose key (items.map f) = (choose key items).map f := by
  rw [choose, choose, List.length_map, List.getElem?_map]

namespace Quest

variable {q : Quest} {s : State} {acts : List Act} {id : String} {candidates : List String}

/-! ### Leaving a node -/

/-- **The game leaves its current node:** there is no first node with the current id, or it is
closed. -/
def Leaves (q : Quest) (s : State) : Prop :=
  ∀ id n, s.current = some id → q.FirstNamed id n → ¬ n.OpenIn s

theorem leaves_iff : q.Leaves s ↔ ∀ n, q.currentNode? s = some n → ¬ n.OpenIn s := by
  constructor
  · intro h n hcurrent
    obtain ⟨id, hid, hfirst⟩ := currentNode?_eq_some_iff.mp hcurrent
    exact h id n hid hfirst
  · intro h id n hid hfirst
    exact h n (currentNode?_eq_some_iff.mpr ⟨id, hid, hfirst⟩)

/-- The ids of the open nodes, in the order of the quest. -/
def openIds (q : Quest) (s : State) : List String :=
  (q.nodes.filter fun n => n.OpenIn s).map Node.id

/-- A game that leaves its current node goes to the one that the current id draws. -/
theorem id_active?_of_leaves (h : q.Leaves s) :
    (q.active? s).map Node.id = Draw.choose (s.current.getD startKey) (q.openIds s) := by
  rw [active?_eq_drawnNode? (leaves_iff.mp h), drawnNode?, openIds, Draw.choose_map,
    enterableNodes_eq]

/-! ### Moving on after a success -/

/-- **A turn succeeds on an id with candidates:** these are the ids of the frontier, in order, when
the templates have been applied and the books of the success are written. -/
def SucceedsAmong (q : Quest) (s : State) (acts : List Act) (id : String)
    (candidates : List String) : Prop :=
  ∃ n, q.active? s = some n ∧ n.id = id ∧ (q.play s acts).branch = some .success ∧
    (q.frontier ((n.outcome acts s).state.succeedOn id) id).map Node.id = candidates

/-- An advance from an id moves to the node that the id draws, and stays if there is none. -/
theorem current_advance (hcurrent : s.current = some id) :
    (q.advance s id).current =
      some ((Draw.choose id ((q.frontier { s with retries := 0 } id).map Node.id)).getD id) := by
  unfold advance
  rw [Draw.choose_map]
  dsimp only
  split
  next target hdrawn => rw [hdrawn, Option.map_some, Option.getD_some]
  next hdrawn => rw [hdrawn, Option.map_none, Option.getD_none, hcurrent]

/-- A success moves to the candidate that the id draws, and stays if there is none. -/
theorem current_play_of_succeedsAmong (h : q.SucceedsAmong s acts id candidates) :
    (q.play s acts).state.current = some ((Draw.choose id candidates).getD id) := by
  obtain ⟨n, hactive, rfl, hbranch, rfl⟩ := h
  rw [state_play_of_success hactive hbranch]
  exact current_advance rfl

/-! ### Two games -/

/-- **Two games with the same candidates choose alike.** If they have the same current id, leave the
current node and have the same ids of open nodes in order, they go to nodes with the same id, or
both to none. If they succeed on the same id with the same ids of the frontier in order, they end on
the same id. -/
theorem choice_of_candidates (q q' : Quest) (s s' : State) :
    (s.current = s'.current → q.Leaves s → q'.Leaves s' → q.openIds s = q'.openIds s' →
      (q.active? s).map Node.id = (q'.active? s').map Node.id) ∧
    ∀ acts acts' id candidates, q.SucceedsAmong s acts id candidates →
      q'.SucceedsAmong s' acts' id candidates →
        (q.play s acts).state.current = (q'.play s' acts').state.current := by
  constructor
  · intro hcurrent hleaves hleaves' hopen
    rw [id_active?_of_leaves hleaves, id_active?_of_leaves hleaves', hcurrent, hopen]
  · intro acts acts' id candidates hsucceeds hsucceeds'
    rw [current_play_of_succeedsAmong hsucceeds, current_play_of_succeedsAmong hsucceeds']

/-- The far bank is left when it is closed, here for want of a bridge and there for want of having
come from the near one. The crossing succeeds at a river and at the rapids. -/
theorem choice_of_candidates_at_rivers :
    let q := twoBanks [.flag "story" "bridge" true]
    let q' := twoBanks [.compare .eq State.positionPath (.text "near")]
    let s := State.fresh .nil "far"
    let s' := { State.fresh ⟨7⟩ "far" with visited := ["near", "far"], retries := 2 }
    let cross := [Act.objective "cross" "complete"]
    let near := State.fresh .nil "near"
    (s.current = s'.current ∧ q.Leaves s ∧ q'.Leaves s' ∧ q.openIds s = q'.openIds s') ∧
    (q.active? s).map Node.id = (q'.active? s').map Node.id ∧
    ((twoBanks []).SucceedsAmong near cross "near" ["far"] ∧
      rapids.SucceedsAmong near cross "near" ["far"]) ∧
    ((twoBanks []).play near cross).state.current = (rapids.play near cross).state.current := by
  intro q q' s s' cross near
  have hleaves : q.Leaves s := leaves_iff.mpr fun n hn => by
    obtain rfl := Option.some.inj hn
    decide +kernel
  have hleaves' : q'.Leaves s' := leaves_iff.mpr fun n hn => by
    obtain rfl := Option.some.inj hn
    decide +kernel
  have hopen : q.openIds s = q'.openIds s' := by decide +kernel
  have hriver : (twoBanks []).SucceedsAmong near cross "near" ["far"] :=
    ⟨_, rfl, rfl, by decide, by decide +kernel⟩
  have hrapids : rapids.SucceedsAmong near cross "near" ["far"] :=
    ⟨_, rfl, rfl, by decide, by decide +kernel⟩
  exact ⟨⟨rfl, hleaves, hleaves', hopen⟩,
    (choice_of_candidates q q' s s').1 rfl hleaves hleaves' hopen, ⟨hriver, hrapids⟩,
    (choice_of_candidates (twoBanks []) rapids near near).2 cross cross "near" ["far"] hriver
      hrapids⟩

end Quest

end Questline
