import Questline.Proofs.Quest.Books
import Questline.Proofs.Quest.Move
import Questline.Quest.Briefing
import Questline.Quest.Stall

/-! # Replays

The engine reads a state through what guards see of it, its current node, its resources and its
retries. The id of the game and the logs of visits and failures are carried along and never read. So
two games that stand at the same point of the story, whoever plays them and whatever they went
through, go on alike under the same acts.

* `State.stripped`: a state without its identity and logs. `State.SamePoint`: two states that are
  equal without them.
* `Quest.active?_stripped`, `Quest.frontier_stripped`, `Quest.briefing_stripped`,
  `Quest.diagnose_stripped`: nothing that is asked of a state reads them.
* `Quest.play_of_samePoint`: one turn. `Quest.replay_of_samePoint`: runs. -/

namespace Questline

namespace State

/-- The state without its identity and logs. -/
def stripped (s : State) : State := { s with gameId := .nil, visited := [], failures := [] }

/-- **Two states at the same point of the story:** they are equal except for their identities and
logs. -/
def SamePoint (s s' : State) : Prop := s.stripped = s'.stripped

variable {s s' : State}

theorem SamePoint.symm (h : s.SamePoint s') : s'.SamePoint s := Eq.symm h

theorem changes_stripped (s : State) (e : Effect) : s.stripped.changes e = s.changes e := by
  cases e <;> rfl

theorem apply_stripped (s : State) (e : Effect) : s.stripped.apply e = (s.apply e).stripped := by
  cases e <;> rfl

end State

/-- Acts work on a stripped state as on the state itself. -/
theorem applyAll_stripped (s : State) (acts : List Act) :
    applyAll s.stripped acts = ((applyAll s acts).1.stripped, (applyAll s acts).2) := by
  induction acts generalizing s with
  | nil => rfl
  | cons a rest ih => simp only [applyAll, State.apply_stripped, State.changes_stripped, ih]

theorem Node.outcome_stripped (n : Node) (acts : List Act) (s : State) :
    n.outcome acts s.stripped =
      { n.outcome acts s with state := (n.outcome acts s).state.stripped } := by
  simp only [outcome, applyAll_stripped]

namespace Quest

variable {q : Quest} {s s' : State}

/-! ### What is asked of a state -/

theorem active?_stripped (q : Quest) (s : State) : q.active? s.stripped = q.active? s := rfl

theorem frontier_stripped (q : Quest) (s : State) (id : String) :
    q.frontier s.stripped id = q.frontier s id := rfl

theorem briefing_stripped (q : Quest) (s : State) : q.briefing s.stripped = q.briefing s := rfl

theorem diagnose_stripped (q : Quest) (s : State) (history : List TurnRecord) (c : Settings) :
    q.diagnose s.stripped history c = q.diagnose s history c := rfl

/-! ### Turns -/

theorem advance_stripped (q : Quest) (s : State) (id : String) :
    (q.advance s id).stripped = q.advance s.stripped id := by
  have hfrontier : q.frontier { s.stripped with retries := 0 } id =
      q.frontier { s with retries := 0 } id := rfl
  simp only [advance, hfrontier]
  cases Draw.choose id (q.frontier { s with retries := 0 } id) with
  | none => rfl
  | some target => rfl

/-- The books of a turn on a stripped state differ in their logs only. -/
theorem samePoint_settle (q : Quest) (branch : Option Branch) (s : State) (id : String) :
    (q.settle branch s.stripped id).SamePoint (q.settle branch s id) := by
  rcases branch with _ | _ | _
  · rfl
  · show (q.advance (s.stripped.arrive id) id).stripped = (q.advance (s.arrive id) id).stripped
    rw [advance_stripped, advance_stripped]
    rfl
  · rfl

theorem play_stripped (q : Quest) (s : State) (acts : List Act) :
    (q.play s.stripped acts).active = (q.play s acts).active ∧
      (q.play s.stripped acts).branch = (q.play s acts).branch ∧
      (q.play s.stripped acts).record = (q.play s acts).record ∧
      (q.play s.stripped acts).state.SamePoint (q.play s acts).state := by
  cases hactive : q.active? s with
  | none =>
    rw [play_of_active?_eq_none hactive, play_of_active?_eq_none (s := s.stripped) hactive]
    exact ⟨rfl, rfl, rfl, rfl⟩
  | some n =>
    rw [play_of_active? hactive, play_of_active? (s := s.stripped) hactive, n.outcome_stripped]
    exact ⟨rfl, rfl, rfl, samePoint_settle q _ _ n.id⟩

/-- **A turn reads neither the identity nor the logs:** from two states at the same point it is
played on the same node and branch, leaves the same record and ends at the same point. -/
theorem play_of_samePoint (h : s.SamePoint s') (q : Quest) (acts : List Act) :
    (q.play s acts).active = (q.play s' acts).active ∧
      (q.play s acts).branch = (q.play s' acts).branch ∧
      (q.play s acts).record = (q.play s' acts).record ∧
      (q.play s acts).state.SamePoint (q.play s' acts).state := by
  obtain ⟨hactive, hbranch, hrecord, hstate⟩ := play_stripped q s acts
  obtain ⟨hactive', hbranch', hrecord', hstate'⟩ := play_stripped q s' acts
  rw [show s.stripped = s'.stripped from h] at hactive hbranch hrecord hstate
  exact ⟨hactive.symm.trans hactive', hbranch.symm.trans hbranch', hrecord.symm.trans hrecord',
    hstate.symm.trans hstate'⟩

/-- A turn keeps the identity of the game. -/
theorem gameId_play (q : Quest) (s : State) (acts : List Act) :
    (q.play s acts).state.gameId = s.gameId := by
  cases hactive : q.active? s with
  | none => rw [play_of_active?_eq_none hactive]
  | some n =>
    obtain ⟨_, _, _, houtcome⟩ := applyAll_frame s (n.templates (n.branch? acts))
    have hstate : (n.outcome acts s).state = _ := houtcome
    obtain ⟨_, hsettle⟩ :=
      exists_settle_eq q (n.outcome acts s).branch (n.outcome acts s).state n.id
    rw [play_of_active? hactive, hsettle, hstate]

/-! ### Runs -/

theorem samePoint_stateAfter (h : s.SamePoint s') (actLists : List (List Act)) :
    (q.stateAfter s actLists).SamePoint (q.stateAfter s' actLists) := by
  induction actLists generalizing s s' with
  | nil => exact h
  | cons acts rest ih => exact ih (play_of_samePoint h q acts).2.2.2

theorem gameId_stateAfter (q : Quest) (s : State) (actLists : List (List Act)) :
    (q.stateAfter s actLists).gameId = s.gameId :=
  stateAfter_keeps (P := fun t => t.gameId = s.gameId)
    (fun t acts ht => (gameId_play q t acts).trans ht) rfl actLists

/-- Two states at the same point give the same answers. -/
theorem answers_of_samePoint (h : s.SamePoint s') :
    q.active? s = q.active? s' ∧ (∀ id, q.frontier s id = q.frontier s' id) ∧
      q.briefing s = q.briefing s' ∧
      ∀ history c, q.diagnose s history c = q.diagnose s' history c := by
  have hsame : s.stripped = s'.stripped := h
  refine ⟨?_, fun id => ?_, ?_, fun history c => ?_⟩
  · rw [← active?_stripped, hsame, active?_stripped]
  · rw [← frontier_stripped, hsame, frontier_stripped]
  · rw [← briefing_stripped, hsame, briefing_stripped]
  · rw [← diagnose_stripped, hsame, diagnose_stripped]

theorem playAll_of_samePoint (h : s.SamePoint s') (actLists : List (List Act)) :
    List.Forall₂ (fun t t' => t.active = t'.active ∧ t.branch = t'.branch ∧ t.record = t'.record ∧
      t.state.SamePoint t'.state) (q.playAll s actLists) (q.playAll s' actLists) := by
  induction actLists generalizing s s' with
  | nil => exact .nil
  | cons acts rest ih =>
    have hturn := play_of_samePoint h q acts
    exact .cons hturn (ih hturn.2.2.2)

/-- **A replay depends on neither the identity nor the logs.** Two runs of the same acts from the
same point have the same nodes, branches and records, turn by turn, and after every turn they are at
the same point: the node to be played on, the frontiers, the briefing and the diagnosis are the
same. No run changes the identity of its game. -/
theorem replay_of_samePoint (h : s.SamePoint s') (q : Quest) (actLists : List (List Act)) :
    List.Forall₂ (fun t t' => t.active = t'.active ∧ t.branch = t'.branch ∧ t.record = t'.record ∧
      t.state.SamePoint t'.state) (q.playAll s actLists) (q.playAll s' actLists) ∧
    ∀ i, let t := q.stateAfter s (actLists.take i)
      let t' := q.stateAfter s' (actLists.take i)
      t.SamePoint t' ∧ q.active? t = q.active? t' ∧ (∀ id, q.frontier t id = q.frontier t' id) ∧
        q.briefing t = q.briefing t' ∧
        (∀ history c, q.diagnose t history c = q.diagnose t' history c) ∧
        t.gameId = s.gameId ∧ t'.gameId = s'.gameId := by
  refine ⟨playAll_of_samePoint h actLists, fun i => ?_⟩
  have hpoint := samePoint_stateAfter (q := q) h (actLists.take i)
  obtain ⟨hactive, hfrontier, hbriefing, hdiagnosis⟩ := answers_of_samePoint (q := q) hpoint
  exact ⟨hpoint, hactive, hfrontier, hbriefing, hdiagnosis, gameId_stateAfter q s _,
    gameId_stateAfter q s' _⟩

/-- A game that has just begun and one that was led back to the near bank after a failure on the far
one both slip and cross the rapids. -/
theorem replay_of_samePoint_rapids :
    let s := State.fresh .nil "near"
    let s' := { State.fresh ⟨7⟩ "near" with visited := ["near", "far"], failures := ["far"] }
    let actLists := [[Act.ofKind "SLIP"], [.objective "cross" "complete"], []]
    s.SamePoint s' ∧
    List.Forall₂ (fun t t' => t.active = t'.active ∧ t.branch = t'.branch ∧ t.record = t'.record ∧
      t.state.SamePoint t'.state) (rapids.playAll s actLists) (rapids.playAll s' actLists) ∧
    ∀ i, let t := rapids.stateAfter s (actLists.take i)
      let t' := rapids.stateAfter s' (actLists.take i)
      t.SamePoint t' ∧ rapids.active? t = rapids.active? t' ∧
        (∀ id, rapids.frontier t id = rapids.frontier t' id) ∧
        rapids.briefing t = rapids.briefing t' ∧
        (∀ history c, rapids.diagnose t history c = rapids.diagnose t' history c) ∧
        t.gameId = s.gameId ∧ t'.gameId = s'.gameId := by
  intro s s' actLists
  have hpoint : s.SamePoint s' := rfl
  exact ⟨hpoint, replay_of_samePoint hpoint rapids actLists⟩

end Quest

end Questline
