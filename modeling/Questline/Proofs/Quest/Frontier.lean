import Mathlib.Data.List.Forall2
import Questline.Proofs.Quest.Names
import Questline.Proofs.Quest.Place

/-! # The frontier

In a sound quest every edge ends at exactly one node. So the frontier of a node has one entry for
each edge that leaves the node and is open, in the order of the edges, and no edge is lost for want
of a target. The briefing has the same entries, those of the node where the game stands.

* `Node.OpenIn`, `Edge.OpenIn`: all guards hold in a state.
* `Quest.Names`: the one node that an id stands for. `Quest.waysOut`: the edges that leave an id and
  are open, in order.
* `Quest.forall₂_openEdges`: the edges that can be taken are the ways out, each with the node that
  its end names.
* `Quest.briefing_eq_error_iff`: when there is no briefing.
* `Quest.frontier_and_briefing`: what the frontier and the briefing list. -/

namespace Questline

/-- **A node is open** in a state: all of its guards hold. -/
def Node.OpenIn (n : Node) (s : State) : Prop := ∀ g ∈ n.enterIf, g.holds s.facts = true

instance (n : Node) (s : State) : Decidable (n.OpenIn s) :=
  inferInstanceAs (Decidable (∀ g ∈ n.enterIf, g.holds s.facts = true))

/-- **The guards of an edge** all hold in a state. -/
def Edge.OpenIn (e : Edge) (s : State) : Prop := ∀ g ∈ e.guards, g.holds s.facts = true

instance (e : Edge) (s : State) : Decidable (e.OpenIn s) :=
  inferInstanceAs (Decidable (∀ g ∈ e.guards, g.holds s.facts = true))

theorem Node.enterable_iff {n : Node} {s : State} : n.enterable s = true ↔ n.OpenIn s :=
  Guard.allHold_iff

/-- A list filtered by what a partial function is defined on, beside the values of the function. -/
theorem forall₂_filterMap {α β : Type} {R : α → β → Prop} {p : α → Bool} {g : α → Option β}
    {l : List α} (hsome : ∀ a ∈ l, p a = true → ∃ b, g a = some b ∧ R a b)
    (hnone : ∀ a ∈ l, p a = false → g a = none) :
    List.Forall₂ R (l.filter p) (l.filterMap g) := by
  induction l with
  | nil => exact .nil
  | cons a rest ih =>
    have hrest := ih (fun x hx => hsome x (List.mem_cons_of_mem a hx))
      fun x hx => hnone x (List.mem_cons_of_mem a hx)
    cases hp : p a with
    | true =>
      obtain ⟨b, hg, hab⟩ := hsome a List.mem_cons_self hp
      rw [List.filter_cons_of_pos hp, List.filterMap_cons_some hg]
      exact .cons hab hrest
    | false =>
      rw [List.filter_cons_of_neg (by simp [hp]),
        List.filterMap_cons_none (hnone a List.mem_cons_self hp)]
      exact hrest

namespace Quest

variable {q : Quest} {s : State} {n : Node} {e : Edge} {id : String}

/-! ### Names -/

/-- **An id names a node:** that is the one node of the quest with the id. -/
def Names (q : Quest) (id : String) (n : Node) : Prop := ∀ m, m ∈ q.nodes ∧ m.id = id ↔ m = n

theorem names_of_node? (hq : q.check = none) (h : q.node? id = some n) : q.Names id n := by
  obtain ⟨hn, rfl⟩ := node?_eq_some h
  intro m
  constructor
  · rintro ⟨hm, hid⟩
    exact eq_of_id_eq hq hm hn hid
  · rintro rfl
    exact ⟨hn, rfl⟩

theorem exists_names_of_mem_ids (hq : q.check = none) (h : id ∈ q.ids) : ∃ n, q.Names id n := by
  obtain ⟨n, hnode⟩ := Option.isSome_iff_exists.mp (node?_isSome_iff.mpr h)
  exact ⟨n, names_of_node? hq hnode⟩

/-! ### The ways out -/

/-- **An edge is open in a quest:** its guards hold and it ends at an open node. -/
def Opens (q : Quest) (s : State) (e : Edge) : Prop :=
  e.OpenIn s ∧ ∃ n ∈ q.nodes, n.id = e.target ∧ n.OpenIn s

instance (q : Quest) (s : State) (e : Edge) : Decidable (q.Opens s e) :=
  inferInstanceAs (Decidable (e.OpenIn s ∧ ∃ n ∈ q.nodes, n.id = e.target ∧ n.OpenIn s))

/-- **The ways out of an id:** the edges that leave it and are open, in order. -/
def waysOut (q : Quest) (s : State) (id : String) : List Edge :=
  q.edges.filter fun e => e.source = id ∧ q.Opens s e

theorem waysOut_eq : q.waysOut s id = (q.leaving id).filter fun e => q.Opens s e := by
  rw [waysOut, leaving, List.filter_filter]
  refine congrArg (q.edges.filter ·) (funext fun e => ?_)
  rw [Bool.decide_and, Bool.and_comm]
  rfl

theorem passable_iff : passable s.facts e n = true ↔ e.OpenIn s ∧ n.OpenIn s := by
  rw [passable, Bool.and_eq_true, and_comm]
  exact and_congr Guard.allHold_iff Guard.allHold_iff

/-- **The edges that can be taken** are the ways out, each with the node that its end names. -/
theorem forall₂_openEdges (hq : q.check = none) (s : State) (id : String) :
    List.Forall₂ (fun e out => e = out.1 ∧ q.Names e.target out.2) (q.waysOut s id)
      (q.openEdges s.facts id) := by
  rw [waysOut_eq]
  refine forall₂_filterMap (fun e _ hopen => ?_) fun e _ hclosed => ?_
  · obtain ⟨hedge, n, hn, hid, hnode⟩ := of_decide_eq_true hopen
    have hfound : q.node? e.target = some n := hid ▸ node?_of_mem hq hn
    have hpass : passable s.facts e n = true := passable_iff.mpr ⟨hedge, hnode⟩
    refine ⟨(e, n), ?_, rfl, names_of_node? hq hfound⟩
    rw [hfound, Option.filter_some_pos hpass, Option.map_some]
  · rw [Option.map_eq_none_iff, Option.filter_eq_none_iff]
    intro n hfound hpass
    obtain ⟨hedge, hnode⟩ := passable_iff.mp hpass
    obtain ⟨hn, hid⟩ := node?_eq_some hfound
    exact of_decide_eq_false hclosed ⟨hedge, n, hn, hid, hnode⟩

/-- The frontier lists the nodes where the ways out end. -/
theorem forall₂_frontier (hq : q.check = none) (s : State) (id : String) :
    List.Forall₂ (fun e target => q.Names e.target target) (q.waysOut s id)
      (q.frontier s id) := by
  rw [frontier, List.forall₂_map_right_iff]
  exact (forall₂_openEdges hq s id).imp fun _ _ h => h.2

theorem map_fst_openEdges (hq : q.check = none) (s : State) (id : String) :
    (q.openEdges s.facts id).map Prod.fst = q.waysOut s id := by
  have hsame : List.Forall₂ (· = ·) (q.waysOut s id) ((q.openEdges s.facts id).map Prod.fst) := by
    rw [List.forall₂_map_right_iff]
    exact (forall₂_openEdges hq s id).imp fun _ _ h => h.1
  rw [List.forall₂_eq_eq_eq] at hsame
  exact hsame.symm

/-! ### The briefing -/

theorem node?_eq_none_iff : q.node? id = none ↔ ∀ n ∈ q.nodes, n.id ≠ id := by
  rw [node?, List.find?_eq_none]
  simp only [beq_iff_eq, ne_eq]

theorem briefing_of_current_eq_none (hcurrent : s.current = none) :
    q.briefing s = .error .noCurrentNode := by
  rw [briefing, hcurrent]

theorem briefing_of_node?_eq_none (hcurrent : s.current = some id) (hnode : q.node? id = none) :
    q.briefing s = .error (.unknownCurrentNode id q.id) := by
  rw [briefing, hcurrent]
  simp only [hnode]

/-- **There is no briefing** just when the game stands on no node. -/
theorem briefing_eq_error_iff {fault : PlaceFault} :
    q.briefing s = .error fault ↔
      (s.current = none ∧ fault = .noCurrentNode) ∨
        ∃ id, s.current = some id ∧ (∀ n ∈ q.nodes, n.id ≠ id) ∧
          fault = .unknownCurrentNode id q.id := by
  constructor
  · intro hfault
    cases hcurrent : s.current with
    | none =>
      rw [briefing_of_current_eq_none hcurrent] at hfault
      exact .inl ⟨rfl, (Except.error.inj hfault).symm⟩
    | some id =>
      cases hnode : q.node? id with
      | none =>
        rw [briefing_of_node?_eq_none hcurrent hnode] at hfault
        exact .inr ⟨id, rfl, node?_eq_none_iff.mp hnode, (Except.error.inj hfault).symm⟩
      | some n =>
        rw [briefing_of_node? hcurrent hnode] at hfault
        cases hfault
  · rintro (⟨hcurrent, rfl⟩ | ⟨id, hcurrent, habsent, rfl⟩)
    · exact briefing_of_current_eq_none hcurrent
    · exact briefing_of_node?_eq_none hcurrent (node?_eq_none_iff.mpr habsent)

/-- **The frontier and the briefing.** In a sound quest the end of every edge that leaves a node
names a node, and the frontier lists, in order, the nodes named by the ends of the ways out. There
is no briefing just when the game stands on no node. Else it tells of the current node and, in the
order of the frontier, of each node there: what the node says of itself, and the guards that were
passed on the way out that leads to it. -/
theorem frontier_and_briefing (hq : q.check = none) (s : State) :
    (∀ n ∈ q.nodes,
      (∀ e ∈ q.edges, e.source = n.id → ∃ target, q.Names e.target target) ∧
      List.Forall₂ (fun e target => q.Names e.target target) (q.waysOut s n.id)
        (q.frontier s n.id)) ∧
    (∀ fault, q.briefing s = .error fault ↔
      (s.current = none ∧ fault = .noCurrentNode) ∨
        ∃ id, s.current = some id ∧ (∀ n ∈ q.nodes, n.id ≠ id) ∧
          fault = .unknownCurrentNode id q.id) ∧
    ∀ n ∈ q.nodes, s.current = some n.id →
      ∃ b, q.briefing s = .ok b ∧
        b.node = { id := n.id, kind := n.kind, synopsis := n.synopsis } ∧
        b.frontier.map FrontierEntry.id = (q.frontier s n.id).map Node.id ∧
        b.frontier = List.zipWith
          (fun e target =>
            { id := target.id, kind := target.kind, synopsis := target.synopsis
              hint := target.hint, guardSummary := Guard.summary (gatingGuards e target) })
          (q.waysOut s n.id) (q.frontier s n.id) := by
  refine ⟨fun n hn => ⟨fun e he _ => ?_, forall₂_frontier hq s n.id⟩,
    fun fault => briefing_eq_error_iff, fun n hn hcurrent => ?_⟩
  · exact exists_names_of_mem_ids hq (ends_mem_ids_of_check hq he).2
  · refine ⟨_, briefing_of_node? hcurrent (node?_of_mem hq hn), rfl, ?_, ?_⟩
    · rw [frontier, List.map_map, List.map_map]
      rfl
    · rw [← map_fst_openEdges hq, frontier, List.zipWith_map, List.zipWith_self]
      rfl

/-- A ford beside a barred bridge. The far bank is declared first, two edges lead to it from the
near one, and one may stay where one is. -/
def ford : Quest where
  id := "ford"
  start := "near"
  nodes := [
    farBank [],
    { id := "near", kind := .objective, synopsis := "Wade across.", enterIf := []
      onSuccess := [], onFail := [], hint := some "Mind the current." },
    { id := "bridge", kind := .gate, synopsis := "A barred bridge."
      enterIf := [.flag "story" "bridge" true], onSuccess := [], onFail := [], hint := none }]
  edges := [⟨"near", "far", []⟩, ⟨"near", "bridge", []⟩, ⟨"near", "near", []⟩,
    ⟨"far", "near", []⟩, ⟨"near", "far", [.flag "story" "flood" false]⟩]

/-- From the near bank there are two ways to the far one and one that stays, each in its place. The
second way to the far bank is the one that asks for something. -/
theorem frontier_and_briefing_of_ford :
    let s := State.fresh .nil "near"
    ford.check = none ∧
    (∃ far near, ford.Names "far" far ∧ ford.Names "near" near ∧
      ford.frontier s "near" = [far, near, far]) ∧
    ∃ b, ford.briefing s = .ok b ∧ b.node = ⟨"near", .objective, "Wade across."⟩ ∧
      b.frontier.map FrontierEntry.id = ["far", "near", "far"] ∧
      b.frontier = [⟨"far", .setpiece, "The far bank.", none, none⟩,
        ⟨"near", .objective, "Wade across.", some "Mind the current.", none⟩,
        ⟨"far", .setpiece, "The far bank.", none, some "flag story.flood == false"⟩] := by
  intro s
  have hcheck : ford.check = none := by decide
  obtain ⟨hlists, -, hbriefing⟩ := frontier_and_briefing hcheck s
  have hnear : ford.nodes[1] ∈ ford.nodes := List.getElem_mem _
  obtain ⟨b, hb, hnode, hids, hentries⟩ := hbriefing ford.nodes[1] hnear rfl
  have hends : (ford.waysOut s "near").map Edge.target = ["far", "near", "far"] := by decide
  have hnamed : List.Forall₂ ford.Names ["far", "near", "far"] (ford.frontier s "near") := by
    rw [← hends, List.forall₂_map_left_iff]
    exact (hlists ford.nodes[1] hnear).2
  refine ⟨hcheck, ?_, b, hb, hnode, hids.trans (by decide), hentries.trans (by rfl)⟩
  generalize ford.frontier s "near" = targets at hnamed
  obtain _ | ⟨hfar, _ | ⟨hstay, _ | ⟨hagain, ⟨⟩⟩⟩⟩ := hnamed
  obtain rfl := (hfar _).mp ((hagain _).mpr rfl)
  exact ⟨_, _, hfar, hstay, rfl⟩

end Quest

end Questline
