import Questline.Document.Quest
import Questline.Proofs.Guard.Same
import Questline.Proofs.Json.Ranges
import Questline.Proofs.Quest.Frontier

/-! # The guards on the way

A briefing tells of each way out which guards were passed: those of the edge as they stand, then
those of the node that are not the same as one before them. What is left out is asked already, so
together the guards ask for no more and no less than that the edge and the node are open. But the
guards of the edge are taken as they are, and what is repeated among them stays repeated.

* `Guard.Distinct`: no two guards of a list are the same. `Guard.Added`: what one list of guards
  adds to another.
* `Guard.allHold_addGuard`, `Guard.exists_added`: what one guard changes, and a list of them.
* `Quest.guards_on_the_way`: the guards of an entry hold just when the entry is listed.
* `gatingGuards_distinct_iff`: which guards are listed, and when none is listed twice. Not all lists
  are without repeats: `gatingGuards_repeated`. -/

namespace Questline

namespace Guard

/-! ### Merged guards -/

/-- **No two guards of a list are the same.** -/
def Distinct (guards : List Guard) : Prop := guards.Pairwise fun g h => g.same h = false

instance (guards : List Guard) : Decidable (Distinct guards) :=
  inferInstanceAs (Decidable (guards.Pairwise fun g h => g.same h = false))

/-- **What a list of guards adds to another:** those of its guards that are not the same as one
before them, in order. -/
structure Added (before guards added : List Guard) : Prop where
  sublist : added.Sublist guards
  distinct : Distinct added
  differ : ∀ g ∈ before, ∀ h ∈ added, g.same h = false
  covers : ∀ h ∈ guards, h ∈ added ∨ ∃ g ∈ before ++ added, g.same h = true

/-- **Adding a guard** asks for one more guard, also when the same one is there already. -/
theorem allHold_addGuard {guards : List Guard} {g : Guard} {f : Facts} :
    allHold (addGuard guards g) f = true ↔ allHold guards f = true ∧ g.holds f = true := by
  unfold addGuard
  split
  · rename_i hany
    obtain ⟨h, hh, hsame⟩ := List.any_eq_true.mp hany
    refine ⟨fun hall => ⟨hall, ?_⟩, And.left⟩
    rw [← holds_eq_of_same hsame]
    exact allHold_iff.mp hall h hh
  · rw [allHold_iff, allHold_iff, List.forall_mem_append, List.forall_mem_singleton]

theorem allHold_foldl_addGuard {before guards : List Guard} {f : Facts} :
    allHold (guards.foldl addGuard before) f = true ↔
      allHold before f = true ∧ allHold guards f = true := by
  induction guards generalizing before with
  | nil => simp [allHold]
  | cons g rest ih =>
    have hcons : allHold (g :: rest) f = true ↔ g.holds f = true ∧ allHold rest f = true := by
      rw [allHold, List.all_cons, Bool.and_eq_true]
      rfl
    rw [List.foldl_cons, ih, allHold_addGuard, hcons, and_assoc]

/-- **A list of guards is merged into another** by what it adds. -/
theorem exists_added (before guards : List Guard) :
    ∃ added, guards.foldl addGuard before = before ++ added ∧ Added before guards added := by
  induction guards generalizing before with
  | nil =>
    refine ⟨[], (List.append_nil before).symm, .refl _, .nil, ?_, ?_⟩
    · exact fun _ _ h hh => absurd hh List.not_mem_nil
    · exact fun h hh => absurd hh List.not_mem_nil
  | cons g rest ih =>
    rw [List.foldl_cons, addGuard]
    split
    · -- the same guard is there already
      rename_i hany
      obtain ⟨g', hg', hsame⟩ := List.any_eq_true.mp hany
      obtain ⟨added, heq, hadded⟩ := ih before
      refine ⟨added, heq, hadded.sublist.cons g, hadded.distinct, hadded.differ, ?_⟩
      exact List.forall_mem_cons.mpr
        ⟨.inr ⟨g', List.mem_append_left added hg', hsame⟩, hadded.covers⟩
    · -- the guard joins those before it
      rename_i hany
      obtain ⟨added, heq, hadded⟩ := ih (before ++ [g])
      have hnew : ∀ g' ∈ before, g'.same g = false := by simpa using hany
      have hdiffer := hadded.differ
      have hcovers := hadded.covers
      rw [List.append_assoc, List.singleton_append] at heq hcovers
      rw [List.forall_mem_append, List.forall_mem_singleton] at hdiffer
      refine ⟨g :: added, heq, hadded.sublist.cons_cons g, ?_, ?_, ?_⟩
      · exact List.pairwise_cons.mpr ⟨hdiffer.2, hadded.distinct⟩
      · intro g' hg'
        exact List.forall_mem_cons.mpr ⟨hnew g' hg', hdiffer.1 g' hg'⟩
      · refine List.forall_mem_cons.mpr ⟨.inl List.mem_cons_self, fun h hh => ?_⟩
        exact (hcovers h hh).imp_left (List.mem_cons_of_mem g)

end Guard

/-! ### The guards of an entry -/

namespace Quest

theorem passable_eq_allHold (f : Facts) (e : Edge) (target : Node) :
    passable f e target = Guard.allHold (gatingGuards e target) f := by
  rw [Bool.eq_iff_iff, gatingGuards, Guard.allHold_foldl_addGuard, passable, Bool.and_eq_true,
    and_comm]
  rfl

/-- **The guards on the way ask for what the way asks for.** They hold just when all guards of the
edge and all guards of the node hold. So a briefing lists the edges that leave the current node and
of which these guards hold, and the summary of an entry is the text of the guards that it is listed
for. -/
theorem guards_on_the_way :
    (∀ (e : Edge) (target : Node) (f : Facts), Guard.allHold (gatingGuards e target) f = true ↔
      Guard.allHold e.guards f = true ∧ Guard.allHold target.enterIf f = true) ∧
    ∀ (q : Quest) (s : State) (b : Briefing), q.briefing s = .ok b →
      ∃ n ∈ q.nodes, s.current = some n.id ∧
        b.frontier = (q.leaving n.id).filterMap fun e =>
          ((q.node? e.target).filter fun target =>
            Guard.allHold (gatingGuards e target) s.facts).map fun target =>
              { id := target.id, kind := target.kind, synopsis := target.synopsis
                hint := target.hint, guardSummary := Guard.summary (gatingGuards e target) } := by
  constructor
  · intro e target f
    exact Guard.allHold_foldl_addGuard
  · intro q s b hb
    obtain ⟨n, hn, hcurrent, rfl⟩ := eq_of_briefing hb
    refine ⟨n, hn, hcurrent, ?_⟩
    rw [openEdges, List.map_filterMap]
    refine List.filterMap_congr fun e _ => ?_
    have hpassable : passable s.facts e = fun target =>
        Guard.allHold (gatingGuards e target) s.facts := funext (passable_eq_allHold s.facts e)
    rw [hpassable, Option.map_map]
    rfl

/-- A ferry that takes nobody in debt. The edge and the node both say so, with zeros of either
sign. -/
def ferry : Quest where
  id := "ferry"
  start := "dock"
  nodes := [
    { id := "dock", kind := .beat, synopsis := "A foggy dock.", enterIf := []
      onSuccess := [], onFail := [], hint := none },
    { id := "boat", kind := .objective, synopsis := "Board the ferry."
      enterIf := [.compare .gte "currency.player.coins" (.float Binary64.zero.neg)]
      onSuccess := [], onFail := [], hint := none }]
  edges := [⟨"dock", "boat", [.compare .gte "currency.player.coins" (.float .zero)]⟩]

/-- The boat is listed for one guard, which stands for both. -/
theorem guards_on_the_way_of_ferry :
    let s := State.fresh .nil "dock"
    ∃ b, ferry.briefing s = .ok b ∧
      (b.frontier.map FrontierEntry.guardSummary =
        [Guard.summary [.compare .gte "currency.player.coins" (.float .zero)]]) ∧
      ∃ n ∈ ferry.nodes, s.current = some n.id ∧
        b.frontier = (ferry.leaving n.id).filterMap fun e =>
          ((ferry.node? e.target).filter fun target =>
            Guard.allHold (gatingGuards e target) s.facts).map fun target =>
              { id := target.id, kind := target.kind, synopsis := target.synopsis
                hint := target.hint, guardSummary := Guard.summary (gatingGuards e target) } := by
  intro s
  obtain ⟨b, hb⟩ : ∃ b, ferry.briefing s = .ok b := ⟨_, briefing_of_node? rfl rfl⟩
  obtain ⟨n, hn, hcurrent, hfrontier⟩ := guards_on_the_way.2 ferry s b hb
  have hsummaries : (ferry.briefing s).map (fun b => b.frontier.map FrontierEntry.guardSummary) =
      .ok [Guard.summary [.compare .gte "currency.player.coins" (.float .zero)]] := by rfl
  rw [hb] at hsummaries
  exact ⟨b, hb, Except.ok.inj hsummaries, n, hn, hcurrent, hfrontier⟩

end Quest

/-! ### Repeats -/

/-- **The guards on the way** are those of the edge and then what the node adds to them: the guards
of the node, in order, that are not the same as one before them. So each guard of the edge or the
node stands there itself or by one that is the same, and none is repeated just when the edge does
not repeat one. -/
theorem gatingGuards_distinct_iff (e : Edge) (n : Node) :
    (∃ added, gatingGuards e n = e.guards ++ added ∧ Guard.Added e.guards n.enterIf added) ∧
    (∀ g, g ∈ e.guards ∨ g ∈ n.enterIf →
      g ∈ gatingGuards e n ∨ ∃ h ∈ gatingGuards e n, h.same g = true) ∧
    (Guard.Distinct (gatingGuards e n) ↔ Guard.Distinct e.guards) := by
  obtain ⟨added, heq, hadded⟩ := Guard.exists_added e.guards n.enterIf
  rw [← gatingGuards] at heq
  refine ⟨⟨added, heq, hadded⟩, ?_, ?_⟩
  · rw [heq]
    rintro g (hg | hg)
    · exact .inl (List.mem_append_left added hg)
    · exact (hadded.covers g hg).imp_left (List.mem_append_right e.guards)
  · rw [heq, Guard.Distinct, List.pairwise_append]
    exact ⟨And.left, fun hedge => ⟨hedge, hadded.distinct, hadded.differ⟩⟩

/-- A toll that is asked for twice is listed twice. -/
theorem gatingGuards_repeated :
    ¬∀ (i j : Json) (e : Edge) (n : Node), i.InRange → j.InRange →
      Edge.ofJson? i = some e → Node.ofJson? j = some n →
      Guard.Distinct (gatingGuards e n) ∧
      (∀ g, (∃ h ∈ gatingGuards e n, h.same g = true) ↔
        ∃ h ∈ e.guards ++ n.enterIf, h.same g = true) ∧
      e.guards <+: gatingGuards e n := by
  intro hall
  let toll : Guard := .flag "story" "paid" true
  let e : Edge := ⟨"near", "far", [toll, toll]⟩
  let n : Node := ⟨"far", .beat, "Rest.", [], [], [], none⟩
  have hinRange : e.toJson.InRange ∧ n.toJson.InRange := by
    simp [e, n, toll, Edge.toJson, Edge.fields, Node.toJson, Node.fields, NodeKind.toJson,
      Guard.toJson, Json.listFieldOf, Json.fieldOf, Json.ofList, Json.InRange, Json.leaves,
      Json.leavesFields, Json.leavesItems, Json.LeafInRange]
  obtain ⟨hdistinct, -⟩ := hall e.toJson n.toJson e n hinRange.1 hinRange.2 rfl rfl
  revert hdistinct
  decide

end Questline
