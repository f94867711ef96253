import Mathlib.Data.Finset.Dedup
import Questline.Proofs.Quest.Move

/-! # Acts choose a branch

The acts of a turn are matched against the templates of a node by their kind and id, and what is
applied are the templates. So of the acts only the set of these pairs counts: neither their order
and number nor what else they carry reaches the game.

* `Act.tag`, `tags`: the kind and the id of an act, and the set of them for a list of acts.
* `Node.outcome_of_tags_eq`: acts with the same tags have the same outcome.
* `Quest.play_of_tags_eq`: one turn. `Quest.playAll_of_tags_eq`: a run. -/

namespace Questline

/-- The kind and the id of an act, all of it that templates are compared with. -/
def Act.tag (a : Act) : String × Option String := (a.kind, a.id)

/-- The tags of a list of acts. -/
def tags (acts : List Act) : Finset (String × Option String) := (acts.map Act.tag).toFinset

theorem mem_tags_iff {acts : List Act} {p : String × Option String} :
    p ∈ tags acts ↔ ∃ a ∈ acts, a.tag = p := by
  rw [tags, List.mem_toFinset, List.mem_map]

theorem Act.fits_of_tag_eq {a b : Act} (h : a.tag = b.tag) (template : Act) :
    a.fits template = b.fits template := by
  obtain ⟨hkind, hid⟩ := Prod.mk.inj h
  rw [fits, fits, hkind, hid]

namespace Node

variable {acts acts' : List Act}

theorem anyFits_of_tags_subset {templates : List Act} (h : tags acts ⊆ tags acts')
    (hfits : anyFits acts templates = true) : anyFits acts' templates = true := by
  obtain ⟨a, ha, hany⟩ := List.any_eq_true.mp hfits
  obtain ⟨b, hb, htag⟩ := mem_tags_iff.mp (h (mem_tags_iff.mpr ⟨a, ha, rfl⟩))
  refine List.any_eq_true.mpr ⟨b, hb, ?_⟩
  have hsame : b.fits = a.fits := funext fun template => Act.fits_of_tag_eq htag template
  rw [hsame, hany]

theorem anyFits_of_tags_eq (h : tags acts = tags acts') (templates : List Act) :
    anyFits acts templates = anyFits acts' templates :=
  Bool.eq_iff_iff.mpr ⟨anyFits_of_tags_subset h.subset, anyFits_of_tags_subset h.superset⟩

/-- **Acts with the same tags have the same outcome.** -/
theorem outcome_of_tags_eq (h : tags acts = tags acts') (n : Node) (s : State) :
    n.outcome acts s = n.outcome acts' s := by
  have hbranch : n.branch? acts = n.branch? acts' := by
    rw [branch?, branch?, anyFits_of_tags_eq h, anyFits_of_tags_eq h]
  rw [outcome, outcome, hbranch]

end Node

namespace Quest

variable {acts acts' : List Act}

/-- Acts reach a turn through the outcome on the active node only. -/
theorem play_of_outcome_eq {s : State} (h : ∀ n : Node, n.outcome acts s = n.outcome acts' s)
    (q : Quest) : q.play s acts = q.play s acts' := by
  cases hactive : q.active? s with
  | none => rw [play_of_active?_eq_none hactive, play_of_active?_eq_none hactive]
  | some n => rw [play_of_active? hactive, play_of_active? hactive, h n]

/-- **Acts with the same tags play the same turn:** the node, the branch, the state it leaves and
its record are the same. -/
theorem play_of_tags_eq (q : Quest) (s : State) (h : tags acts = tags acts') :
    q.play s acts = q.play s acts' :=
  play_of_outcome_eq (fun n => Node.outcome_of_tags_eq h n s) q

/-- At the river the crossing is told twice and in another order, with another status, a key, a
value and a difference. -/
theorem play_of_tags_eq_crossing :
    let told := [Act.ofKind "NARRATE", .objective "cross" "complete"]
    let retold := [
      { Act.objective "cross" "lost" with key := some "cross", val := some (.bool true) },
      { Act.ofKind "NARRATE" with status := some "complete", delta := some .zero },
      .objective "cross" "complete"]
    tags told = tags retold ∧
      (twoBanks []).play (.fresh .nil "near") told =
        (twoBanks []).play (.fresh .nil "near") retold := by
  intro told retold
  have htags : tags told = tags retold := by decide
  exact ⟨htags, play_of_tags_eq (twoBanks []) (.fresh .nil "near") htags⟩

/-- **Two runs whose acts have the same tags, turn by turn, are the same.** -/
theorem playAll_of_tags_eq (q : Quest) (s : State) {actLists actLists' : List (List Act)}
    (h : List.Forall₂ (fun acts acts' => tags acts = tags acts') actLists actLists') :
    q.playAll s actLists = q.playAll s actLists' := by
  induction h generalizing s with
  | nil => rfl
  | cons hacts _ ih =>
    have hturn := play_of_outcome_eq (fun n => Node.outcome_of_tags_eq hacts n s) q
    rw [playAll, playAll, hturn, ih]

end Quest

end Questline
