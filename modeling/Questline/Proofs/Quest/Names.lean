import Mathlib.Data.List.Nodup
import Questline.Proofs.Quest.Selection

/-! # Names of nodes

A sound quest declares every id once, so an id stands for one node, and looking up the id of a node
finds that node.

* `Quest.firstRepeat?_eq_none_iff`: no id is repeated.
* `Quest.nodup_ids_of_check`: the ids of a sound quest are distinct.
* `Quest.node?_of_mem`, `Quest.eq_of_id_eq`: an id stands for one node. -/

namespace Questline

namespace Quest

variable {q : Quest} {m n : Node}

theorem firstRepeat?_eq_none_iff {seen ids : List String} :
    firstRepeat? seen ids = none ↔ ids.Nodup ∧ ∀ id ∈ ids, id ∉ seen := by
  induction ids generalizing seen with
  | nil => simp [firstRepeat?]
  | cons id rest ih =>
    rw [firstRepeat?, List.nodup_cons]
    by_cases hseen : id ∈ seen
    · rw [if_pos hseen]
      constructor
      · intro h
        cases h
      · rintro ⟨-, hfresh⟩
        exact absurd hseen (hfresh id List.mem_cons_self)
    · rw [if_neg hseen, ih]
      constructor
      · rintro ⟨hnodup, hfresh⟩
        refine ⟨⟨fun hmem => hfresh id hmem List.mem_cons_self, hnodup⟩, fun other hother => ?_⟩
        rcases List.mem_cons.mp hother with rfl | hrest
        · exact hseen
        · exact fun hmem => hfresh other hrest (List.mem_cons_of_mem id hmem)
      · rintro ⟨⟨hnew, hnodup⟩, hfresh⟩
        refine ⟨hnodup, fun other hother hmem => ?_⟩
        rcases List.mem_cons.mp hmem with rfl | hmem
        · exact hnew hother
        · exact hfresh other (List.mem_cons_of_mem id hother) hmem

/-- The ids of a sound quest are distinct. -/
theorem nodup_ids_of_check (h : q.check = none) : q.ids.Nodup := by
  unfold check at h
  split at h
  · cases h
  · rename_i hrepeat
    exact (firstRepeat?_eq_none_iff.mp hrepeat).1

/-- **An id stands for one node.** -/
theorem eq_of_id_eq (h : q.check = none) (hm : m ∈ q.nodes) (hn : n ∈ q.nodes)
    (hid : m.id = n.id) : m = n :=
  List.inj_on_of_nodup_map (nodup_ids_of_check h) hm hn hid

/-- Looking up the id of a node finds that node. -/
theorem node?_of_mem (h : q.check = none) (hn : n ∈ q.nodes) : q.node? n.id = some n := by
  cases hfound : q.node? n.id with
  | none =>
    have hmiss := List.find?_eq_none.mp hfound n hn
    simp at hmiss
  | some m =>
    obtain ⟨hm, hid⟩ := node?_eq_some hfound
    rw [eq_of_id_eq h hm hn hid]

end Quest

end Questline
