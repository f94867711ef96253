import Questline.Proofs.State.Effects
import Questline.Quest.Outcome

/-! # Effective acts

When acts are applied one after the other, the effective ones are those that counted as a change
where they were applied, in the middle of the list. A tracked value that is different in the end was
written by an effective act. Conversely, what an effective act wrote is new and stays, unless
another effective act wrote something else.

* `applyAll_append`: acts applied in two parts.
* `changes_of_mem_effective`: where an effective act was applied.
* `exists_effective_of_ne`: a tracked value is altered by effective acts only.
* `stays_or_overwritten`: what an effective act wrote stays, or is overwritten. -/

namespace Questline

variable {β : Type} {f : State → β} {s : State} {acts : List Act}

theorem applyAll_append (s : State) (front back : List Act) :
    applyAll s (front ++ back) =
      ((applyAll (applyAll s front).1 back).1,
        (applyAll s front).2 ++ (applyAll (applyAll s front).1 back).2) := by
  induction front generalizing s with
  | nil => rfl
  | cons a rest ih =>
    simp only [List.cons_append, applyAll, ih]
    split
    · rfl
    · rfl

/-- An effective act changed the state that the acts before it had left. -/
theorem changes_of_mem_effective {a : Act} (ha : a ∈ (applyAll s acts).2) :
    ∃ front back, acts = front ++ a :: back ∧
      (applyAll s front).1.changes a.effect = true := by
  induction acts generalizing s with
  | nil => cases ha
  | cons b rest ih =>
    have hlater : a ∈ (applyAll (s.apply b.effect) rest).2 →
        ∃ front back, b :: rest = front ++ a :: back ∧
          (applyAll s front).1.changes a.effect = true := by
      intro h
      obtain ⟨front, back, rfl, hchanges⟩ := ih h
      exact ⟨b :: front, back, rfl, hchanges⟩
    simp only [applyAll] at ha
    split at ha
    · rename_i hb
      rcases List.mem_cons.mp ha with rfl | ha
      · exact ⟨[], rest, rfl, hb⟩
      · exact hlater ha
    · exact hlater ha

/-- **A tracked value is altered by effective acts only:** one of them wrote the last value. -/
theorem exists_effective_of_ne (hf : State.Tracked f) (h : f (applyAll s acts).1 ≠ f s) :
    ∃ a ∈ (applyAll s acts).2, ∃ m : State,
      f (m.apply a.effect) = f (applyAll s acts).1 ∧ f (m.apply a.effect) ≠ f m := by
  induction acts generalizing s with
  | nil => exact absurd rfl h
  | cons a rest ih =>
    simp only [applyAll] at h ⊢
    by_cases hlast : f (applyAll (s.apply a.effect) rest).1 = f (s.apply a.effect)
    · -- `a` wrote the last value
      have hne : f (s.apply a.effect) ≠ f s := hlast ▸ h
      rw [if_pos (hf s a.effect hne)]
      exact ⟨a, List.mem_cons_self, s, hlast.symm, hne⟩
    · obtain ⟨b, hb, hwrote⟩ := ih hlast
      refine ⟨b, ?_, hwrote⟩
      split
      · exact List.mem_cons_of_mem a hb
      · exact hb

/-- **What an effective act wrote is new and stays,** unless an effective act wrote another value,
before it or after it. -/
theorem stays_or_overwritten (hf : State.Tracked f) {v : β} {a : Act}
    (ha : a ∈ (applyAll s acts).2)
    (hnew : ∀ m : State, m.changes a.effect = true → f m ≠ v)
    (hwrote : ∀ m : State, f (m.apply a.effect) = v) :
    (f s ≠ v ∧ f (applyAll s acts).1 = v) ∨
      ∃ b ∈ (applyAll s acts).2, ∃ m : State,
        f (m.apply b.effect) ≠ v ∧ f (m.apply b.effect) ≠ f m := by
  obtain ⟨front, back, rfl, hchanges⟩ := changes_of_mem_effective ha
  have hmid : f (applyAll s front).1 ≠ v := hnew _ hchanges
  have happend := applyAll_append s front (a :: back)
  simp only [applyAll, if_pos hchanges] at happend
  rw [happend]
  by_cases hbefore : f s = v
  · -- an act before `a` took the value away
    obtain ⟨b, hb, m, hlast, hne⟩ := exists_effective_of_ne hf (hbefore ▸ hmid)
    exact .inr ⟨b, List.mem_append_left _ hb, m, hlast ▸ hmid, hne⟩
  · by_cases hafter : f (applyAll ((applyAll s front).1.apply a.effect) back).1 = v
    · exact .inl ⟨hbefore, hafter⟩
    · -- an act after `a` took the value away
      have hmoved : f (applyAll ((applyAll s front).1.apply a.effect) back).1 ≠
          f ((applyAll s front).1.apply a.effect) := by
        rw [hwrote]
        exact hafter
      obtain ⟨b, hb, m, hlast, hne⟩ := exists_effective_of_ne hf hmoved
      exact .inr ⟨b, List.mem_append_right _ (List.mem_cons_of_mem a hb), m, hlast ▸ hafter, hne⟩

end Questline
