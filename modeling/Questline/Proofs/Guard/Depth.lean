import Questline.Guard.Verdict

/-! # The depth guard

A verdict looks at the parts of a guard from the left, stops as soon as the value is settled, and
gives up when the next part lies under more than `Guard.maxDepth` combinators.

* `Guard.PartAt`: the parts of a guard, each with the number of combinators it lies under.
  `Guard.depth_le_iff`: the depth bounds that number.
* `Guard.NeededAt`: the parts that settle the truth value from the left, on given facts.
* `Guard.meaning_of_verdict`: a verdict, if there is one, is the truth value.
  `Guard.verdict_eq_none_iff`: there is none just when a part that lies too deep is needed.
* `Guard.holds_sound_and_complete`: a guard that holds is true, and within the bound nothing is
  lost.
* `Guard.holds_eq_false_iff`: a guard fails just when it is false or needs a part that lies too
  deep. A deep part that is not needed goes unnoticed: `Guard.deep_part_unnoticed`. -/

namespace Questline

namespace Guard

/-! ### Parts -/

/-- `p` is a part of a guard, under `n` combinators. -/
inductive PartAt : Nat → Guard → Guard → Prop
  | self (g : Guard) : PartAt 0 g g
  | all {n : Nat} {p g : Guard} {gs : List Guard} :
      g ∈ gs → PartAt n p g → PartAt (n + 1) p (.all gs)
  | any {n : Nat} {p g : Guard} {gs : List Guard} :
      g ∈ gs → PartAt n p g → PartAt (n + 1) p (.any gs)
  | not {n : Nat} {p g : Guard} : PartAt n p g → PartAt (n + 1) p (.not g)

/-- `p` is a part of a guard, under `n` combinators, that the truth value waits for: in a
conjunction all guards before it are true, in a disjunction all are false. -/
inductive NeededAt (f : Facts) : Nat → Guard → Guard → Prop
  | self (g : Guard) : NeededAt f 0 g g
  | all {n : Nat} {p g : Guard} {before after : List Guard} :
      (∀ h ∈ before, meaning f h = true) → NeededAt f n p g →
        NeededAt f (n + 1) p (.all (before ++ g :: after))
  | any {n : Nat} {p g : Guard} {before after : List Guard} :
      (∀ h ∈ before, meaning f h = false) → NeededAt f n p g →
        NeededAt f (n + 1) p (.any (before ++ g :: after))
  | not {n : Nat} {p g : Guard} : NeededAt f n p g → NeededAt f (n + 1) p (.not g)

theorem NeededAt.partAt {f : Facts} {n : Nat} {p g : Guard} (h : NeededAt f n p g) :
    PartAt n p g := by
  induction h with
  | self g => exact .self g
  | all _ _ ih => exact .all (by simp) ih
  | any _ _ ih => exact .any (by simp) ih
  | not _ ih => exact .not ih

theorem depthList_le_iff {gs : List Guard} {m : Nat} :
    depthList gs ≤ m ↔ ∀ g ∈ gs, depth g + 1 ≤ m := by
  induction gs with
  | nil => simp [depthList]
  | cons g rest ih =>
    rw [depthList, List.forall_mem_cons, ← ih]
    omega

theorem PartAt.le_depth {n : Nat} {p g : Guard} (h : PartAt n p g) : n ≤ depth g := by
  induction h with
  | self g => exact Nat.zero_le _
  | all hg _ ih =>
    have := depthList_le_iff.mp (Nat.le_refl _) _ hg
    rw [depth]
    omega
  | any hg _ ih =>
    have := depthList_le_iff.mp (Nat.le_refl _) _ hg
    rw [depth]
    omega
  | not _ ih => rw [depth]; omega

theorem depthList_eq (gs : List Guard) : gs = [] ∨ ∃ g ∈ gs, depthList gs = depth g + 1 := by
  induction gs with
  | nil => exact .inl rfl
  | cons g rest ih =>
    right
    rw [depthList]
    rcases ih with rfl | ⟨g', hg', heq⟩
    · exact ⟨g, by simp, by simp [depthList]⟩
    · rcases Nat.le_total (depthList rest) (depth g + 1) with hle | hle
      · exact ⟨g, by simp, by omega⟩
      · exact ⟨g', by simp [hg'], by omega⟩

theorem exists_partAt_depth (g : Guard) : ∃ p, PartAt (depth g) p g := by
  induction g with
  | compare op path literal => exact ⟨_, .self _⟩
  | oneOf path candidates => exact ⟨_, .self _⟩
  | flag space name expected => exact ⟨_, .self _⟩
  | all gs ih =>
    rcases depthList_eq gs with rfl | ⟨g, hg, heq⟩
    · exact ⟨_, .self _⟩
    · obtain ⟨p, hp⟩ := ih g hg
      exact ⟨p, by rw [depth, heq]; exact .all hg hp⟩
  | any gs ih =>
    rcases depthList_eq gs with rfl | ⟨g, hg, heq⟩
    · exact ⟨_, .self _⟩
    · obtain ⟨p, hp⟩ := ih g hg
      exact ⟨p, by rw [depth, heq]; exact .any hg hp⟩
  | not g ih =>
    obtain ⟨p, hp⟩ := ih
    exact ⟨p, .not hp⟩

/-- **The depth is the largest number of combinators over a part.** -/
theorem depth_le_iff {g : Guard} {m : Nat} : depth g ≤ m ↔ ∀ n p, PartAt n p g → n ≤ m := by
  constructor
  · intro h n p hp
    exact Nat.le_trans hp.le_depth h
  · intro h
    obtain ⟨p, hp⟩ := exists_partAt_depth g
    exact h _ p hp

/-! ### Lists of guards -/

theorem meaningAll_eq_all (f : Facts) (gs : List Guard) :
    meaningAll f gs = gs.all (meaning f) := by
  induction gs with
  | nil => rfl
  | cons g rest ih => rw [meaningAll, ih, List.all_cons]

theorem meaningAny_eq_any (f : Facts) (gs : List Guard) :
    meaningAny f gs = gs.any (meaning f) := by
  induction gs with
  | nil => rfl
  | cons g rest ih => rw [meaningAny, ih, List.any_cons]

/-- The first verdict other than `b`, which is `b` if there is no other: conjunctions look for one
that is not true, disjunctions for one that is not false. -/
def firstOther (b : Bool) (vs : List (Option Bool)) : Option Bool :=
  (vs.find? (· != some b)).getD (some b)

theorem firstOther_cons (b : Bool) (v : Option Bool) (vs : List (Option Bool)) :
    firstOther b (v :: vs) = if v = some b then firstOther b vs else v := by
  by_cases h : v = some b <;> simp [firstOther, h]

theorem verdictAll_eq (f : Facts) (levels : Nat) (gs : List Guard) :
    verdictAll f levels gs = firstOther true (gs.map (verdict f levels)) := by
  induction gs with
  | nil => rfl
  | cons g rest ih =>
    rw [verdictAll, List.map_cons, firstOther_cons, ih]
    rcases verdict f levels g with _ | _ | _ <;> simp

theorem verdictAny_eq (f : Facts) (levels : Nat) (gs : List Guard) :
    verdictAny f levels gs = firstOther false (gs.map (verdict f levels)) := by
  induction gs with
  | nil => rfl
  | cons g rest ih =>
    rw [verdictAny, List.map_cons, firstOther_cons, ih]
    rcases verdict f levels g with _ | _ | _ <;> simp

/-- A first other verdict that is a truth value: all are `b`, or one is not. -/
theorem firstOther_eq_some {b c : Bool} {vs : List (Option Bool)}
    (h : firstOther b vs = some c) :
    (c = b ∧ ∀ v ∈ vs, v = some b) ∨ (c = !b ∧ some (!b) ∈ vs) := by
  induction vs with
  | nil =>
    left
    exact ⟨(Option.some.inj h).symm, by simp⟩
  | cons v vs ih =>
    rw [firstOther_cons] at h
    split at h
    · rename_i hv
      rcases ih h with ⟨hc, hvs⟩ | ⟨hc, hmem⟩
      · exact .inl ⟨hc, List.forall_mem_cons.mpr ⟨hv, hvs⟩⟩
      · exact .inr ⟨hc, List.mem_cons_of_mem _ hmem⟩
    · rename_i hv
      have hc : c = !b := by
        rw [h] at hv
        cases b <;> cases c <;> simp_all
      exact .inr ⟨hc, by simp [← hc, h]⟩

/-! ### Verdicts and truth values -/

/-- Where no level may be looked at, there is no verdict. -/
theorem verdict_zero (f : Facts) (g : Guard) : verdict f 0 g = none := by cases g <;> rfl

/-- **A verdict is the truth value.** -/
theorem meaning_of_verdict {f : Facts} {levels : Nat} {g : Guard} {b : Bool}
    (h : verdict f levels g = some b) : meaning f g = b := by
  induction g generalizing levels b with
  | compare op path literal =>
    cases levels with
    | zero => simp [verdict] at h
    | succ levels => exact Option.some.inj h
  | oneOf path candidates =>
    cases levels with
    | zero => simp [verdict] at h
    | succ levels => exact Option.some.inj h
  | flag space name expected =>
    cases levels with
    | zero => simp [verdict] at h
    | succ levels => exact Option.some.inj h
  | all gs ih =>
    cases levels with
    | zero => simp [verdict] at h
    | succ levels =>
      rw [verdict, verdictAll_eq] at h
      rw [meaning, meaningAll_eq_all]
      rcases firstOther_eq_some h with ⟨rfl, hall⟩ | ⟨rfl, hmem⟩
      · exact List.all_eq_true.mpr fun g hg => ih g hg (hall _ (List.mem_map_of_mem hg))
      · obtain ⟨g, hg, hv⟩ := List.mem_map.mp hmem
        exact List.all_eq_false.mpr ⟨g, hg, by simp [ih g hg hv]⟩
  | any gs ih =>
    cases levels with
    | zero => simp [verdict] at h
    | succ levels =>
      rw [verdict, verdictAny_eq] at h
      rw [meaning, meaningAny_eq_any]
      rcases firstOther_eq_some h with ⟨rfl, hall⟩ | ⟨rfl, hmem⟩
      · refine List.any_eq_false.mpr fun g hg => ?_
        simp [ih g hg (hall _ (List.mem_map_of_mem hg))]
      · obtain ⟨g, hg, hv⟩ := List.mem_map.mp hmem
        exact List.any_eq_true.mpr ⟨g, hg, ih g hg hv⟩
  | not g ih =>
    cases levels with
    | zero => simp [verdict] at h
    | succ levels =>
      rw [verdict, Option.map_eq_some_iff] at h
      obtain ⟨c, hc, rfl⟩ := h
      rw [meaning, ih hc]

/-- A list has no verdict just when a member has none and those before it leave the value open. -/
theorem firstOther_map_eq_none_iff {f : Facts} {levels : Nat} {b : Bool} {gs : List Guard} :
    firstOther b (gs.map (verdict f levels)) = none ↔
      ∃ before g after, gs = before ++ g :: after ∧ (∀ h ∈ before, meaning f h = b) ∧
        verdict f levels g = none := by
  induction gs with
  | nil => simp [firstOther]
  | cons g rest ih =>
    rw [List.map_cons, firstOther_cons]
    constructor
    · intro h
      split at h
      · rename_i hv
        obtain ⟨before, g', after, rfl, hb, hg'⟩ := ih.mp h
        refine ⟨g :: before, g', after, rfl, ?_, hg'⟩
        exact List.forall_mem_cons.mpr ⟨meaning_of_verdict hv, hb⟩
      · exact ⟨[], g, rest, rfl, by simp, h⟩
    · rintro ⟨before, g', after, heq, hb, hg'⟩
      cases before with
      | nil =>
        obtain ⟨rfl, rfl⟩ := List.cons.inj heq
        simp [hg']
      | cons g'' before =>
        obtain ⟨rfl, rfl⟩ := List.cons.inj heq
        obtain ⟨hg, hb⟩ := List.forall_mem_cons.mp hb
        cases hv : verdict f levels g with
        | none => simp
        | some c =>
          rw [← meaning_of_verdict hv, hg, if_pos rfl]
          exact ih.mpr ⟨before, g', after, rfl, hb, hg'⟩

/-- **There is no verdict just when a part that lies too deep is needed.** -/
theorem verdict_eq_none_iff {f : Facts} {levels : Nat} {g : Guard} :
    verdict f levels g = none ↔ ∃ n p, NeededAt f n p g ∧ levels ≤ n := by
  induction g generalizing levels with
  | compare op path literal =>
    cases levels with
    | zero => exact iff_of_true rfl ⟨0, _, .self _, Nat.le_refl _⟩
    | succ levels => exact iff_of_false (by simp [verdict]) (by rintro ⟨n, p, ⟨⟩, hn⟩; omega)
  | oneOf path candidates =>
    cases levels with
    | zero => exact iff_of_true rfl ⟨0, _, .self _, Nat.le_refl _⟩
    | succ levels => exact iff_of_false (by simp [verdict]) (by rintro ⟨n, p, ⟨⟩, hn⟩; omega)
  | flag space name expected =>
    cases levels with
    | zero => exact iff_of_true rfl ⟨0, _, .self _, Nat.le_refl _⟩
    | succ levels => exact iff_of_false (by simp [verdict]) (by rintro ⟨n, p, ⟨⟩, hn⟩; omega)
  | all gs ih =>
    cases levels with
    | zero => exact iff_of_true rfl ⟨0, _, .self _, Nat.le_refl _⟩
    | succ levels =>
      rw [verdict, verdictAll_eq, firstOther_map_eq_none_iff]
      constructor
      · rintro ⟨before, g, after, rfl, hb, hv⟩
        obtain ⟨n, p, hp, hn⟩ := (ih g (by simp)).mp hv
        exact ⟨n + 1, p, .all hb hp, by omega⟩
      · rintro ⟨n, p, hp, hn⟩
        cases hp with
        | self => omega
        | all hb hp => exact ⟨_, _, _, rfl, hb, (ih _ (by simp)).mpr ⟨_, _, hp, by omega⟩⟩
  | any gs ih =>
    cases levels with
    | zero => exact iff_of_true rfl ⟨0, _, .self _, Nat.le_refl _⟩
    | succ levels =>
      rw [verdict, verdictAny_eq, firstOther_map_eq_none_iff]
      constructor
      · rintro ⟨before, g, after, rfl, hb, hv⟩
        obtain ⟨n, p, hp, hn⟩ := (ih g (by simp)).mp hv
        exact ⟨n + 1, p, .any hb hp, by omega⟩
      · rintro ⟨n, p, hp, hn⟩
        cases hp with
        | self => omega
        | any hb hp => exact ⟨_, _, _, rfl, hb, (ih _ (by simp)).mpr ⟨_, _, hp, by omega⟩⟩
  | not g ih =>
    cases levels with
    | zero => exact iff_of_true rfl ⟨0, _, .self _, Nat.le_refl _⟩
    | succ levels =>
      rw [verdict, Option.map_eq_none_iff, ih]
      constructor
      · rintro ⟨n, p, hp, hn⟩
        exact ⟨n + 1, p, .not hp, by omega⟩
      · rintro ⟨n, p, hp, hn⟩
        cases hp with
        | self => omega
        | not hp => exact ⟨_, p, hp, by omega⟩

/-! ### The depth guard -/

theorem holds_of_verdict {f : Facts} {g : Guard} {b : Bool}
    (h : verdict f (maxDepth + 1) g = some b) : g.holds f = b := by
  rw [holds, h, Option.getD_some]

/-- **A guard that holds is true, and no true guard within the bound is lost.** -/
theorem holds_sound_and_complete (g : Guard) (f : Facts) :
    (g.holds f = true → meaning f g = true) ∧
      ((∀ n p, PartAt n p g → n ≤ maxDepth) → g.holds f = meaning f g) := by
  constructor
  · intro h
    cases hv : verdict f (maxDepth + 1) g with
    | none => rw [holds, hv] at h; cases h
    | some b => rw [meaning_of_verdict hv, ← holds_of_verdict hv, h]
  · intro hparts
    cases hv : verdict f (maxDepth + 1) g with
    | none =>
      obtain ⟨n, p, hp, hn⟩ := verdict_eq_none_iff.mp hv
      have := hparts n p hp.partAt
      omega
    | some b => rw [meaning_of_verdict hv, holds_of_verdict hv]

/-- The bound is met by a negation in a disjunction in a conjunction. -/
theorem holds_sound_and_complete_three :
    let g : Guard := .all [.any [.not (.flag "story" "betrayed" true)]]
    (g.holds .empty = true ∧ meaning .empty g = true) ∧
      (∀ n p, PartAt n p g → n ≤ maxDepth) ∧ g.holds .empty = meaning .empty g := by
  intro g
  have hparts : ∀ n p, PartAt n p g → n ≤ maxDepth := depth_le_iff.mp (by decide)
  have hholds : g.holds .empty = true := by decide
  obtain ⟨hsound, hcomplete⟩ := holds_sound_and_complete g .empty
  exact ⟨⟨hholds, hsound hholds⟩, hparts, hcomplete hparts⟩

/-- **A guard fails just when it is false or needs a part that lies too deep.** -/
theorem holds_eq_false_iff (g : Guard) (f : Facts) :
    g.holds f = false ↔ meaning f g = false ∨ ∃ n p, NeededAt f n p g ∧ maxDepth < n := by
  cases hv : verdict f (maxDepth + 1) g with
  | none => exact iff_of_true (by rw [holds, hv]; rfl) (.inr (verdict_eq_none_iff.mp hv))
  | some b =>
    rw [holds_of_verdict hv, meaning_of_verdict hv]
    refine ⟨.inl, ?_⟩
    rintro (h | hdeep)
    · exact h
    · rw [verdict_eq_none_iff.mpr hdeep] at hv
      cases hv

/-- Not every guard with a part that lies too deep fails: a disjunction is settled by a true guard
that stands before the part. -/
theorem deep_part_unnoticed :
    ¬ ∀ (g : Guard) (f : Facts), (∃ n p, PartAt n p g ∧ maxDepth < n) → g.holds f = false := by
  intro h
  let leaf : Guard := .flag "story" "ended" true
  let deep : Guard := .all [.all [.all [leaf]]]
  have hpart : PartAt 4 leaf (.any [.flag "story" "ended" false, deep]) :=
    .any (.tail _ (.head _)) (.all (.head _) (.all (.head _) (.all (.head _) (.self leaf))))
  have hfalse := h _ .empty ⟨4, leaf, hpart, by decide⟩
  have htrue : holds (.any [.flag "story" "ended" false, deep]) .empty = true := by decide
  rw [htrue] at hfalse
  cases hfalse

end Guard

end Questline
