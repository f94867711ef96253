import Questline.Guard.Text
import Questline.Proofs.Guard.Depth

/-! # The cut

The verdict and the text of a guard stop at the same place: neither looks at a part that lies under
more than `Guard.maxDepth` combinators. So both are those of the guard in which every part just
below the bound is replaced by one marker, whatever the marker is and however much it hides.

* `Guard.cut`: a guard with a marker in place of the parts at a depth.
* `Guard.verdict_cut`, `Guard.displayWithin_cut`: nobody sees what the marker hides.
* `Guard.fullText`: the text of a guard without any limit on its depth.
* `Guard.determined_by_cut`: guards with one cut have one verdict and one text; a guard that does
  not reach the cut is never found too deep and shown whole. -/

namespace Questline

namespace Guard

variable {g p : Guard} {m n : Nat}

/-- **The guard with a marker in place of each part** that lies under `depth` combinators. -/
def cut (marker : Guard) : Nat → Guard → Guard
  | 0, _ => marker
  | depth + 1, .all guards => .all (guards.map (cut marker depth))
  | depth + 1, .any guards => .any (guards.map (cut marker depth))
  | depth + 1, .not guard => .not (cut marker depth guard)
  | _ + 1, g => g

/-! ### Verdicts -/

/-- **The verdict does not depend on what is cut off.** -/
theorem verdict_cut (marker : Guard) (f : Facts) (levels : Nat) (g : Guard) :
    verdict f levels (cut marker levels g) = verdict f levels g := by
  induction levels generalizing g with
  | zero => rw [verdict_zero, verdict_zero]
  | succ levels ih =>
    have hmembers : ∀ gs : List Guard,
        (gs.map (cut marker levels)).map (verdict f levels) = gs.map (verdict f levels) := by
      intro gs
      rw [List.map_map]
      exact List.map_congr_left fun g _ => ih g
    cases g with
    | all gs => rw [cut, verdict, verdict, verdictAll_eq, verdictAll_eq, hmembers]
    | any gs => rw [cut, verdict, verdict, verdictAny_eq, verdictAny_eq, hmembers]
    | not g => rw [cut, verdict, verdict, ih]
    | _ => rfl

/-- A part that lies too deep lies in one that lies just below the bound. -/
theorem PartAt.exists_of_le (h : PartAt n p g) (hm : m ≤ n) : ∃ q, PartAt m q g := by
  induction h generalizing m with
  | self g => exact ⟨g, Nat.le_zero.mp hm ▸ .self g⟩
  | all hg _ ih =>
    rcases m with _ | m
    · exact ⟨_, .self _⟩
    · obtain ⟨q, hq⟩ := ih (Nat.le_of_succ_le_succ hm)
      exact ⟨q, .all hg hq⟩
  | any hg _ ih =>
    rcases m with _ | m
    · exact ⟨_, .self _⟩
    · obtain ⟨q, hq⟩ := ih (Nat.le_of_succ_le_succ hm)
      exact ⟨q, .any hg hq⟩
  | not _ ih =>
    rcases m with _ | m
    · exact ⟨_, .self _⟩
    · obtain ⟨q, hq⟩ := ih (Nat.le_of_succ_le_succ hm)
      exact ⟨q, .not hq⟩

/-- There is a verdict on a guard that does not reach below the levels that are looked at. -/
theorem verdict_ne_none {levels : Nat} (h : ∀ p, ¬PartAt levels p g) (f : Facts) :
    verdict f levels g ≠ none := by
  intro hnone
  obtain ⟨n, p, hp, hn⟩ := verdict_eq_none_iff.mp hnone
  obtain ⟨q, hq⟩ := hp.partAt.exists_of_le hn
  exact h q hq

/-! ### Texts -/

mutual

/-- **The text of a guard**, however deep it is. -/
def fullText : Guard → String
  | .compare op path literal => path ++ " " ++ op.sign ++ " " ++ literal.display
  | .oneOf path candidates =>
    path ++ " in [" ++ ", ".intercalate (candidates.map Literal.display) ++ "]"
  | .flag space name expected =>
    "flag " ++ space ++ "." ++ name ++ " == " ++ (Literal.bool expected).display
  | .all guards => "all(" ++ ", ".intercalate (fullTexts guards) ++ ")"
  | .any guards => "any(" ++ ", ".intercalate (fullTexts guards) ++ ")"
  | .not guard => "not(" ++ fullText guard ++ ")"

/-- The texts of guards, however deep they are. -/
def fullTexts : List Guard → List String
  | [] => []
  | g :: rest => fullText g :: fullTexts rest

end

theorem fullTexts_eq_map (gs : List Guard) : fullTexts gs = gs.map fullText := by
  induction gs with
  | nil => rfl
  | cons g rest ih => rw [fullTexts, ih, List.map_cons]

theorem displayList_eq_map (levels : Nat) (gs : List Guard) :
    displayList levels gs = gs.map (displayWithin levels) := by
  induction gs with
  | nil => rfl
  | cons g rest ih => rw [displayList, ih, List.map_cons]

theorem displayWithin_zero (g : Guard) : displayWithin 0 g = "..." := by cases g <;> rfl

/-- **The text does not depend on what is cut off.** -/
theorem displayWithin_cut (marker : Guard) (levels : Nat) (g : Guard) :
    displayWithin levels (cut marker levels g) = displayWithin levels g := by
  induction levels generalizing g with
  | zero => rw [displayWithin_zero, displayWithin_zero]
  | succ levels ih =>
    have hmembers : ∀ gs : List Guard,
        displayList levels (gs.map (cut marker levels)) = displayList levels gs := by
      intro gs
      rw [displayList_eq_map, displayList_eq_map, List.map_map]
      exact List.map_congr_left fun g _ => ih g
    cases g with
    | all gs => rw [cut, displayWithin, displayWithin, hmembers]
    | any gs => rw [cut, displayWithin, displayWithin, hmembers]
    | not g => rw [cut, displayWithin, displayWithin, ih]
    | _ => rfl

/-- A guard that does not reach below the levels that are shown is shown whole. -/
theorem displayWithin_eq_fullText {levels : Nat} (h : ∀ p, ¬PartAt levels p g) :
    displayWithin levels g = g.fullText := by
  induction levels generalizing g with
  | zero => exact absurd (.self g) (h g)
  | succ levels ih =>
    have hmembers : ∀ gs : List Guard, (∀ g ∈ gs, ∀ p, ¬PartAt levels p g) →
        displayList levels gs = fullTexts gs := by
      intro gs hgs
      rw [displayList_eq_map, fullTexts_eq_map]
      exact List.map_congr_left fun g hg => ih (hgs g hg)
    cases g with
    | all gs => rw [displayWithin, fullText, hmembers gs fun g hg p hp => h p (.all hg hp)]
    | any gs => rw [displayWithin, fullText, hmembers gs fun g hg p hp => h p (.any hg hp)]
    | not g => rw [displayWithin, fullText, ih fun p hp => h p (.not hp)]
    | _ => rfl

/-! ### One cut for both -/

/-- **Verdict and text are determined by the cut** under four combinators. Guards that are equal
once a common marker stands there have the same verdict on all facts and the same text. On a guard
with nothing there the verdict never finds a part too deep, and the text leaves nothing out. -/
theorem determined_by_cut :
    (∀ marker g h : Guard, cut marker 4 g = cut marker 4 h →
      (∀ f, g.holds f = h.holds f) ∧ g.display = h.display) ∧
    ∀ g : Guard, (∀ p, ¬PartAt 4 p g) →
      (∀ f, verdict f (maxDepth + 1) g ≠ none) ∧ g.display = g.fullText := by
  constructor
  · intro marker g h hcut
    refine ⟨fun f => ?_, ?_⟩
    · have hverdict : verdict f (maxDepth + 1) g = verdict f (maxDepth + 1) h := by
        rw [← verdict_cut marker, ← verdict_cut marker f _ h]
        exact congrArg (verdict f (maxDepth + 1)) hcut
      rw [holds, holds, hverdict]
    · rw [display, display, ← displayWithin_cut marker, ← displayWithin_cut marker _ h]
      exact congrArg (displayWithin (maxDepth + 1)) hcut
  · intro g hparts
    exact ⟨verdict_ne_none hparts, displayWithin_eq_fullText hparts⟩

/-- Four negations hide what is below them, be it a hundred thousand negations or a single flag; a
flag under three of them is in sight. -/
theorem determined_by_cut_of_negations :
    let leaf : Guard := .flag "story" "x" true
    let nested (g : Guard) : Guard := .not (.not (.not g))
    let huge : Guard := nested (.not (Nat.repeat Guard.not 100000 leaf))
    (cut leaf 4 huge = cut leaf 4 (nested (.not leaf)) ∧
      (∀ f, huge.holds f = holds (nested (.not leaf)) f) ∧
      huge.display = display (nested (.not leaf))) ∧
    (∀ p, ¬PartAt 4 p (nested leaf)) ∧
      (∀ f, verdict f (maxDepth + 1) (nested leaf) ≠ none) ∧
      display (nested leaf) = fullText (nested leaf) := by
  intro leaf nested huge
  have hcut : cut leaf 4 huge = cut leaf 4 (nested (.not leaf)) := rfl
  have hparts : ∀ p, ¬PartAt 4 p (nested leaf) := by
    intro p hp
    exact absurd hp.le_depth (by decide)
  exact ⟨⟨hcut, determined_by_cut.1 leaf _ _ hcut⟩, hparts, determined_by_cut.2 _ hparts⟩

end Guard

end Questline
