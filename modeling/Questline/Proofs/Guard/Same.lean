import Mathlib.Data.List.Forall2
import Questline.Proofs.Guard.Reading

/-! # Guards that are the same

Two guards are the same as written when they have one shape and in it the same texts and values.
This is not equality: the zeros are one number, and a `nan` is not even the same as itself. But a
verdict sees of a number only its place on the number line, so guards that are the same have the
same verdict on all facts, and where one of them is asked the other need not be.

* `Literal.alike_of_same`: literals that are the same cannot be told apart by guards, on whichever
  side of a comparison they stand.
* `Guard.sameList_iff`: lists are the same when they are member by member.
* `Guard.holds_eq_of_same`: guards that are the same have the same verdict. -/

namespace Questline

/-! ### Literals -/

theorem Binary64.key_eq_of_equals {x y : Binary64} (h : x.equals y = true) : x.key = y.key := by
  unfold equals at h
  split at h
  · rename_i a b hx hy
    rw [hx, hy, beq_iff_eq.mp h]
  · cases h

/-- Numbers at one place stand in the same relations, also as the second of two. -/
theorem Comparison.ofNumbers_congr_right {x y : Binary64} (h : x.key = y.key) (op : Comparison)
    (z : Binary64) : op.ofNumbers z x = op.ofNumbers z y := by
  cases op <;> simp only [ofNumbers, Binary64.equals, Binary64.lt, Binary64.le, h]

namespace Literal

variable {a b : Literal}

theorem alike_of_same (h : a.same b = true) : a.Alike b := by
  cases a with
  | float x =>
    cases b with
    | float y => exact .float (Binary64.key_eq_of_equals h)
    | _ => cases h
  | _ =>
    -- a literal of any other kind is the same as an equal one only
    cases b <;> first | cases h | exact beq_iff_eq.mp h ▸ .refl _

theorem Alike.agrees_eq_right (h : a.Alike b) (c : Literal) : c.agrees a = c.agrees b := by
  cases h with
  | refl => rfl
  | float h =>
    cases c with
    | int i => exact Comparison.ofNumbers_congr_right h .eq _
    | float z => exact Comparison.ofNumbers_congr_right h .eq z
    | _ => rfl

theorem Alike.relates_eq_right (h : a.Alike b) (op : Comparison) (c : Literal) :
    op.relates c a = op.relates c b := by
  cases op with
  | eq => exact h.agrees_eq_right c
  | ne => exact congrArg (!·) (h.agrees_eq_right c)
  | _ =>
    -- the other comparisons look at numbers only
    cases h with
    | refl => rfl
    | float h =>
      have hnumbers := Comparison.ofNumbers_congr_right h
      cases c <;> simp only [Comparison.relates, Literal.number?, hnumbers]

end Literal

/-! ### Lists -/

/-- A function that agrees on the pairs of two lists takes them to the same list. -/
theorem map_eq_map_of_forall₂ {α β : Type} {R : α → α → Prop} {v : α → β} {l l' : List α}
    (h : List.Forall₂ R l l') (hv : ∀ a b, R a b → v a = v b) : l.map v = l'.map v := by
  have hsame : List.Forall₂ (· = ·) (l.map v) (l'.map v) := by
    rw [List.forall₂_map_left_iff, List.forall₂_map_right_iff]
    exact h.imp hv
  rwa [List.forall₂_eq_eq_eq] at hsame

namespace Guard

variable {g h : Guard} {f : Facts}

theorem sameLiterals_iff {as bs : List Literal} :
    sameLiterals as bs = true ↔ List.Forall₂ (fun a b => a.same b = true) as bs := by
  induction as generalizing bs with
  | nil => cases bs <;> simp [sameLiterals]
  | cons a as ih => cases bs <;> simp [sameLiterals, ih]

theorem sameList_iff {gs hs : List Guard} :
    sameList gs hs = true ↔ List.Forall₂ (fun g h => g.same h = true) gs hs := by
  induction gs generalizing hs with
  | nil => cases hs <;> simp [sameList]
  | cons g gs ih => cases hs <;> simp [sameList, ih]

/-! ### Verdicts -/

theorem comparisonHolds_of_same {a b : Literal} (hab : a.same b = true) (op : Comparison)
    (path : String) : comparisonHolds f op path a = comparisonHolds f op path b := by
  unfold comparisonHolds
  cases f.resolve path with
  | none => rfl
  | some value => exact (Literal.alike_of_same hab).relates_eq_right op value

theorem membershipHolds_of_same {as bs : List Literal} (hsame : sameLiterals as bs = true)
    (path : String) : membershipHolds f path as = membershipHolds f path bs := by
  unfold membershipHolds
  cases f.resolve path with
  | none => rfl
  | some value =>
    have hagrees : as.map value.agrees = bs.map value.agrees :=
      map_eq_map_of_forall₂ (sameLiterals_iff.mp hsame)
        fun _ _ hab => (Literal.alike_of_same hab).agrees_eq_right value
    have hany := congrArg (List.any · id) hagrees
    simpa only [List.any_map, Function.id_comp] using hany

/-- The verdicts of guards that are the same, however many levels are looked at. -/
theorem verdict_eq_of_same (hsame : g.same h = true) (levels : Nat) :
    verdict f levels g = verdict f levels h := by
  induction levels generalizing g h with
  | zero => rw [verdict_zero, verdict_zero]
  | succ levels ih =>
    cases g with
    | compare op path literal =>
      cases h with
      | compare op' path' literal' =>
        simp only [same, Bool.and_eq_true, beq_iff_eq] at hsame
        obtain ⟨⟨rfl, rfl⟩, hliteral⟩ := hsame
        rw [verdict, verdict, comparisonHolds_of_same hliteral]
      | _ => cases hsame
    | oneOf path candidates =>
      cases h with
      | oneOf path' candidates' =>
        simp only [same, Bool.and_eq_true, beq_iff_eq] at hsame
        obtain ⟨rfl, hcandidates⟩ := hsame
        rw [verdict, verdict, membershipHolds_of_same hcandidates]
      | _ => cases hsame
    | flag space name expected =>
      cases h with
      | flag space' name' expected' =>
        simp only [same, Bool.and_eq_true, beq_iff_eq] at hsame
        obtain ⟨⟨rfl, rfl⟩, rfl⟩ := hsame
        rfl
      | _ => cases hsame
    | all gs =>
      cases h with
      | all hs =>
        have hverdicts := map_eq_map_of_forall₂ (sameList_iff.mp hsame) fun _ _ => ih
        rw [verdict, verdict, verdictAll_eq, verdictAll_eq, hverdicts]
      | _ => cases hsame
    | any gs =>
      cases h with
      | any hs =>
        have hverdicts := map_eq_map_of_forall₂ (sameList_iff.mp hsame) fun _ _ => ih
        rw [verdict, verdict, verdictAny_eq, verdictAny_eq, hverdicts]
      | _ => cases hsame
    | not g =>
      cases h with
      | not h =>
        have hinner : g.same h = true := hsame
        rw [verdict, verdict, ih hinner]
      | _ => cases hsame

/-- **Guards that are the same have the same verdict.** -/
theorem holds_eq_of_same (hsame : g.same h = true) (f : Facts) : g.holds f = h.holds f := by
  rw [holds, holds, verdict_eq_of_same hsame]

end Guard

end Questline
