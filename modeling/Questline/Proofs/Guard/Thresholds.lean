import Questline.Guard.Verdict
import Questline.Proofs.Decimal.Integers

/-! # Integers in guards

Guards compare integers as floating point numbers, which keep 53 of their bits. The comparison is
that of the rounded integers. Rounding keeps the order, so a guard errs only on two integers that
become one number: it takes them for equal.

* `Comparison.ofInts`: a comparison of integers. `Blurred`: two integers that become one number.
* `Comparison.ofInts_roundInt_iff`: the comparison of rounded integers is exact unless they blur.
* `Guard.holds_compare_int`: what a comparison says of integers.
* `Guard.integer_guards`: what guards say of integers, and when that is exact. It may not be:
  `Guard.threshold_blurred`. -/

namespace Questline

open Binary64

/-! ### Comparisons of integers -/

namespace Comparison

/-- Whether two integers stand in the relation. -/
def ofInts : Comparison → Int → Int → Bool
  | .eq, i, j => decide (i = j)
  | .ne, i, j => decide (i ≠ j)
  | .gt, i, j => decide (j < i)
  | .lt, i, j => decide (i < j)
  | .gte, i, j => decide (j ≤ i)
  | .lte, i, j => decide (i ≤ j)

variable {i j i' j' : Int}

/-- A comparison looks at the order only. -/
theorem ofInts_congr (op : Comparison) (hle : i ≤ j ↔ i' ≤ j') (hge : j ≤ i ↔ j' ≤ i') :
    op.ofInts i j = op.ofInts i' j' := by
  cases op <;> rw [ofInts, ofInts, decide_eq_decide] <;> omega

/-- Numbers compare as their places on the line. -/
theorem ofNumbers_eq_ofInts {x y : Binary64} (op : Comparison) (hx : x.key = some i)
    (hy : y.key = some j) : op.ofNumbers x y = op.ofInts i j := by
  cases op <;>
    simp only [ofNumbers, ofInts, Binary64.equals, Binary64.lt, Binary64.le, hx, hy, decide_not] <;>
    rfl

/-- **Integers compare as numbers** by their rounded values. -/
theorem ofNumbers_ofInt (op : Comparison) (hi : i.natAbs ≤ 0x10000000000000000)
    (hj : j.natAbs ≤ 0x10000000000000000) :
    op.ofNumbers (ofInt i) (ofInt j) = op.ofInts (roundInt i) (roundInt j) := by
  obtain ⟨p, hp⟩ : ∃ p, (ofInt i).key = some p := ⟨_, rfl⟩
  obtain ⟨q, hq⟩ : ∃ q, (ofInt j).key = some q := ⟨_, rfl⟩
  rw [op.ofNumbers_eq_ofInts hp hq]
  exact op.ofInts_congr (key_ofInt_le_iff hi hj hp hq) (key_ofInt_le_iff hj hi hq hp)

/-- **Rounded integers compare exactly** unless different ones become one. -/
theorem ofInts_roundInt_iff :
    (∀ op : Comparison, op.ofInts (roundInt i) (roundInt j) = op.ofInts i j) ↔
      (roundInt i = roundInt j → i = j) := by
  constructor
  · intro h hround
    have heq := h .eq
    rw [ofInts, ofInts, decide_eq_decide] at heq
    exact heq.mp hround
  · intro h op
    have hle : i ≤ j → roundInt i ≤ roundInt j := roundInt_mono
    have hge : j ≤ i → roundInt j ≤ roundInt i := roundInt_mono
    exact op.ofInts_congr (by omega) (by omega)

end Comparison

/-! ### Integers of 64 bits -/

theorem natAbs_toInt_le (a : Int64) : a.toInt.natAbs ≤ 0x10000000000000000 := by
  have hlow := a.le_toInt
  have hhigh := a.toInt_lt
  omega

theorem Comparison.relates_int (op : Comparison) (a b : Int64) :
    op.relates (.int a) (.int b) = op.ofInts (roundInt a.toInt) (roundInt b.toInt) := by
  have hnumbers : op.relates (.int a) (.int b) = op.ofNumbers (ofInt a.toInt) (ofInt b.toInt) := by
    cases op <;> rfl
  rw [hnumbers, op.ofNumbers_ofInt (natAbs_toInt_le a) (natAbs_toInt_le b)]

/-- **Two integers blur** if they are different and become one number. -/
def Blurred (a b : Int64) : Prop := a ≠ b ∧ roundInt a.toInt = roundInt b.toInt

instance (a b : Int64) : Decidable (Blurred a b) := inferInstanceAs (Decidable (_ ∧ _))

theorem not_blurred_iff {a b : Int64} :
    ¬ Blurred a b ↔ (roundInt a.toInt = roundInt b.toInt → a.toInt = b.toInt) := by
  rw [Blurred, Int64.toInt_inj]
  tauto

/-- An integer of at most 53 bits blurs with no other. -/
theorem not_blurred_of_lt {a b : Int64}
    (h : a.toInt.natAbs < 2 ^ 53 ∨ b.toInt.natAbs < 2 ^ 53) : ¬ Blurred a b := by
  rw [not_blurred_iff]
  intro hround
  rcases h with ha | hb
  · exact eq_of_roundInt_eq ha hround
  · exact (eq_of_roundInt_eq hb hround.symm).symm

/-! ### Guards on integers -/

namespace Guard

variable {f : Facts} {path : String} {a : Int64}

theorem holds_compare_int (h : f.resolve path = some (.int a)) (op : Comparison) (b : Int64) :
    holds (.compare op path (.int b)) f = op.ofInts (roundInt a.toInt) (roundInt b.toInt) := by
  rw [holds_compare, h, Option.any_some]
  exact op.relates_int a b

theorem holds_oneOf_int_iff (h : f.resolve path = some (.int a)) (candidates : List Int64) :
    holds (.oneOf path (candidates.map .int)) f = true ↔
      ∃ b ∈ candidates, roundInt a.toInt = roundInt b.toInt := by
  rw [holds_oneOf, h, Option.any_some]
  simp only [List.any_map, List.any_eq_true, Function.comp_apply]
  refine exists_congr fun b => and_congr_right fun _ => ?_
  show Comparison.relates .eq (.int a) (.int b) = true ↔ _
  rw [Comparison.relates_int, Comparison.ofInts, decide_eq_true_eq]

/-- **What guards say of integers.** They compare the rounded integers. The six comparisons are
exact just when the two integers do not blur, and membership finds the members and what blurs with
the integer; nothing blurs if one of the two has at most 53 bits. -/
theorem integer_guards (h : f.resolve path = some (.int a)) :
    (∀ op b,
      holds (.compare op path (.int b)) f = op.ofInts (roundInt a.toInt) (roundInt b.toInt)) ∧
    (∀ b, (∀ op, holds (.compare op path (.int b)) f = op.ofInts a.toInt b.toInt) ↔
      ¬ Blurred a b) ∧
    (∀ candidates : List Int64, holds (.oneOf path (candidates.map .int)) f = true ↔
      a ∈ candidates ∨ ∃ b ∈ candidates, Blurred a b) ∧
    (∀ b : Int64, a.toInt.natAbs < 2 ^ 53 ∨ b.toInt.natAbs < 2 ^ 53 → ¬ Blurred a b) := by
  refine ⟨fun op b => holds_compare_int h op b, fun b => ?_, fun candidates => ?_,
    fun b hb => not_blurred_of_lt hb⟩
  · simp only [holds_compare_int h]
    rw [Comparison.ofInts_roundInt_iff, not_blurred_iff]
  · rw [holds_oneOf_int_iff h]
    constructor
    · rintro ⟨b, hb, hround⟩
      by_cases hab : a = b
      · exact .inl (hab ▸ hb)
      · exact .inr ⟨b, hb, hab, hround⟩
    · rintro (ha | ⟨b, hb, -, hround⟩)
      · exact ⟨a, ha, rfl⟩
      · exact ⟨b, hb, hround⟩

/-- A balance of `2^53` is compared exactly with the threshold below, and found where the integer
above is asked for. -/
theorem integer_guards_of_bank :
    let f := Facts.empty.add (.currency "bank" "gold" 9007199254740992)
    f.resolve "currency.bank.gold" = some (.int 9007199254740992) ∧
    (∀ op, holds (.compare op "currency.bank.gold" (.int 9007199254740991)) f =
      op.ofInts 9007199254740992 9007199254740991) ∧
    holds (.oneOf "currency.bank.gold" [.int 5, .int 9007199254740993]) f = true := by
  intro f
  have hgold : f.resolve "currency.bank.gold" = some (.int 9007199254740992) := by decide
  obtain ⟨-, hexact, hmember, hsmall⟩ := integer_guards hgold
  refine ⟨hgold, (hexact 9007199254740991).mpr (hsmall _ (.inr (by decide))), ?_⟩
  exact (hmember [5, 9007199254740993]).mpr (.inr ⟨9007199254740993, by simp, by decide⟩)

/-- A balance of `2^53` passes the threshold that is one higher. -/
theorem threshold_blurred :
    ¬ ∀ (f : Facts) (path : String) (a b : Int64) (op : Comparison),
      f.resolve path = some (.int a) →
        holds (.compare op path (.int b)) f = op.ofInts a.toInt b.toInt := by
  intro h
  have hgold : (Facts.empty.add (.currency "bank" "gold" 9007199254740992)).resolve
      "currency.bank.gold" = some (.int 9007199254740992) := by decide
  have hpasses := h _ _ _ 9007199254740993 .gte hgold
  rw [holds_compare_int hgold] at hpasses
  revert hpasses
  decide

end Guard

end Questline
