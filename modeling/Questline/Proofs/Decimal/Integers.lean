import Questline.Proofs.Decimal.Finite

/-! # Integers as floating point numbers

An integer becomes the nearest number, which keeps 53 of its bits. Numbers lie on the line as their
magnitudes do, so integers lie there as the rounded ones: in the same order, but some that are
different become one.

* `Binary64.roundNat_mono`, `Binary64.roundNat_mul_two_pow`: rounding keeps the order, and powers of
  two pass through it.
* `Binary64.key_le_key_iff`: numbers lie on the line as their magnitudes do.
* `Binary64.roundInt`: rounding on integers. `Binary64.toUnits_ofInt`: the magnitude of an integer.
  `Binary64.key_ofInt_le_iff`: integers lie on the line as the rounded ones do.
* `Binary64.eq_of_roundInt_eq`: integers of at most 53 bits stay different from all others. -/

namespace Questline

namespace Binary64

variable {a b d k m n r s : Nat}

/-! ### Rounding and order -/

theorem divToEven_mono (d : Nat) (h : a ≤ b) : divToEven a d ≤ divToEven b d := by
  have hquot : a / d ≤ b / d := Nat.div_le_div_right h
  rcases Nat.lt_or_eq_of_le hquot with hlt | heq
  · -- the next multiple is not beyond the quotient of `b`
    have hup : divToEven a d ≤ a / d + 1 := by
      unfold divToEven
      split_ifs <;> omega
    exact Nat.le_trans hup (Nat.le_trans hlt (le_divToEven b d))
  · have ha := Nat.div_add_mod a d
    have hb := Nat.div_add_mod b d
    rw [heq] at ha
    have hmod : a % d ≤ b % d := by omega
    unfold divToEven
    rw [heq]
    split_ifs <;> omega

/-- **Rounding keeps the order.** -/
theorem roundNat_mono (h : m ≤ n) : roundNat m ≤ roundNat n := by
  have hlog : Nat.log2 m - 52 ≤ Nat.log2 n - 52 := by
    by_cases hm : m = 0
    · rw [hm, Nat.log2_zero]
      omega
    · have hself := Nat.log2_self_le hm
      have hn : n ≠ 0 := by omega
      have := (Nat.le_log2 hn).mpr (Nat.le_trans hself h)
      omega
  rcases Nat.lt_or_eq_of_le hlog with hlt | heq
  · -- the power of two between them is not rounded
    have hn : binade ≤ n := by
      by_contra hsmall
      rw [log2_eq_of_lt (n := n) (by omega)] at hlt
      omega
    calc roundNat m ≤ 2 * binade * 2 ^ (Nat.log2 m - 52) := by
          rw [roundNat_eq]
          exact Nat.mul_le_mul_right _ (divToEven_le_binade m)
      _ = binade * 2 ^ (Nat.log2 m - 52 + 1) := by ring
      _ ≤ binade * 2 ^ (Nat.log2 n - 52) :=
          Nat.mul_le_mul_left _ (Nat.pow_le_pow_right (by decide) hlt)
      _ ≤ roundNat n := by
          rw [roundNat_eq]
          exact Nat.mul_le_mul_right _ (binade_le_divToEven hn)
  · rw [roundNat_eq, roundNat_eq, heq]
    exact Nat.mul_le_mul_right _ (divToEven_mono _ h)

theorem log2_mul_two_pow (hn : n ≠ 0) (k : Nat) : Nat.log2 (n * 2 ^ k) = Nat.log2 n + k := by
  have hpos : 0 < 2 ^ k := by positivity
  refine (Nat.log2_eq_iff (Nat.mul_ne_zero hn hpos.ne')).mpr ⟨?_, ?_⟩
  · rw [Nat.pow_add]
    exact Nat.mul_le_mul_right _ (Nat.log2_self_le hn)
  · have hsplit : 2 ^ (Nat.log2 n + k + 1) = 2 ^ (Nat.log2 n + 1) * 2 ^ k := by ring
    rw [hsplit]
    exact Nat.mul_lt_mul_of_pos_right Nat.lt_log2_self hpos

theorem divToEven_mul_right (a b : Nat) (hd : 0 < d) :
    divToEven (a * d) (b * d) = divToEven a b := by
  have hless : 2 * (a * d % (b * d)) < b * d ↔ 2 * (a % b) < b := by
    rw [Nat.mul_mod_mul_right, ← Nat.mul_assoc]
    exact Nat.mul_lt_mul_right hd
  have hmore : b * d < 2 * (a * d % (b * d)) ↔ b < 2 * (a % b) := by
    rw [Nat.mul_mod_mul_right, ← Nat.mul_assoc]
    exact Nat.mul_lt_mul_right hd
  unfold divToEven
  simp only [hless, hmore, Nat.mul_div_mul_right _ _ hd]

/-- **Powers of two pass through rounding.** -/
theorem roundNat_mul_two_pow (n k : Nat) : roundNat (n * 2 ^ k) = roundNat n * 2 ^ k := by
  by_cases hzero : n = 0
  · rw [hzero, Nat.zero_mul, roundNat_eq_self (by decide), Nat.zero_mul]
  by_cases hsmall : n < 2 * binade
  · -- all bits of the number are kept
    have hlog := log2_eq_of_lt hsmall
    obtain ⟨j, hj⟩ : ∃ j, k = j + (Nat.log2 (n * 2 ^ k) - 52) := by
      rw [log2_mul_two_pow hzero]
      exact ⟨k - (Nat.log2 n + k - 52), by omega⟩
    rw [roundNat_eq_self hsmall, roundNat_eq]
    generalize Nat.log2 (n * 2 ^ k) - 52 = e at hj
    rw [hj, Nat.pow_add, ← Nat.mul_assoc, divToEven_mul _ (by positivity)]
  · have hlog : 52 ≤ Nat.log2 n :=
      (Nat.le_log2 hzero).mpr (by rw [binade_eq_two_pow] at hsmall; omega)
    have hexponent : Nat.log2 (n * 2 ^ k) - 52 = Nat.log2 n - 52 + k := by
      rw [log2_mul_two_pow hzero]
      omega
    rw [roundNat_eq, roundNat_eq, hexponent, Nat.pow_add, divToEven_mul_right _ _ (by positivity),
      Nat.mul_assoc]

theorem roundNat_mul_unitsPerOne (n : Nat) :
    roundNat (n * unitsPerOne) = roundNat n * unitsPerOne := by
  rw [unitsPerOne_eq_two_pow, roundNat_mul_two_pow]

theorem roundNat_le_two_pow (h : n ≤ 2 ^ k) : roundNat n ≤ 2 ^ k := by
  have hpower : roundNat (2 ^ k) = 2 ^ k := by
    have hround := roundNat_mul_two_pow 1 k
    rwa [Nat.one_mul, roundNat_eq_self (n := 1) (by decide), Nat.one_mul] at hround
  exact hpower ▸ roundNat_mono h

/-! ### Order by magnitude -/

theorem units_le_units_iff : units r ≤ units s ↔ r ≤ s := by
  refine ⟨fun h => ?_, units_le_units⟩
  have hround : nearestRank (units r) 1 ≤ s := nearestRank_le_of_le Nat.one_pos (by omega)
  rwa [nearestRank_units] at hround

/-- **Numbers lie on the line as their magnitudes do.** -/
theorem key_le_key_iff {x y : Binary64} {p q : Int} (hx : x.key = some p) (hy : y.key = some q) :
    p ≤ q ↔ x.toUnits ≤ y.toUnits := by
  cases x with
  | nan => cases hx
  | signed negative rank =>
    cases y with
    | nan => cases hy
    | signed negative' rank' =>
      have hle := units_le_units_iff (r := rank.val) (s := rank'.val)
      have hge := units_le_units_iff (r := rank'.val) (s := rank.val)
      have hzero := units_le_units_iff (r := rank.val) (s := 0)
      have hzero' := units_le_units_iff (r := rank'.val) (s := 0)
      have hunits : units 0 = 0 := by decide
      rw [hunits] at hzero hzero'
      rw [← Option.some.inj hx, ← Option.some.inj hy]
      cases negative <;> cases negative' <;>
        simp only [toUnits, Bool.false_eq_true, if_true, if_false] <;> omega

/-! ### Integers -/

/-- **The integer of 53 bits nearest to `i`.** -/
def roundInt (i : Int) : Int := if i < 0 then -(roundNat i.natAbs : Int) else roundNat i.natAbs

variable {i j : Int}

/-- **The magnitude of an integer** of 64 bits is that of the rounded integer. -/
theorem toUnits_ofInt (h : i.natAbs ≤ 0x10000000000000000) :
    (ofInt i).toUnits = roundInt i * unitsPerOne := by
  have hfinite := isFinite_ofInt h
  have hunits :
      units (nearestRank (i.natAbs * unitsPerOne) 1) = roundNat i.natAbs * unitsPerOne := by
    rw [units_nearestRank, roundNat_mul_unitsPerOne]
  rw [ofInt, ofUnits, ofRank] at hfinite ⊢
  have hrank : min (nearestRank (i.natAbs * unitsPerOne) 1) infinityRank < infinityRank :=
    of_decide_eq_true hfinite
  have hmin : min (nearestRank (i.natAbs * unitsPerOne) 1) infinityRank =
      nearestRank (i.natAbs * unitsPerOne) 1 := by omega
  simp only [toUnits, hmin, hunits, roundInt, decide_eq_true_eq]
  split
  · rw [Int.natCast_mul, Int.neg_mul]
  · rw [Int.natCast_mul]

/-- **Integers lie on the line** as the rounded ones do. -/
theorem key_ofInt_le_iff {p q : Int} (hi : i.natAbs ≤ 0x10000000000000000)
    (hj : j.natAbs ≤ 0x10000000000000000) (hp : (ofInt i).key = some p)
    (hq : (ofInt j).key = some q) : p ≤ q ↔ roundInt i ≤ roundInt j := by
  have hpos : (0 : Int) < unitsPerOne := Int.natCast_pos.mpr unitsPerOne_pos
  rw [key_le_key_iff hp hq, toUnits_ofInt hi, toUnits_ofInt hj]
  exact Int.mul_le_mul_right hpos

theorem natAbs_roundInt (i : Int) : (roundInt i).natAbs = roundNat i.natAbs := by
  unfold roundInt
  split <;> omega

theorem roundInt_eq_self (h : i.natAbs < 2 ^ 53) : roundInt i = i := by
  rw [roundInt, roundNat_eq_self h]
  split <;> omega

/-- **Rounding keeps the order** of integers. -/
theorem roundInt_mono (h : i ≤ j) : roundInt i ≤ roundInt j := by
  unfold roundInt
  split_ifs with hi hj hj
  · have := roundNat_mono (m := j.natAbs) (n := i.natAbs) (by omega)
    omega
  · omega
  · omega
  · have := roundNat_mono (m := i.natAbs) (n := j.natAbs) (by omega)
    omega

/-- **An integer of at most 53 bits** is not taken for another one. -/
theorem eq_of_roundInt_eq (hi : i.natAbs < 2 ^ 53) (h : roundInt i = roundInt j) : i = j := by
  rw [roundInt_eq_self hi] at h
  by_cases hj : j.natAbs < 2 ^ 53
  · rw [h, roundInt_eq_self hj]
  · have hlow := roundNat_mono (m := 2 ^ 53) (n := j.natAbs) (by omega)
    have hround : roundNat (2 ^ 53) = 2 ^ 53 := by decide
    rw [hround, ← natAbs_roundInt, ← h] at hlow
    omega

end Binary64

end Questline
