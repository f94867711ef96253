import Questline.Proofs.Decimal.Integers

/-! # Operations round once

A natural number, a product or a quotient is exact in units and then rounded to 53 bits, so a result
that has no more bits is exact. That is said here for results without a minus sign that are a whole
number of units and at most the largest number.

* `Binary64.Amounts`: numbers of so many units. `Binary64.Amounts.isFinite`: they are finite.
* `Binary64.amounts_ofNat`, `Binary64.Amounts.mul`, `Binary64.Amounts.div`: what the operations
  amount to. `Binary64.Amounts.toIndex_eq`: the whole part. -/

namespace Questline

namespace Binary64

variable {num den m n p : Nat} {x y : Binary64}

/-- What is common to a numerator and a denominator does not matter. -/
theorem nearestRank_mul_right (num den : Nat) (hn : 0 < n) :
    nearestRank (num * n) (den * n) = nearestRank num den := by
  have hexponent : exponent (num * n) (den * n) = exponent num den := by
    rw [exponent, exponent, Nat.mul_div_mul_right _ _ hn]
  have hsignificand : significand (num * n) (den * n) = significand num den := by
    rw [significand, significand, hexponent, Nat.shiftLeft_eq, Nat.shiftLeft_eq,
      Nat.mul_right_comm, divToEven_mul_right _ _ hn]
  rw [nearestRank_eq, nearestRank_eq, hexponent, hsignificand]

/-! ### Amounts -/

/-- **A number of so many units,** finite and without a minus sign. -/
def Amounts (x : Binary64) (n : Nat) : Prop :=
  ∃ rank : Fin (infinityRank + 1),
    x = .signed false rank ∧ rank.val < infinityRank ∧ units rank.val = n

theorem Amounts.isFinite (hx : x.Amounts n) : x.isFinite = true := by
  obtain ⟨rank, rfl, hrank, -⟩ := hx
  exact decide_eq_true hrank

/-- **A quotient without remainder** is rounded as a natural number is, up to the largest number. -/
theorem amounts_ofUnits (hden : 0 < den) (hexact : num = n * den)
    (hn : n ≤ units (infinityRank - 1)) : (ofUnits false num den).Amounts (roundNat n) := by
  have hrank : nearestRank num den = nearestRank n 1 := by
    rw [hexact, ← nearestRank_mul_right n 1 hden, Nat.one_mul]
  have hfinite : nearestRank n 1 < infinityRank := by
    have hle := nearestRank_le_of_le Nat.one_pos (hn.trans (Nat.mul_one _).ge)
    have hpos : 0 < infinityRank := by decide
    omega
  have hmin : min (nearestRank num den) infinityRank = nearestRank n 1 := by
    rw [hrank, Nat.min_eq_left hfinite.le]
  refine ⟨_, rfl, ?_, ?_⟩
  · show min (nearestRank num den) infinityRank < infinityRank
    rwa [hmin]
  · show units (min (nearestRank num den) infinityRank) = roundNat n
    rw [hmin, units_nearestRank]

/-- **A natural number** is rounded to 53 bits. -/
theorem amounts_ofNat (h : n * unitsPerOne ≤ units (infinityRank - 1)) :
    (ofNat n).Amounts (roundNat n * unitsPerOne) :=
  roundNat_mul_unitsPerOne n ▸ amounts_ofUnits Nat.one_pos (Nat.mul_one _).symm h

/-- Words are far from the largest number. -/
theorem mul_unitsPerOne_le (h : n ≤ 0x10000000000000000) :
    n * unitsPerOne ≤ units (infinityRank - 1) := by
  have hrank : (wordBinades + 2) * binade ≤ infinityRank - 1 := by decide
  calc n * unitsPerOne ≤ 0x10000000000000000 * unitsPerOne := Nat.mul_le_mul_right _ h
    _ = units ((wordBinades + 2) * binade) := by rw [word_mul_unitsPerOne, units_binades]
    _ ≤ units (infinityRank - 1) := units_le_units hrank

/-- A natural number of at most 53 bits is exact. -/
theorem amounts_ofNat_of_lt (h : n < 2 * binade) : (ofNat n).Amounts (n * unitsPerOne) := by
  have hround := amounts_ofNat (mul_unitsPerOne_le (h.le.trans (by decide)))
  rwa [roundNat_eq_self h] at hround

/-! ### Products and quotients -/

/-- **A product** of `p` units. -/
theorem Amounts.mul (hx : x.Amounts m) (hy : y.Amounts n) (hexact : m * n = p * unitsPerOne)
    (hp : p ≤ units (infinityRank - 1)) : (x.mul y).Amounts (roundNat p) := by
  obtain ⟨r, rfl, hr, rfl⟩ := hx
  obtain ⟨s, rfl, hs, rfl⟩ := hy
  have hproduct : (signed false r).mul (signed false s) =
      ofUnits false (units r.val * units s.val) unitsPerOne := by
    simp [Binary64.mul, Binary64.isFinite, hr, hs]
  rw [hproduct]
  exact amounts_ofUnits unitsPerOne_pos hexact hp

/-- **A quotient** of `p` units. -/
theorem Amounts.div (hx : x.Amounts m) (hy : y.Amounts n) (hn : 0 < n)
    (hexact : m * unitsPerOne = p * n) (hp : p ≤ units (infinityRank - 1)) :
    (x.div y).Amounts (roundNat p) := by
  obtain ⟨r, rfl, hr, rfl⟩ := hx
  obtain ⟨s, rfl, hs, rfl⟩ := hy
  have hzero : s.val ≠ 0 := by
    intro hzero
    rw [hzero] at hn
    exact absurd hn (by decide)
  have hquotient : (signed false r).div (signed false s) =
      ofUnits false (units r.val * unitsPerOne) (units s.val) := by
    simp [Binary64.div, Binary64.isFinite, hr, hs, hzero]
  rw [hquotient]
  exact amounts_ofUnits hn hexact hp

theorem Amounts.toIndex_eq (hx : x.Amounts m) : x.toIndex = min (m / unitsPerOne) maxIndex := by
  obtain ⟨r, rfl, hr, rfl⟩ := hx
  simp only [toIndex, Bool.false_eq_true, if_false, if_pos hr]

end Binary64

end Questline
