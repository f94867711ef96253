import Questline.Decimal.Reading
import Questline.Proofs.Decimal.Rounding

/-! # Numbers that are read are finite

A numeral is read as a word times a power of ten. The word is far from the largest number, dividing
by a power of ten does not lead further away, and a product that leaves the numbers is refused. So
no numeral stands for an infinity or a `nan`.

* `Binary64.AtMost`: numbers of at most so many units.
* `Binary64.atMost_ofUnits`, `Binary64.atMost_div`: rounding keeps a bound that is a power of two,
  and so does division by one or more.
* `Binary64.isFinite_ofInt`, `Numeral.isFinite_of_toBinary64?`: words and numerals are finite. -/

namespace Questline

namespace Binary64

/-! ### Powers of two -/

variable {num den k rank : Nat}

/-- The magnitude at the end of `k + 2` binades. -/
theorem units_binades (k : Nat) : units ((k + 2) * binade) = 2 ^ (k + 53) := by
  have hsplit : (k + 2) * binade = binade + (k + 1) * binade := by ring
  rw [hsplit, units_significand (.inr (Nat.le_refl _)) (by decide), binade_eq_two_pow]
  ring

/-- A quotient of at most `2^(k+53)` units is rounded to a rank of at most `k + 2` binades. -/
theorem nearestRank_le (hden : 0 < den) (h : num ≤ 2 ^ (k + 53) * den) :
    nearestRank num den ≤ (k + 2) * binade :=
  nearestRank_le_of_le hden (by rwa [units_binades])

/-- A quotient of `2^(k+53)` units or more is rounded to a rank of `k + 2` binades or more. -/
theorem le_nearestRank (hden : 0 < den) (h : 2 ^ (k + 53) * den ≤ num) :
    (k + 2) * binade ≤ nearestRank num den :=
  le_nearestRank_of_le hden (by rwa [units_binades])

/-- A rank of at most `k + 2` binades has at most `2^(k+53)` units. -/
theorem units_le (h : rank ≤ (k + 2) * binade) : units rank ≤ 2 ^ (k + 53) :=
  units_binades k ▸ units_le_units h

/-- A rank of `k + 2` binades or more has `2^(k+53)` units or more. -/
theorem le_units (h : (k + 2) * binade ≤ rank) : 2 ^ (k + 53) ≤ units rank :=
  units_binades k ▸ units_le_units h

/-! ### Bounded numbers -/

/-- **Numbers of at most `2^(k+53)` units:** those ranks make up at most `k + 2` binades. -/
def AtMost (k : Nat) : Binary64 → Prop
  | .nan => False
  | .signed _ rank => rank.val ≤ (k + 2) * binade

variable {x y : Binary64}

theorem AtMost.isFinite (h : x.AtMost k) (hk : k < 2045) : x.isFinite = true := by
  cases x with
  | nan => exact h.elim
  | signed negative rank =>
    have hrank : rank.val ≤ (k + 2) * binade := h
    have hlt : (k + 2) * binade < infinityRank :=
      Nat.mul_lt_mul_of_pos_right (by omega) (by decide)
    exact decide_eq_true (Nat.lt_of_le_of_lt hrank hlt)

theorem isFinite_neg (x : Binary64) : x.neg.isFinite = x.isFinite := by cases x <;> rfl

theorem atMost_ofUnits {num den : Nat} (negative : Bool) (hden : 0 < den)
    (h : num ≤ 2 ^ (k + 53) * den) : (ofUnits negative num den).AtMost k :=
  Nat.le_trans (Nat.min_le_left _ _) (nearestRank_le hden h)

/-- Numbers of magnitude one or more, infinities included. -/
def OneOrMore : Binary64 → Prop
  | .nan => False
  | .signed _ rank => 1023 * binade ≤ rank.val

theorem unitsPerOne_eq_two_pow : unitsPerOne = 2 ^ (1021 + 53) := by decide +kernel

theorem unitsPerOne_pos : 0 < unitsPerOne := by
  obtain ⟨k, hk⟩ : ∃ k, unitsPerOne = 2 ^ k := ⟨_, unitsPerOne_eq_two_pow⟩
  rw [hk]
  exact Nat.two_pow_pos k

/-- **Division by one or more** keeps a bound. -/
theorem atMost_div (hx : x.AtMost k) (hk : k < 2045) (hy : y.OneOrMore) : (x.div y).AtMost k := by
  have hxfinite := hx.isFinite hk
  cases x with
  | nan => exact hx.elim
  | signed m r =>
    cases y with
    | nan => exact hy.elim
    | signed n s =>
      have hrank : 1023 * binade ≤ s.val := hy
      cases hyfinite : (Binary64.signed n s).isFinite with
      | true =>
        have hs : s.val ≠ 0 := Nat.ne_of_gt (Nat.lt_of_lt_of_le (by decide) hrank)
        have hunits : unitsPerOne ≤ units s.val := by
          rw [unitsPerOne_eq_two_pow]
          exact le_units hrank
        have hpos : 0 < units s.val := Nat.lt_of_lt_of_le unitsPerOne_pos hunits
        have hquot : units r.val * unitsPerOne ≤ 2 ^ (k + 53) * units s.val :=
          Nat.mul_le_mul (units_le hx) hunits
        simp only [div, hxfinite, hyfinite, if_neg hs]
        exact atMost_ofUnits _ hpos hquot
      | false =>
        simp only [div, hxfinite, hyfinite]
        exact Nat.zero_le _

/-! ### Words and powers of ten -/

/-- The binades of `2^64`. -/
def wordBinades : Nat := 1085

theorem word_mul_unitsPerOne : 0x10000000000000000 * unitsPerOne = 2 ^ (wordBinades + 53) := by
  decide +kernel

theorem atMost_word {n : Nat} (negative : Bool) (h : n ≤ 0x10000000000000000) :
    (ofUnits negative (n * unitsPerOne) 1).AtMost wordBinades := by
  refine atMost_ofUnits negative Nat.one_pos ?_
  rw [Nat.mul_one, ← word_mul_unitsPerOne]
  exact Nat.mul_le_mul_right _ h

/-- Words are finite. -/
theorem isFinite_ofInt {i : Int} (h : i.natAbs ≤ 0x10000000000000000) :
    (ofInt i).isFinite = true :=
  (atMost_word _ h).isFinite (by decide)

theorem oneOrMore_powerOfTen (n : Nat) : (powerOfTen n).OneOrMore := by
  have hone : 1 ≤ Nat.pow 10 n := Nat.one_le_pow n 10 (by decide)
  have hunits : 2 ^ (1021 + 53) * 1 ≤ Nat.pow 10 n * unitsPerOne := by
    rw [← unitsPerOne_eq_two_pow, Nat.mul_comm]
    exact Nat.mul_le_mul_right unitsPerOne hone
  exact Nat.le_min.mpr ⟨le_nearestRank Nat.one_pos hunits, by decide⟩

end Binary64

open Binary64

theorem absorb_le {word : Nat} (h : word ≤ maxWord) (ds : List Digit) :
    (absorb word ds).1 ≤ maxWord := by
  induction ds generalizing word with
  | nil => exact h
  | cons d ds ih =>
    unfold absorb
    split_ifs with hfits
    · exact ih hfits
    · exact h

theorem atMost_scaleDown {x : Binary64} {k : Nat} (hx : x.AtMost k) (hk : k < 2045) (power : Nat) :
    (scaleDown x power).AtMost k := by
  induction power using Nat.strongRecOn generalizing x with
  | _ power ih =>
    unfold scaleDown
    split_ifs with hlast hzero
    · exact atMost_div hx hk (oneOrMore_powerOfTen power)
    · exact hx
    · exact ih (power - 308) (by omega) (atMost_div hx hk (oneOrMore_powerOfTen 308))

theorem isFinite_of_scaleUp {x y : Binary64} {power : Nat} (hx : x.isFinite = true)
    (h : scaleUp x power = some y) : y.isFinite = true := by
  unfold scaleUp at h
  dsimp only at h
  split_ifs at h with _ hfinite
  · exact Option.some.inj h ▸ hfinite
  · exact Option.some.inj h ▸ hx

theorem isFinite_of_scaled {word : Nat} {power : Int} {x : Binary64} (hword : word ≤ maxWord)
    (h : scaled word power = some x) : x.isFinite = true := by
  have hbound : (ofNat word).AtMost wordBinades :=
    atMost_word false (Nat.le_trans hword (by decide))
  unfold scaled at h
  split_ifs at h
  · obtain rfl := Option.some.inj h
    exact (atMost_scaleDown hbound (by decide) _).isFinite (by decide)
  · exact isFinite_of_scaleUp (hbound.isFinite (by decide)) h

/-- **No numeral stands for an infinity or a `nan`.** -/
theorem Numeral.isFinite_of_toBinary64? {n : Numeral} {x : Binary64} (h : n.toBinary64? = some x) :
    x.isFinite = true := by
  obtain ⟨y, hy, rfl⟩ := Option.map_eq_some_iff.mp h
  have hfront := absorb_le (Nat.zero_le maxWord) (digits n.whole)
  have hfinite := isFinite_of_scaled (absorb_le hfront n.fraction) hy
  split_ifs
  · rwa [isFinite_neg]
  · exact hfinite

end Questline
