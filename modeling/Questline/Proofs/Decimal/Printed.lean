import Mathlib.Data.Rat.Cast.Order
import Mathlib.Tactic.FieldSimp
import Mathlib.Tactic.GCongr
import Mathlib.Tactic.NormNum
import Questline.Json.Printer
import Questline.Proofs.Decimal.Operations

/-! # Printed numbers are read

The reader rounds up to three times, so that it may take the numeral of a number for a neighbour or
two, but it takes the numeral of every finite number for a number. Only the last numbers before
infinity are in danger, and those are computed.

* `absorb_mul_le`, `absorb_digits`: the word that is gathered from digits.
* `Decimal.value`, `Shortest.value_decimal_le`: the shortest decimal of a rank is at most the
  magnitude of the next rank.
* `Binary64.exists_scaleUp`: a word and a power of ten that stay below the last three numbers.
* `Layout.exists_toBinary64?_numeral`, `Layout.toWord?_numeral`: the numeral of a finite number is
  read as a number, and not as a word. -/

namespace Questline

open Binary64

/-! ### Digits -/

/-- The number whose decimal form is that of a number followed by digits. -/
def appendDigits (n : Nat) (ds : List Digit) : Nat := ds.foldl (fun n d => 10 * n + d.val) n

theorem ofDigits_cons (d : Digit) (ds : List Digit) :
    ofDigits (d :: ds) = appendDigits d.val ds := by
  show appendDigits (10 * 0 + d.val) ds = _
  rw [Nat.mul_zero, Nat.zero_add]

theorem mul_le_appendDigits (n : Nat) (ds : List Digit) :
    n * 10 ^ ds.length ≤ appendDigits n ds := by
  induction ds generalizing n with
  | nil => simp [appendDigits]
  | cons d ds ih =>
    calc n * 10 ^ (ds.length + 1) = 10 * n * 10 ^ ds.length := by ring
      _ ≤ (10 * n + d.val) * 10 ^ ds.length := Nat.mul_le_mul_right _ (Nat.le_add_right _ _)
      _ ≤ appendDigits n (d :: ds) := ih _

theorem appendDigits_lt (n : Nat) (ds : List Digit) :
    appendDigits n ds < (n + 1) * 10 ^ ds.length := by
  induction ds generalizing n with
  | nil => simp [appendDigits]
  | cons d ds ih =>
    have hd : 10 * n + d.val + 1 ≤ 10 * (n + 1) := by omega
    calc appendDigits n (d :: ds) < (10 * n + d.val + 1) * 10 ^ ds.length := ih _
      _ ≤ 10 * (n + 1) * 10 ^ ds.length := Nat.mul_le_mul_right _ hd
      _ = (n + 1) * 10 ^ (ds.length + 1) := by ring

theorem ofDigits_lt (ds : List Digit) : ofDigits ds < 10 ^ ds.length := by
  have hlt := appendDigits_lt 0 ds
  rwa [Nat.zero_add, Nat.one_mul] at hlt

/-- Between two powers of ten lie the numbers of so many digits. -/
theorem length_digits {n k : Nat} (hlow : 10 ^ k ≤ n) (hhigh : n < 10 ^ (k + 1)) :
    (digits n).length = k + 1 := by
  induction k generalizing n with
  | zero => rw [digits_of_lt (by simpa using hhigh)]; rfl
  | succ k ih =>
    rw [Nat.pow_succ] at hlow hhigh
    have hten : 10 ≤ n := Nat.le_trans (Nat.le_mul_of_pos_left 10 (by positivity)) hlow
    rw [digits_of_ge hten, List.length_append, ih (n := n / 10) (by omega) (by omega)]
    rfl

/-! ### Words -/

/-- All digits are gathered when their number is a word. -/
theorem absorb_eq {word : Nat} {ds : List Digit} (h : appendDigits word ds ≤ maxWord) :
    absorb word ds = (appendDigits word ds, []) := by
  induction ds generalizing word with
  | nil => rfl
  | cons d ds ih =>
    have hpos : 1 ≤ 10 ^ ds.length := Nat.one_le_pow _ _ (by decide)
    have hfits : 10 * word + d.val ≤ maxWord := by
      calc 10 * word + d.val
        _ ≤ (10 * word + d.val) * 10 ^ ds.length := Nat.le_mul_of_pos_right _ hpos
        _ ≤ appendDigits (10 * word + d.val) ds := mul_le_appendDigits _ _
        _ ≤ maxWord := h
    rw [absorb, if_pos hfits]
    exact ih h

theorem absorb_digits {n : Nat} (h : n ≤ maxWord) : absorb 0 (digits n) = (n, []) := by
  have hvalue : appendDigits 0 (digits n) = n := ofDigits_digits n
  rw [absorb_eq (hvalue.symm ▸ h), hvalue]

/-- What is gathered is at most the number of all digits, in the scale of those left. -/
theorem absorb_mul_le (word : Nat) (ds : List Digit) :
    (absorb word ds).1 * 10 ^ (absorb word ds).2.length ≤ appendDigits word ds := by
  induction ds generalizing word with
  | nil => simp [absorb, appendDigits]
  | cons d ds ih =>
    unfold absorb
    split_ifs
    · exact ih _
    · exact mul_le_appendDigits word (d :: ds)

theorem length_absorb_le (word : Nat) (ds : List Digit) :
    (absorb word ds).2.length ≤ ds.length := by
  induction ds generalizing word with
  | nil => exact Nat.le_refl _
  | cons d ds ih =>
    unfold absorb
    split_ifs
    · exact Nat.le_succ_of_le (ih _)
    · exact Nat.le_refl _

/-! ### Decimals -/

namespace Decimal

/-- The value of a decimal. -/
def value (d : Decimal) : ℚ := d.coefficient * 10 ^ d.power

theorem value_trim (d : Decimal) : d.trim.value = d.value := by
  induction d using trim.induct with
  | case1 d h ih =>
    rw [trim, dif_pos h, ih]
    have hsplit : d.coefficient = d.coefficient / 10 * 10 := by omega
    show ((d.coefficient / 10 : Nat) : ℚ) * 10 ^ (d.power + 1) = d.coefficient * 10 ^ d.power
    rw [zpow_add_one₀ (by norm_num)]
    conv_rhs => rw [hsplit]
    push_cast
    ring
  | case2 d h => rw [trim, dif_neg h]

/-- A whole number of parts of `2^k` as a decimal. -/
theorem value_exact {k parts : Nat} {power : Int} (hpower : power = -(k : Int))
    (hparts : parts = 2 ^ k) (n : Nat) : value ⟨n * Nat.pow 5 k, power⟩ * parts = n := by
  have hten : (10 : ℚ) ^ k = 5 ^ k * 2 ^ k := by rw [← mul_pow]; norm_num
  rw [value, hpower, hparts, zpow_neg, zpow_natCast, hten, Nat.pow_eq]
  push_cast
  field_simp

/-- The units of a decimal as a quotient. -/
theorem inSteps_units (d : Decimal) :
    0 < (inSteps (d.coefficient * unitsPerOne) 1 (-d.power)).2 ∧
      ((inSteps (d.coefficient * unitsPerOne) 1 (-d.power)).1 : ℚ) =
        d.value * unitsPerOne * (inSteps (d.coefficient * unitsPerOne) 1 (-d.power)).2 := by
  obtain ⟨c, p⟩ := d
  unfold inSteps value
  by_cases hp : -p < 0
  · obtain ⟨k, rfl⟩ : ∃ k : Nat, p = k := ⟨p.toNat, by omega⟩
    rw [if_pos hp]
    refine ⟨Nat.one_pos, ?_⟩
    simp only [Int.natAbs_neg, Int.natAbs_natCast, zpow_natCast, Nat.pow_eq]
    push_cast
    ring
  · obtain ⟨k, rfl⟩ : ∃ k : Nat, p = -(k : Int) := ⟨(-p).toNat, by omega⟩
    rw [if_neg hp]
    refine ⟨by simp only [Nat.pow_eq]; positivity, ?_⟩
    simp only [neg_neg, Int.natAbs_natCast, zpow_neg, zpow_natCast, Nat.pow_eq]
    push_cast
    field_simp

/-- A decimal lies below the magnitude after the nearest. -/
theorem value_lt (d : Decimal) : d.value * unitsPerOne < units (d.rank + 1) := by
  obtain ⟨hden, hnum⟩ := inSteps_units d
  generalize hq : inSteps (d.coefficient * unitsPerOne) 1 (-d.power) = quotient at hden hnum
  have hrank : d.rank = nearestRank quotient.1 quotient.2 := by rw [rank, hq]
  have hlt : quotient.1 < units (d.rank + 1) * quotient.2 := by
    by_contra hge
    have hle := le_nearestRank_of_le hden (Nat.not_lt.mp hge)
    omega
  have hcast : (quotient.1 : ℚ) < units (d.rank + 1) * quotient.2 := by exact_mod_cast hlt
  rw [hnum] at hcast
  exact lt_of_mul_lt_mul_right hcast (Nat.cast_nonneg _)

end Decimal

namespace Shortest

theorem rank_of_onGrid {tie : Tie} {rank num den : Nat} {power : Int} {d : Decimal}
    (h : onGrid tie rank num den power = some d) : d.rank = rank := by
  unfold onGrid at h
  generalize Decimal.inSteps num den power = steps at h
  simp only [Bool.and_eq_true, decide_eq_true_eq, beq_iff_eq] at h
  split at h
  · rename_i hboth
    obtain ⟨⟨-, hlow⟩, hhigh⟩ := hboth
    split at h
    · exact Option.some.inj h ▸ hlow
    · split at h
      · exact Option.some.inj h ▸ hhigh
      · cases tie with
        | up => exact Option.some.inj h ▸ hhigh
        | even =>
          obtain rfl := Option.some.inj h
          split
          · exact hlow
          · exact hhigh
  · split at h
    · rename_i hlow
      exact Option.some.inj h ▸ hlow.2
    · split at h
      · rename_i hhigh
        exact Option.some.inj h ▸ hhigh
      · cases h

theorem leadingPower_eq {num den k : Nat} (hden : 0 < den) (hlow : 10 ^ k * den ≤ num)
    (hhigh : num < 10 ^ (k + 1) * den) : leadingPower num den = k := by
  have hpos : 0 < 10 ^ k := by positivity
  have hle : den ≤ num := Nat.le_trans (Nat.le_mul_of_pos_left den hpos) hlow
  have hquot : 10 ^ k ≤ num / den := (Nat.le_div_iff_mul_le hden).mpr hlow
  have hlength := length_digits hquot ((Nat.div_lt_iff_lt_mul hden).mpr hhigh)
  rw [leadingPower, if_pos hle, Decimal.digitCount, if_neg (by omega), hlength]
  omega

/-- **The shortest decimal of a rank** is at most the magnitude of the next. -/
theorem value_decimal_le (tie : Tie) (rank : Nat) :
    (decimal tie rank).value * unitsPerOne ≤ units (rank + 1) := by
  rw [decimal, Decimal.value_trim]
  cases hgrids : onGrids? tie rank with
  | some d =>
    obtain ⟨power, -, hgrid⟩ := List.exists_of_findSome?_eq_some hgrids
    rw [Option.getD_some, ← rank_of_onGrid hgrid]
    exact d.value_lt.le
  | none =>
    obtain ⟨k, hk, hparts⟩ : ∃ k, k = 1074 ∧ unitsPerOne = 2 ^ k :=
      ⟨1021 + 53, rfl, unitsPerOne_eq_two_pow⟩
    have hpower : (-1074 : Int) = -(k : Int) := by omega
    rw [Option.getD_none, exact, ← hk, Decimal.value_exact hpower hparts]
    exact_mod_cast units_le_units (Nat.le_succ rank)

end Shortest

/-! ### Scaling -/

namespace Binary64

/-- The first of the last three ranks before infinity. -/
def topRank : Nat := infinityRank - 3

theorem topRank_add : topRank + 3 = infinityRank := Nat.sub_add_cancel (by decide)

/-- What lies below the last three ranks, and how much room they leave for rounding. -/
theorem units_topRank_bounds :
    maxWord * unitsPerOne ≤ units topRank ∧ 10 ^ 308 * unitsPerOne ≤ units topRank ∧
    units topRank < 10 ^ 309 * unitsPerOne ∧
    units topRank * (2 ^ 53 + 1) ^ 2 ≤ units (infinityRank - 1) * (2 ^ 53) ^ 2 := by
  decide +kernel

/-- **A product below the last three numbers** is finite, though all three roundings lead up. -/
theorem isFinite_mul_ofNat {m n : Nat} (hm : m * unitsPerOne ≤ units topRank)
    (hn : n * unitsPerOne ≤ units topRank) (h : m * n * unitsPerOne ≤ units topRank) :
    ((ofNat m).mul (ofNat n)).isFinite = true := by
  have hlast : units topRank ≤ units (infinityRank - 1) := units_le_units (by decide)
  obtain ⟨-, -, -, htop⟩ := units_topRank_bounds
  have hproduct : roundNat m * roundNat n * unitsPerOne ≤ units (infinityRank - 1) := by
    refine Nat.le_of_mul_le_mul_right ?_ (show 0 < (2 ^ 53) ^ 2 by decide)
    calc roundNat m * roundNat n * unitsPerOne * (2 ^ 53) ^ 2
        = roundNat m * 2 ^ 53 * (roundNat n * 2 ^ 53) * unitsPerOne := by ring
      _ ≤ m * (2 ^ 53 + 1) * (n * (2 ^ 53 + 1)) * unitsPerOne :=
        Nat.mul_le_mul_right _ (Nat.mul_le_mul (roundNat_mul_le m) (roundNat_mul_le n))
      _ = m * n * unitsPerOne * (2 ^ 53 + 1) ^ 2 := by ring
      _ ≤ units topRank * (2 ^ 53 + 1) ^ 2 := Nat.mul_le_mul_right _ h
      _ ≤ units (infinityRank - 1) * (2 ^ 53) ^ 2 := htop
  have hx := amounts_ofNat (hm.trans hlast)
  have hy := amounts_ofNat (hn.trans hlast)
  exact (hx.mul hy (by ring) hproduct).isFinite

theorem exists_scaleUp {word k : Nat} (h : word * 10 ^ k * unitsPerOne ≤ units topRank) :
    ∃ x, scaleUp (ofNat word) k = some x := by
  have hpos : 0 < 10 ^ k := by positivity
  unfold scaleUp
  dsimp only
  split_ifs with hk hfinite hzero
  · exact ⟨_, rfl⟩
  · -- the product would be finite
    have hword : word * unitsPerOne ≤ units topRank :=
      Nat.le_trans (Nat.mul_le_mul_right _ (Nat.le_mul_of_pos_right _ hpos)) h
    have hpower : 10 ^ k * unitsPerOne ≤ units topRank := by
      refine le_trans ?_ units_topRank_bounds.2.1
      gcongr
      decide
    exact absurd (isFinite_mul_ofNat hword hpower h) hfinite
  · exact ⟨_, rfl⟩
  · -- the word would be zero
    refine absurd ?_ hzero
    have hword : word = 0 := by
      by_contra hne
      obtain ⟨m, hm, hsmall⟩ : ∃ m, m = 309 ∧ units topRank < 10 ^ m * unitsPerOne :=
        ⟨309, rfl, units_topRank_bounds.2.2.1⟩
      have hlarge : 10 ^ m * unitsPerOne ≤ word * 10 ^ k * unitsPerOne := by
        refine Nat.mul_le_mul_right _ ?_
        calc 10 ^ m ≤ 10 ^ k := Nat.pow_le_pow_right (by decide) (by omega)
          _ ≤ word * 10 ^ k := Nat.le_mul_of_pos_left _ (Nat.pos_of_ne_zero hne)
      omega
    rw [hword]
    rfl

/-- A word times a power of ten is a number when the power is negative or the result lies below the
last three numbers. -/
theorem exists_scaled {word : Nat} {power : Int} (hword : word ≤ maxWord)
    (h : 0 < power → word * 10 ^ power.natAbs * unitsPerOne ≤ units topRank) :
    ∃ x, scaled word power = some x := by
  unfold scaled
  split_ifs with hnegative
  · exact ⟨_, rfl⟩
  · refine exists_scaleUp ?_
    by_cases hpower : 0 < power
    · exact h hpower
    · obtain rfl : power = 0 := by omega
      rw [Int.natAbs_zero, Nat.pow_zero, Nat.mul_one]
      exact Nat.le_trans (Nat.mul_le_mul_right _ hword) units_topRank_bounds.1

end Binary64

/-! ### Numerals -/

namespace Numeral

/-- **A numeral stands for a number** when its whole part is a word and what is gathered of it lies
below the last three numbers, once it is raised to a power. -/
theorem exists_toBinary64? {n : Numeral} {word : Nat} {dropped : List Digit}
    (hwhole : n.whole ≤ maxWord) (habsorb : absorb n.whole n.fraction = (word, dropped))
    {power : Int}
    (hpower : power = 0 - ((n.fraction.length : Int) - (dropped.length : Int)) + n.exponent.getD 0)
    (h : 0 < power → word * 10 ^ power.natAbs * unitsPerOne ≤ units topRank) :
    ∃ x, n.toBinary64? = some x := by
  have hword : word ≤ maxWord := by
    have hle := absorb_le hwhole n.fraction
    rwa [habsorb] at hle
  obtain ⟨x, hx⟩ := exists_scaled hword h
  have hvalue : n.toBinary64? =
      (scaled word power).map fun x => if n.negative then x.neg else x := by
    simp only [toBinary64?, absorb_digits hwhole, habsorb, hpower, List.length_nil, Nat.cast_zero]
  exact ⟨_, by rw [hvalue, hx, Option.map_some]⟩

/-- Without an exponent the power is never positive. -/
theorem exists_toBinary64?_of_exponent {n : Numeral} (hwhole : n.whole ≤ maxWord)
    (hexponent : n.exponent = none) : ∃ x, n.toBinary64? = some x := by
  have hlength := length_absorb_le n.whole n.fraction
  refine exists_toBinary64? hwhole (Prod.eta _).symm rfl fun hpower => ?_
  rw [hexponent, Option.getD_none] at hpower
  omega

theorem toWord?_eq_none {n : Numeral} (h : n.fraction ≠ [] ∨ n.exponent ≠ none) :
    n.toWord? = none := by
  unfold toWord?
  split
  · rename_i hfraction hexponent
    exact absurd h (by simp [hfraction, hexponent])
  · rfl

end Numeral

namespace Layout

/-- The whole part of a number below `10^16`. -/
theorem whole_spreadOut_le (l : Layout) (negative : Bool) (ds : List Digit) {first : Int}
    (hfirst : first ≤ 15) : (l.spreadOut negative ds first).whole ≤ maxWord := by
  unfold spreadOut
  split_ifs with hnegative
  · exact Nat.zero_le _
  · have hlt := ofDigits_lt
      (ds.take (first.natAbs + 1) ++ List.replicate (first.natAbs + 1 - ds.length) 0)
    have hlength : (ds.take (first.natAbs + 1) ++
        List.replicate (first.natAbs + 1 - ds.length) (0 : Digit)).length = first.natAbs + 1 := by
      rw [List.length_append, List.length_take, List.length_replicate]
      omega
    rw [hlength] at hlt
    have hpow : 10 ^ (first.natAbs + 1) ≤ 10 ^ 16 := Nat.pow_le_pow_right (by decide) (by omega)
    have hmax : 10 ^ 16 ≤ maxWord := by decide
    exact Nat.le_trans hlt.le (Nat.le_trans hpow hmax)

theorem exponent_spreadOut (l : Layout) (negative : Bool) (ds : List Digit) (first : Int) :
    (l.spreadOut negative ds first).exponent = none := by
  unfold spreadOut
  split_ifs <;> rfl

/-- A number without exponent keeps its point. -/
theorem fraction_spreadOut_ne_nil {l : Layout} (hl : l.pointAlways = true) (negative : Bool)
    {ds : List Digit} (hds : ds ≠ []) (first : Int) :
    (l.spreadOut negative ds first).fraction ≠ [] := by
  unfold spreadOut
  dsimp only
  split_ifs with hnegative hempty
  · simp [hds]
  · simp
  · simpa [hl] using hempty

/-- **No number is written like a word.** -/
theorem toWord?_numeral (negative : Bool) (rank : Nat) :
    (Json.numberLayout.numeral negative rank).toWord? = none := by
  refine Numeral.toWord?_eq_none ?_
  unfold numeral
  dsimp only
  split_ifs
  · exact .inl (fraction_spreadOut_ne_nil rfl negative (List.cons_ne_nil _ _) _)
  · obtain ⟨first, rest, hdigits, -⟩ :=
      digits_head (Shortest.decimal Json.numberLayout.tie rank).coefficient
    rw [hdigits]
    exact .inl (fraction_spreadOut_ne_nil rfl negative (List.cons_ne_nil _ _) _)
  · exact .inr (Option.some_ne_none _)

/-- The numeral of a decimal that lies below the last three numbers. -/
theorem exists_toBinary64?_scientific {d : Decimal} (negative : Bool)
    (h : d.value * unitsPerOne ≤ units topRank) :
    ∃ x, (scientific negative (digits d.coefficient)
      (d.power + (digits d.coefficient).length - 1)).toBinary64? = some x := by
  obtain ⟨first, rest, hdigits, -⟩ := digits_head d.coefficient
  rw [hdigits]
  generalize hn : scientific negative (first :: rest) _ = n
  have hvalue : appendDigits first.val rest = d.coefficient := by
    rw [← ofDigits_cons, ← hdigits, ofDigits_digits]
  have hwhole : n.whole = first.val := by rw [← hn]; exact ofDigits_cons first []
  have hfraction : n.fraction = rest := by rw [← hn]; rfl
  have hexponent : n.exponent = some (d.power + (rest.length + 1 : Nat) - 1) := by rw [← hn]; rfl
  have hbound := absorb_mul_le n.whole n.fraction
  generalize habsorb : absorb n.whole n.fraction = gathered at hbound
  obtain ⟨word, dropped⟩ := gathered
  have hpower : d.power + dropped.length =
      0 - ((n.fraction.length : Int) - dropped.length) + n.exponent.getD 0 := by
    rw [hfraction, hexponent, Option.getD_some]
    omega
  have hword : n.whole ≤ maxWord := by
    rw [hwhole]
    exact Nat.le_trans first.isLt.le (by decide)
  refine Numeral.exists_toBinary64? hword habsorb hpower fun hpositive => ?_
  rw [hwhole, hfraction, hvalue] at hbound
  have hcast : (word * 10 ^ dropped.length : ℚ) ≤ d.coefficient := by exact_mod_cast hbound
  have habs : ((d.power + dropped.length).natAbs : Int) = d.power + dropped.length := by omega
  have hscaled : (word * 10 ^ (d.power + dropped.length).natAbs * unitsPerOne : ℚ) ≤
      units topRank := by
    have hpos : (0 : ℚ) ≤ 10 ^ d.power := zpow_nonneg (by norm_num) _
    calc (word * 10 ^ (d.power + dropped.length).natAbs * unitsPerOne : ℚ)
        = word * 10 ^ dropped.length * 10 ^ d.power * unitsPerOne := by
          rw [← zpow_natCast, habs, zpow_add₀ (by norm_num), zpow_natCast]
          ring
      _ ≤ d.coefficient * 10 ^ d.power * unitsPerOne :=
        mul_le_mul_of_nonneg_right (mul_le_mul_of_nonneg_right hcast hpos) (Nat.cast_nonneg _)
      _ ≤ units topRank := h
  exact_mod_cast hscaled

/-- The three numbers before infinity. -/
theorem exists_toBinary64?_top {rank : Nat} (negative : Bool) (hlow : topRank ≤ rank)
    (hhigh : rank < infinityRank) :
    ∃ x, (Json.numberLayout.numeral negative rank).toBinary64? = some x := by
  have hlead : Shortest.leadingPower (units rank) unitsPerOne = (308 : Nat) := by
    refine Shortest.leadingPower_eq unitsPerOne_pos ?_ ?_
    · exact Nat.le_trans units_topRank_bounds.2.1 (units_le_units hlow)
    · refine Nat.lt_of_le_of_lt (units_le_units hhigh.le) ?_
      decide +kernel
  have htop := topRank_add
  obtain ⟨c, hc, hgrids⟩ : ∃ c ∈ [17976931348623153, 17976931348623155, 17976931348623157],
      Shortest.onGrids? .even rank = some ⟨c, 292⟩ := by
    rw [Shortest.onGrids?, hlead]
    obtain rfl | rfl | rfl : rank = topRank ∨ rank = topRank + 1 ∨ rank = topRank + 2 := by omega
    · exact ⟨_, List.mem_cons_self, by decide +kernel⟩
    · exact ⟨_, List.mem_cons_of_mem _ List.mem_cons_self, by decide +kernel⟩
    · exact ⟨_, List.mem_cons_of_mem _ (List.mem_cons_of_mem _ List.mem_cons_self),
        by decide +kernel⟩
  have hread : ∀ c ∈ [17976931348623153, 17976931348623155, 17976931348623157],
      ∀ negative, Decimal.trim ⟨c, 292⟩ = ⟨c, 292⟩ ∧ (digits c).length = 17 ∧
        ((scientific negative (digits c) 308).toBinary64?).isSome = true := by decide +kernel
  obtain ⟨htrim, hlength, hsome⟩ := hread c hc negative
  have hne : rank ≠ 0 := by
    rintro rfl
    revert hlow
    decide +kernel
  have hdecimal : Shortest.decimal Json.numberLayout.tie rank = ⟨c, 292⟩ := by
    show ((Shortest.onGrids? .even rank).getD (Shortest.exact rank)).trim = _
    rw [hgrids, Option.getD_some, htrim]
  rw [numeral, if_neg hne, hdecimal]
  exact Option.isSome_iff_exists.mp (by simpa [hlength, Json.numberLayout] using hsome)

/-- **The numeral of every finite number is read.** -/
theorem exists_toBinary64?_numeral {rank : Nat} (negative : Bool) (hrank : rank < infinityRank) :
    ∃ x, (Json.numberLayout.numeral negative rank).toBinary64? = some x := by
  by_cases htop : topRank ≤ rank
  · exact exists_toBinary64?_top negative htop hrank
  · unfold numeral
    dsimp only
    split_ifs with hzero hpositional
    · exact Numeral.exists_toBinary64?_of_exponent (whole_spreadOut_le _ _ _ (by decide))
        (exponent_spreadOut _ _ _ _)
    · have hfirst := hpositional
      simp only [Json.numberLayout, Bool.and_eq_true, decide_eq_true_eq] at hfirst
      exact Numeral.exists_toBinary64?_of_exponent (whole_spreadOut_le _ _ _ hfirst.2)
        (exponent_spreadOut _ _ _ _)
    · refine exists_toBinary64?_scientific negative ?_
      have hle : rank + 1 ≤ topRank := Nat.lt_of_not_le htop
      exact (Shortest.value_decimal_le _ rank).trans (by exact_mod_cast units_le_units hle)

end Layout

end Questline
