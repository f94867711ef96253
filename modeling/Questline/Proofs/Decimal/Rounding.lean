import Mathlib.Data.Nat.Dist
import Mathlib.Tactic.Positivity
import Mathlib.Tactic.Ring
import Questline.Binary64.Arithmetic

/-! # Rounding to a rank

A rank is a significand of at most 53 bits, shifted by an exponent. A quotient is rounded to the
rank nearest to it, and of two that are equally near to the even one. Rounding keeps the order
between quotients and magnitudes, so a magnitude is rounded to itself; any other quotient is moved
by at most one part in `2^53`.

* `Binary64.exists_significand`: the significand and the exponent of a rank.
  `Binary64.significand`, `Binary64.exponent`: those of a rounded quotient.
* `Binary64.nearestRank_le_of_le`, `Binary64.le_nearestRank_of_le`: a quotient below or above a
  magnitude is rounded to a rank below or above.
* `Binary64.nearestRank_units`: magnitudes are rounded to themselves. `Binary64.key_add`: so adding
  zero moves no number.
* `Binary64.distance`: from a quotient to a rank, in parts of a unit.
  `Binary64.nearestRank_nearest`: no rank is nearer than the one a quotient is rounded to.
* `Binary64.roundNat`: rounding on natural numbers. `Binary64.units_nearestRank`: it is that of
  ranks. `Binary64.roundNat_mul_le`: how far it leads up. -/

namespace Questline

namespace Binary64

theorem binade_eq_two_pow : binade = 2 ^ 52 := rfl

/-! ### Quotients -/

theorem divToEven_le {a b n : Nat} (hb : 0 < b) (h : a ≤ n * b) : divToEven a b ≤ n := by
  have hle : a / b ≤ n := Nat.div_le_of_le_mul (by rwa [Nat.mul_comm])
  rcases Nat.lt_or_eq_of_le hle with hlt | heq
  · unfold divToEven
    split_ifs <;> omega
  · have hexact : a % b = 0 := by
      have hsplit := Nat.div_add_mod a b
      rw [heq, Nat.mul_comm] at hsplit
      omega
    rw [divToEven, hexact, if_pos (by omega), heq]

theorem le_divToEven (a b : Nat) : a / b ≤ divToEven a b := by
  unfold divToEven
  split_ifs <;> omega

/-- Rounding leads up by half a step at most. -/
theorem two_mul_divToEven_le (a b : Nat) : 2 * (divToEven a b * b) ≤ 2 * a + b := by
  have hsplit := Nat.div_add_mod' a b
  have hup : (a / b + 1) * b = a / b * b + b := Nat.succ_mul _ _
  unfold divToEven
  split_ifs
  · omega
  · omega
  · rcases Nat.mod_two_eq_zero_or_one (a / b) with h | h
    · rw [h, Nat.add_zero]
      omega
    · rw [h]
      omega

theorem shiftLeft_pos {den : Nat} (hden : 0 < den) (e : Nat) : 0 < den <<< e := by
  rw [Nat.shiftLeft_eq]
  positivity

/-! ### Significands -/

/-- The magnitude of a significand and an exponent. -/
theorem units_significand {m e : Nat} (hfirst : e = 0 ∨ binade ≤ m) (hm : m < 2 * binade) :
    units (m + e * binade) = m * 2 ^ e := by
  have hscale : scale (m + e * binade) = e := by
    have hquot : (m + e * binade) / binade = m / binade + e :=
      Nat.add_mul_div_right m e (by decide)
    have hm' : m / binade < 2 := (Nat.div_lt_iff_lt_mul (by decide)).mpr hm
    rw [scale, hquot]
    rcases hfirst with rfl | hfirst
    · omega
    · have hone : 1 ≤ m / binade := (Nat.le_div_iff_mul_le (by decide)).mpr (by omega)
      omega
  rw [units, hscale, Nat.add_sub_cancel, Nat.shiftLeft_eq]

/-- **The significand and the exponent of a rank.** Only without an exponent may the significand
have less than 53 bits. -/
theorem exists_significand (rank : Nat) :
    ∃ m e, rank = m + e * binade ∧ m < 2 * binade ∧ (e = 0 ∨ binade ≤ m) := by
  have hsplit := Nat.div_add_mod' rank binade
  have hmod := Nat.mod_lt rank (show 0 < binade by decide)
  cases hquot : rank / binade with
  | zero => exact ⟨rank, 0, by omega, by rw [hquot] at hsplit; omega, .inl rfl⟩
  | succ e =>
    rw [hquot, Nat.succ_mul] at hsplit
    exact ⟨rank % binade + binade, e, by omega, by omega, .inr (by omega)⟩

variable {num den rank : Nat}

/-! ### Significands of quotients -/

/-- The exponent of a quotient: how many of its bits a significand cannot hold. -/
def exponent (num den : Nat) : Nat := Nat.log2 (num / den) - 52

/-- The significand that a quotient is rounded to, which may be the one after the last. -/
def significand (num den : Nat) : Nat := divToEven num (den <<< exponent num den)

theorem nearestRank_eq (num den : Nat) :
    nearestRank num den = significand num den + exponent num den * binade := rfl

theorem exponent_le {e : Nat} (h : num / den < 2 ^ (e + 53)) : exponent num den ≤ e := by
  unfold exponent
  by_cases hzero : num / den = 0
  · rw [hzero, Nat.log2_zero]
    omega
  · have hlog := (Nat.log2_lt hzero).mpr h
    omega

theorem le_exponent {e : Nat} (h : 2 ^ (e + 52) ≤ num / den) : e ≤ exponent num den := by
  have hzero : num / den ≠ 0 := Nat.ne_of_gt (Nat.lt_of_lt_of_le (by positivity) h)
  have hlog := (Nat.le_log2 hzero).mpr h
  unfold exponent
  omega

theorem quotient_lt (num den : Nat) : num / den < 2 ^ (exponent num den + 53) := by
  refine Nat.lt_of_lt_of_le Nat.lt_log2_self (Nat.pow_le_pow_right (by decide) ?_)
  unfold exponent
  omega

/-- A quotient with an exponent has 53 bits at least. -/
theorem binade_le_of_exponent (h : exponent num den ≠ 0) : binade ≤ num / den := by
  by_contra hlt
  exact h (Nat.le_zero.mp (exponent_le (by rw [binade_eq_two_pow] at hlt; omega)))

theorem significand_le (num : Nat) (hden : 0 < den) : significand num den ≤ 2 * binade := by
  refine divToEven_le (shiftLeft_pos hden _) ?_
  calc num ≤ 2 ^ (exponent num den + 53) * den :=
        (Nat.lt_mul_of_div_lt (quotient_lt num den) hden).le
    _ = 2 * binade * (den <<< exponent num den) := by
      rw [Nat.shiftLeft_eq, binade_eq_two_pow]
      ring

theorem binade_mul_le (hden : 0 < den) (h : binade ≤ num / den) :
    binade * (den <<< exponent num den) ≤ num := by
  have hzero : num / den ≠ 0 := Nat.ne_of_gt (Nat.lt_of_lt_of_le (by decide) h)
  have hlog : 52 ≤ Nat.log2 (num / den) := (Nat.le_log2 hzero).mpr h
  calc binade * (den <<< exponent num den) = 2 ^ (52 + exponent num den) * den := by
        rw [Nat.shiftLeft_eq, Nat.pow_add, binade_eq_two_pow]
        ring
    _ = 2 ^ Nat.log2 (num / den) * den := by rw [exponent, Nat.add_sub_cancel' hlog]
    _ ≤ num := (Nat.le_div_iff_mul_le hden).mp (Nat.log2_self_le hzero)

theorem le_significand (hden : 0 < den) (h : binade ≤ num / den) :
    binade ≤ significand num den := by
  refine Nat.le_trans ?_ (le_divToEven _ _)
  exact (Nat.le_div_iff_mul_le (shiftLeft_pos hden _)).mpr (binade_mul_le hden h)

/-- **The magnitude of a rounded quotient.** -/
theorem units_nearestRank_eq (num : Nat) (hden : 0 < den) :
    units (nearestRank num den) = significand num den * 2 ^ exponent num den := by
  rw [nearestRank_eq]
  rcases Nat.lt_or_eq_of_le (significand_le num hden) with hlt | heq
  · refine units_significand ?_ hlt
    by_cases hexponent : exponent num den = 0
    · exact .inl hexponent
    · exact .inr (le_significand hden (binade_le_of_exponent hexponent))
  · -- rounded up to the next power of two
    have hnext : 2 * binade + exponent num den * binade =
        binade + (exponent num den + 1) * binade := by ring
    rw [heq, hnext, units_significand (.inr (Nat.le_refl _)) (by decide), Nat.pow_succ]
    ring

/-! ### Order -/

/-- **A quotient of at most a magnitude** is rounded to at most its rank. -/
theorem nearestRank_le_of_le (hden : 0 < den) (h : num ≤ units rank * den) :
    nearestRank num den ≤ rank := by
  obtain ⟨m, e, rfl, hm, hfirst⟩ := exists_significand rank
  rw [units_significand hfirst hm] at h
  have hquot : num / den < 2 ^ (e + 53) := by
    calc num / den ≤ m * 2 ^ e := Nat.div_le_of_le_mul (by rwa [Nat.mul_comm])
      _ < 2 * binade * 2 ^ e := Nat.mul_lt_mul_of_pos_right hm (by positivity)
      _ = 2 ^ (e + 53) := by rw [binade_eq_two_pow]; ring
  rw [nearestRank_eq]
  rcases Nat.lt_or_eq_of_le (exponent_le hquot) with hlt | heq
  · -- a smaller exponent, of which the largest significand is still below
    have hround := significand_le num hden
    have hscaled : (exponent num den + 1) * binade ≤ e * binade := Nat.mul_le_mul_right binade hlt
    rw [Nat.succ_mul] at hscaled
    omega
  · have hround : significand num den ≤ m := by
      rw [significand, heq]
      refine divToEven_le (shiftLeft_pos hden e) ?_
      rwa [Nat.shiftLeft_eq, Nat.mul_comm den, ← Nat.mul_assoc]
    rw [heq]
    omega

/-- **A quotient of at least a magnitude** is rounded to at least its rank. -/
theorem le_nearestRank_of_le (hden : 0 < den) (h : units rank * den ≤ num) :
    rank ≤ nearestRank num den := by
  obtain ⟨m, e, rfl, hm, hfirst⟩ := exists_significand rank
  rw [units_significand hfirst hm] at h
  have hle : e ≤ exponent num den := by
    rcases hfirst with rfl | hfirst
    · exact Nat.zero_le _
    · refine le_exponent ?_
      calc 2 ^ (e + 52) = binade * 2 ^ e := by rw [binade_eq_two_pow]; ring
        _ ≤ m * 2 ^ e := Nat.mul_le_mul_right _ hfirst
        _ ≤ num / den := (Nat.le_div_iff_mul_le hden).mpr h
  rw [nearestRank_eq]
  rcases Nat.lt_or_eq_of_le hle with hlt | heq
  · -- a larger exponent, of which the smallest significand is already above
    have hround :=
      le_significand hden (binade_le_of_exponent (Nat.ne_of_gt (Nat.zero_lt_of_lt hlt)))
    have hscaled : (e + 1) * binade ≤ exponent num den * binade := Nat.mul_le_mul_right binade hlt
    rw [Nat.succ_mul] at hscaled
    omega
  · have hround : m ≤ significand num den := by
      rw [significand, ← heq]
      refine Nat.le_trans ?_ (le_divToEven _ _)
      rw [Nat.le_div_iff_mul_le (shiftLeft_pos hden e), Nat.shiftLeft_eq, Nat.mul_comm den,
        ← Nat.mul_assoc]
      exact h
    rw [← heq]
    omega

/-- **Magnitudes are rounded to themselves.** -/
theorem nearestRank_units (rank : Nat) : nearestRank (units rank) 1 = rank :=
  Nat.le_antisymm (nearestRank_le_of_le Nat.one_pos (Nat.mul_one _).ge)
    (le_nearestRank_of_le Nat.one_pos (Nat.mul_one _).le)

theorem units_le_units {rank' : Nat} (h : rank ≤ rank') : units rank ≤ units rank' := by
  by_contra hlt
  have hle : nearestRank (units rank') 1 ≤ rank :=
    nearestRank_le_of_le Nat.one_pos (by omega)
  rw [nearestRank_units] at hle
  rw [Nat.le_antisymm h hle] at hlt
  exact hlt (Nat.le_refl _)

/-- **Adding zero moves no number** on the line. -/
theorem key_add {x d : Binary64} (hd : d.equals .zero = true) : (x.add d).key = x.key := by
  cases d with
  | nan => exact absurd hd (by decide)
  | signed n r =>
    have hrank : r.val = 0 := by
      cases n <;> simpa [equals, key, zero, ofRank] using hd
    have hfinite : (signed n r).isFinite = true := by
      rw [isFinite, hrank]
      decide
    have hunits : (signed n r).toUnits = 0 := by
      rw [toUnits, hrank]
      cases n <;> decide
    cases x with
    | nan => rfl
    | signed m k =>
      cases hx : (signed m k).isFinite with
      | false => rw [add, hx, hfinite]
      | true =>
        have hkey : k.val ≤ infinityRank := Nat.lt_succ_iff.mp k.isLt
        have hround := nearestRank_units k.val
        simp only [add, hx, hfinite, hunits, Int.add_zero]
        split_ifs with hzero
        · have hk : units k.val = 0 := by
            cases m <;> simpa [toUnits] using hzero
          rw [hk] at hround
          have hk : k.val = 0 := hround.symm.trans (by decide)
          cases m <;> simp [ofRank, key, hk]
        · have habs : (signed m k).toUnits.natAbs = units k.val := by
            cases m <;> simp [toUnits]
          have hneg : decide ((signed m k).toUnits < 0) = m := by
            cases m with
            | false => simp [toUnits]
            | true =>
              simp [toUnits] at hzero ⊢
              omega
          rw [habs, hneg, ofUnits, hround, ofRank, key, key]
          simp only [Nat.min_eq_left hkey]

/-! ### The nearest rank -/

/-- A multiple is one of the two next to a number, or further away by a whole step. -/
theorem multiple_cases (n a b : Nat) :
    n = a / b ∨ n = a / b + 1 ∨ n * b + b ≤ a / b * b ∨ a / b * b + 2 * b ≤ n * b := by
  rcases Nat.lt_trichotomy n (a / b) with hbelow | heq | habove
  · have hstep := Nat.mul_le_mul_right b hbelow
    rw [Nat.succ_mul] at hstep
    exact .inr (.inr (.inl hstep))
  · exact .inl heq
  · rcases Nat.eq_or_lt_of_le habove with hnext | hbeyond
    · exact .inr (.inl hnext.symm)
    · have hstep := Nat.mul_le_mul_right b hbeyond
      rw [Nat.succ_mul, Nat.succ_mul] at hstep
      exact .inr (.inr (.inr (by omega)))

/-- **The nearest multiple:** any other is further away, or equally far and then this one is
even. -/
theorem divToEven_nearest {a b n : Nat} (hb : 0 < b) (hne : n ≠ divToEven a b) :
    Nat.dist (divToEven a b * b) a < Nat.dist (n * b) a ∨
      Nat.dist (divToEven a b * b) a = Nat.dist (n * b) a ∧ divToEven a b % 2 = 0 := by
  have hsplit := Nat.div_add_mod' a b
  have hmod := Nat.mod_lt a hb
  have hnext : (a / b + 1) * b = a / b * b + b := Nat.succ_mul _ _
  unfold Nat.dist
  unfold divToEven at hne ⊢
  split_ifs at hne ⊢ with hbelow habove
  · rcases multiple_cases n a b with rfl | rfl | hfar | hfar <;> omega
  · rcases multiple_cases n a b with rfl | rfl | hfar | hfar <;> omega
  · -- half a step from both, of which the even one is taken
    rcases Nat.mod_two_eq_zero_or_one (a / b) with heven | hodd
    · rw [heven, Nat.add_zero] at hne ⊢
      rcases multiple_cases n a b with rfl | rfl | hfar | hfar <;> omega
    · rw [hodd] at hne ⊢
      rcases multiple_cases n a b with rfl | rfl | hfar | hfar <;> omega

/-- **How far a rank is from a quotient,** in parts of a unit. -/
def distance (num den rank : Nat) : Nat := Nat.dist (units rank * den) num

/-- A rank is a multiple of `2^e` units, or below the first with that exponent. -/
theorem exists_multiple_or_lt (rank e : Nat) :
    (∃ n, units rank = n * 2 ^ e) ∨ 0 < e ∧ units rank < binade * 2 ^ e := by
  obtain ⟨m, e', rfl, hm, hfirst⟩ := exists_significand rank
  rw [units_significand hfirst hm]
  rcases Nat.lt_or_ge e' e with hlt | hle
  · refine .inr ⟨by omega, ?_⟩
    calc m * 2 ^ e' < 2 * binade * 2 ^ e' := Nat.mul_lt_mul_of_pos_right hm (by positivity)
      _ = binade * 2 ^ (e' + 1) := by ring
      _ ≤ binade * 2 ^ e := Nat.mul_le_mul_left _ (Nat.pow_le_pow_right (by decide) hlt)
  · refine .inl ⟨m * 2 ^ (e' - e), ?_⟩
    rw [Nat.mul_assoc, ← Nat.pow_add, Nat.sub_add_cancel hle]

/-- The significand of an even rank is even. -/
theorem nearestRank_mod_two (num den : Nat) :
    nearestRank num den % 2 = significand num den % 2 := by
  have hbinade : binade % 2 = 0 := rfl
  rw [nearestRank_eq, Nat.add_mod, Nat.mul_mod, hbinade, Nat.mul_zero, Nat.zero_mod, Nat.add_zero,
    Nat.mod_mod]

/-- **The nearest rank:** any other is further away, or equally far and then this one is even. -/
theorem nearestRank_nearest (hden : 0 < den) (hne : rank ≠ nearestRank num den) :
    distance num den (nearestRank num den) < distance num den rank ∨
      distance num den (nearestRank num den) = distance num den rank ∧
        nearestRank num den % 2 = 0 := by
  have hstep : ∀ n, n * 2 ^ exponent num den * den = n * (den <<< exponent num den) := by
    intro n
    rw [Nat.shiftLeft_eq]
    ring
  have hden' := shiftLeft_pos hden (exponent num den)
  rw [nearestRank_mod_two, distance, distance, units_nearestRank_eq num hden, hstep]
  rcases exists_multiple_or_lt rank (exponent num den) with ⟨n, hn⟩ | ⟨hpos, hlt⟩
  · rw [hn, hstep]
    refine divToEven_nearest hden' ?_
    intro heq
    have hsame : units rank = units (nearestRank num den) := by
      rw [units_nearestRank_eq num hden, hn, heq, significand]
    exact hne (by rw [← nearestRank_units rank, hsame, nearestRank_units])
  · -- the first multiple with the exponent is nearer than all ranks below it
    have hlow := binade_mul_le hden (binade_le_of_exponent hpos.ne')
    have hbelow : units rank * den < binade * (den <<< exponent num den) :=
      hstep binade ▸ Nat.mul_lt_mul_of_pos_right hlt hden
    by_cases hfirst : binade = significand num den
    · rw [← hfirst]
      unfold Nat.dist
      omega
    · have hnear := divToEven_nearest hden' hfirst
      unfold significand
      unfold Nat.dist at hnear ⊢
      omega

/-! ### Rounded naturals -/

/-- **The natural number of 53 bits nearest to `n`:** one of `53 + e` bits is rounded to a multiple
of `2^e`, a tie to the even multiple. -/
def roundNat (n : Nat) : Nat :=
  divToEven n (1 <<< (Nat.log2 n - 52)) <<< (Nat.log2 n - 52)

theorem roundNat_eq (n : Nat) :
    roundNat n = divToEven n (2 ^ (Nat.log2 n - 52)) * 2 ^ (Nat.log2 n - 52) := by
  rw [roundNat, Nat.shiftLeft_eq, Nat.shiftLeft_eq, Nat.one_mul]

/-- What divides is not rounded. -/
theorem divToEven_mul (n : Nat) {d : Nat} (hd : 0 < d) : divToEven (n * d) d = n := by
  have hquot : n * d / d = n := Nat.mul_div_cancel n hd
  exact Nat.le_antisymm (divToEven_le hd (Nat.le_refl _)) (hquot.ge.trans (le_divToEven _ _))

/-- A number of 53 bits at most is a significand as it stands. -/
theorem log2_eq_of_lt {n : Nat} (h : n < 2 * binade) : Nat.log2 n - 52 = 0 := by
  by_cases hzero : n = 0
  · rw [hzero, Nat.log2_zero]
  · have hbits := (Nat.log2_lt (k := 53) hzero).mpr (by rw [binade_eq_two_pow] at h; omega)
    omega

theorem exponent_one (n : Nat) : exponent n 1 = Nat.log2 n - 52 := by rw [exponent, Nat.div_one]

theorem significand_one (n : Nat) : significand n 1 = divToEven n (2 ^ (Nat.log2 n - 52)) := by
  rw [significand, exponent_one, Nat.shiftLeft_eq, Nat.one_mul]

theorem binade_le_divToEven {n : Nat} (h : binade ≤ n) :
    binade ≤ divToEven n (2 ^ (Nat.log2 n - 52)) :=
  significand_one n ▸ le_significand Nat.one_pos ((Nat.div_one n).symm ▸ h)

theorem divToEven_le_binade (n : Nat) : divToEven n (2 ^ (Nat.log2 n - 52)) ≤ 2 * binade :=
  significand_one n ▸ significand_le n Nat.one_pos

theorem roundNat_eq_self {n : Nat} (h : n < 2 * binade) : roundNat n = n := by
  have hround := divToEven_mul n Nat.one_pos
  rw [Nat.mul_one] at hround
  rw [roundNat_eq, log2_eq_of_lt h, Nat.pow_zero, Nat.mul_one, hround]

/-- **A rounded quotient has the magnitude of the rounded number.** -/
theorem units_nearestRank (num : Nat) : units (nearestRank num 1) = roundNat num := by
  rw [units_nearestRank_eq num Nat.one_pos, significand_one, exponent_one, roundNat_eq]

/-- **Rounding leads up** by one part in `2^53` at most. -/
theorem roundNat_mul_le (n : Nat) : roundNat n * 2 ^ 53 ≤ n * (2 ^ 53 + 1) := by
  by_cases hsmall : n < 2 * binade
  · rw [roundNat_eq_self hsmall]
    omega
  · have herror := two_mul_divToEven_le n (2 ^ (Nat.log2 n - 52))
    have hbits := binade_mul_le Nat.one_pos ((Nat.div_one n).symm ▸ show binade ≤ n by omega)
    rw [exponent_one, Nat.shiftLeft_eq, Nat.one_mul, binade_eq_two_pow] at hbits
    rw [roundNat_eq]
    omega

end Binary64

end Questline
