import Questline.Draw
import Questline.Proofs.Decimal.Operations

/-! # Keys pick places by scaling

A seed has the 32 bits of its hash, so it is the hash over `2^32` exactly. Scaled by a count it
gives the place, and what is rounded on the way are the count and the product, to 53 bits each. Two
roundings up are less than a seed stays below one, so the product stays below the count and no cap
is needed. Up to `2^21` the count and the product have no more than 53 bits, and nothing is rounded.

* `Draw.amounts_seed`: the seed of a key.
* `Draw.rounded_place_lt`: the rounded product is below the count.
* `Draw.index_seed_of_word`: the place for a count that is a word.
* `Draw.index_seed`: the place, and the counts for which it is exact. -/

namespace Questline

namespace Draw

open Binary64

variable {count h : Nat}

/-! ### Seeds -/

/-- The exponent of `2^-32` in units; the power is kept folded and never computed. -/
@[irreducible]
def seedExponent : Nat := 1042

theorem unitsPerOne_eq : unitsPerOne = 2 ^ seedExponent * 2 ^ 32 := by
  have hsum : 1021 + 53 = seedExponent + 32 := by
    unfold seedExponent
    rfl
  rw [unitsPerOne_eq_two_pow, hsum, Nat.pow_add]

theorem mul_seedExponent_le {n : Nat} (hn : n ≤ 2 ^ 32 * 2 ^ 64) :
    n * 2 ^ seedExponent ≤ units (infinityRank - 1) := by
  calc n * 2 ^ seedExponent ≤ 2 ^ 32 * 2 ^ 64 * 2 ^ seedExponent := Nat.mul_le_mul_right _ hn
    _ = 0x10000000000000000 * (2 ^ seedExponent * 2 ^ 32) := by ring
    _ = 0x10000000000000000 * unitsPerOne := by rw [unitsPerOne_eq]
    _ ≤ units (infinityRank - 1) := mul_unitsPerOne_le (Nat.le_refl _)

/-- **The seed of a key** is its hash over `2^32`, exactly. -/
theorem amounts_seed (key : String) :
    (seed key).Amounts ((hash key).toNat * 2 ^ seedExponent) := by
  have hlt := (hash key).toNat_lt
  unfold seed
  generalize (hash key).toNat = h at hlt ⊢
  have hnum := amounts_ofNat_of_lt (hlt.trans (show 2 ^ 32 < 2 * binade by decide))
  have hden := amounts_ofNat_of_lt (show 0x100000000 < 2 * binade by decide)
  have hquotient : h * unitsPerOne * unitsPerOne =
      h * 2 ^ seedExponent * (0x100000000 * unitsPerOne) := by
    rw [unitsPerOne_eq]
    ring
  have hseed := hnum.div hden (Nat.mul_pos (by decide) unitsPerOne_pos) hquotient
    (mul_seedExponent_le (hlt.le.trans (by decide)))
  rwa [roundNat_mul_two_pow, roundNat_eq_self (hlt.trans (by decide))] at hseed

/-! ### Places -/

/-- Two roundings up are less than a seed stays below one. -/
theorem rounded_place_lt (hh : h < 2 ^ 32) (hpos : 0 < count) :
    roundNat (h * roundNat count) / 2 ^ 32 < count := by
  -- each rounding takes one part in `2^53`, and the largest hash leaves one in `2^32`
  have hroom : h * (2 ^ 53 + 1) ^ 2 < 2 ^ 32 * (2 ^ 53) ^ 2 :=
    Nat.lt_of_le_of_lt (Nat.mul_le_mul_right _ (Nat.le_sub_one_of_lt hh)) (by decide)
  rw [Nat.div_lt_iff_lt_mul (by decide)]
  refine Nat.lt_of_mul_lt_mul_right (a := (2 ^ 53) ^ 2) ?_
  calc roundNat (h * roundNat count) * (2 ^ 53) ^ 2
      = roundNat (h * roundNat count) * 2 ^ 53 * 2 ^ 53 := by ring
    _ ≤ h * roundNat count * (2 ^ 53 + 1) * 2 ^ 53 := Nat.mul_le_mul_right _ (roundNat_mul_le _)
    _ = h * (roundNat count * 2 ^ 53) * (2 ^ 53 + 1) := by ring
    _ ≤ h * (count * (2 ^ 53 + 1)) * (2 ^ 53 + 1) :=
      Nat.mul_le_mul_right _ (Nat.mul_le_mul_left _ (roundNat_mul_le _))
    _ = count * (h * (2 ^ 53 + 1) ^ 2) := by ring
    _ < count * (2 ^ 32 * (2 ^ 53) ^ 2) := Nat.mul_lt_mul_of_pos_left hroom hpos
    _ = count * 2 ^ 32 * (2 ^ 53) ^ 2 := by ring

/-- **The place for a count that is a word:** the count and the product are rounded, and the cap is
not needed. -/
theorem index_seed_of_word (key : String) (hpos : 0 < count) (hword : count < 2 ^ 64) :
    index (seed key) count = roundNat ((hash key).toNat * roundNat count) / 2 ^ 32 := by
  have hlt := (hash key).toNat_lt
  have hseed := amounts_seed key
  have hbelow := rounded_place_lt hlt hpos
  generalize (hash key).toNat = h at hlt hseed hbelow ⊢
  have hcount := amounts_ofNat (mul_unitsPerOne_le hword.le)
  have hproduct : h * 2 ^ seedExponent * (roundNat count * unitsPerOne) =
      h * roundNat count * 2 ^ seedExponent * unitsPerOne := by ring
  have hbound : h * roundNat count ≤ 2 ^ 32 * 2 ^ 64 :=
    Nat.mul_le_mul hlt.le (roundNat_le_two_pow hword.le)
  have hplace := (hseed.mul hcount hproduct (mul_seedExponent_le hbound)).toIndex_eq
  rw [roundNat_mul_two_pow, unitsPerOne_eq, Nat.mul_comm _ (2 ^ seedExponent),
    Nat.mul_div_mul_left _ _ (Nat.two_pow_pos _)] at hplace
  have hmax : roundNat (h * roundNat count) / 2 ^ 32 ≤ maxIndex := by
    unfold maxIndex
    omega
  rw [index, if_neg hpos.ne', hplace, Nat.min_eq_left hmax, Nat.min_eq_left (by omega)]

/-- **The place that a key picks** is below the count. For a count that is a word it is the hash
times the count over `2^32`, where the count and the product are rounded to 53 bits; for a count of
at most `2^21` it is that exactly. -/
theorem index_seed (key : String) (hpos : 0 < count) :
    index (seed key) count < count ∧
      (count < 2 ^ 64 →
        index (seed key) count = roundNat ((hash key).toNat * roundNat count) / 2 ^ 32) ∧
      (count ≤ 2 ^ 21 → index (seed key) count = (hash key).toNat * count / 2 ^ 32) := by
  refine ⟨index_lt _ hpos, index_seed_of_word key hpos, ?_⟩
  intro hsmall
  have hproduct : (hash key).toNat * count < 2 * binade := by
    calc (hash key).toNat * count
      _ < 2 ^ 32 * count := Nat.mul_lt_mul_of_pos_right (hash key).toNat_lt hpos
      _ ≤ 2 ^ 32 * 2 ^ 21 := Nat.mul_le_mul_left _ hsmall
      _ = 2 * binade := by decide
  have hcount : count < 2 * binade := Nat.lt_of_le_of_lt hsmall (by decide)
  rw [index_seed_of_word key hpos (Nat.lt_of_le_of_lt hsmall (by decide)), roundNat_eq_self hcount,
    roundNat_eq_self hproduct]

/-- Of two million places the key `rapids` picks the one to scale. Of `120289937` it picks the one
after it: the product has 59 bits and is rounded up. -/
theorem index_seed_of_rapids :
    (0 < 2000000 ∧ 2000000 ≤ 2 ^ 21 ∧ index (seed "rapids") 2000000 = 1563106) ∧
      0 < 120289937 ∧ 120289937 < 2 ^ 64 ∧ index (seed "rapids") 120289937 = 94012986 ∧
      (hash "rapids").toNat * 120289937 / 2 ^ 32 = 94012985 := by
  have hhash : (hash "rapids").toNat = 3356745463 := by decide
  obtain ⟨-, -, hexact⟩ := index_seed "rapids" (show 0 < 2000000 by decide)
  obtain ⟨-, hrounded, -⟩ := index_seed "rapids" (show 0 < 120289937 by decide)
  rw [hhash] at hexact hrounded ⊢
  refine ⟨⟨by decide, by decide, ?_⟩, by decide, by decide, ?_, by decide⟩
  · exact (hexact (by decide)).trans (by decide)
  · exact (hrounded (by decide)).trans (by decide)

end Draw

end Questline
