import Questline.Binary64.Arithmetic
import Questline.Decimal.Numeral

/-! # Reading numerals as numbers

The digits of a numeral are gathered into a word of 64 bits for as long as they fit; whole digits
that no longer fit only raise the power of ten, later digits after the point are dropped. The word
becomes a floating point number and is then multiplied or divided by the power of ten, rounding
each time, so that the reading of a long numeral may be off by a neighbour or two.

* `Numeral.toBinary64?`: the number of a numeral, none when it is beyond the largest.
* `Numeral.toWord?`: the integer of a numeral without point and exponent, if it is a word. -/

namespace Questline

open Binary64

/-- The largest word of 64 bits. -/
def maxWord : Nat := 0xffffffffffffffff

/-- Appends digits to a word for as long as they fit: the word reached, and the digits left. -/
def absorb (word : Nat) : List Digit → Nat × List Digit
  | [] => (word, [])
  | d :: ds =>
    if 10 * word + d.val ≤ maxWord then absorb (10 * word + d.val) ds else (word, d :: ds)

/-- Divides by `10^k`, in steps of `10^308` while the power is larger; zero stays as it is. -/
def scaleDown (x : Binary64) (k : Nat) : Binary64 :=
  if k ≤ 308 then x.div (powerOfTen k)
  else if x.equals zero then x
  else scaleDown (x.div (powerOfTen 308)) (k - 308)
termination_by k

/-- Multiplies by `10^k`; none when the result is beyond the largest number. -/
def scaleUp (x : Binary64) (k : Nat) : Option Binary64 :=
  if k ≤ 308 then
    let y := x.mul (powerOfTen k)
    if y.isFinite then some y else none
  else if x.equals zero then some x
  else none

/-- The word times a power of ten. -/
def scaled (word : Nat) (power : Int) : Option Binary64 :=
  if power < 0 then some (scaleDown (ofNat word) power.natAbs)
  else scaleUp (ofNat word) power.natAbs

namespace Numeral

/-- **The floating point number of a numeral**, none when it is beyond the largest. -/
def toBinary64? (n : Numeral) : Option Binary64 :=
  let (front, skipped) := absorb 0 (digits n.whole)
  let (word, dropped) := absorb front n.fraction
  let power : Int := (skipped.length : Int) - ((n.fraction.length : Int) - (dropped.length : Int)) +
    n.exponent.getD 0
  (scaled word power).map fun x => if n.negative then x.neg else x

/-- The integer of a numeral that has neither point nor exponent, if it is a word: unsigned without
a sign, signed and not zero with one. -/
def toWord? (n : Numeral) : Option Int :=
  match n.fraction, n.exponent with
  | [], none =>
    if n.negative then
      if 0 < n.whole ∧ n.whole ≤ 0x8000000000000000 then some (-(n.whole : Int)) else none
    else if n.whole ≤ maxWord then some n.whole else none
  | _, _ => none

/-- The numeral of a word stands for that word. -/
theorem toWord?_ofInt {i : Int} (h : -0x8000000000000000 ≤ i ∧ i < 0x10000000000000000) :
    (ofInt i).toWord? = some i := by
  by_cases hi : i < 0
  · have hb : 0 < i.natAbs ∧ i.natAbs ≤ 0x8000000000000000 := by omega
    have hv : -(i.natAbs : Int) = i := by omega
    simp only [ofInt, toWord?, decide_eq_true hi, if_true, if_pos hb, hv]
  · have hb : i.natAbs ≤ maxWord := by unfold maxWord; omega
    have hv : (i.natAbs : Int) = i := by omega
    simp only [ofInt, toWord?, decide_eq_false hi, Bool.false_eq_true, if_false,
      if_pos hb, hv]

end Numeral

end Questline
