import Questline.Binary64.Arithmetic
import Questline.Decimal.Numeral

/-! # Decimals

A decimal is a natural number times a power of ten.

* `Decimal.rank`: the rank of the floating point magnitude nearest to a decimal.
* `Decimal.toBinary64`: the nearest number, without large powers where the answer is plain. -/

namespace Questline

/-- A natural number times a power of ten. -/
structure Decimal where
  coefficient : Nat
  power : Int
deriving DecidableEq

namespace Decimal

open Binary64

/-- How many digits a number has, none for zero. -/
def digitCount (n : Nat) : Nat := if n = 0 then 0 else (digits n).length

/-- The quotient `num / den` counted in steps of `10^power`, as a quotient again. -/
def inSteps (num den : Nat) (power : Int) : Nat × Nat :=
  if power < 0 then (num * Nat.pow 10 power.natAbs, den)
  else (num, den * Nat.pow 10 power.natAbs)

/-- The rank nearest to a decimal. -/
def rank (d : Decimal) : Nat :=
  let (num, den) := inSteps (d.coefficient * unitsPerOne) 1 (-d.power)
  nearestRank num den

/-- **The number nearest to a decimal.** From `10^400` on it is infinite and below `10^-400` it is
zero. -/
def toBinary64 (negative : Bool) (d : Decimal) : Binary64 :=
  let first := d.power + digitCount d.coefficient
  if d.coefficient = 0 ∨ first < -400 then ofRank negative 0
  else if 400 < first then infinity negative
  else ofRank negative d.rank

/-- Drops trailing zeros of the coefficient. -/
def trim (d : Decimal) : Decimal :=
  if h : d.coefficient ≠ 0 ∧ d.coefficient % 10 = 0 then
    trim ⟨d.coefficient / 10, d.power + 1⟩
  else d
termination_by d.coefficient
decreasing_by exact Nat.div_lt_self (Nat.pos_of_ne_zero h.1) (by decide)

end Decimal

end Questline
