import Questline.Decimal.Basic
import Questline.Decimal.Numeral

/-! # Shortest decimal digits of a floating point number

The digits of a number are the fewest that read back to it. For `1, 2, …, 17` digits the decimal
grid of so many digits has two neighbours of the number; the first grid on which one of them rounds
to the number gives the digits, and of two the nearer is taken. What becomes of an exact tie, and
how the digits are set out, is a `Layout`.

* `Shortest.decimal`: the digits of a magnitude and the power of ten of the first of them.
* `Layout.numeral`: the numeral of a finite number. -/

namespace Questline

/-- Which of two equally near decimals is taken. -/
inductive Tie where
  | even
  | up
deriving DecidableEq

namespace Shortest

open Binary64

/-- The power of ten of the first digit of `num / den`, both positive. -/
def leadingPower (num den : Nat) : Int :=
  if den ≤ num then (Decimal.digitCount (num / den) : Int) - 1
  else -(Decimal.digitCount ((den - 1) / num) : Int)

/-- The better of the two neighbours of `num / den` on the grid of `10^power`, of those that read
back to `rank`. -/
def onGrid (tie : Tie) (rank num den : Nat) (power : Int) : Option Decimal :=
  let (n, d) := Decimal.inSteps num den power
  let low : Decimal := ⟨n / d, power⟩
  let high : Decimal := ⟨n / d + 1, power⟩
  let below := 0 < low.coefficient && low.rank == rank
  let above := high.rank == rank
  if below && above then
    let twice := 2 * (n % d)
    if twice < d then some low
    else if d < twice then some high
    else match tie with
      | .up => some high
      | .even => some (if low.coefficient % 2 = 0 then low else high)
  else if below then some low
  else if above then some high
  else none

/-- The first decimal that reads back to a positive finite rank, on the grids of `1, 2, …, 17`
digits. -/
def onGrids? (tie : Tie) (rank : Nat) : Option Decimal :=
  let num := units rank
  let first := leadingPower num unitsPerOne
  ((List.range 17).map fun (n : Nat) => first - n).findSome? (onGrid tie rank num unitsPerOne)

/-- The magnitude of a rank as a decimal. -/
def exact (rank : Nat) : Decimal := ⟨units rank * Nat.pow 5 1074, -1074⟩

/-- **The shortest decimal** that reads back to a positive finite rank. Seventeen digits always
read back; were there none, the exact value is written. -/
def decimal (tie : Tie) (rank : Nat) : Decimal := ((onGrids? tie rank).getD (exact rank)).trim

end Shortest

/-- How the digits of a number are set out. -/
structure Layout where
  /-- Whether a number whose first digit counts this power of ten is written without exponent. -/
  positional : Int → Bool
  /-- Whether a whole number without exponent keeps a point and a zero. -/
  pointAlways : Bool
  tie : Tie

namespace Layout

/-- The numeral of a decimal without exponent. -/
def spreadOut (l : Layout) (negative : Bool) (ds : List Digit) (first : Int) : Numeral :=
  if first < 0 then
    ⟨negative, 0, List.replicate (first.natAbs - 1) 0 ++ ds, none⟩
  else
    let cut := first.natAbs + 1
    let fraction := ds.drop cut
    ⟨negative, ofDigits (ds.take cut ++ List.replicate (cut - ds.length) 0),
      if fraction.isEmpty && l.pointAlways then [0] else fraction, none⟩

/-- The numeral of a decimal with the point after its first digit. -/
def scientific (negative : Bool) (ds : List Digit) (first : Int) : Numeral :=
  ⟨negative, ofDigits (ds.take 1), ds.drop 1, some first⟩

/-- **The numeral of a number** of a sign and a finite rank. -/
def numeral (l : Layout) (negative : Bool) (rank : Nat) : Numeral :=
  if rank = 0 then l.spreadOut negative [0] 0
  else
    let d := Shortest.decimal l.tie rank
    let ds := digits d.coefficient
    let first := d.power + ds.length - 1
    if l.positional first then l.spreadOut negative ds first else scientific negative ds first

end Layout

end Questline
