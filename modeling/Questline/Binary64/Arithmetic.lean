import Questline.Binary64.Basic

/-! # Arithmetic of binary floating point numbers

Each operation is exact on units and rounds once, to the nearest number.

* `Binary64.ofInt`, `Binary64.ofNat`: the number nearest to an integer.
* `Binary64.add`, `mul`, `div`: sum, product and quotient. A sum of zero is negative only when both
  terms are; a product or quotient has the sign of the two signs.
* `Binary64.toIndex`: the whole part as an index of 64 bits, out of range numbers going to the
  nearer end. -/

namespace Questline.Binary64

/-- **The number nearest to an integer.** -/
def ofInt (i : Int) : Binary64 := ofUnits (decide (i < 0)) (i.natAbs * unitsPerOne) 1

/-- The number nearest to a natural number. -/
def ofNat (n : Nat) : Binary64 := ofUnits false (n * unitsPerOne) 1

/-- The number nearest to `10^k`. -/
def powerOfTen (k : Nat) : Binary64 := ofNat (Nat.pow 10 k)

/-- The infinity of a sign. -/
def infinity (negative : Bool) : Binary64 := ofRank negative infinityRank

/-- **Sum.** Opposite infinities have none. -/
def add (x y : Binary64) : Binary64 :=
  match x, y with
  | .nan, _ => .nan
  | _, .nan => .nan
  | .signed m _, .signed n _ =>
    match x.isFinite, y.isFinite with
    | true, true =>
      let sum := x.toUnits + y.toUnits
      if sum = 0 then ofRank (m && n) 0 else ofUnits (decide (sum < 0)) sum.natAbs 1
    | true, false => y
    | false, true => x
    | false, false => if m = n then x else .nan

/-- **Product.** Zero times infinity has none. -/
def mul (x y : Binary64) : Binary64 :=
  match x, y with
  | .nan, _ => .nan
  | _, .nan => .nan
  | .signed m r, .signed n s =>
    if x.isFinite && y.isFinite then
      ofUnits (m != n) (units r.val * units s.val) unitsPerOne
    else if r.val = 0 ∨ s.val = 0 then .nan
    else infinity (m != n)

/-- **Quotient.** Zero by zero and infinity by infinity have none. -/
def div (x y : Binary64) : Binary64 :=
  match x, y with
  | .nan, _ => .nan
  | _, .nan => .nan
  | .signed m r, .signed n s =>
    match x.isFinite, y.isFinite with
    | true, true =>
      if s.val = 0 then (if r.val = 0 then .nan else infinity (m != n))
      else ofUnits (m != n) (units r.val * unitsPerOne) (units s.val)
    | true, false => ofRank (m != n) 0
    | false, true => infinity (m != n)
    | false, false => .nan

/-- The largest index of 64 bits. -/
def maxIndex : Nat := 0xffffffffffffffff

/-- The whole part as an index: `0` for a `nan` and below zero, at most `maxIndex`. -/
def toIndex : Binary64 → Nat
  | .nan => 0
  | .signed n r =>
    if n then 0
    else if r.val < infinityRank then min (units r.val / unitsPerOne) maxIndex
    else maxIndex

end Questline.Binary64
