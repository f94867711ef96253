/-! # Binary floating point numbers of 64 bits

A number is its sign and the *rank* of its magnitude: its position in the increasing list of all
magnitudes of the format, `0, 2^-1074, 2 * 2^-1074, …, infinity`. The rank is also the bit pattern
of the magnitude, so the next larger number is one rank up and numbers compare as their signed
ranks do.

* `Binary64.key`: the signed rank, the place of a number on the line; both zeros are at `0` and
  a `nan` has none. `equals`, `lt` and `le` compare keys.
* `Binary64.units`: the magnitude of a finite rank as a multiple of `2^-1074`, exactly.
* `Binary64.nearestRank`: the rank nearest to a quotient, a tie going to the even rank. -/

namespace Questline

namespace Binary64

/-- The ranks of one exponent: half of the significands of the format. -/
def binade : Nat := 1 <<< 52

/-- The rank of infinity, above every finite rank. -/
def infinityRank : Nat := 2047 * binade

/-- How many units make up the number one: a unit is `2^-1074`, the least positive magnitude. -/
def unitsPerOne : Nat := 1 <<< 1074

end Binary64

/-- A floating point number of 64 bits, infinities, both zeros and one `nan` included. -/
inductive Binary64 where
  | nan
  | signed (negative : Bool) (rank : Fin (Binary64.infinityRank + 1))
deriving DecidableEq

namespace Binary64

/-- The number of a sign and a rank; a rank beyond the last is infinity. -/
def ofRank (negative : Bool) (rank : Nat) : Binary64 :=
  .signed negative ⟨min rank infinityRank, Nat.lt_succ_of_le (Nat.min_le_right _ _)⟩

/-- Zero with a positive sign. -/
def zero : Binary64 := ofRank false 0

instance : Inhabited Binary64 := ⟨zero⟩

/-- The sign bit; a `nan` counts as positive. -/
def negative : Binary64 → Bool
  | .nan => false
  | .signed n _ => n

/-- Neither infinite nor a `nan`. -/
def isFinite : Binary64 → Bool
  | .nan => false
  | .signed _ r => r.val < infinityRank

/-- The same magnitude with the other sign. -/
def neg : Binary64 → Binary64
  | .nan => .nan
  | .signed n r => .signed (!n) r

/-! ### Order -/

/-- The place on the number line: the signed rank, or none for a `nan`. -/
def key : Binary64 → Option Int
  | .nan => none
  | .signed n r => some (if n then -(r.val : Int) else r.val)

/-- Numeric equality: the zeros are equal, a `nan` equals nothing. -/
def equals (x y : Binary64) : Bool :=
  match x.key, y.key with
  | some a, some b => a == b
  | _, _ => false

/-- Numeric order; a `nan` is below nothing and above nothing. -/
def lt (x y : Binary64) : Bool :=
  match x.key, y.key with
  | some a, some b => decide (a < b)
  | _, _ => false

/-- Numeric order or equality; a `nan` is in no such relation. -/
def le (x y : Binary64) : Bool :=
  match x.key, y.key with
  | some a, some b => decide (a ≤ b)
  | _, _ => false

/-! ### Value and rounding -/

/-- The power of two by which the significand of a rank is scaled. -/
def scale (rank : Nat) : Nat := rank / binade - 1

/-- The magnitude of a finite rank in units. Up to rank `2 * binade` it is the rank itself; above,
each binade doubles the distance between neighbours. -/
def units (rank : Nat) : Nat := (rank - scale rank * binade) <<< scale rank

/-- The quotient rounded to the nearest natural number, a tie to the even one. -/
def divToEven (a b : Nat) : Nat :=
  if 2 * (a % b) < b then a / b
  else if b < 2 * (a % b) then a / b + 1
  else a / b + a / b % 2

/-- The rank nearest to `num / den` units, a tie going to the even rank. A quotient of `2^(53+e)`
units or more is rounded to a multiple of `2^e`, which leaves a significand of 53 bits. -/
def nearestRank (num den : Nat) : Nat :=
  let e := Nat.log2 (num / den) - 52
  divToEven num (den <<< e) + e * binade

/-- The number nearest to `num / den` units, infinity when it is beyond the largest. -/
def ofUnits (negative : Bool) (num den : Nat) : Binary64 := ofRank negative (nearestRank num den)

/-- The signed magnitude in units; zero for a `nan`. -/
def toUnits : Binary64 → Int
  | .nan => 0
  | .signed n r => if n then -(units r.val : Int) else units r.val

end Binary64

end Questline
