import Questline.Decimal.Shortest

/-! # Literals

The scalars that guards compare: truth values, integers of 64 bits, floating point numbers and
texts.

* `Literal.agrees`: equality as guards see it. Numbers agree by value, whether integer or not; all
  else agrees only within its kind.
* `Literal.same`: equality of two literals as written: of one kind and with equal contents. -/

namespace Questline

/-- A scalar in a guard or in the facts that guards read. -/
inductive Literal where
  | bool (b : Bool)
  | int (i : Int64)
  | float (x : Binary64)
  | text (s : String)
deriving DecidableEq

namespace Literal

instance : Inhabited Literal := ⟨.bool false⟩

/-- The literal as a floating point number, if it is a number. -/
def number? : Literal → Option Binary64
  | .int i => some (Binary64.ofInt i.toInt)
  | .float x => some x
  | _ => none

/-- **Equality as guards see it.** -/
def agrees (a b : Literal) : Bool :=
  match a.number?, b.number? with
  | some x, some y => x.equals y
  | _, _ =>
    match a, b with
    | .bool x, .bool y => x == y
    | .text x, .text y => x == y
    | _, _ => false

/-- Equality of kind and contents; numbers are compared by value, so that a `nan` is not even the
same as itself. -/
def same : Literal → Literal → Bool
  | .bool x, .bool y => x == y
  | .int x, .int y => x == y
  | .float x, .float y => x.equals y
  | .text x, .text y => x == y
  | _, _ => false

/-- Numbers in a guard's text have no exponent and no superfluous point; a tie between two shortest
forms goes up. -/
def numberLayout : Layout := ⟨fun _ => true, false, .up⟩

/-- A number as a guard's text shows it. -/
def numberDisplay : Binary64 → String
  | .nan => "NaN"
  | .signed negative rank =>
    if rank.val < Binary64.infinityRank then (numberLayout.numeral negative rank.val).text
    else if negative then "-inf" else "inf"

/-- A literal as a guard's text shows it; texts stand between quotes, as they are. -/
def display : Literal → String
  | .bool true => "true"
  | .bool false => "false"
  | .int i => decimalText i.toInt
  | .float x => numberDisplay x
  | .text s => "\"" ++ s ++ "\""

end Literal

end Questline
