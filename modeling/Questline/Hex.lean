/-! # Hexadecimal digits

* `Hex.digit` and `Hex.value?`: a digit of a value, in lower case, and the value of a digit in
  either case.
* `Hex.digits` and `Hex.ofDigits?`: so many digits of a number, and the number of a list of
  digits. -/

namespace Questline

namespace Hex

/-- The digit of a value below 16. -/
def digit (n : Nat) : Char :=
  if n < 10 then Char.ofNat ('0'.toNat + n) else Char.ofNat ('a'.toNat + (n - 10))

/-- The value of a digit, in either case. -/
def value? (c : Char) : Option Nat :=
  if '0' ≤ c ∧ c ≤ '9' then some (c.toNat - '0'.toNat)
  else if 'a' ≤ c ∧ c ≤ 'f' then some (c.toNat - 'a'.toNat + 10)
  else if 'A' ≤ c ∧ c ≤ 'F' then some (c.toNat - 'A'.toNat + 10)
  else none

/-- The lowest `count` digits of a number, the most significant first. -/
def digits : Nat → Nat → List Char
  | 0, _ => []
  | count + 1, n => digits count (n / 16) ++ [digit (n % 16)]

/-- The number of digits that continue another number. -/
def continueDigits? : Nat → List Char → Option Nat
  | n, [] => some n
  | n, c :: rest => (value? c).bind fun d => continueDigits? (16 * n + d) rest

/-- The number of a list of digits. -/
def ofDigits? (text : List Char) : Option Nat := continueDigits? 0 text

end Hex

end Questline
