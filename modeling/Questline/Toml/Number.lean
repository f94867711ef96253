import Questline.Decimal.Basic
import Questline.Hex
import Questline.Toml.Value

/-! # TOML numbers, dates and times

* `Toml.number`: an integer of 64 bits, in base 10, 16, 8 or 2, or a floating point number.
* `Toml.moment`: a date, a time, or a date and a time.

Underscores may stand between the digits of a number. -/

namespace Questline

namespace Toml

/-- Characters of which `isDigit` holds, at least one, with single underscores between them. -/
def digitGroups (isDigit : Char → Bool) : List Char → Option (List Char × List Char)
  | '_' :: _ => none
  | [] => none
  | [c] => if isDigit c then some ([c], []) else none
  | c :: '_' :: rest =>
    if isDigit c then (digitGroups isDigit rest).map fun (ds, rest) => (c :: ds, rest) else none
  | c :: d :: rest =>
    if isDigit c then
      if isDigit d then (digitGroups isDigit (d :: rest)).map fun (ds, rest) => (c :: ds, rest)
      else some ([c], d :: rest)
    else none

/-- A decimal digit. -/
def isDecimal (c : Char) : Bool := '0' ≤ c && c ≤ '9'

/-- The number of digits of a base. -/
def ofBase (base : Nat) (ds : List Char) : Nat :=
  ds.foldl (fun n c => base * n + (Hex.value? c).getD 0) 0

/-- An integer, if it is one of 64 bits. -/
def integer? (i : Int) : Option Value :=
  if -0x8000000000000000 ≤ i ∧ i < 0x8000000000000000 then some (.int (Int64.ofInt i)) else none

/-- An integer of a base, after its mark. -/
def based (base : Nat) (text : List Char) : Option (Value × List Char) := do
  let isDigit (c : Char) := match Hex.value? c with
    | some v => decide (v < base)
    | none => false
  let (ds, rest) ← digitGroups isDigit text
  return (← integer? (ofBase base ds), rest)

/-- The sign in front of a number: whether it is negative, and the rest. -/
def sign : List Char → Bool × List Char
  | '-' :: rest => (true, rest)
  | '+' :: rest => (false, rest)
  | rest => (false, rest)

/-- The digits in front of the point: a zero alone, or digits that start with another. -/
def wholeDigits : List Char → Option (List Char × List Char)
  | '0' :: rest => some (['0'], rest)
  | rest => digitGroups isDecimal rest

/-- The digits after a point, none without a point. -/
def fractionDigits : List Char → Option (List Char × List Char)
  | '.' :: rest => digitGroups isDecimal rest
  | rest => some ([], rest)

/-- The exponent of a number, if there is one. -/
def exponent : List Char → Option (Option Int × List Char)
  | c :: rest =>
    if c = 'e' ∨ c = 'E' then do
      let (negative, rest) := sign rest
      let (ds, rest) ← digitGroups isDecimal rest
      let e := ofBase 10 ds
      return (some (if negative then -(e : Int) else e), rest)
    else some (none, c :: rest)
  | [] => some (none, [])

/-- A floating point number of its digits. What is beyond the largest number is refused, what is
below the least is not. -/
def float? (negative : Bool) (whole fraction : List Char) (e : Int) : Option Value :=
  let x := Decimal.toBinary64 negative ⟨ofBase 10 (whole ++ fraction), e - fraction.length⟩
  if x = .infinity false then none else some (.float x)

/-- A number in base 10: an integer unless it has a point or an exponent. -/
def decimal (text : List Char) : Option (Value × List Char) := do
  let (negative, text) := sign text
  let (whole, text) ← wholeDigits text
  let (fraction, text) ← fractionDigits text
  let (e, text) ← exponent text
  match fraction, e with
  | [], none =>
    let n : Int := ofBase 10 whole
    return (← integer? (if negative then -n else n), text)
  | _, _ => return (← float? negative whole fraction (e.getD 0), text)

/-- **A number** at the front of a text, and the rest. -/
def number : List Char → Option (Value × List Char)
  | '0' :: 'x' :: rest => based 16 rest
  | '0' :: 'o' :: rest => based 8 rest
  | '0' :: 'b' :: rest => based 2 rest
  | text =>
    match sign text with
    | (negative, 'i' :: 'n' :: 'f' :: rest) => some (.float (.infinity negative), rest)
    | (_, 'n' :: 'a' :: 'n' :: rest) => some (.float .nan, rest)
    | _ => decimal text

/-! ### Dates and times -/

/-- The number of exactly so many digits, and the rest. -/
def digitsExactly (count : Nat) (text : List Char) : Option (Nat × List Char) :=
  let ds := text.take count
  if ds.length = count ∧ ds.all isDecimal then some (ofBase 10 ds, text.drop count) else none

/-- A mark that has to stand here. -/
def mark (c : Char) : List Char → Option (List Char)
  | [] => none
  | d :: rest => if d = c then some rest else none

/-- The number of days of a month. -/
def daysIn (year month : Nat) : Nat :=
  if month = 2 then
    if year % 4 = 0 ∧ (year % 100 ≠ 0 ∨ year % 400 = 0) then 29 else 28
  else if month ∈ [4, 6, 9, 11] then 30
  else 31

/-- What follows a date of year, month and day. -/
def afterDate? (text : List Char) : Option (List Char) := do
  let (year, text) ← digitsExactly 4 text
  let text ← mark '-' text
  let (month, text) ← digitsExactly 2 text
  let text ← mark '-' text
  let (day, text) ← digitsExactly 2 text
  if 1 ≤ month ∧ month ≤ 12 ∧ 1 ≤ day ∧ day ≤ daysIn year month then some text else none

/-- What follows an hour and a minute. -/
def afterMinute? (text : List Char) : Option (List Char) := do
  let (hour, text) ← digitsExactly 2 text
  let text ← mark ':' text
  let (minute, text) ← digitsExactly 2 text
  if hour ≤ 23 ∧ minute ≤ 59 then some text else none

/-- What follows a time of hour, minute and second, which may have decimals. -/
def afterTime? (text : List Char) : Option (List Char) := do
  let text ← afterMinute? text
  let text ← mark ':' text
  let (second, text) ← digitsExactly 2 text
  if 60 < second then none
  else match text with
    | '.' :: c :: rest => if isDecimal c then some (rest.dropWhile isDecimal) else some text
    | _ => some text

/-- What follows the offset of a time, if there is one. -/
def afterOffset : List Char → Option (List Char)
  | 'Z' :: rest => some rest
  | 'z' :: rest => some rest
  | '+' :: rest => afterMinute? rest
  | '-' :: rest => afterMinute? rest
  | rest => some rest

/-- What follows the time behind a date, if there is one. -/
def afterDateTime (text : List Char) : Option (List Char) :=
  match text with
  | c :: rest =>
    if c = 'T' ∨ c = 't' ∨ c = ' ' then
      match afterTime? rest with
      | some rest => afterOffset rest
      | none => some text
    else some text
  | [] => some []

/-- **A date, a time, or both** at the front of a text, and the rest. -/
def moment (text : List Char) : Option (Value × List Char) :=
  match afterDate? text with
  | some rest => (afterDateTime rest).map fun rest => (.moment, rest)
  | none => (afterTime? text).map fun rest => (.moment, rest)

end Toml

end Questline
