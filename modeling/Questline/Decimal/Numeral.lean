/-! # Decimal numerals

A numeral is a number as it is written down: a sign, a whole part, the digits after the point and a
power of ten. The whole part is a natural number, because it is written without leading zeros; the
digits after the point are a list, because there leading zeros count.

* `Numeral.text`: the characters of a numeral; the sign of an exponent is always written.
* `Numeral.ofInt`: the numeral of an integer.
* `digits` and `ofDigits`: a natural number and its digits, the most significant first. -/

namespace Questline

/-- A decimal digit. -/
abbrev Digit := Fin 10

namespace Digit

/-- The character of a digit. -/
def toChar (d : Digit) : Char := Char.ofNat ('0'.toNat + d.val)

/-- The digit of a character of `0` to `9`. -/
def ofChar? (c : Char) : Option Digit :=
  if h : '0'.toNat ≤ c.toNat ∧ c.toNat ≤ '9'.toNat then
    some ⟨c.toNat - '0'.toNat, by
      have h₁ : '0'.toNat = 48 := rfl
      have h₂ : '9'.toNat = 57 := rfl
      omega⟩
  else none

@[simp] theorem ofChar?_toChar (d : Digit) : ofChar? d.toChar = some d := by
  revert d; decide

end Digit

/-- The digits of a natural number, the most significant first; zero has one. -/
def digits (n : Nat) : List Digit :=
  if h : n < 10 then [⟨n, h⟩] else digits (n / 10) ++ [⟨n % 10, Nat.mod_lt _ (by decide)⟩]
termination_by n

/-- The natural number of digits, the most significant first. -/
def ofDigits (ds : List Digit) : Nat := ds.foldl (fun n d => 10 * n + d.val) 0

theorem ofDigits_append (ds : List Digit) (d : Digit) :
    ofDigits (ds ++ [d]) = 10 * ofDigits ds + d.val := by
  simp [ofDigits, List.foldl_append]

theorem digits_of_lt {n : Nat} (h : n < 10) : digits n = [⟨n, h⟩] := by
  rw [digits, dif_pos h]

theorem digits_of_ge {n : Nat} (h : 10 ≤ n) :
    digits n = digits (n / 10) ++ [⟨n % 10, Nat.mod_lt _ (by decide)⟩] := by
  rw [digits, dif_neg (by omega)]

/-- A number is rebuilt from its digits. -/
@[simp] theorem ofDigits_digits (n : Nat) : ofDigits (digits n) = n := by
  induction n using Nat.strongRecOn with
  | _ n ih =>
    by_cases h : n < 10
    · simp [digits_of_lt h, ofDigits]
    · rw [digits_of_ge (by omega), ofDigits_append, ih _ (by omega)]
      simp only []
      omega

/-- Only zero starts with a zero. -/
theorem digits_head (n : Nat) : ∃ d ds, digits n = d :: ds ∧ (d = 0 → ds = []) := by
  induction n using Nat.strongRecOn with
  | _ n ih =>
    by_cases h : n < 10
    · exact ⟨_, _, digits_of_lt h, fun _ => rfl⟩
    · obtain ⟨d, ds, he, hd⟩ := ih (n / 10) (by omega)
      refine ⟨d, ds ++ [⟨n % 10, Nat.mod_lt _ (by decide)⟩], by
        rw [digits_of_ge (by omega), he]; rfl, fun h0 => ?_⟩
      exfalso
      have := ofDigits_digits (n / 10)
      rw [he, hd h0, h0] at this
      simp [ofDigits] at this
      omega

/-- A number as it is written down. -/
structure Numeral where
  negative : Bool
  whole : Nat
  /-- The digits after the point; none stand for a numeral without a point. -/
  fraction : List Digit
  exponent : Option Int
deriving DecidableEq

namespace Numeral

/-- The numeral of an integer, without point and exponent. -/
def ofInt (i : Int) : Numeral := ⟨decide (i < 0), i.natAbs, [], none⟩

/-- The characters of digits. -/
def digitChars (ds : List Digit) : List Char := ds.map Digit.toChar

/-- The characters of an exponent, its sign always written. -/
def exponentChars : Option Int → List Char
  | none => []
  | some e => 'e' :: (if e < 0 then '-' else '+') :: digitChars (digits e.natAbs)

/-- The characters of the part after the whole digits. -/
def fractionChars (ds : List Digit) : List Char :=
  if ds.isEmpty then [] else '.' :: digitChars ds

/-- The characters of a numeral. -/
def chars (n : Numeral) : List Char :=
  (if n.negative then ['-'] else []) ++ digitChars (digits n.whole) ++ fractionChars n.fraction ++
    exponentChars n.exponent

/-- **The text of a numeral.** -/
def text (n : Numeral) : String := String.ofList n.chars

end Numeral

/-- An integer in decimal. -/
def decimalText (i : Int) : String := (Numeral.ofInt i).text

end Questline
