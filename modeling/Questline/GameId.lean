import Questline.Hex

/-! # Game ids

An id of 128 bits, written as 32 hexadecimal digits in five groups.

* `GameId.text`: the groups of 8, 4, 4, 4 and 12 digits, joined by hyphens, in lower case.
* `GameId.ofText?`: reads the digits alone, the hyphenated form, and the hyphenated form in braces
  or after `urn:uuid:`. -/

namespace Questline

/-- The id of a game. -/
structure GameId where
  value : BitVec 128
deriving DecidableEq

namespace GameId

/-- The id of no game. -/
def nil : GameId := ⟨0⟩

instance : Inhabited GameId := ⟨nil⟩

/-- Whether an id is that of no game. -/
def isNil (id : GameId) : Bool := id == nil

/-- The digits of an id with hyphens between the groups. -/
def chars (id : GameId) : List Char :=
  let n := id.value.toNat
  Hex.digits 8 (n >>> 96) ++ '-' :: Hex.digits 4 (n >>> 80) ++ '-' :: Hex.digits 4 (n >>> 64) ++
    '-' :: Hex.digits 4 (n >>> 48) ++ '-' :: Hex.digits 12 n

/-- **The text of an id.** -/
def text (id : GameId) : String := String.ofList id.chars

/-- The id of 32 digits. -/
def ofDigits? (text : List Char) : Option GameId :=
  if text.length = 32 then (Hex.ofDigits? text).map fun n => ⟨BitVec.ofNat 128 n⟩ else none

/-- The id of five groups with hyphens. -/
def ofGroups? (text : List Char) : Option GameId :=
  if text.length = 36 ∧ text[8]? = some '-' ∧ text[13]? = some '-' ∧ text[18]? = some '-' ∧
      text[23]? = some '-' then
    ofDigits? (text.take 8 ++ (text.drop 9).take 4 ++ (text.drop 14).take 4 ++
      (text.drop 19).take 4 ++ text.drop 24)
  else none

/-- What may stand in front of the five groups, in either case. -/
def urn : List Char := ['u', 'r', 'n', ':', 'u', 'u', 'i', 'd', ':']

/-- The five groups inside braces or after the urn, or the text itself. -/
def unwrap (text : List Char) : List Char :=
  if (text.take 9).map Char.toLower = urn then text.drop 9
  else match text with
    | '\x7b' :: rest => if rest.getLast? = some '\x7d' then rest.dropLast else text
    | _ => text

/-- **Reads an id** in any of its forms, with digits of either case. -/
def ofText? (text : String) : Option GameId :=
  let chars := text.toList
  if chars.length = 32 then ofDigits? chars else ofGroups? (unwrap chars)

end GameId

end Questline
