import Questline.Decimal.Shortest
import Questline.Json.Basic
import Questline.Json.Token

/-! # Writing JSON texts

Values are written without blanks, the fields of an object in their order.

* `Json.numberLayout`: how numbers that are not integers are written.
* `Json.tokens`: the tokens of a value.
* `Json.text`: the text of a value. -/

namespace Questline

namespace Json

/-- Numbers from `0.00001` to below `10^16` are written without exponent and always with a point;
a tie between two shortest forms goes to the even digit. -/
def numberLayout : Layout := ⟨fun first => decide (-5 ≤ first) && decide (first ≤ 15), true, .even⟩

/-- The token of a number; infinities and `nan` have no numeral. -/
def numberToken : Binary64 → Token
  | .nan => .null
  | .signed negative rank =>
    if rank.val < Binary64.infinityRank then .num (numberLayout.numeral negative rank.val)
    else .null

mutual

/-- **The tokens of a value.** What is unreadable is written as null. -/
def tokens : Json → List Token
  | .null => [.null]
  | .bool b => [.bool b]
  | .int i => [.num (.ofInt i)]
  | .float x => [numberToken x]
  | .str s => [.str (some s)]
  | .arr items => .openArr :: itemTokens true items
  | .obj fields => .openObj :: fieldTokens true fields
  | .unreadable => [.null]

/-- The tokens of items and of the bracket that closes them. -/
def itemTokens (first : Bool) : List Json → List Token
  | [] => [.closeArr]
  | j :: rest => (if first then [] else [.comma]) ++ tokens j ++ itemTokens false rest

/-- The tokens of fields and of the brace that closes them. -/
def fieldTokens (first : Bool) : List (String × Json) → List Token
  | [] => [.closeObj]
  | (k, j) :: rest =>
    (if first then [] else [.comma]) ++
      .str (some k) :: .colon :: tokens j ++ fieldTokens false rest

end

/-- The characters of a value. -/
def chars (j : Json) : List Char := j.tokens.flatMap Token.chars

/-- **The text of a value.** -/
def text (j : Json) : String := String.ofList j.chars

end Json

end Questline
