import Questline.Decimal.Numeral
import Questline.Hex

/-! # JSON tokens

The words of a JSON text: brackets, marks, names, numerals and strings, with blanks between them.

* `Token.scan`: the tokens of a text, none when a character fits nowhere.
* `Token.chars`: the characters of a token. Strings escape the quote, the backslash and the control
  characters; all else stands for itself. -/

namespace Questline

/-- A word of a JSON text. A string in which half of a surrogate pair is escaped is a word without
text. -/
inductive Token where
  | openArr
  | closeArr
  | openObj
  | closeObj
  | comma
  | colon
  | null
  | bool (b : Bool)
  | num (n : Numeral)
  | str (text : Option String)
deriving DecidableEq

namespace Token

/-! ### Strings -/

/-- The first half of a surrogate pair. -/
def isHighSurrogate (u : Nat) : Bool := 0xD800 ≤ u && u < 0xDC00

/-- The second half of a surrogate pair. -/
def isLowSurrogate (u : Nat) : Bool := 0xDC00 ≤ u && u < 0xE000

/-- What an escape of one letter stands for. -/
def unescape? : Char → Option Char
  | '"' => some '"'
  | '\\' => some '\\'
  | '/' => some '/'
  | 'b' => some '\x08'
  | 'f' => some '\x0c'
  | 'n' => some '\n'
  | 'r' => some '\r'
  | 't' => some '\t'
  | _ => none

/-- Puts a code in front of those that follow it. -/
def prepend (code : Nat) (tail : Option (List Nat × List Char)) : Option (List Nat × List Char) :=
  tail.map fun (codes, rest) => (code :: codes, rest)

/-- **The codes of a string** after its opening quote, and what follows the closing one: an escape
of four hexadecimal digits gives its value, any other character its code point. There are none when
the string is not closed, escapes what cannot be escaped or holds a control character. -/
def stringBody : List Char → Option (List Nat × List Char)
  | [] => none
  | '"' :: rest => some ([], rest)
  | '\\' :: 'u' :: a :: b :: c :: d :: rest =>
    match Hex.ofDigits? [a, b, c, d] with
    | some u => prepend u (stringBody rest)
    | none => none
  | '\\' :: c :: rest =>
    match unescape? c with
    | some c => prepend c.toNat (stringBody rest)
    | none => none
  | c :: rest => if c.toNat < 0x20 then none else prepend c.toNat (stringBody rest)

/-- **The characters of a list of codes.** Two halves of a surrogate pair make one character; half a
pair that stands alone makes none. -/
def joinSurrogates : List Nat → Option (List Char)
  | [] => some []
  | u :: codes =>
    if isHighSurrogate u then
      match codes with
      | v :: codes =>
        if isLowSurrogate v then
          (joinSurrogates codes).map
            (Char.ofNat (0x10000 + (u - 0xD800) * 0x400 + (v - 0xDC00)) :: ·)
        else none
      | [] => none
    else if isLowSurrogate u then none
    else (joinSurrogates codes).map (Char.ofNat u :: ·)

/-- The characters that stand for one character of a string. -/
def escaped (c : Char) : List Char :=
  if c = '"' then ['\\', '"']
  else if c = '\\' then ['\\', '\\']
  else if c = '\x08' then ['\\', 'b']
  else if c = '\t' then ['\\', 't']
  else if c = '\n' then ['\\', 'n']
  else if c = '\x0c' then ['\\', 'f']
  else if c = '\r' then ['\\', 'r']
  else if c.toNat < 0x20 then '\\' :: 'u' :: Hex.digits 4 c.toNat
  else [c]

/-- A string between quotes, with escapes where they are needed. -/
def quoted (s : String) : List Char := '"' :: (s.toList.flatMap escaped ++ ['"'])

/-! ### Numerals -/

/-- The digits at the front of a text, and the rest. -/
def digitRun : List Char → List Digit × List Char
  | [] => ([], [])
  | c :: rest =>
    match Digit.ofChar? c with
    | some d => let (ds, rest) := digitRun rest; (d :: ds, rest)
    | none => ([], c :: rest)

/-- The digits after a point, which are at least one. -/
def fractionPart : List Char → Option (List Digit × List Char)
  | '.' :: rest =>
    match digitRun rest with
    | ([], _) => none
    | (ds, rest) => some (ds, rest)
  | rest => some ([], rest)

/-- The digits of an exponent after its sign. -/
def exponentDigits (negative : Bool) (text : List Char) : Option (Option Int × List Char) :=
  match digitRun text with
  | ([], _) => none
  | (ds, rest) => some (some (if negative then -(ofDigits ds : Int) else ofDigits ds), rest)

/-- The exponent of a numeral, if there is one. -/
def exponentPart : List Char → Option (Option Int × List Char)
  | 'e' :: '+' :: rest => exponentDigits false rest
  | 'e' :: '-' :: rest => exponentDigits true rest
  | 'e' :: rest => exponentDigits false rest
  | 'E' :: '+' :: rest => exponentDigits false rest
  | 'E' :: '-' :: rest => exponentDigits true rest
  | 'E' :: rest => exponentDigits false rest
  | rest => some (none, rest)

/-- The whole digits: at least one, and no zero in front of another. -/
def wholePart (text : List Char) : Option (Nat × List Char) :=
  match digitRun text with
  | ([], _) => none
  | (d :: ds, rest) => if d.val = 0 && !ds.isEmpty then none else some (ofDigits (d :: ds), rest)

/-- **A numeral** at the front of a text, without its sign, and the rest. -/
def numeral (negative : Bool) (text : List Char) : Option (Token × List Char) := do
  let (whole, text) ← wholePart text
  let (fraction, text) ← fractionPart text
  let (exponent, text) ← exponentPart text
  return (.num ⟨negative, whole, fraction, exponent⟩, text)

/-! ### Texts -/

/-- Characters between tokens. -/
def isBlank (c : Char) : Bool := c == ' ' || c == '\t' || c == '\n' || c == '\r'

/-- The token that starts with a character, and what follows it. -/
def next : Char → List Char → Option (Token × List Char)
  | '[', rest => some (openArr, rest)
  | ']', rest => some (closeArr, rest)
  | '\x7b', rest => some (openObj, rest)
  | '\x7d', rest => some (closeObj, rest)
  | ',', rest => some (comma, rest)
  | ':', rest => some (colon, rest)
  | 'n', 'u' :: 'l' :: 'l' :: rest => some (null, rest)
  | 't', 'r' :: 'u' :: 'e' :: rest => some (bool true, rest)
  | 'f', 'a' :: 'l' :: 's' :: 'e' :: rest => some (bool false, rest)
  | '"', rest =>
    (stringBody rest).map fun (codes, rest) =>
      (str ((joinSurrogates codes).map String.ofList), rest)
  | '-', rest => numeral true rest
  | c, rest => numeral false (c :: rest)

/-- The tokens of a text, at most `budget` of them and blanks. -/
def scanWithin : Nat → List Char → Option (List Token)
  | _, [] => some []
  | 0, _ => none
  | budget + 1, c :: rest =>
    if isBlank c then scanWithin budget rest
    else match next c rest with
      | some (t, rest) => (scanWithin budget rest).map (t :: ·)
      | none => none

/-- **The tokens of a text.** Each token takes at least one character, so its length is budget
enough. -/
def scan (text : List Char) : Option (List Token) := scanWithin text.length text

/-- The characters of a token. A string that could not be read is written empty. -/
def chars : Token → List Char
  | openArr => ['[']
  | closeArr => [']']
  | openObj => ['\x7b']
  | closeObj => ['\x7d']
  | comma => [',']
  | colon => [':']
  | null => ['n', 'u', 'l', 'l']
  | bool true => ['t', 'r', 'u', 'e']
  | bool false => ['f', 'a', 'l', 's', 'e']
  | num n => n.chars
  | str text => quoted (text.getD "")

end Token

end Questline
