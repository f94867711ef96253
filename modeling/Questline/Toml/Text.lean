import Questline.Hex

/-! # TOML strings

Strings stand between quotes that allow escapes or apostrophes that do not, on one line or, between
three of them, on several.

* `Toml.basicText`, `literalText`: the text of a string of one line after its opening mark.
* `Toml.longBasicText`, `longLiteralText`: the same for several lines.
* `Toml.string`: any string, and what follows it. -/

namespace Questline

namespace Toml

/-- Characters that stand for themselves in comments and strings: the tab, and all that is neither a
control character nor the delete character. -/
def isPlain (c : Char) : Bool := c == '\t' || (0x20 ≤ c.toNat && c.toNat != 0x7F)

/-- What an escape of one letter stands for. -/
def unescape? : Char → Option Char
  | '"' => some '"'
  | '\\' => some '\\'
  | 'b' => some '\x08'
  | 'f' => some '\x0c'
  | 'n' => some '\n'
  | 'r' => some '\r'
  | 't' => some '\t'
  | _ => none

/-- The character of a code given by hexadecimal digits. -/
def charOfHex? (text : List Char) : Option Char :=
  (Hex.ofDigits? text).bind fun n =>
    if n < 0xD800 ∨ (0xE000 ≤ n ∧ n < 0x110000) then some (Char.ofNat n) else none

/-- Puts a character in front of a text. -/
def prepend (c : Char) (tail : Option (List Char × List Char)) : Option (List Char × List Char) :=
  tail.map fun (text, rest) => (c :: text, rest)

/-- Puts the character of an escape in front of a text. -/
def prepend? (c : Option Char) (tail : Option (List Char × List Char)) :
    Option (List Char × List Char) :=
  c.bind fun c => prepend c tail

/-- **The text of a quoted string** on one line, after its opening quote. -/
def basicText : List Char → Option (List Char × List Char)
  | [] => none
  | '"' :: rest => some ([], rest)
  | '\\' :: 'u' :: a :: b :: c :: d :: rest => prepend? (charOfHex? [a, b, c, d]) (basicText rest)
  | '\\' :: 'U' :: a :: b :: c :: d :: e :: f :: g :: h :: rest =>
    prepend? (charOfHex? [a, b, c, d, e, f, g, h]) (basicText rest)
  | '\\' :: c :: rest => prepend? (unescape? c) (basicText rest)
  | c :: rest => if isPlain c then prepend c (basicText rest) else none

/-- **The text of a string in apostrophes** on one line, after the opening one. -/
def literalText : List Char → Option (List Char × List Char)
  | [] => none
  | '\'' :: rest => some ([], rest)
  | c :: rest => if isPlain c then prepend c (literalText rest) else none

/-- Whether only blanks stand before the end of the line. -/
def lineEnds : List Char → Bool
  | ' ' :: rest => lineEnds rest
  | '\t' :: rest => lineEnds rest
  | '\n' :: _ => true
  | '\r' :: '\n' :: _ => true
  | _ => false

/-- **The text of a quoted string** of several lines. Before its end one or two quotes may stand. A
backslash at the end of a line skips, as `skipping` says, all blanks and line ends that follow. -/
def longBasicText (skipping : Bool) : List Char → Option (List Char × List Char)
  | [] => none
  | '"' :: '"' :: '"' :: '"' :: '"' :: rest => some (['"', '"'], rest)
  | '"' :: '"' :: '"' :: '"' :: rest => some (['"'], rest)
  | '"' :: '"' :: '"' :: rest => some ([], rest)
  | '\\' :: 'u' :: a :: b :: c :: d :: rest =>
    prepend? (charOfHex? [a, b, c, d]) (longBasicText false rest)
  | '\\' :: 'U' :: a :: b :: c :: d :: e :: f :: g :: h :: rest =>
    prepend? (charOfHex? [a, b, c, d, e, f, g, h]) (longBasicText false rest)
  | '\\' :: c :: rest =>
    if lineEnds (c :: rest) then longBasicText true (c :: rest)
    else prepend? (unescape? c) (longBasicText false rest)
  | '\r' :: '\n' :: rest =>
    if skipping then longBasicText true rest else prepend '\n' (longBasicText false rest)
  | c :: rest =>
    if c = '\n' ∨ c = ' ' ∨ c = '\t' then
      if skipping then longBasicText true rest else prepend c (longBasicText false rest)
    else if isPlain c then prepend c (longBasicText false rest)
    else none

/-- **The text of a string in apostrophes** of several lines. -/
def longLiteralText : List Char → Option (List Char × List Char)
  | [] => none
  | '\'' :: '\'' :: '\'' :: '\'' :: '\'' :: rest => some (['\'', '\''], rest)
  | '\'' :: '\'' :: '\'' :: '\'' :: rest => some (['\''], rest)
  | '\'' :: '\'' :: '\'' :: rest => some ([], rest)
  | '\r' :: '\n' :: rest => prepend '\n' (longLiteralText rest)
  | c :: rest => if c = '\n' ∨ isPlain c then prepend c (longLiteralText rest) else none

/-- What follows a line end, if the text starts with one. -/
def afterNewline? : List Char → Option (List Char)
  | '\n' :: rest => some rest
  | '\r' :: '\n' :: rest => some rest
  | _ => none

/-- A line end right after the opening of a long string is not part of it. -/
def skipNewline (text : List Char) : List Char := (afterNewline? text).getD text

/-- **A string of any sort** at the front of a text, and the rest. -/
def string : List Char → Option (List Char × List Char)
  | '"' :: '"' :: '"' :: rest => longBasicText false (skipNewline rest)
  | '"' :: rest => basicText rest
  | '\'' :: '\'' :: '\'' :: rest => longLiteralText (skipNewline rest)
  | '\'' :: rest => literalText rest
  | _ => none

end Toml

end Questline
