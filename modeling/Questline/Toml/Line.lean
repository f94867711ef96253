import Questline.Toml.Number
import Questline.Toml.Text

/-! # The lines of a TOML document

A document is a list of lines: entries, headers of tables and headers of tables in an array. Blank
lines and comments leave nothing behind.

* `Toml.value`: a value at the front of a text, and the rest.
* `Toml.lines`: the lines of a text, none when it is not well formed. -/

namespace Questline

namespace Toml

/-- A dotted key: the keys on the way, and the last. -/
structure KeyPath where
  front : List String
  last : String
deriving DecidableEq

/-- How many keys a dotted key may have, and how deep arrays and inline tables may be nested. -/
def nestingLimit : Nat := 79

/-- What follows the blanks at the front of a text. -/
def skipBlanks (text : List Char) : List Char := text.dropWhile fun c => c == ' ' || c == '\t'

/-- What follows the blanks, line ends and comments at the front of a text. -/
def skipSpace (inComment : Bool) : List Char → List Char
  | [] => []
  | '\r' :: '\n' :: rest => skipSpace false rest
  | c :: rest =>
    if c = '\n' then skipSpace false rest
    else if inComment then (if isPlain c then skipSpace true rest else c :: rest)
    else if c = ' ' ∨ c = '\t' then skipSpace false rest
    else if c = '#' then skipSpace true rest
    else c :: rest

/-! ### Keys -/

/-- Characters of a key without quotes. -/
def isBare (c : Char) : Bool := c.isAlphanum || c == '_' || c == '-'

/-- A key without dots. -/
def simpleKey : List Char → Option (String × List Char)
  | '"' :: rest => (basicText rest).map fun (text, rest) => (String.ofList text, rest)
  | '\'' :: rest => (literalText rest).map fun (text, rest) => (String.ofList text, rest)
  | text =>
    match text.takeWhile isBare with
    | [] => none
    | key => some (String.ofList key, text.dropWhile isBare)

/-- A dotted key of at most `count` keys, with the blanks around it. -/
def keyPathWithin : Nat → List Char → Option (KeyPath × List Char)
  | 0, _ => none
  | count + 1, text => do
    let (key, text) ← simpleKey (skipBlanks text)
    match skipBlanks text with
    | '.' :: rest =>
      let (path, rest) ← keyPathWithin count rest
      return (⟨key :: path.front, path.last⟩, rest)
    | rest => return (⟨[], key⟩, rest)

/-- **A dotted key** at the front of a text, and the rest. -/
def keyPath (text : List Char) : Option (KeyPath × List Char) := keyPathWithin nestingLimit text

/-! ### Values -/

/-- A reader of values. -/
abbrev ValueReader := List Char → Option (Value × List Char)

/-- The items of an array after its bracket; `budget` bounds their number. -/
def arrayItems (read : ValueReader) : Nat → List Char → Option (List Value × List Char)
  | 0, _ => none
  | budget + 1, text =>
    match skipSpace false text with
    | ']' :: rest => some ([], rest)
    | text => do
      let (v, text) ← read text
      match skipSpace false text with
      | ',' :: rest =>
        let (items, rest) ← arrayItems read budget rest
        return (v :: items, rest)
      | ']' :: rest => return ([v], rest)
      | _ => none

/-- A key with its value, and the rest. -/
def entry (read : ValueReader) (text : List Char) : Option ((KeyPath × Value) × List Char) := do
  let (path, text) ← keyPath text
  let text ← mark '=' text
  let (v, text) ← read (skipBlanks text)
  return ((path, v), skipBlanks text)

/-- The entries of an inline table, of which there is at least one; `budget` bounds their number. -/
def inlineEntries (read : ValueReader) :
    Nat → List Char → Option (List (KeyPath × Value) × List Char)
  | 0, _ => none
  | budget + 1, text => do
    let (e, text) ← entry read text
    match text with
    | ',' :: rest =>
      let (entries, rest) ← inlineEntries read budget rest
      return (e :: entries, rest)
    | '\x7d' :: rest => return ([e], rest)
    | _ => none

/-- Adds entries to a table, one after the other. -/
def addEntries (t : Table) (entries : List (KeyPath × Value)) : Option Table :=
  entries.foldlM (fun t e => t.addEntry e.1.front e.1.last e.2) t

/-- An inline table after its brace. -/
def inlineTable (read : ValueReader) (text : List Char) : Option (Value × List Char) :=
  match skipBlanks text with
  | '\x7d' :: rest => some ((Table.bare .inlined).toValue, rest)
  | text => do
    let (entries, rest) ← inlineEntries read text.length text
    return ((← addEntries (.bare .inlined) entries).toValue, rest)

/-- A value with at most `levels` arrays and inline tables nested in it. -/
def valueWithin : Nat → ValueReader
  | levels, '[' :: rest => match levels with
    | 0 => none
    | levels + 1 => do
      let (items, rest) ← arrayItems (valueWithin levels) (rest.length + 1) rest
      return (.arr items, rest)
  | levels, '\x7b' :: rest => match levels with
    | 0 => none
    | levels + 1 => inlineTable (valueWithin levels) rest
  | _, 't' :: 'r' :: 'u' :: 'e' :: rest => some (.bool true, rest)
  | _, 'f' :: 'a' :: 'l' :: 's' :: 'e' :: rest => some (.bool false, rest)
  | _, text =>
    match string text with
    | some (s, rest) => some (.str (String.ofList s), rest)
    | none => (moment text).or (number text)

/-- **A value** at the front of a text, and the rest. -/
def value : ValueReader := valueWithin nestingLimit

/-! ### Lines -/

/-- A line that is not blank. -/
inductive Line where
  | entry (path : KeyPath) (v : Value)
  | header (path : KeyPath)
  | arrayHeader (path : KeyPath)

/-- What follows the end of a line, which is also the end of the text. -/
def endOfLine? : List Char → Option (List Char)
  | [] => some []
  | text => afterNewline? text

/-- What follows the rest of a line, in which only a comment may stand. -/
def restOfLine? (text : List Char) : Option (List Char) :=
  match skipBlanks text with
  | '#' :: rest => endOfLine? (rest.dropWhile isPlain)
  | text => endOfLine? text

/-- A line that is not blank, and the rest. -/
def line : List Char → Option (Line × List Char)
  | '[' :: '[' :: text => do
    let (path, text) ← keyPath text
    let text ← mark ']' text
    let text ← mark ']' text
    return (.arrayHeader path, ← restOfLine? text)
  | '[' :: text => do
    let (path, text) ← keyPath text
    let text ← mark ']' text
    return (.header path, ← restOfLine? text)
  | text => do
    let ((path, v), text) ← entry value text
    return (.entry path v, ← restOfLine? text)

/-- The lines of a text; `budget` bounds their number. -/
def linesWithin : Nat → List Char → Option (List Line)
  | 0, _ => none
  | budget + 1, text =>
    match skipBlanks text with
    | [] => some []
    | text =>
      match restOfLine? text with
      | some rest => linesWithin budget rest
      | none => do
        let (l, rest) ← line text
        return l :: (← linesWithin budget rest)

/-- The mark that may stand in front of a text to tell its byte order. -/
def byteOrderMark : Char := '\ufeff'

/-- **The lines of a text.** Each takes at least one character. -/
def lines (text : List Char) : Option (List Line) :=
  let text := match text with
    | c :: rest => if c = byteOrderMark then rest else text
    | [] => text
  linesWithin (text.length + 1) text

end Toml

end Questline
