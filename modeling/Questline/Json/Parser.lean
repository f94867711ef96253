import Questline.Json.Basic
import Questline.Json.Token

/-! # Reading JSON texts

The tokens of a text are put together with a stack of the arrays and objects that are still open,
so that the reader follows the tokens from left to right and never looks back.

* `Json.ofTokens?`: the value of a list of tokens, none when they are not one value.
* `Json.ofText?`: the value of a text. `Json.ofDocument?`: the same with a limit on nesting. -/

namespace Questline

namespace Json

/-- An array or object that is still open: what it holds so far, the last first. An object waits
for the value of a key, and knows whether all its keys are readable. -/
inductive Frame where
  | arr (done : List Json)
  | obj (done : List (String × Json)) (key : String) (keysReadable : Bool)

/-- The value of an object that is complete. -/
def closeObject (fields : List (String × Json)) (keysReadable : Bool) : Json :=
  if keysReadable then .obj fields.reverse else .unreadable

mutual

/-- Reads a value that goes into the innermost of the open frames. -/
def readValue (stack : List Frame) : List Token → Option Json
  | .null :: rest => readAfter stack .null rest
  | .bool b :: rest => readAfter stack (.bool b) rest
  | .num n :: rest => readAfter stack (ofNumeral n) rest
  | .str (some s) :: rest => readAfter stack (.str s) rest
  | .str none :: rest => readAfter stack .unreadable rest
  | .openArr :: .closeArr :: rest => readAfter stack (.arr []) rest
  | .openArr :: rest => readValue (.arr [] :: stack) rest
  | .openObj :: .closeObj :: rest => readAfter stack (.obj []) rest
  | .openObj :: .str k :: .colon :: rest =>
    readValue (.obj [] (k.getD "") k.isSome :: stack) rest
  | _ => none

/-- Reads what follows a value. -/
def readAfter (stack : List Frame) (j : Json) : List Token → Option Json
  | [] => match stack with
    | [] => some j
    | _ :: _ => none
  | .comma :: rest => match stack with
    | .arr done :: stack => readValue (.arr (j :: done) :: stack) rest
    | .obj done key ok :: stack => match rest with
      | .str k :: .colon :: rest =>
        readValue (.obj ((key, j) :: done) (k.getD "") (ok && k.isSome) :: stack) rest
      | _ => none
    | [] => none
  | .closeArr :: rest => match stack with
    | .arr done :: stack => readAfter stack (.arr (j :: done).reverse) rest
    | _ => none
  | .closeObj :: rest => match stack with
    | .obj done key ok :: stack => readAfter stack (closeObject ((key, j) :: done) ok) rest
    | _ => none
  | _ => none

end

/-- The value of tokens that are one value and nothing else. -/
def ofTokens? (tokens : List Token) : Option Json := readValue [] tokens

/-- **The value of a text**, however deep. -/
def ofText? (text : String) : Option Json := (Token.scan text.toList).bind ofTokens?

/-- **The value of a document**, in which nesting is limited. -/
def ofDocument? (text : String) : Option Json := (ofText? text).map document

end Json

end Questline
