import Questline.Guard.Basic

/-! # Guards as text

A guard is shown to people as its condition; parts under more than `Guard.maxDepth` combinators are
left out, where the verdict stops looking too.

* `Guard.display`: the text of a guard.
* `Guard.summary`: the text of a list of guards that all have to hold, none for no guards. -/

namespace Questline

namespace Guard

mutual

/-- The text of a guard of which the outer `levels` are shown. -/
def displayWithin (levels : Nat) : Guard → String
  | .compare op path literal => match levels with
    | 0 => "..."
    | _ + 1 => path ++ " " ++ op.sign ++ " " ++ literal.display
  | .oneOf path candidates => match levels with
    | 0 => "..."
    | _ + 1 => path ++ " in [" ++ ", ".intercalate (candidates.map Literal.display) ++ "]"
  | .flag space name expected => match levels with
    | 0 => "..."
    | _ + 1 => "flag " ++ space ++ "." ++ name ++ " == " ++ (Literal.bool expected).display
  | .all guards => match levels with
    | 0 => "..."
    | levels + 1 => "all(" ++ ", ".intercalate (displayList levels guards) ++ ")"
  | .any guards => match levels with
    | 0 => "..."
    | levels + 1 => "any(" ++ ", ".intercalate (displayList levels guards) ++ ")"
  | .not guard => match levels with
    | 0 => "..."
    | levels + 1 => "not(" ++ displayWithin levels guard ++ ")"

/-- The texts of guards, each with its outer `levels`. -/
def displayList (levels : Nat) : List Guard → List String
  | [] => []
  | g :: rest => displayWithin levels g :: displayList levels rest

end

/-- **The text of a guard.** -/
def display (g : Guard) : String := displayWithin (maxDepth + 1) g

/-- **The text of guards that all have to hold**, none when there are none. -/
def summary : List Guard → Option String
  | [] => none
  | guards => some (" and ".intercalate (guards.map display))

end Guard

end Questline
