import Questline.Guard.Basic
import Questline.Guard.Facts

/-! # Verdicts of guards

Every guard has a verdict on given facts. A path without a value fails each comparison, numbers are
compared only with numbers, and a guard in which a part lies under more than `Guard.maxDepth`
combinators fails as soon as that part is needed: guards fail closed.

* `Guard.holds`: the verdict. `Guard.allHold`: of a list of guards.
* `Guard.holds_compare`, `Guard.holds_oneOf`: the verdict of a leaf asks the value of its path.
* `Guard.meaning`: the truth value of a guard without any limit on its depth. -/

namespace Questline

namespace Comparison

/-- Whether two numbers stand in the relation. -/
def ofNumbers : Comparison → Binary64 → Binary64 → Bool
  | .eq, x, y => x.equals y
  | .ne, x, y => !x.equals y
  | .gt, x, y => y.lt x
  | .lt, x, y => x.lt y
  | .gte, x, y => y.le x
  | .lte, x, y => x.le y

/-- Whether two values stand in the relation; only numbers are ordered. -/
def relates (op : Comparison) (value literal : Literal) : Bool :=
  match op with
  | .eq => value.agrees literal
  | .ne => !value.agrees literal
  | op =>
    match value.number?, literal.number? with
    | some x, some y => op.ofNumbers x y
    | _, _ => false

end Comparison

namespace Guard

/-- A comparison with the value of a path, which fails when there is none. -/
def comparisonHolds (f : Facts) (op : Comparison) (path : String) (literal : Literal) : Bool :=
  match f.resolve path with
  | some value => op.relates value literal
  | none => false

/-- Whether the value of a path agrees with a candidate. -/
def membershipHolds (f : Facts) (path : String) (candidates : List Literal) : Bool :=
  match f.resolve path with
  | some value => candidates.any value.agrees
  | none => false

mutual

/-- **The truth value of a guard**, however deep it is. -/
def meaning (f : Facts) : Guard → Bool
  | .compare op path literal => comparisonHolds f op path literal
  | .oneOf path candidates => membershipHolds f path candidates
  | .flag space name expected => f.flagValue space name == expected
  | .all guards => meaningAll f guards
  | .any guards => meaningAny f guards
  | .not guard => !meaning f guard

/-- Whether all guards are true. -/
def meaningAll (f : Facts) : List Guard → Bool
  | [] => true
  | g :: rest => meaning f g && meaningAll f rest

/-- Whether one of the guards is true. -/
def meaningAny (f : Facts) : List Guard → Bool
  | [] => false
  | g :: rest => meaning f g || meaningAny f rest

end

mutual

/-- The verdict of a guard of which the outer `levels` may be looked at; none when a part below
them is needed. -/
def verdict (f : Facts) (levels : Nat) : Guard → Option Bool
  | .compare op path literal => match levels with
    | 0 => none
    | _ + 1 => some (comparisonHolds f op path literal)
  | .oneOf path candidates => match levels with
    | 0 => none
    | _ + 1 => some (membershipHolds f path candidates)
  | .flag space name expected => match levels with
    | 0 => none
    | _ + 1 => some (f.flagValue space name == expected)
  | .all guards => match levels with
    | 0 => none
    | levels + 1 => verdictAll f levels guards
  | .any guards => match levels with
    | 0 => none
    | levels + 1 => verdictAny f levels guards
  | .not guard => match levels with
    | 0 => none
    | levels + 1 => (verdict f levels guard).map (!·)

/-- The verdicts of a conjunction, from the left up to the first that is not true. -/
def verdictAll (f : Facts) (levels : Nat) : List Guard → Option Bool
  | [] => some true
  | g :: rest => match verdict f levels g with
    | some true => verdictAll f levels rest
    | other => other

/-- The verdicts of a disjunction, from the left up to the first that is not false. -/
def verdictAny (f : Facts) (levels : Nat) : List Guard → Option Bool
  | [] => some false
  | g :: rest => match verdict f levels g with
    | some false => verdictAny f levels rest
    | other => other

end

/-- **Whether a guard holds.** It fails when a part that lies too deep is needed. -/
def holds (g : Guard) (f : Facts) : Bool := (verdict f (maxDepth + 1) g).getD false

/-- **Whether all guards of a list hold**, each looked at for itself. -/
def allHold (guards : List Guard) (f : Facts) : Bool := guards.all (·.holds f)

theorem holds_compare (op : Comparison) (path : String) (literal : Literal) (f : Facts) :
    holds (.compare op path literal) f = (f.resolve path).any (op.relates · literal) := by
  show comparisonHolds f op path literal = _
  unfold comparisonHolds
  cases f.resolve path <;> rfl

theorem holds_oneOf (path : String) (candidates : List Literal) (f : Facts) :
    holds (.oneOf path candidates) f = (f.resolve path).any (candidates.any ·.agrees) := by
  show membershipHolds f path candidates = _
  unfold membershipHolds
  cases f.resolve path <;> rfl

/-- A list of guards holds when each of them does. -/
theorem allHold_iff {guards : List Guard} {f : Facts} :
    allHold guards f = true ↔ ∀ g ∈ guards, g.holds f = true :=
  List.all_eq_true

end Guard

end Questline
