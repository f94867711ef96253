import Questline.Guard.Literal

/-! # Guards

A guard is a condition on the facts of a game: comparisons of a path with literals, tests of flags,
and the combinators `all`, `any` and `not`.

* `Guard.operator`: the name of the outermost operator.
* `Guard.depth`: the largest number of combinators that any part lies under.
* `Guard.same`: equality of two guards as written. -/

namespace Questline

/-- How a path's value is compared with a literal. -/
inductive Comparison where
  | eq
  | ne
  | gt
  | lt
  | gte
  | lte
deriving DecidableEq

namespace Comparison

/-- The name of a comparison in a document. -/
def name : Comparison → String
  | .eq => "eq"
  | .ne => "ne"
  | .gt => "gt"
  | .lt => "lt"
  | .gte => "gte"
  | .lte => "lte"

/-- The comparison of a name. -/
def ofName? : String → Option Comparison
  | "eq" => some .eq
  | "ne" => some .ne
  | "gt" => some .gt
  | "lt" => some .lt
  | "gte" => some .gte
  | "lte" => some .lte
  | _ => none

/-- The sign of a comparison in a guard's text. -/
def sign : Comparison → String
  | .eq => "=="
  | .ne => "!="
  | .gt => ">"
  | .lt => "<"
  | .gte => ">="
  | .lte => "<="

@[simp] theorem ofName?_name (c : Comparison) : ofName? c.name = some c := by cases c <;> rfl

end Comparison

/-- A condition on the facts of a game. -/
inductive Guard where
  /-- The path's value stands in this relation to the literal. -/
  | compare (op : Comparison) (path : String) (literal : Literal)
  /-- The path's value agrees with one of the candidates. -/
  | oneOf (path : String) (candidates : List Literal)
  /-- The flag has the expected value. -/
  | flag (space name : String) (expected : Bool)
  | all (guards : List Guard)
  | any (guards : List Guard)
  | not (guard : Guard)

namespace Guard

instance : Inhabited Guard := ⟨.all []⟩

/-- Induction on guards: a combinator takes what holds of all its children. -/
@[elab_as_elim, induction_eliminator]
theorem induction {motive : Guard → Prop}
    (compare : ∀ op path literal, motive (.compare op path literal))
    (oneOf : ∀ path candidates, motive (.oneOf path candidates))
    (flag : ∀ space name expected, motive (.flag space name expected))
    (all : ∀ gs, (∀ g ∈ gs, motive g) → motive (.all gs))
    (any : ∀ gs, (∀ g ∈ gs, motive g) → motive (.any gs))
    (not : ∀ g, motive g → motive (.not g)) : ∀ g, motive g
  | .compare op path literal => compare op path literal
  | .oneOf path candidates => oneOf path candidates
  | .flag space name expected => flag space name expected
  | .all gs => all gs fun g _ => induction compare oneOf flag all any not g
  | .any gs => any gs fun g _ => induction compare oneOf flag all any not g
  | .not g => not g (induction compare oneOf flag all any not g)

/-- The name of the outermost operator. -/
def operator : Guard → String
  | .compare op _ _ => op.name
  | .oneOf _ _ => "in"
  | .flag _ _ _ => "flag"
  | .all _ => "all"
  | .any _ => "any"
  | .not _ => "not"

/-- How many combinators a part of a guard may lie under and still be looked at. -/
def maxDepth : Nat := 3

mutual

/-- The largest number of combinators that any part of the guard lies under. -/
def depth : Guard → Nat
  | .all guards => depthList guards
  | .any guards => depthList guards
  | .not guard => depth guard + 1
  | _ => 0

/-- The depth of a list of guards that stand under a combinator; none have depth zero. -/
def depthList : List Guard → Nat
  | [] => 0
  | g :: rest => max (depth g + 1) (depthList rest)

end

/-- Whether two lists hold the same literals in the same order. -/
def sameLiterals : List Literal → List Literal → Bool
  | [], [] => true
  | a :: as, b :: bs => a.same b && sameLiterals as bs
  | _, _ => false

mutual

/-- **Equality of two guards as written.** -/
def same : Guard → Guard → Bool
  | .compare op p a, .compare op' p' a' => op == op' && p == p' && a.same a'
  | .oneOf p cs, .oneOf p' cs' => p == p' && sameLiterals cs cs'
  | .flag s n b, .flag s' n' b' => s == s' && n == n' && b == b'
  | .all gs, .all gs' => sameList gs gs'
  | .any gs, .any gs' => sameList gs gs'
  | .not g, .not g' => same g g'
  | _, _ => false

/-- Whether two lists hold the same guards in the same order. -/
def sameList : List Guard → List Guard → Bool
  | [], [] => true
  | g :: gs, g' :: gs' => same g g' && sameList gs gs'
  | _, _ => false

end

end Guard

end Questline
