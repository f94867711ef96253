import Questline.Guard.Verdict

/-! # Kinds

Literals are of three kinds: truth values, numbers and texts. Values of different kinds neither
agree nor stand in an order, so across kinds only the denial of agreement holds, and membership
looks past the candidates that are not of the value's kind.

* `Literal.kind`: the kind of a literal. `Literal.agrees_of_kind_ne`: different kinds do not agree.
* `Comparison.relates_of_kind_ne`: what a comparison says across kinds.
* `Guard.guards_across_kinds`: what guards say across kinds. Not all of them fail:
  `Guard.unequal_across_kinds`. -/

namespace Questline

namespace Literal

/-- The kinds of literals. -/
inductive Kind where
  | truth
  | number
  | text
deriving DecidableEq

/-- **The kind of a literal.** Integers and floating point numbers are of one kind. -/
def kind : Literal → Kind
  | .bool _ => .truth
  | .int _ => .number
  | .float _ => .number
  | .text _ => .text

variable {a b : Literal}

theorem number?_eq_none_iff : a.number? = none ↔ a.kind ≠ .number := by
  cases a <;> simp [number?, kind]

/-- One of two literals of different kinds is not a number. -/
theorem not_number_or_not_number (h : b.kind ≠ a.kind) : a.number? = none ∨ b.number? = none := by
  rw [number?_eq_none_iff, number?_eq_none_iff]
  by_cases ha : a.kind = .number
  · exact .inr (ha ▸ h)
  · exact .inl ha

theorem agrees_of_kind_ne (h : b.kind ≠ a.kind) : a.agrees b = false := by
  cases a with
  | bool _ =>
    cases b with
    | bool _ => exact absurd rfl h
    | _ => rfl
  | text _ =>
    cases b with
    | text _ => exact absurd rfl h
    | _ => rfl
  | _ =>
    -- integers and floating point numbers are of one kind
    cases b with
    | int _ => exact absurd rfl h
    | float _ => exact absurd rfl h
    | _ => rfl

end Literal

/-- **Across kinds** only the denial of agreement holds. -/
theorem Comparison.relates_of_kind_ne {a b : Literal} (h : b.kind ≠ a.kind) (op : Comparison) :
    op.relates a b = true ↔ op = .ne := by
  cases op with
  | eq => simp [relates, Literal.agrees_of_kind_ne h]
  | ne => simp [relates, Literal.agrees_of_kind_ne h]
  | _ =>
    -- the other comparisons need a number on both sides
    rcases Literal.not_number_or_not_number h with hnone | hnone <;> simp [relates, hnone]

namespace Guard

variable {f : Facts} {path : String} {a : Literal}

/-- Membership looks past the candidates of other kinds. -/
theorem holds_oneOf_filter_kind (h : f.resolve path = some a) (candidates : List Literal) :
    holds (.oneOf path candidates) f =
      holds (.oneOf path (candidates.filter fun b => b.kind = a.kind)) f := by
  rw [holds_oneOf, holds_oneOf, h, Option.any_some, Option.any_some, List.any_filter]
  refine congrArg candidates.any (funext fun b => ?_)
  by_cases hkind : b.kind = a.kind
  · simp [hkind]
  · simp [hkind, Literal.agrees_of_kind_ne hkind]

/-- **What guards say across kinds.** Of the six comparisons of a value with a literal of another
kind, `ne` holds and the others fail. Membership asks the candidates of the value's own kind only,
so it fails if there are none. -/
theorem guards_across_kinds (h : f.resolve path = some a) :
    (∀ b : Literal, b.kind ≠ a.kind → ∀ op, holds (.compare op path b) f = true ↔ op = .ne) ∧
    (∀ candidates, holds (.oneOf path candidates) f =
      holds (.oneOf path (candidates.filter fun b => b.kind = a.kind)) f) ∧
    (∀ candidates : List Literal, (∀ b ∈ candidates, b.kind ≠ a.kind) →
      holds (.oneOf path candidates) f = false) := by
  refine ⟨fun b hkind op => ?_, holds_oneOf_filter_kind h, fun candidates hkinds => ?_⟩
  · rw [holds_compare, h, Option.any_some]
    exact op.relates_of_kind_ne hkind
  · have hnone : candidates.filter (fun b => b.kind = a.kind) = [] :=
      List.filter_eq_nil_iff.mpr fun b hb => by simpa using hkinds b hb
    rw [holds_oneOf_filter_kind h, hnone, holds_oneOf, h, Option.any_some, List.any_nil]

/-- Trust is a number: it is no text, however the two are compared, and it is found among candidates
of mixed kinds by its number only. -/
theorem guards_across_kinds_of_trust :
    let f := Facts.empty.add (.rel "kiera" "trust" 8)
    f.resolve "rel.kiera.trust" = some (.int 8) ∧
    (∀ op, holds (.compare op "rel.kiera.trust" (.text "high")) f = true ↔ op = .ne) ∧
    (∀ s b, holds (.oneOf "rel.kiera.trust" [.text s, .int 8, .bool b]) f =
      holds (.oneOf "rel.kiera.trust" [.int 8]) f) ∧
    ∀ s b, holds (.oneOf "rel.kiera.trust" [.text s, .bool b]) f = false := by
  intro f
  have htrust : f.resolve "rel.kiera.trust" = some (.int 8) := by decide
  obtain ⟨hcompare, hmember, hnone⟩ := guards_across_kinds htrust
  refine ⟨htrust, hcompare (.text "high") (by decide), fun s b => hmember _, fun s b => ?_⟩
  exact hnone _ (by simp [Literal.kind])

/-- Trust is not equal to a text, and the guard that says so holds. -/
theorem unequal_across_kinds :
    ¬ ∀ (f : Facts) (path : String) (a b : Literal) (op : Comparison),
      f.resolve path = some a → b.kind ≠ a.kind → holds (.compare op path b) f = false := by
  intro h
  have hfails := h (Facts.empty.add (.rel "kiera" "trust" 8)) "rel.kiera.trust" (.int 8)
    (.text "high") .ne (by decide) (by decide)
  revert hfails
  decide

end Guard

end Questline
