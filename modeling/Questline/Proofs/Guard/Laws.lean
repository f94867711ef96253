import Questline.Proofs.Guard.Kinds
import Questline.Proofs.Guard.Thresholds

/-! # Laws of comparisons

The guards that ask for the value of a path fit together. Membership is agreement with one of the
candidates. Nothing is said of a path without a value, not even that it differs. Two numbers that
are no `nan` stand in just one of the relations `lt`, `eq` and `gt`, integers or not, and the other
comparisons deny these. Whatever else is compared stands in no order.

* `Literal.Ordered`: a number that is no `nan`. `Literal.exists_place?_iff`: just such a literal has
  a place on the number line.
* `Comparison.relates_eq_ofInts`: literals compare as their places.
  `Comparison.existsUnique_ofInts`: places stand in one relation.
* `Comparison.relates_of_not_ordered`: what has no place stands in no order.
* `Guard.comparison_laws`: the laws of the guards. -/

namespace Questline

/-! ### Places -/

namespace Literal

variable {a : Literal}

/-- **A number that is no `nan`.** -/
def Ordered (a : Literal) : Prop := a.kind = .number ∧ a ≠ .float .nan

instance (a : Literal) : Decidable a.Ordered :=
  inferInstanceAs (Decidable (a.kind = .number ∧ a ≠ .float .nan))

/-- The place of a literal on the number line; what is no number and a `nan` have none. -/
def place? (a : Literal) : Option Int := a.number?.bind Binary64.key

/-- **A number that is no `nan` has a place,** and only such a number. -/
theorem exists_place?_iff : (∃ i, a.place? = some i) ↔ a.Ordered := by
  cases a with
  | int i => exact iff_of_true ⟨_, rfl⟩ ⟨rfl, by simp⟩
  | float x =>
    cases x with
    | nan => simp [place?, number?, Binary64.key, Ordered]
    | signed negative rank => exact iff_of_true ⟨_, rfl⟩ ⟨rfl, by simp⟩
  | _ => simp [place?, number?, Ordered, kind]

theorem place?_eq_none_iff : a.place? = none ↔ ¬a.Ordered := by
  rw [← exists_place?_iff, ← Option.isSome_iff_exists, Option.not_isSome_iff_eq_none]

end Literal

namespace Comparison

variable {a b : Literal} {op : Comparison} {i j : Int}

/-! ### Relations -/

/-- The comparison that says the opposite for numbers. -/
def denial : Comparison → Comparison
  | .eq => .ne
  | .ne => .eq
  | .gt => .lte
  | .lt => .gte
  | .gte => .lt
  | .lte => .gt

/-- The relation in which two places stand. -/
def between (i j : Int) : Comparison := if i < j then .lt else if i = j then .eq else .gt

theorem between_mem (i j : Int) : between i j ∈ [lt, eq, gt] := by
  unfold between
  split_ifs <;> simp

theorem ofInts_iff_eq_between (h : op ∈ [lt, eq, gt]) :
    op.ofInts i j = true ↔ op = between i j := by
  simp only [List.mem_cons, List.not_mem_nil, or_false] at h
  unfold between
  rcases h with rfl | rfl | rfl <;> simp only [ofInts, decide_eq_true_eq] <;> split_ifs <;>
    simp <;> omega

/-- **Places stand in one relation.** -/
theorem existsUnique_ofInts (i j : Int) : ∃! op, op ∈ [lt, eq, gt] ∧ op.ofInts i j = true :=
  ⟨between i j, ⟨between_mem i j, (ofInts_iff_eq_between (between_mem i j)).mpr rfl⟩,
    fun _ h => (ofInts_iff_eq_between h.1).mp h.2⟩

theorem ofInts_denial (op : Comparison) (i j : Int) :
    op.denial.ofInts i j = !op.ofInts i j := by
  cases op <;> simp only [denial, ofInts, ← decide_not, decide_eq_decide] <;> omega

/-- **Literals compare as their places.** -/
theorem relates_eq_ofInts (ha : a.place? = some i) (hb : b.place? = some j) (op : Comparison) :
    op.relates a b = op.ofInts i j := by
  obtain ⟨x, hx, hi⟩ := Option.bind_eq_some_iff.mp ha
  obtain ⟨y, hy, hj⟩ := Option.bind_eq_some_iff.mp hb
  rw [← op.ofNumbers_eq_ofInts hi hj]
  cases op <;> simp only [relates, Literal.agrees, hx, hy, ofNumbers]

theorem ofNumbers_of_key_eq_none {x y : Binary64} (h : x.key = none ∨ y.key = none)
    (hop : op ∈ [gt, lt, gte, lte]) : op.ofNumbers x y = false := by
  simp only [List.mem_cons, List.not_mem_nil, or_false] at hop
  rcases hop with rfl | rfl | rfl | rfl
  all_goals
    simp only [ofNumbers, Binary64.lt, Binary64.le]
    split
    · rename_i hx hy
      simp [hx, hy] at h
    · rfl

/-- The comparisons that ask for an order look at numbers only. -/
theorem relates_of_mem (hop : op ∈ [gt, lt, gte, lte]) :
    op.relates a b = true ↔
      ∃ x y, a.number? = some x ∧ b.number? = some y ∧ op.ofNumbers x y = true := by
  simp only [List.mem_cons, List.not_mem_nil, or_false] at hop
  cases hx : a.number? <;> cases hy : b.number? <;>
    rcases hop with rfl | rfl | rfl | rfl <;> simp [relates, hx, hy]

/-- **What has no place stands in no order.** -/
theorem relates_of_not_ordered (h : ¬(a.Ordered ∧ b.Ordered)) (hop : op ∈ [gt, lt, gte, lte]) :
    op.relates a b = false := by
  rw [← Bool.not_eq_true, relates_of_mem hop]
  rintro ⟨x, y, hx, hy, hnumbers⟩
  have hkeys : x.key = none ∨ y.key = none := by
    rw [not_and_or, ← Literal.place?_eq_none_iff, ← Literal.place?_eq_none_iff] at h
    simpa only [Literal.place?, hx, hy, Option.bind_some] using h
  rw [ofNumbers_of_key_eq_none hkeys hop] at hnumbers
  cases hnumbers

end Comparison

namespace Guard

variable {f : Facts} {path : String} {a b : Literal}

theorem holds_compare_of_resolve (h : f.resolve path = some a) (op : Comparison) (b : Literal) :
    holds (.compare op path b) f = op.relates a b := by
  rw [holds_compare, h, Option.any_some]

/-- Membership is agreement with one of the candidates. -/
theorem holds_oneOf_iff {candidates : List Literal} :
    holds (.oneOf path candidates) f = true ↔
      ∃ b ∈ candidates, holds (.compare .eq path b) f = true := by
  simp only [holds_oneOf, holds_compare]
  cases f.resolve path with
  | none => simp
  | some a => exact List.any_eq_true

/-- **The laws of comparisons.** -/
theorem comparison_laws (f : Facts) (path : String) :
    (∀ candidates, holds (.oneOf path candidates) f = true ↔
      ∃ b ∈ candidates, holds (.compare .eq path b) f = true) ∧
    (f.resolve path = none →
      (∀ op b, holds (.compare op path b) f = false) ∧
      ∀ candidates, holds (.oneOf path candidates) f = false) ∧
    (∀ a b : Literal, f.resolve path = some a → a.Ordered → b.Ordered →
      (∃! op, op ∈ [.lt, .eq, .gt] ∧ holds (.compare op path b) f = true) ∧
      ∀ op, holds (.compare op.denial path b) f = !holds (.compare op path b) f) ∧
    ∀ a b : Literal, f.resolve path = some a → ¬(a.Ordered ∧ b.Ordered) →
      ∀ op ∈ [.gt, .lt, .gte, .lte], holds (.compare op path b) f = false := by
  refine ⟨fun candidates => holds_oneOf_iff, fun hnone => ⟨fun op b => ?_, fun candidates => ?_⟩,
    fun a b hvalue ha hb => ?_, fun a b hvalue hplaces op hop => ?_⟩
  · rw [holds_compare, hnone, Option.any_none]
  · rw [holds_oneOf, hnone, Option.any_none]
  · obtain ⟨i, hi⟩ := Literal.exists_place?_iff.mpr ha
    obtain ⟨j, hj⟩ := Literal.exists_place?_iff.mpr hb
    simp only [holds_compare_of_resolve hvalue, Comparison.relates_eq_ofInts hi hj]
    exact ⟨Comparison.existsUnique_ofInts i j, fun op => op.ofInts_denial i j⟩
  · rw [holds_compare_of_resolve hvalue]
    exact Comparison.relates_of_not_ordered hplaces hop

/-- Trust is an integer: it stands in one relation to a floating point number, and in no order to a
`nan` or a text. A mood that nobody has noted is not even unlike a text. -/
theorem comparison_laws_of_trust :
    let f := Facts.empty.add (.rel "kiera" "trust" 8)
    let nine := Literal.float (.ofNat 9)
    (f.resolve "rel.kiera.trust" = some (.int 8) ∧ f.resolve "state.kiera.mood" = none ∧
      nine.Ordered ∧ ¬Literal.Ordered (.float .nan) ∧ ¬Literal.Ordered (.text "high")) ∧
    (∃! op, op ∈ [.lt, .eq, .gt] ∧ holds (.compare op "rel.kiera.trust" nine) f = true) ∧
    holds (.compare .gte "rel.kiera.trust" nine) f =
      !holds (.compare .lt "rel.kiera.trust" nine) f ∧
    (∀ b : Literal, b ∈ [.float .nan, .text "high"] →
      ∀ op ∈ [.gt, .lt, .gte, .lte], holds (.compare op "rel.kiera.trust" b) f = false) ∧
    ∀ op, holds (.compare op "state.kiera.mood" (.text "calm")) f = false := by
  intro f nine
  have htrust : f.resolve "rel.kiera.trust" = some (.int 8) := by decide
  have hmood : f.resolve "state.kiera.mood" = none := by decide
  have height : Literal.Ordered (.int 8) := by decide
  have hnine : nine.Ordered := Literal.exists_place?_iff.mp ⟨_, rfl⟩
  have hnan : ¬Literal.Ordered (.float .nan) := by decide
  have htext : ¬Literal.Ordered (.text "high") := by decide
  obtain ⟨-, -, hordered, hother⟩ := comparison_laws f "rel.kiera.trust"
  obtain ⟨hone, hdenial⟩ := hordered _ nine htrust height hnine
  refine ⟨⟨htrust, hmood, hnine, hnan, htext⟩, hone, hdenial .lt, fun b hb => ?_,
    fun op => ((comparison_laws f "state.kiera.mood").2.1 hmood).1 op _⟩
  refine hother _ b htrust fun hplaces => ?_
  rcases List.mem_cons.mp hb with rfl | hb
  · exact hnan hplaces.2
  · obtain rfl := List.mem_singleton.mp hb
    exact htext hplaces.2

end Guard

end Questline
