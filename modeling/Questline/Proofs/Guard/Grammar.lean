import Questline.Document.Text
import Questline.Proofs.Guard.Written

/-! # The grammar of guards

A guard is written as an object with one key, its operator, and the operator says what stands under
the key: a path and one literal, a path and several, two names and a truth value, several guards, or
one. Just the values of this form are read, and what is written of a guard that was read is the
value it was read from, but for integers that only floating point numbers can hold.

* `Json.IsScalar`, `Guard.Grammar`: the values that spell a literal, and those that spell a guard.
* `Json.narrow`: a value with its large integers as floating point numbers.
* `Guard.Misspelt`: values that are close to a guard and spell none.
* `Guard.isSome_ofJson?_iff`, `Guard.toJson_eq_narrow`: what is read, and what is then written.
* `Guard.ofText?_text`: a guard is read back from its text.
* `Guard.read_by_grammar`: all of this, and what is refused. -/

namespace Questline

namespace Json

/-! ### Values that spell something -/

/-- **A value that spells a literal:** a truth value, a number or a text. -/
def IsScalar : Json → Prop
  | .bool _ => True
  | .int _ => True
  | .float _ => True
  | .str _ => True
  | _ => False

mutual

/-- **The same value with every integer beyond 64 bits with a sign** as a floating point number. -/
def narrow : Json → Json
  | .int i => if fitsInt64 i then .int i else .float (Binary64.ofInt i)
  | .arr items => .arr (narrowItems items)
  | .obj fields => .obj (narrowFields fields)
  | j => j

/-- Items with their integers narrowed. -/
def narrowItems : List Json → List Json
  | [] => []
  | j :: rest => narrow j :: narrowItems rest

/-- Fields with the integers of their values narrowed. -/
def narrowFields : List (String × Json) → List (String × Json)
  | [] => []
  | (k, j) :: rest => (k, narrow j) :: narrowFields rest

end

theorem narrowItems_eq_map (items : List Json) : narrowItems items = items.map narrow := by
  induction items with
  | nil => rfl
  | cons j rest ih => rw [narrowItems, ih, List.map_cons]

end Json

variable {j v : Json}

namespace Literal

variable {l : Literal}

theorem isSome_ofJson?_iff : (ofJson? v).isSome = true ↔ v.IsScalar := by
  cases v with
  | int i =>
    rw [ofJson?]
    split <;> simp [Json.IsScalar]
  | _ => simp [ofJson?, Json.IsScalar]

/-- What is written of a literal that was read. -/
theorem toJson_eq_narrow (hj : j.InRange) (h : ofJson? j = some l) : l.toJson = j.narrow := by
  have hfinite := finite_of_ofJson? hj h
  unfold ofJson? at h
  split at h
  · cases h
    rfl
  · rename_i i
    rw [Json.narrow]
    split at h
    · rename_i hfits
      cases h
      have hbounds := hfits
      simp only [Json.fitsInt64, Bool.and_eq_true, decide_eq_true_eq] at hbounds
      rw [if_pos hfits, toJson, Int64.toInt_ofInt_of_le (by omega) (by omega)]
    · rename_i hfits
      cases h
      rw [if_neg hfits]
      exact if_pos hfinite
  · cases h
    exact if_pos hfinite
  · cases h
    rfl
  · cases h

end Literal

namespace Guard

variable {g : Guard}

/-- **A value that spells a guard.** -/
inductive Grammar : Json → Prop
  | compare (op : Comparison) (path : String) {v : Json} (hv : v.IsScalar) :
      Grammar (.obj [(op.name, .arr [.str path, v])])
  | oneOf (path : String) {vs : List Json} (hvs : ∀ v ∈ vs, v.IsScalar) :
      Grammar (.obj [("in", .arr [.str path, .arr vs])])
  | flag (space name : String) (expected : Bool) :
      Grammar (.obj [("flag", .arr [.str space, .str name, .bool expected])])
  | all {items : List Json} (hitems : ∀ j ∈ items, Grammar j) : Grammar (.obj [("all", .arr items)])
  | any {items : List Json} (hitems : ∀ j ∈ items, Grammar j) : Grammar (.obj [("any", .arr items)])
  | not {j : Json} (hj : Grammar j) : Grammar (.obj [("not", j)])

/-- The names of all operators. -/
def operators : List String :=
  ["eq", "ne", "gt", "lt", "gte", "lte", "in", "flag", "all", "any", "not"]

/-- How many arguments an operator takes, if it is one that takes a fixed number of them. -/
def arity? (op : String) : Option Nat :=
  if op = "flag" then some 3
  else if op = "in" ∨ (Comparison.ofName? op).isSome then some 2
  else none

/-- **A value that is close to a guard** and still spells none: it is no object with just one key,
the operator is unknown, an argument is missing or there is one too many, the guards to be combined
are no list, or a literal is null, an array or an object; or a guard inside is of this kind. -/
inductive Misspelt : Json → Prop
  | keys {j : Json} (hj : ∀ op v, j ≠ .obj [(op, v)]) : Misspelt j
  | operator {op : String} (hop : op ∉ operators) (v : Json) : Misspelt (.obj [(op, v)])
  | arity {op : String} {v : Json} {n : Nat} (hop : arity? op = some n)
      (hv : ∀ args, v = .arr args → args.length ≠ n) : Misspelt (.obj [(op, v)])
  | guards {op : String} {v : Json} (hop : op = "all" ∨ op = "any") (hv : ∀ items, v ≠ .arr items) :
      Misspelt (.obj [(op, v)])
  | literal (op : Comparison) (path : String) {v : Json} (hv : ¬v.IsScalar) :
      Misspelt (.obj [(op.name, .arr [.str path, v])])
  | candidate (path : String) {vs : List Json} {v : Json} (hmem : v ∈ vs) (hv : ¬v.IsScalar) :
      Misspelt (.obj [("in", .arr [.str path, .arr vs])])
  | all {items : List Json} {j : Json} (hmem : j ∈ items) (hj : Misspelt j) :
      Misspelt (.obj [("all", .arr items)])
  | any {items : List Json} {j : Json} (hmem : j ∈ items) (hj : Misspelt j) :
      Misspelt (.obj [("any", .arr items)])
  | not {j : Json} (hj : Misspelt j) : Misspelt (.obj [("not", j)])

/-! ### Reading, operator by operator -/

theorem ofJson?_compare (op : Comparison) (path : String) (v : Json) :
    ofJson? (.obj [(op.name, .arr [.str path, v])]) =
      (Literal.ofJson? v).map (.compare op path) := by
  cases op <;> rfl

theorem ofJson?_oneOf (path : String) (v : Json) :
    ofJson? (.obj [("in", .arr [.str path, v])]) =
      (v.list? Literal.ofJson?).map (.oneOf path) := rfl

theorem ofJson?_all (items : List Json) :
    ofJson? (.obj [("all", .arr items)]) = (Json.list? ofJson? (.arr items)).map .all := by
  rw [ofJson?, if_pos rfl, ofJsonList?_eq_mapM]
  rfl

theorem ofJson?_any (items : List Json) :
    ofJson? (.obj [("any", .arr items)]) = (Json.list? ofJson? (.arr items)).map .any := by
  rw [ofJson?, if_neg (by decide), if_pos rfl, ofJsonList?_eq_mapM]
  rfl

theorem ofJson?_not (v : Json) : ofJson? (.obj [("not", v)]) = (ofJson? v).map .not := by
  cases v with
  | arr items =>
    have hleaf : leafOfJson? "not" items = none := by
      unfold leafOfJson?
      split <;> rfl
    rw [ofJson?, if_neg (by decide), if_neg (by decide), hleaf]
    rfl
  | _ => rfl

/-! ### What is read -/

theorem grammar_of_ofJson? (h : ofJson? j = some g) : Grammar j := by
  induction g generalizing j with
  | compare op path literal =>
    obtain ⟨v, rfl, hread⟩ := ofJson?_eq_some_iff.mp h
    exact .compare op path (Literal.isSome_ofJson?_iff.mp (Option.isSome_of_eq_some hread))
  | oneOf path candidates =>
    obtain ⟨v, rfl, hread⟩ := ofJson?_eq_some_iff.mp h
    cases v with
    | arr vs =>
      have hall := Json.isSome_list?_iff.mp (Option.isSome_of_eq_some hread)
      exact .oneOf path fun v hv => Literal.isSome_ofJson?_iff.mp (hall v hv)
    | _ => cases hread
  | flag space name expected =>
    obtain rfl := ofJson?_eq_some_iff.mp h
    exact .flag space name expected
  | all gs ih =>
    obtain ⟨items, rfl, hread⟩ := ofJson?_eq_some_iff.mp h
    refine .all fun v hv => ?_
    obtain ⟨g, hg, hread⟩ := Json.exists_of_mapM_eq_some hread hv
    exact ih g hg hread
  | any gs ih =>
    obtain ⟨items, rfl, hread⟩ := ofJson?_eq_some_iff.mp h
    refine .any fun v hv => ?_
    obtain ⟨g, hg, hread⟩ := Json.exists_of_mapM_eq_some hread hv
    exact ih g hg hread
  | not g ih =>
    obtain ⟨v, rfl, hread⟩ := ofJson?_eq_some_iff.mp h
    exact .not (ih hread)

/-- **Just the values that spell a guard are read.** -/
theorem isSome_ofJson?_iff : (ofJson? j).isSome = true ↔ Grammar j := by
  constructor
  · intro h
    obtain ⟨g, hg⟩ := Option.isSome_iff_exists.mp h
    exact grammar_of_ofJson? hg
  · intro h
    induction h with
    | compare op path hv =>
      rw [ofJson?_compare, Option.isSome_map]
      exact Literal.isSome_ofJson?_iff.mpr hv
    | oneOf path hvs =>
      rw [ofJson?_oneOf, Option.isSome_map, Json.isSome_list?_iff]
      exact fun v hv => Literal.isSome_ofJson?_iff.mpr (hvs v hv)
    | flag space name expected => rfl
    | all _ ih =>
      rw [ofJson?_all, Option.isSome_map, Json.isSome_list?_iff]
      exact ih
    | any _ ih =>
      rw [ofJson?_any, Option.isSome_map, Json.isSome_list?_iff]
      exact ih
    | not _ ih => rwa [ofJson?_not, Option.isSome_map]

/-- The only key of a guard is its operator. -/
theorem exists_operand (h : ofJson? j = some g) : ∃ v, j = .obj [(g.operator, v)] := by
  have hform := ofJson?_eq_some_iff.mp h
  cases g with
  | flag space name expected => exact ⟨_, hform⟩
  | _ =>
    obtain ⟨v, rfl, -⟩ := hform
    exact ⟨_, rfl⟩

theorem operator_mem_operators (g : Guard) : g.operator ∈ operators := by
  cases g with
  | compare op path literal => cases op <;> simp [operator, Comparison.name, operators]
  | _ => simp [operator, operators]

/-- An operator that takes a fixed number of arguments has got them. -/
theorem exists_arguments {op : String} {n : Nat} (h : ofJson? (.obj [(op, v)]) = some g)
    (hop : arity? op = some n) : ∃ args, v = .arr args ∧ args.length = n := by
  have hform := ofJson?_eq_some_iff.mp h
  cases g with
  | compare c path literal =>
    obtain ⟨w, heq, -⟩ := hform
    cases heq
    have harity : arity? c.name = some 2 := by cases c <;> rfl
    exact ⟨_, rfl, Option.some.inj (harity.symm.trans hop)⟩
  | oneOf path candidates =>
    obtain ⟨w, heq, -⟩ := hform
    cases heq
    exact ⟨_, rfl, Option.some.inj hop⟩
  | flag space name expected =>
    cases hform
    exact ⟨_, rfl, Option.some.inj hop⟩
  | _ =>
    -- the other operators take no fixed number of arguments
    obtain ⟨w, heq, -⟩ := hform
    cases heq
    cases hop

/-- Guards that are combined come as a list. -/
theorem exists_items {op : String} (h : ofJson? (.obj [(op, v)]) = some g)
    (hop : op = "all" ∨ op = "any") : ∃ items, v = .arr items := by
  cases v with
  | arr items => exact ⟨items, rfl⟩
  | _ => rcases hop with rfl | rfl <;> cases h

/-- **A misspelt guard is not read.** -/
theorem ofJson?_of_misspelt (h : Misspelt j) : ofJson? j = none := by
  rw [Option.eq_none_iff_forall_ne_some]
  intro g hg
  induction h generalizing g with
  | keys hj =>
    obtain ⟨v, heq⟩ := exists_operand hg
    exact hj _ v heq
  | operator hop v =>
    obtain ⟨w, heq⟩ := exists_operand hg
    cases heq
    exact hop g.operator_mem_operators
  | arity hop hv =>
    obtain ⟨args, heq, hlength⟩ := exists_arguments hg hop
    exact hv args heq hlength
  | guards hop hv =>
    obtain ⟨items, heq⟩ := exists_items hg hop
    exact hv items heq
  | literal op path hv =>
    rw [ofJson?_compare] at hg
    obtain ⟨l, hread, -⟩ := Option.map_eq_some_iff.mp hg
    exact hv (Literal.isSome_ofJson?_iff.mp (Option.isSome_of_eq_some hread))
  | candidate path hmem hv =>
    rw [ofJson?_oneOf] at hg
    obtain ⟨candidates, hread, -⟩ := Option.map_eq_some_iff.mp hg
    obtain ⟨l, -, hread⟩ := Json.exists_of_mapM_eq_some hread hmem
    exact hv (Literal.isSome_ofJson?_iff.mp (Option.isSome_of_eq_some hread))
  | all hmem _ ih =>
    rw [ofJson?_all] at hg
    obtain ⟨gs, hread, -⟩ := Option.map_eq_some_iff.mp hg
    obtain ⟨inner, -, hread⟩ := Json.exists_of_mapM_eq_some hread hmem
    exact ih inner hread
  | any hmem _ ih =>
    rw [ofJson?_any] at hg
    obtain ⟨gs, hread, -⟩ := Option.map_eq_some_iff.mp hg
    obtain ⟨inner, -, hread⟩ := Json.exists_of_mapM_eq_some hread hmem
    exact ih inner hread
  | not _ ih =>
    rw [ofJson?_not] at hg
    obtain ⟨inner, hread, -⟩ := Option.map_eq_some_iff.mp hg
    exact ih inner hread

/-! ### What is written -/

theorem toJsonList_eq_narrowItems {items : List Json} {gs : List Guard}
    (hitems : ∀ v ∈ items, v.InRange) (hread : items.mapM ofJson? = some gs)
    (h : ∀ g ∈ gs, ∀ v, v.InRange → ofJson? v = some g → g.toJson = v.narrow) :
    toJsonList gs = Json.narrowItems items := by
  rw [toJsonList_eq_map, Json.narrowItems_eq_map]
  exact Json.map_of_mapM_eq_some hread fun v hv g hg hread => h g hg v (hitems v hv) hread

/-- **What is written of a guard that was read** is the value it was read from. -/
theorem toJson_eq_narrow (hj : j.InRange) (h : ofJson? j = some g) : g.toJson = j.narrow := by
  induction g generalizing j with
  | compare op path literal =>
    obtain ⟨v, rfl, hread⟩ := ofJson?_eq_some_iff.mp h
    have hv : v.InRange := inRange_of_arguments hj v (by simp)
    simp only [toJson, Json.narrow, Json.narrowFields, Json.narrowItems,
      Literal.toJson_eq_narrow hv hread]
  | oneOf path candidates =>
    obtain ⟨v, rfl, hread⟩ := ofJson?_eq_some_iff.mp h
    have hv : v.InRange := inRange_of_arguments hj v (by simp)
    cases v with
    | arr vs =>
      have hwritten : candidates.map Literal.toJson = vs.map Json.narrow :=
        Json.map_of_mapM_eq_some hread fun w hw l _ hl =>
          Literal.toJson_eq_narrow (Json.inRange_arr.mp hv w hw) hl
      simp only [toJson, Json.narrow, Json.narrowFields, Json.narrowItems, Json.ofList, hwritten,
        Json.narrowItems_eq_map]
    | _ => cases hread
  | flag space name expected =>
    cases ofJson?_eq_some_iff.mp h
    rfl
  | all gs ih =>
    obtain ⟨items, rfl, hread⟩ := ofJson?_eq_some_iff.mp h
    simp only [toJson, Json.narrow, Json.narrowFields,
      toJsonList_eq_narrowItems (inRange_of_arguments hj) hread fun g hg v => ih g hg]
  | any gs ih =>
    obtain ⟨items, rfl, hread⟩ := ofJson?_eq_some_iff.mp h
    simp only [toJson, Json.narrow, Json.narrowFields,
      toJsonList_eq_narrowItems (inRange_of_arguments hj) hread fun g hg v => ih g hg]
  | not inner ih =>
    obtain ⟨v, rfl, hread⟩ := ofJson?_eq_some_iff.mp h
    simp only [toJson, Json.narrow, Json.narrowFields, ih (inRange_of_operand hj) hread]

/-- **A guard is read back from its text**, if its numbers are and it is not nested too deep. -/
theorem ofText?_text (hfinite : g.Finite)
    (hback : ∀ x, .float x ∈ g.toJson.leaves → x.isFinite = true → Json.ReadsBack x)
    (hnesting : g.toJson.nesting ≤ Json.nestingLimit) : ofText? g.text = some g := by
  have hprintable : Json.Printable g.toJson := Json.printable_of_writable g.writable_toJson hback
  rw [ofText?, text, Json.ofDocument?_text _ hprintable hnesting, Option.bind_some,
    ofJson?_toJson hfinite]

/-! ### All of the grammar -/

/-- **Guards are read by their grammar.** Just the values that spell a guard are read. What is
written of the guard that was read is the value again, with its large integers as floating point
numbers, and the only key of the value is the operator. A guard with finite literals is read back
from its value, literals of either kind of number as what they were, and so it is from its text. No
misspelt guard is read. -/
theorem read_by_grammar :
    (∀ j, (ofJson? j).isSome = true ↔ Grammar j) ∧
    (∀ j g, j.InRange → ofJson? j = some g →
      g.toJson = j.narrow ∧ ∃ v, j = .obj [(g.operator, v)]) ∧
    (∀ g : Guard, g.Finite → ofJson? g.toJson = some g ∧
      ((∀ x, .float x ∈ g.toJson.leaves → x.isFinite = true → Json.ReadsBack x) →
        g.toJson.nesting ≤ Json.nestingLimit → ofText? g.text = some g)) ∧
    ∀ j, Misspelt j → ofJson? j = none := by
  refine ⟨fun j => isSome_ofJson?_iff, ?_, ?_, fun j => ofJson?_of_misspelt⟩
  · intro j g hj h
    exact ⟨toJson_eq_narrow hj h, exists_operand h⟩
  · intro g hfinite
    exact ⟨ofJson?_toJson hfinite, ofText?_text hfinite⟩

/-- The least integer beyond 64 bits with a sign becomes a number, an integer and a number that are
equal stay apart, and null is no literal. -/
theorem read_by_grammar_of_hoard :
    let hoard := Binary64.ofInt 0x8000000000000000
    let j : Json := .obj [("not", .obj [("in", .arr [.str "currency.gold",
      .arr [.int 0x8000000000000000, .int 0, .float .zero]])])]
    let g : Guard := .not (.oneOf "currency.gold" [.float hoard, .int 0, .float .zero])
    let misspelt : Json := .obj [("all", .arr [.obj [("eq", .arr [.str "currency.gold", .null])]])]
    (j.InRange ∧ ofJson? j = some g ∧ g.toJson = j.narrow ∧ ∃ v, j = .obj [(g.operator, v)]) ∧
    (g.Finite ∧ (∀ x, .float x ∈ g.toJson.leaves → x.isFinite = true → Json.ReadsBack x) ∧
      g.toJson.nesting ≤ Json.nestingLimit ∧ ofJson? g.toJson = some g ∧ ofText? g.text = some g) ∧
    Misspelt misspelt ∧ ofJson? misspelt = none := by
  intro hoard j g misspelt
  have hreads : ofJson? j = some g := by rfl
  have hj : j.InRange := by
    have hzero : Binary64.zero.isFinite = true := rfl
    simp [j, Json.InRange, Json.leaves, Json.leavesFields, Json.leavesItems, Json.LeafInRange,
      hzero]
  have hfinite : g.Finite := finite_of_ofJson? hj hreads
  have hback : ∀ x, .float x ∈ g.toJson.leaves → x.isFinite = true → Json.ReadsBack x := by
    have hhoard : Json.ofBinary64 hoard = .float hoard := if_pos (by decide +kernel)
    have hzero : Json.ofBinary64 .zero = .float .zero := rfl
    intro x hx _
    simp only [g, toJson, Literal.toJson, Json.ofList, List.map_cons, List.map_nil, hhoard, hzero,
      Json.leaves, Json.leavesFields, Json.leavesItems, List.append_nil, List.cons_append,
      List.nil_append, List.mem_cons, reduceCtorEq, Json.float.injEq, List.not_mem_nil, false_or,
      or_false] at hx
    rcases hx with rfl | rfl
    · let n : Numeral := ⟨false, 9, [2, 2, 3, 3, 7, 2, 0, 3, 6, 8, 5, 4, 7, 7, 6], some 18⟩
      refine Json.readsBack_of_numeral n ?_ ?_ ?_ <;> decide +kernel
    · refine Json.readsBack_of_numeral ⟨false, 0, [0], none⟩ ?_ ?_ ?_ <;> decide +kernel
  have hnesting : g.toJson.nesting ≤ Json.nestingLimit := by decide +kernel
  have hmisspelt : Misspelt misspelt :=
    .all List.mem_cons_self (.literal .eq "currency.gold" fun hnull => hnull)
  obtain ⟨hvalue, htext⟩ := read_by_grammar.2.2.1 g hfinite
  exact ⟨⟨hj, hreads, read_by_grammar.2.1 j g hj hreads⟩,
    ⟨hfinite, hback, hnesting, hvalue, htext hback hnesting⟩,
    hmisspelt, read_by_grammar.2.2.2 misspelt hmisspelt⟩

end Guard

end Questline
