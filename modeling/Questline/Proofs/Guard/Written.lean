import Questline.Document.Guard
import Questline.Proofs.Json.Fields

/-! # Written guards

A guard is an object with one key, its operator, and this is the only form it has. So a guard is
read from what is written of it, as long as its literals are finite: an infinite one has no numeral.

* `Guard.literals`: the literals inside a guard.
* `Guard.ofJson?_eq_some_iff`: the values that are read as a guard, by its operator.
* `Guard.ofJson?_toJson`: a guard with finite literals is read back.
* `Guard.finite_of_ofJson?`: the literals of documents are finite.
* `Guard.keeps`: guards that are read are kept. -/

namespace Questline

variable {j : Json}

namespace Literal

variable {l : Literal}

/-- A literal that is finite, or no floating point number. -/
def Finite : Literal → Prop
  | .float x => x.isFinite = true
  | _ => True

theorem ofJson?_toJson (h : l.Finite) : ofJson? l.toJson = some l := by
  cases l with
  | int i => rw [toJson, ofJson?, if_pos (Json.fitsInt64_toInt i), Int64.ofInt_toInt]
  | float x =>
    have hnumber : Json.ofBinary64 x = .float x := if_pos h
    rw [toJson, hnumber, ofJson?]
  | _ => rfl

theorem finite_of_ofJson? (hj : j.InRange) (h : ofJson? j = some l) : l.Finite := by
  unfold ofJson? at h
  split at h
  · cases h
    trivial
  · rename_i i
    split at h
    · cases h
      trivial
    · cases h
      have hword := hj (.int i) (List.mem_singleton_self _)
      exact Binary64.isFinite_ofInt (by simp only [Json.LeafInRange] at hword; omega)
  · rename_i x
    cases h
    exact hj (.float x) (List.mem_singleton_self _)
  · cases h
    trivial
  · cases h

theorem writable_toJson (l : Literal) : l.toJson.Writable := by
  cases l with
  | bool b => exact Json.writable_leaf rfl trivial rfl
  | int i => exact Json.writable_ofInt64 i
  | float x => exact Json.writable_ofBinary64 x
  | text s => exact Json.writable_str s

theorem nesting_toJson (l : Literal) : l.toJson.nesting = 0 := by
  cases l with
  | float x => exact Json.nesting_ofBinary64 x
  | _ => rfl

end Literal

theorem Comparison.name_of_ofName? {s : String} {c : Comparison} (h : ofName? s = some c) :
    c.name = s := by
  unfold ofName? at h
  split at h <;> cases h <;> rfl

namespace Guard

variable {g : Guard}

mutual

/-- The literals inside a guard. -/
def literals : Guard → List Literal
  | .compare _ _ literal => [literal]
  | .oneOf _ candidates => candidates
  | .flag _ _ _ => []
  | .all guards => literalsList guards
  | .any guards => literalsList guards
  | .not guard => literals guard

/-- The literals inside guards, one guard after the other. -/
def literalsList : List Guard → List Literal
  | [] => []
  | g :: rest => literals g ++ literalsList rest

end

theorem literalsList_eq_flatMap (gs : List Guard) : literalsList gs = gs.flatMap literals := by
  induction gs with
  | nil => rfl
  | cons g rest ih => rw [literalsList, ih, List.flatMap_cons]

/-- **All literals inside a guard are finite.** -/
def Finite (g : Guard) : Prop := ∀ l ∈ g.literals, l.Finite

theorem finite_all {gs : List Guard} : Finite (.all gs) ↔ ∀ g ∈ gs, Finite g := by
  rw [Finite, literals, literalsList_eq_flatMap, List.forall_mem_flatMap]
  rfl

theorem finite_any {gs : List Guard} : Finite (.any gs) ↔ ∀ g ∈ gs, Finite g := by
  rw [Finite, literals, literalsList_eq_flatMap, List.forall_mem_flatMap]
  rfl

/-! ### Reading -/

theorem ofJsonList?_eq_mapM (items : List Json) : ofJsonList? items = items.mapM ofJson? := by
  induction items with
  | nil => rfl
  | cons v rest ih =>
    rw [ofJsonList?, ih, List.mapM_cons]
    cases ofJson? v <;> cases rest.mapM ofJson? <;> rfl

theorem toJsonList_eq_map (gs : List Guard) : toJsonList gs = gs.map toJson := by
  induction gs with
  | nil => rfl
  | cons g rest ih => rw [toJsonList, ih, List.map_cons]

/-- The form of the values that are read as a guard. -/
def FormOf (j : Json) : Guard → Prop
  | .compare op path literal =>
    ∃ v, j = .obj [(op.name, .arr [.str path, v])] ∧ Literal.ofJson? v = some literal
  | .oneOf path candidates =>
    ∃ v, j = .obj [("in", .arr [.str path, v])] ∧ v.list? Literal.ofJson? = some candidates
  | .flag space name expected => j = .obj [("flag", .arr [.str space, .str name, .bool expected])]
  | .all guards => ∃ items, j = .obj [("all", .arr items)] ∧ items.mapM ofJson? = some guards
  | .any guards => ∃ items, j = .obj [("any", .arr items)] ∧ items.mapM ofJson? = some guards
  | .not guard => ∃ v, j = .obj [("not", v)] ∧ ofJson? v = some guard

theorem formOf_of_leafOfJson? {op : String} {items : List Json}
    (h : leafOfJson? op items = some g) : FormOf (.obj [(op, .arr items)]) g := by
  unfold leafOfJson? at h
  split at h
  · rename_i path v
    split at h
    · rename_i hop
      obtain ⟨candidates, hread, rfl⟩ := Option.map_eq_some_iff.mp h
      exact ⟨v, by rw [hop], hread⟩
    · split at h
      · rename_i c hname
        obtain ⟨literal, hread, rfl⟩ := Option.map_eq_some_iff.mp h
        exact ⟨v, by rw [Comparison.name_of_ofName? hname], hread⟩
      · cases h
  · split at h
    · rename_i hop
      cases h
      rw [hop]
      rfl
    · cases h
  · cases h

/-- **The values that are read as a guard**, by its operator. -/
theorem ofJson?_eq_some_iff : ofJson? j = some g ↔ FormOf j g := by
  constructor
  · intro h
    unfold ofJson? at h
    split at h
    · rename_i op items
      split_ifs at h with hall hany
      · rw [ofJsonList?_eq_mapM] at h
        obtain ⟨gs, hread, rfl⟩ := Option.map_eq_some_iff.mp h
        exact ⟨items, by rw [hall], hread⟩
      · rw [ofJsonList?_eq_mapM] at h
        obtain ⟨gs, hread, rfl⟩ := Option.map_eq_some_iff.mp h
        exact ⟨items, by rw [hany], hread⟩
      · exact formOf_of_leafOfJson? h
    · rename_i op v _
      split_ifs at h with hnot
      obtain ⟨inner, hread, rfl⟩ := Option.map_eq_some_iff.mp h
      exact ⟨v, by rw [hnot], hread⟩
    · cases h
  · intro h
    cases g with
    | compare op path literal =>
      obtain ⟨v, rfl, hread⟩ := h
      cases op <;> simp [ofJson?, leafOfJson?, Comparison.name, Comparison.ofName?, hread]
    | oneOf path candidates =>
      obtain ⟨v, rfl, hread⟩ := h
      simp [ofJson?, leafOfJson?, hread]
    | flag space name expected =>
      cases h
      rfl
    | all gs =>
      obtain ⟨items, rfl, hread⟩ := h
      simp [ofJson?, ofJsonList?_eq_mapM, hread]
    | any gs =>
      obtain ⟨items, rfl, hread⟩ := h
      simp [ofJson?, ofJsonList?_eq_mapM, hread]
    | not inner =>
      obtain ⟨v, rfl, hread⟩ := h
      cases v with
      | obj fields => simp [ofJson?, hread]
      | _ => simp [ofJson?] at hread

theorem inRange_of_operand {op : String} {v : Json} (h : Json.InRange (.obj [(op, v)])) :
    v.InRange :=
  Json.inRange_obj.mp h _ List.mem_cons_self

theorem inRange_of_arguments {op : String} {args : List Json}
    (h : Json.InRange (.obj [(op, .arr args)])) : ∀ v ∈ args, v.InRange :=
  Json.inRange_arr.mp (inRange_of_operand h)

/-- **The literals of a document are finite.** -/
theorem finite_of_ofJson? (hj : j.InRange) (h : ofJson? j = some g) : g.Finite := by
  induction g generalizing j with
  | compare op path literal =>
    obtain ⟨v, rfl, hread⟩ := ofJson?_eq_some_iff.mp h
    have hv : v.InRange := inRange_of_arguments hj v (by simp)
    intro l hl
    cases List.mem_singleton.mp hl
    exact Literal.finite_of_ofJson? hv hread
  | oneOf path candidates =>
    obtain ⟨v, rfl, hread⟩ := ofJson?_eq_some_iff.mp h
    have hv : v.InRange := inRange_of_arguments hj v (by simp)
    intro l hl
    obtain ⟨w, hw, hread⟩ := Json.exists_mem_of_list? hread hl
    exact Literal.finite_of_ofJson? (hv.of_mem_children hw) hread
  | flag space name expected => exact fun l hl => absurd hl List.not_mem_nil
  | all gs ih =>
    obtain ⟨items, rfl, hread⟩ := ofJson?_eq_some_iff.mp h
    refine finite_all.mpr fun g hg => ?_
    obtain ⟨v, hv, hread⟩ := Json.mem_of_mapM_eq_some hread hg
    exact ih g hg (inRange_of_arguments hj v hv) hread
  | any gs ih =>
    obtain ⟨items, rfl, hread⟩ := ofJson?_eq_some_iff.mp h
    refine finite_any.mpr fun g hg => ?_
    obtain ⟨v, hv, hread⟩ := Json.mem_of_mapM_eq_some hread hg
    exact ih g hg (inRange_of_arguments hj v hv) hread
  | not inner ih =>
    obtain ⟨v, rfl, hread⟩ := ofJson?_eq_some_iff.mp h
    exact ih (inRange_of_operand hj) hread

/-! ### Writing -/

/-- **A guard with finite literals is read back.** -/
theorem ofJson?_toJson (h : g.Finite) : ofJson? g.toJson = some g := by
  induction g with
  | compare op path literal =>
    have hliteral : literal.Finite := h literal List.mem_cons_self
    exact ofJson?_eq_some_iff.mpr ⟨_, rfl, Literal.ofJson?_toJson hliteral⟩
  | oneOf path candidates =>
    have hread : Json.list? Literal.ofJson? (.ofList Literal.toJson candidates) = some candidates :=
      Json.list?_ofList fun l hl => Literal.ofJson?_toJson (h l hl)
    exact ofJson?_eq_some_iff.mpr ⟨_, rfl, hread⟩
  | flag space name expected => rfl
  | all gs ih =>
    have hread : Json.list? ofJson? (.ofList toJson gs) = some gs :=
      Json.list?_ofList fun g hg => ih g hg (finite_all.mp h g hg)
    exact ofJson?_eq_some_iff.mpr ⟨_, by rw [toJson, toJsonList_eq_map], hread⟩
  | any gs ih =>
    have hread : Json.list? ofJson? (.ofList toJson gs) = some gs :=
      Json.list?_ofList fun g hg => ih g hg (finite_any.mp h g hg)
    exact ofJson?_eq_some_iff.mpr ⟨_, by rw [toJson, toJsonList_eq_map], hread⟩
  | not inner ih => exact ofJson?_eq_some_iff.mpr ⟨_, rfl, ih h⟩

theorem writable_toJson (g : Guard) : g.toJson.Writable := by
  induction g with
  | compare op path literal =>
    simp [toJson, Json.writable_obj, Json.writable_arr, Json.writable_str, literal.writable_toJson]
  | oneOf path candidates =>
    simp [toJson, Json.ofList, Json.writable_obj, Json.writable_arr, Json.writable_str,
      Literal.writable_toJson]
  | flag space name expected =>
    have hbool : (Json.bool expected).Writable := Json.writable_leaf rfl trivial rfl
    simp [toJson, Json.writable_obj, Json.writable_arr, Json.writable_str, hbool]
  | all gs ih => simpa [toJson, toJsonList_eq_map, Json.writable_obj, Json.writable_arr] using ih
  | any gs ih => simpa [toJson, toJsonList_eq_map, Json.writable_obj, Json.writable_arr] using ih
  | not inner ih => simpa [toJson, Json.writable_obj] using ih

theorem nesting_toJsonList_le {items : List Json} {gs : List Guard}
    (hread : items.mapM ofJson? = some gs)
    (h : ∀ g ∈ gs, ∀ v, ofJson? v = some g → g.toJson.nesting ≤ v.nesting) :
    Json.nestingItems (toJsonList gs) ≤ Json.nestingItems items := by
  rw [toJsonList_eq_map, Json.nestingItems_le_iff]
  intro w hw
  obtain ⟨g, hg, rfl⟩ := List.mem_map.mp hw
  obtain ⟨v, hv, hread⟩ := Json.mem_of_mapM_eq_some hread hg
  calc g.toJson.nesting
      _ ≤ v.nesting := h g hg v hread
      _ ≤ Json.nestingItems items := Json.nestingItems_le_iff.mp (Nat.le_refl _) v hv

/-- What is written of a guard that was read is nested no deeper. -/
theorem nesting_toJson_le (h : ofJson? j = some g) : g.toJson.nesting ≤ j.nesting := by
  induction g generalizing j with
  | compare op path literal =>
    obtain ⟨v, rfl, -⟩ := ofJson?_eq_some_iff.mp h
    have hliteral := literal.nesting_toJson
    simp only [toJson, Json.nesting, Json.nestingFields, Json.nestingItems]
    omega
  | oneOf path candidates =>
    obtain ⟨v, rfl, hread⟩ := ofJson?_eq_some_iff.mp h
    have hlist : Json.nesting (.ofList Literal.toJson candidates) ≤ 1 :=
      Json.nesting_ofList_le fun l _ => Nat.le_of_eq l.nesting_toJson
    have hv : 0 < v.nesting := by
      cases v with
      | arr items => exact Nat.succ_pos _
      | _ => cases hread
    simp only [toJson, Json.nesting, Json.nestingFields, Json.nestingItems]
    omega
  | flag space name expected =>
    cases ofJson?_eq_some_iff.mp h
    exact Nat.le_refl _
  | all gs ih =>
    obtain ⟨items, rfl, hread⟩ := ofJson?_eq_some_iff.mp h
    have hitems := nesting_toJsonList_le hread fun g hg v hv => ih g hg hv
    simp only [toJson, Json.nesting, Json.nestingFields]
    omega
  | any gs ih =>
    obtain ⟨items, rfl, hread⟩ := ofJson?_eq_some_iff.mp h
    have hitems := nesting_toJsonList_le hread fun g hg v hv => ih g hg hv
    simp only [toJson, Json.nesting, Json.nestingFields]
    omega
  | not inner ih =>
    obtain ⟨v, rfl, hread⟩ := ofJson?_eq_some_iff.mp h
    have hinner := ih hread
    simp only [toJson, Json.nesting, Json.nestingFields]
    omega

/-- **A guard that is read is kept.** -/
theorem keeps : Json.Keeps ofJson? toJson := fun _ g hj h =>
  { reads := ofJson?_toJson (finite_of_ofJson? hj h)
    writable := g.writable_toJson
    nesting_le := nesting_toJson_le h }

end Guard

end Questline
