import Mathlib.Logic.Basic
import Questline.Proofs.Json.Values

/-! # The leaves of JSON values

A leaf of a value is a part of it that is neither an array nor an object. What can be said of a
value by its leaves alone, as that it is readable, does not change when keys are sorted, and holds
of every part.

* `Json.induction`: induction on values.
* `Json.leaves`, `Json.children`: all leaves of a value; the values directly inside it.
* `Json.readable_iff`: a value is readable when its leaves are.
* `Json.sortKeys_sortKeys`, `Json.leaves_sortKeys_subset`, `Json.nesting_sortKeys_le`: sorting keys.
* `Json.leaves_trimDepth`, `Json.nesting_trimDepth_le`: cutting what is nested too deep. -/

namespace Questline

namespace Dict

variable {α : Type} {entries : List (String × α)}

theorem mem_of_lookup_eq_some {key : String} {value : α} (h : entries.lookup key = some value) :
    (key, value) ∈ entries := by
  obtain ⟨front, back, rfl, -⟩ := List.lookup_eq_some_iff.mp h
  exact List.mem_append_cons_self

/-- The dictionary of a list holds entries of the list. -/
theorem mem_of_mem_entries_ofList {e : String × α} (h : e ∈ (ofList entries).entries) :
    e ∈ entries := by
  rw [← get?_eq_some_iff, get?_ofList] at h
  exact List.mem_reverse.mp (mem_of_lookup_eq_some h)

end Dict

namespace Json

/-- Induction on values: an array or an object takes what holds of all values inside. -/
@[elab_as_elim, induction_eliminator]
theorem induction {motive : Json → Prop} (null : motive .null) (bool : ∀ b, motive (.bool b))
    (int : ∀ i, motive (.int i)) (float : ∀ x, motive (.float x)) (str : ∀ s, motive (.str s))
    (arr : ∀ items, (∀ j ∈ items, motive j) → motive (.arr items))
    (obj : ∀ fields, (∀ e ∈ fields, motive e.2) → motive (.obj fields))
    (unreadable : motive .unreadable) : ∀ j, motive j
  | .null => null
  | .bool b => bool b
  | .int i => int i
  | .float x => float x
  | .str s => str s
  | .arr items => arr items fun j _ => induction null bool int float str arr obj unreadable j
  | .obj fields => obj fields fun e _ => induction null bool int float str arr obj unreadable e.2
  | .unreadable => unreadable
termination_by j => sizeOf j
decreasing_by
  · decreasing_trivial
  · rename_i hfield
    have hsize := List.sizeOf_lt_of_mem hfield
    have hpair : sizeOf e = 1 + sizeOf e.1 + sizeOf e.2 := rfl
    simp only [Json.obj.sizeOf_spec]
    omega

/-! ### Leaves and children -/

mutual

/-- The parts of a value that are neither arrays nor objects. -/
def leaves : Json → List Json
  | .arr items => leavesItems items
  | .obj fields => leavesFields fields
  | j => [j]

/-- The leaves of items. -/
def leavesItems : List Json → List Json
  | [] => []
  | j :: rest => leaves j ++ leavesItems rest

/-- The leaves of the values of fields. -/
def leavesFields : List (String × Json) → List Json
  | [] => []
  | (_, j) :: rest => leaves j ++ leavesFields rest

end

theorem leavesItems_eq_flatMap (items : List Json) : leavesItems items = items.flatMap leaves := by
  induction items with
  | nil => rfl
  | cons j rest ih => rw [leavesItems, ih, List.flatMap_cons]

theorem leavesFields_eq_flatMap (fields : List (String × Json)) :
    leavesFields fields = fields.flatMap fun e => leaves e.2 := by
  induction fields with
  | nil => rfl
  | cons e rest ih => rw [leavesFields, ih, List.flatMap_cons]

theorem mem_leaves_arr {items : List Json} {l : Json} :
    l ∈ leaves (.arr items) ↔ ∃ j ∈ items, l ∈ leaves j := by
  rw [leaves, leavesItems_eq_flatMap, List.mem_flatMap]

theorem mem_leaves_obj {fields : List (String × Json)} {l : Json} :
    l ∈ leaves (.obj fields) ↔ ∃ e ∈ fields, l ∈ leaves e.2 := by
  rw [leaves, leavesFields_eq_flatMap, List.mem_flatMap]

theorem forall_mem_leaves_arr {items : List Json} {P : Json → Prop} :
    (∀ l ∈ leaves (.arr items), P l) ↔ ∀ j ∈ items, ∀ l ∈ leaves j, P l := by
  rw [leaves, leavesItems_eq_flatMap, List.forall_mem_flatMap]

theorem forall_mem_leaves_obj {fields : List (String × Json)} {P : Json → Prop} :
    (∀ l ∈ leaves (.obj fields), P l) ↔ ∀ e ∈ fields, ∀ l ∈ leaves e.2, P l := by
  rw [leaves, leavesFields_eq_flatMap, List.forall_mem_flatMap]

/-- The values directly inside a value. -/
def children : Json → List Json
  | .arr items => items
  | .obj fields => fields.map Prod.snd
  | _ => []

variable {j v : Json}

theorem leaves_subset_of_mem_children (h : v ∈ j.children) : v.leaves ⊆ j.leaves := by
  intro l hl
  cases j with
  | arr items => exact mem_leaves_arr.mpr ⟨v, h, hl⟩
  | obj fields =>
    obtain ⟨e, he, rfl⟩ := List.mem_map.mp h
    exact mem_leaves_obj.mpr ⟨e, he, hl⟩
  | _ => cases h

theorem nesting_lt_of_mem_children (h : v ∈ j.children) : v.nesting < j.nesting := by
  cases j with
  | arr items => exact Nat.lt_succ_of_le (nestingItems_le_iff.mp (Nat.le_refl _) v h)
  | obj fields =>
    obtain ⟨e, he, rfl⟩ := List.mem_map.mp h
    exact Nat.lt_succ_of_le (nestingFields_le_iff.mp (Nat.le_refl _) e he)
  | _ => cases h

/-! ### Readable values -/

theorem readableItems_iff {items : List Json} :
    readableItems items = true ↔ ∀ j ∈ items, readable j = true := by
  induction items with
  | nil => simp [readableItems]
  | cons j rest ih => rw [readableItems, Bool.and_eq_true, ih, List.forall_mem_cons]

theorem readableFields_iff {fields : List (String × Json)} :
    readableFields fields = true ↔ ∀ e ∈ fields, readable e.2 = true := by
  induction fields with
  | nil => simp [readableFields]
  | cons e rest ih => rw [readableFields, Bool.and_eq_true, ih, List.forall_mem_cons]

/-- **A value is readable when its leaves are.** -/
theorem readable_iff : readable j = true ↔ ∀ l ∈ j.leaves, readable l = true := by
  induction j with
  | arr items ih =>
    rw [readable, readableItems_iff, forall_mem_leaves_arr]
    exact forall₂_congr ih
  | obj fields ih =>
    rw [readable, readableFields_iff, forall_mem_leaves_obj]
    exact forall₂_congr ih
  | _ => simp [leaves]

/-! ### Sorted keys -/

theorem sortKeysItems_eq_map (items : List Json) : sortKeysItems items = items.map sortKeys := by
  induction items with
  | nil => rfl
  | cons j rest ih => rw [sortKeysItems, ih, List.map_cons]

theorem sortKeysFields_eq_map (fields : List (String × Json)) :
    sortKeysFields fields = fields.map fun e => (e.1, sortKeys e.2) := by
  induction fields with
  | nil => rfl
  | cons e rest ih => rw [sortKeysFields, ih, List.map_cons]

/-- Every field of the sorted object is a field of the object, with its value sorted. -/
theorem exists_of_mem_sortKeys_obj {fields : List (String × Json)} {e : String × Json}
    (h : e ∈ (Dict.ofList (sortKeysFields fields)).entries) :
    ∃ e' ∈ fields, e = (e'.1, sortKeys e'.2) := by
  have hmem := Dict.mem_of_mem_entries_ofList h
  rw [sortKeysFields_eq_map, List.mem_map] at hmem
  obtain ⟨e', he', rfl⟩ := hmem
  exact ⟨e', he', rfl⟩

/-- **Sorted keys stay as they are.** -/
theorem sortKeys_sortKeys (j : Json) : j.sortKeys.sortKeys = j.sortKeys := by
  induction j with
  | arr items ih =>
    have hitems : (items.map sortKeys).map sortKeys = items.map sortKeys := by
      rw [List.map_map]
      exact List.map_congr_left ih
    simp only [sortKeys, sortKeysItems_eq_map, hitems]
  | obj fields ih =>
    have hentries : sortKeysFields (Dict.ofList (sortKeysFields fields)).entries =
        (Dict.ofList (sortKeysFields fields)).entries := by
      rw [sortKeysFields_eq_map]
      refine (List.map_congr_left fun e he => ?_).trans (List.map_id' _)
      obtain ⟨e', he', rfl⟩ := exists_of_mem_sortKeys_obj he
      rw [ih e' he']
    simp only [sortKeys]
    rw [hentries, Dict.ofList_entries]
  | _ => rfl

theorem leaves_sortKeys_subset (j : Json) : j.sortKeys.leaves ⊆ j.leaves := by
  induction j with
  | arr items ih =>
    intro l hl
    rw [sortKeys, sortKeysItems_eq_map, mem_leaves_arr] at hl
    obtain ⟨_, hmem, hl⟩ := hl
    obtain ⟨i, hi, rfl⟩ := List.mem_map.mp hmem
    exact mem_leaves_arr.mpr ⟨i, hi, ih i hi hl⟩
  | obj fields ih =>
    intro l hl
    rw [sortKeys, mem_leaves_obj] at hl
    obtain ⟨e, he, hl⟩ := hl
    obtain ⟨e', he', rfl⟩ := exists_of_mem_sortKeys_obj he
    exact mem_leaves_obj.mpr ⟨e', he', ih e' he' hl⟩
  | _ => exact List.Subset.refl _

theorem nesting_sortKeys_le (j : Json) : j.sortKeys.nesting ≤ j.nesting := by
  induction j with
  | arr items ih =>
    rw [sortKeys, sortKeysItems_eq_map, nesting, nesting, Nat.add_le_add_iff_right,
      nestingItems_le_iff]
    intro _ hmem
    obtain ⟨i, hi, rfl⟩ := List.mem_map.mp hmem
    exact Nat.le_trans (ih i hi) (nestingItems_le_iff.mp (Nat.le_refl _) i hi)
  | obj fields ih =>
    rw [sortKeys, nesting, nesting, Nat.add_le_add_iff_right, nestingFields_le_iff]
    intro e he
    obtain ⟨e', he', rfl⟩ := exists_of_mem_sortKeys_obj he
    exact Nat.le_trans (ih e' he') (nestingFields_le_iff.mp (Nat.le_refl _) e' he')
  | _ => exact Nat.le_refl _

/-! ### Limited depth -/

theorem trimDepthItems_eq_map (limit : Nat) (items : List Json) :
    trimDepthItems limit items = items.map (trimDepth limit) := by
  induction items with
  | nil => rfl
  | cons j rest ih => rw [trimDepthItems, ih, List.map_cons]

theorem trimDepthFields_eq_map (limit : Nat) (fields : List (String × Json)) :
    trimDepthFields limit fields = fields.map fun e => (e.1, trimDepth limit e.2) := by
  induction fields with
  | nil => rfl
  | cons e rest ih => rw [trimDepthFields, ih, List.map_cons]

theorem leaves_trimDepth {l : Json} (limit : Nat) (h : l ∈ (j.trimDepth limit).leaves) :
    l ∈ j.leaves ∨ l = .unreadable := by
  induction j generalizing limit with
  | arr items ih =>
    cases limit with
    | zero => exact .inr (List.mem_singleton.mp h)
    | succ limit =>
      rw [trimDepth, trimDepthItems_eq_map, mem_leaves_arr] at h
      obtain ⟨_, hmem, hl⟩ := h
      obtain ⟨i, hi, rfl⟩ := List.mem_map.mp hmem
      exact (ih i hi limit hl).imp_left fun hl => mem_leaves_arr.mpr ⟨i, hi, hl⟩
  | obj fields ih =>
    cases limit with
    | zero => exact .inr (List.mem_singleton.mp h)
    | succ limit =>
      rw [trimDepth, trimDepthFields_eq_map, mem_leaves_obj] at h
      obtain ⟨_, hmem, hl⟩ := h
      obtain ⟨e, he, rfl⟩ := List.mem_map.mp hmem
      exact (ih e he limit hl).imp_left fun hl => mem_leaves_obj.mpr ⟨e, he, hl⟩
  | _ => exact .inl h

theorem nesting_trimDepth_le (limit : Nat) (j : Json) : (j.trimDepth limit).nesting ≤ limit := by
  induction j generalizing limit with
  | arr items ih =>
    cases limit with
    | zero => exact Nat.le_refl 0
    | succ limit =>
      rw [trimDepth, trimDepthItems_eq_map, nesting, Nat.add_le_add_iff_right, nestingItems_le_iff]
      intro _ hmem
      obtain ⟨i, hi, rfl⟩ := List.mem_map.mp hmem
      exact ih i hi limit
  | obj fields ih =>
    cases limit with
    | zero => exact Nat.le_refl 0
    | succ limit =>
      rw [trimDepth, trimDepthFields_eq_map, nesting, Nat.add_le_add_iff_right,
        nestingFields_le_iff]
      intro _ hmem
      obtain ⟨e, he, rfl⟩ := List.mem_map.mp hmem
      exact ih e he limit
  | _ => exact Nat.zero_le limit

theorem trimDepth_eq_bool_iff {limit : Nat} {b : Bool} :
    j.trimDepth limit = .bool b ↔ j = .bool b := by
  cases j with
  | arr items => cases limit <;> simp [trimDepth]
  | obj fields => cases limit <;> simp [trimDepth]
  | _ => simp [trimDepth]

/-- **Only what is nested too deep** is made unreadable. -/
theorem readable_trimDepth_iff {limit : Nat} :
    (j.trimDepth limit).readable = true ↔ j.readable = true ∧ j.nesting ≤ limit := by
  induction j generalizing limit with
  | arr items ih =>
    cases limit with
    | zero => simp [trimDepth, readable, nesting]
    | succ limit =>
      rw [trimDepth, trimDepthItems_eq_map, readable, readable, nesting, readableItems_iff,
        readableItems_iff, Nat.add_le_add_iff_right, nestingItems_le_iff, List.forall_mem_map,
        ← forall₂_and]
      exact forall₂_congr fun i hi => ih i hi
  | obj fields ih =>
    cases limit with
    | zero => simp [trimDepth, readable, nesting]
    | succ limit =>
      rw [trimDepth, trimDepthFields_eq_map, readable, readable, nesting, readableFields_iff,
        readableFields_iff, Nat.add_le_add_iff_right, nestingFields_le_iff, List.forall_mem_map,
        ← forall₂_and]
      exact forall₂_congr fun e he => ih e he
  | _ => simp [trimDepth, nesting]

end Json

end Questline
