import Questline.Proofs.Decimal.Printed
import Questline.Proofs.Json.Fields

/-! # Values read back from their texts

What is read from the text of a value has the same shape. Texts and truth values stay; a finite
number may be taken for a neighbour or two, but stays a finite number; all else becomes null. So
nothing that is written is unreadable.

* `Json.rereadNumber`: a number as it is read back. `Json.reread_float`: a finite one stays finite.
* `Json.nesting_reread`, `Json.readable_reread`: what is writable is read back as something
  readable, nested as before.
* `Json.readBack`: a value inside a document that is read back, where it may be nested only so deep.
  `Json.ofDocument?_text_eq_readBack`, `Json.readable_readBack_iff`: documents are read back. -/

namespace Questline

namespace Json

variable {α : Type}

theorem rereadItems_eq_map (items : List Json) : rereadItems items = items.map reread := by
  induction items with
  | nil => rfl
  | cons j rest ih => rw [rereadItems, ih, List.map_cons]

theorem rereadFields_eq_map (fields : List (String × Json)) :
    rereadFields fields = fields.map fun e => (e.1, reread e.2) := by
  induction fields with
  | nil => rfl
  | cons e rest ih => rw [rereadFields, ih, List.map_cons]

/-! ### Numbers -/

/-- What the numeral of a number stands for is a leaf. -/
theorem nesting_ofNumeral (n : Numeral) : nesting (ofNumeral n) = 0 := by
  unfold ofNumeral
  split
  · rfl
  · split <;> rfl

/-- A number as it is read back. -/
def rereadNumber (x : Binary64) : Binary64 :=
  match reread (.float x) with
  | .float y => y
  | _ => x

/-- **A finite number is read back as a finite number.** -/
theorem reread_float {x : Binary64} (h : x.isFinite = true) :
    reread (.float x) = .float (rereadNumber x) ∧ (rereadNumber x).isFinite = true := by
  cases x with
  | nan => cases h
  | signed negative rank =>
    have hrank : rank.val < Binary64.infinityRank := of_decide_eq_true h
    obtain ⟨y, hy⟩ := Layout.exists_toBinary64?_numeral negative hrank
    have hword := Layout.toWord?_numeral negative rank.val
    have hread : reread (.float (.signed negative rank)) = .float y := by
      have htoken : numberToken (.signed negative rank) =
          .num (numberLayout.numeral negative rank.val) := if_pos hrank
      rw [reread, htoken]
      dsimp only
      rw [ofNumeral, hword, hy]
    rw [rereadNumber, hread]
    exact ⟨rfl, Numeral.isFinite_of_toBinary64? hy⟩

/-- A number that is not finite is read back as null. -/
theorem reread_float_eq_null {x : Binary64} (h : x.isFinite = false) :
    reread (.float x) = .null := by
  cases x with
  | nan => rfl
  | signed negative rank =>
    have hrank : ¬rank.val < Binary64.infinityRank := of_decide_eq_false h
    have htoken : numberToken (.signed negative rank) = .null := if_neg hrank
    rw [reread, htoken]

theorem reread_ofBinary64 (x : Binary64) : reread (ofBinary64 x) = ofBinary64 (rereadNumber x) := by
  cases h : x.isFinite with
  | true =>
    obtain ⟨hread, hfinite⟩ := reread_float h
    rw [ofBinary64, if_pos h, hread, ofBinary64, if_pos hfinite]
  | false =>
    have hsame : rereadNumber x = x := by rw [rereadNumber, reread_float_eq_null h]
    have hnull : ofBinary64 x = .null := if_neg (by simp [h])
    rw [hsame, hnull]
    rfl

/-! ### Values -/

theorem nesting_reread (j : Json) : j.reread.nesting = j.nesting := by
  induction j with
  | int i => exact nesting_ofNumeral _
  | float x =>
    rw [reread]
    split
    · exact nesting_ofNumeral _
    · rfl
  | arr items ih =>
    have hle : ∀ k, nestingItems (rereadItems items) ≤ k ↔ nestingItems items ≤ k := by
      intro k
      rw [rereadItems_eq_map, nestingItems_le_iff, nestingItems_le_iff, List.forall_mem_map]
      exact forall₂_congr fun i hi => by rw [ih i hi]
    rw [reread, nesting, nesting, eq_of_forall_ge_iff hle]
  | obj fields ih =>
    have hle : ∀ k, nestingFields (rereadFields fields) ≤ k ↔ nestingFields fields ≤ k := by
      intro k
      rw [rereadFields_eq_map, nestingFields_le_iff, nestingFields_le_iff, List.forall_mem_map]
      exact forall₂_congr fun e he => by rw [ih e he]
    rw [reread, nesting, nesting, eq_of_forall_ge_iff hle]
  | _ => rfl

/-- **What is writable is read back as something readable.** -/
theorem readable_reread {j : Json} (h : j.Writable) : j.reread.readable = true := by
  induction j with
  | int i =>
    have hword := (h _ (List.mem_singleton_self _)).1
    rw [reread, ofNumeral_ofInt hword]
    rfl
  | float x =>
    have hfinite := (h _ (List.mem_singleton_self _)).1
    rw [(reread_float hfinite).1]
    rfl
  | arr items ih =>
    rw [reread, rereadItems_eq_map, readable, readableItems_iff, List.forall_mem_map]
    exact fun i hi => ih i hi (writable_arr.mp h i hi)
  | obj fields ih =>
    rw [reread, rereadFields_eq_map, readable, readableFields_iff, List.forall_mem_map]
    exact fun e he => ih e he (writable_obj.mp h e he)
  | _ => rfl

theorem ofNumeral_ne_bool (n : Numeral) (b : Bool) : ofNumeral n ≠ .bool b := by
  unfold ofNumeral
  split
  · simp
  · split <;> simp

/-- Nothing but a truth value is read back as one. -/
theorem reread_eq_bool_iff {j : Json} {b : Bool} : j.reread = .bool b ↔ j = .bool b := by
  cases j with
  | int i => simp [reread, ofNumeral_ne_bool]
  | float x =>
    rw [reread]
    split <;> simp [ofNumeral_ne_bool]
  | _ => simp [reread]

/-! ### Documents -/

/-- A value as it is read back from a text in which it may be nested `depth` deep. -/
def readBack (depth : Nat) (j : Json) : Json := j.reread.trimDepth depth

/-- **What is read from the text of a document.** -/
theorem ofDocument?_text_eq_readBack (j : Json) :
    ofDocument? j.text = some (j.readBack nestingLimit) := by
  rw [ofDocument?, ofText?_text_eq_reread]
  rfl

theorem readBack_arr (depth : Nat) (items : List Json) :
    readBack (depth + 1) (.arr items) = .arr (items.map (readBack depth)) := by
  rw [readBack, reread, rereadItems_eq_map, trimDepth, trimDepthItems_eq_map, List.map_map]
  rfl

theorem readBack_obj (depth : Nat) (fields : List (String × Json)) :
    readBack (depth + 1) (.obj fields) = .obj (fields.map fun e => (e.1, readBack depth e.2)) := by
  rw [readBack, reread, rereadFields_eq_map, trimDepth, trimDepthFields_eq_map, List.map_map]
  rfl

@[simp]
theorem readBack_str (depth : Nat) (s : String) : readBack depth (.str s) = .str s := rfl

@[simp]
theorem readBack_ofBinary64 (depth : Nat) (x : Binary64) :
    readBack depth (ofBinary64 x) = ofBinary64 (rereadNumber x) := by
  have hnesting : (ofBinary64 (rereadNumber x)).nesting ≤ depth :=
    nesting_ofBinary64 _ ▸ Nat.zero_le depth
  rw [readBack, reread_ofBinary64, trimDepth_eq_self _ hnesting]

theorem readBack_ofList (depth : Nat) (write : α → Json) (items : List α) :
    readBack (depth + 1) (ofList write items) =
      .arr (items.map fun a => (write a).readBack depth) := by
  rw [ofList, readBack_arr, List.map_map]
  rfl

theorem readBack_eq_bool_iff {depth : Nat} {j : Json} {b : Bool} :
    j.readBack depth = .bool b ↔ j = .bool b :=
  trimDepth_eq_bool_iff.trans reread_eq_bool_iff

/-- **A value is read back readable when it is nested no deeper** than it may be. -/
theorem readable_readBack_iff {depth : Nat} {j : Json} (h : j.Writable) :
    (j.readBack depth).readable = true ↔ j.nesting ≤ depth := by
  rw [readBack, readable_trimDepth_iff, nesting_reread, and_iff_right (readable_reread h)]

end Json

end Questline
