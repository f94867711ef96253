import Questline.Json.Record
import Questline.Json.RoundTrip

/-! # Written values read back

Lists and dictionaries are read back from their JSON when their members are, they are printable when
their members are, and they are nested one level deeper than their members.

* `Json.list?_ofList`, `Json.dict?_ofDict`, `Json.table?_ofTable`: what is written is read.
* `Json.binary64?_ofBinary64`: a number is read back if it is finite, else nothing is.
* `Json.record?_obj`: an object is a record of its fields.
* `Json.printable_ofList`, `Json.printable_ofDict`, `Json.printable_ofBinary64`: what can be
  printed.
* `Json.nesting_ofList_le`, `Json.nesting_ofDict_le`: how deep it is nested. -/

namespace Questline

/-- A key stands once if no key is repeated. -/
theorem Dict.length_filter_le_one {α : Type} {entries : List (String × α)}
    (h : (entries.map Prod.fst).Nodup) (key : String) :
    (entries.filter (·.1 == key)).length ≤ 1 := by
  have hcount := List.nodup_iff_count.mp h key
  rwa [List.count, List.countP_map, List.countP_eq_length_filter] at hcount

namespace Json

variable {α : Type} {write : α → Json} {read : Json → Option α}

/-! ### Numbers -/

theorem fitsInt64_toInt (i : Int64) : fitsInt64 i.toInt = true := by
  have hlower := i.le_toInt
  have hupper := i.toInt_lt
  simp only [fitsInt64, Bool.and_eq_true, decide_eq_true_eq]
  omega

theorem int64?_ofInt64 (i : Int64) : int64? (ofInt64 i) = some i := by
  rw [ofInt64, int64?, if_pos (fitsInt64_toInt i), Int64.ofInt_toInt]

theorem uint32?_toNat (n : UInt32) : uint32? (.int n.toNat) = some n := by
  have hlt : n.toNat < 0x100000000 := n.toNat_lt
  rw [uint32?, if_pos (by omega), Int.toNat_natCast, UInt32.ofNat_toNat]

/-- **A number is read back if it is finite.** -/
theorem binary64?_ofBinary64 (x : Binary64) :
    binary64? (ofBinary64 x) = if x.isFinite then some x else none := by
  unfold ofBinary64
  split <;> rfl

/-! ### Lists and dictionaries -/

/-- A list is read item by item. -/
theorem list?_map {β : Type} {f : β → Json} {g : β → α} {items : List β}
    (h : ∀ b ∈ items, read (f b) = some (g b)) :
    list? read (.arr (items.map f)) = some (items.map g) := by
  rw [list?]
  induction items with
  | nil => rfl
  | cons b rest ih =>
    have hfirst := h b List.mem_cons_self
    have hrest := ih fun c hc => h c (List.mem_cons_of_mem b hc)
    rw [List.map_cons, List.mapM_cons, hfirst, hrest]
    rfl

theorem list?_ofList {items : List α} (h : ∀ a ∈ items, read (write a) = some a) :
    list? read (ofList write items) = some items := by
  rw [ofList, list?_map h, List.map_id']

theorem mapM_entries {entries : List (String × α)}
    (h : ∀ e ∈ entries, read (write e.2) = some e.2) :
    (entries.map fun e => (e.1, write e.2)).mapM
      (fun e => (read e.2).map fun v => (e.1, v)) = some entries := by
  induction entries with
  | nil => rfl
  | cons e rest ih =>
    have hfirst := h e List.mem_cons_self
    have hrest := ih fun b hb => h b (List.mem_cons_of_mem e hb)
    rw [List.map_cons, List.mapM_cons, hfirst, hrest]
    rfl

theorem mapM_entries_eq_none {entries : List (String × α)}
    (h : ∃ e ∈ entries, read (write e.2) = none) :
    (entries.map fun e => (e.1, write e.2)).mapM
      (fun e => (read e.2).map fun v => (e.1, v)) = none := by
  induction entries with
  | nil =>
    obtain ⟨e, he, -⟩ := h
    cases he
  | cons e rest ih =>
    obtain ⟨b, hb, hnone⟩ := h
    rw [List.map_cons, List.mapM_cons]
    rcases List.mem_cons.mp hb with rfl | hb
    · rw [hnone]
      rfl
    · rw [ih ⟨b, hb, hnone⟩]
      cases read (write e.2) <;> rfl

/-- **A dictionary is read back** when its values are. -/
theorem dict?_ofDict {d : Dict α} (h : ∀ e ∈ d.entries, read (write e.2) = some e.2) :
    dict? read (ofDict write d) = some d := by
  show ((d.entries.map fun e => (e.1, write e.2)).mapM
    fun e => (read e.2).map fun v => (e.1, v)).map Dict.ofList = some d
  rw [mapM_entries h, Option.map_some, Dict.ofList_entries]

theorem dict?_ofDict_eq_none {d : Dict α} (h : ∃ e ∈ d.entries, read (write e.2) = none) :
    dict? read (ofDict write d) = none := by
  show ((d.entries.map fun e => (e.1, write e.2)).mapM
    fun e => (read e.2).map fun v => (e.1, v)).map Dict.ofList = none
  rw [mapM_entries_eq_none h, Option.map_none]

theorem table?_ofTable (h : ∀ a, read (write a) = some a) (t : Table α) :
    table? read (ofTable write t) = some t :=
  dict?_ofDict fun _ _ => dict?_ofDict fun e _ => h e.2

/-! ### Records -/

/-- **An object is a record of its fields** when its keys are among the names, in their order. -/
theorem record?_obj {fields : List (String × Json)} {names : List String}
    (hkeys : (fields.map Prod.fst).Sublist names) (hnames : names.Nodup) :
    record? names (.obj fields) = some ⟨false, fields⟩ := by
  have honce : ∀ n ∈ names, (fields.filter (·.1 == n)).length ≤ 1 :=
    fun n _ => Dict.length_filter_le_one (hkeys.nodup hnames) n
  rw [record?, if_pos (by simpa using honce)]

theorem bind_of_eq_some {β : Type} {o : Option α} {a : α} (h : o = some a) (f : α → Option β) :
    (o >>= f) = f a := by
  rw [h]
  rfl

namespace Record

variable {r : Record} {name : String}

theorem withDefault_of_get? {j : Json} (h : r.get? name = some j) (default : α)
    (read : Json → Option α) : r.withDefault name default read = read j := by
  rw [withDefault, h]

theorem optionalOrAbsent_string? {text : Option String}
    (h : r.get? name = some (.ofOption .str text)) :
    r.optionalOrAbsent name string? = some text := by
  rw [optionalOrAbsent, h]
  cases text <;> rfl

end Record

/-! ### Printable values -/

theorem printableItems_iff {items : List Json} :
    PrintableItems items ↔ ∀ j ∈ items, Printable j := by
  induction items with
  | nil => simp [PrintableItems]
  | cons j rest ih => rw [PrintableItems, ih, List.forall_mem_cons]

theorem printableFields_iff {fields : List (String × Json)} :
    PrintableFields fields ↔ ∀ e ∈ fields, Printable e.2 := by
  induction fields with
  | nil => simp [PrintableFields]
  | cons e rest ih => rw [PrintableFields, ih, List.forall_mem_cons]

theorem printable_ofList {items : List α} (h : ∀ a ∈ items, Printable (write a)) :
    Printable (ofList write items) := by
  rw [ofList, Printable, printableItems_iff]
  intro j hj
  obtain ⟨a, ha, rfl⟩ := List.mem_map.mp hj
  exact h a ha

theorem printable_ofDict {d : Dict α} (h : ∀ e ∈ d.entries, Printable (write e.2)) :
    Printable (ofDict write d) := by
  rw [ofDict, Printable, printableFields_iff]
  intro e he
  obtain ⟨b, hb, rfl⟩ := List.mem_map.mp he
  exact h b hb

theorem printable_ofInt64 (i : Int64) : Printable (ofInt64 i) := by
  have hlower := i.le_toInt
  have hupper := i.toInt_lt
  rw [ofInt64, Printable]
  omega

theorem printable_toNat (n : UInt32) : Printable (.int n.toNat) := by
  have hlt : n.toNat < 0x100000000 := n.toNat_lt
  rw [Printable]
  omega

theorem readsBack_of_numeral {x : Binary64} (n : Numeral) (htoken : numberToken x = .num n)
    (hword : n.toWord? = none) (hvalue : n.toBinary64? = some x) : ReadsBack x := by
  refine ⟨n, htoken, ?_⟩
  rw [ofNumeral, hword, hvalue]

/-- A finite number has to read back; all else is printed as null. -/
theorem printable_ofBinary64 {x : Binary64} (h : x.isFinite = true → ReadsBack x) :
    Printable (ofBinary64 x) := by
  unfold ofBinary64
  split
  · rename_i hfinite
    exact h hfinite
  · trivial

/-! ### Nesting -/

theorem nestingItems_le_iff {items : List Json} {k : Nat} :
    nestingItems items ≤ k ↔ ∀ j ∈ items, nesting j ≤ k := by
  induction items with
  | nil => simp [nestingItems]
  | cons j rest ih => rw [nestingItems, Nat.max_le, ih, List.forall_mem_cons]

theorem nestingFields_le_iff {fields : List (String × Json)} {k : Nat} :
    nestingFields fields ≤ k ↔ ∀ e ∈ fields, nesting e.2 ≤ k := by
  induction fields with
  | nil => simp [nestingFields]
  | cons e rest ih => rw [nestingFields, Nat.max_le, ih, List.forall_mem_cons]

theorem nesting_ofList_le {items : List α} {k : Nat} (h : ∀ a ∈ items, nesting (write a) ≤ k) :
    nesting (ofList write items) ≤ k + 1 := by
  rw [ofList, nesting, Nat.add_le_add_iff_right, nestingItems_le_iff]
  intro j hj
  obtain ⟨a, ha, rfl⟩ := List.mem_map.mp hj
  exact h a ha

theorem nesting_ofDict_le {d : Dict α} {k : Nat} (h : ∀ e ∈ d.entries, nesting (write e.2) ≤ k) :
    nesting (ofDict write d) ≤ k + 1 := by
  rw [ofDict, nesting, Nat.add_le_add_iff_right, nestingFields_le_iff]
  intro e he
  obtain ⟨b, hb, rfl⟩ := List.mem_map.mp he
  exact h b hb

theorem nesting_ofBinary64 (x : Binary64) : nesting (ofBinary64 x) = 0 := by
  unfold ofBinary64
  split <;> rfl

end Json

end Questline
