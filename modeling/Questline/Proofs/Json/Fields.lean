import Questline.Proofs.Json.Ranges

/-! # Fields of records

A record is read field by field and written field by field. What was read from a field lies in the
record, one level deeper; what is written into a field is read from it.

* `Json.Writable`: what can be printed once its numbers read back.
* `Json.Kept`: what is written of a value is read as that value, it is writable, and its nesting is
  limited.
* `Json.mem_children_of_get?`, `Json.exists_mem_of_list?`: what was read lies inside.
* `Json.Within`: fields with writable values that are nested less than a limit.
* `Json.Keeps.listField`: a list field is kept when what is read as an item is.
* `Json.Record.withDefault_of_nonempty?`, `Json.Record.optionalOrAbsent_of_map`: fields are read
  from what is written into them. -/

namespace Questline

namespace Json

variable {α β : Type} {read : Json → Option α} {write : α → Json} {j : Json} {k : Nat}

/-! ### Writable values -/

/-- **What can be printed** once its numbers read back: numbers are words or finite, and nothing
is unreadable. -/
def Writable (j : Json) : Prop := ∀ l ∈ j.leaves, l.LeafInRange ∧ l.readable = true

theorem writable_iff : j.Writable ↔ j.InRange ∧ j.readable = true := by
  rw [readable_iff]
  exact forall₂_and

theorem writable_leaf (hleaf : j.leaves = [j]) (hrange : j.LeafInRange)
    (hreadable : j.readable = true) : j.Writable :=
  writable_iff.mpr ⟨inRange_leaf hleaf hrange, hreadable⟩

theorem writable_str (s : String) : Writable (.str s) := writable_leaf rfl trivial rfl

theorem writable_ofInt64 (i : Int64) : Writable (ofInt64 i) :=
  writable_leaf rfl (printable_ofInt64 i) rfl

theorem writable_ofBinary64 (x : Binary64) : Writable (ofBinary64 x) := by
  unfold ofBinary64
  split
  · rename_i hfinite
    exact writable_leaf rfl hfinite rfl
  · exact writable_leaf rfl trivial rfl

theorem writable_arr {items : List Json} : Writable (.arr items) ↔ ∀ j ∈ items, Writable j :=
  forall_mem_leaves_arr

theorem writable_obj {fields : List (String × Json)} :
    Writable (.obj fields) ↔ ∀ e ∈ fields, Writable e.2 :=
  forall_mem_leaves_obj

theorem Writable.sortKeys (h : j.Writable) : j.sortKeys.Writable :=
  fun l hl => h l (leaves_sortKeys_subset j hl)

theorem printable_of_writable (h : j.Writable)
    (hback : ∀ x, .float x ∈ j.leaves → x.isFinite = true → ReadsBack x) : Printable j := by
  induction j with
  | int i => exact (h _ (List.mem_singleton_self _)).1
  | float x =>
    have hleaf := List.mem_singleton_self (Json.float x)
    exact hback x hleaf (h _ hleaf).1
  | unreadable => cases (h _ (List.mem_singleton_self _)).2
  | arr items ih =>
    rw [Printable, printableItems_iff]
    intro i hi
    have hsubset : i.leaves ⊆ leaves (.arr items) := leaves_subset_of_mem_children hi
    exact ih i hi (writable_arr.mp h i hi) fun x hx => hback x (hsubset hx)
  | obj fields ih =>
    rw [Printable, printableFields_iff]
    intro e he
    have hsubset : e.2.leaves ⊆ leaves (.obj fields) :=
      leaves_subset_of_mem_children (List.mem_map_of_mem he)
    exact ih e he (writable_obj.mp h e he) fun x hx => hback x (hsubset hx)
  | _ => trivial

/-! ### Values inside -/

theorem mem_children_of_get? {names : List String} {r : Record} {name : String} {v : Json}
    (hrecord : j.record? names = some r) (hget : r.get? name = some v) : v ∈ j.children := by
  have hmem : (name, v) ∈ r.fields := Dict.mem_of_lookup_eq_some hget
  cases j with
  | obj fields =>
    rw [record?] at hrecord
    split at hrecord
    · cases hrecord
      exact List.mem_map_of_mem hmem
    · cases hrecord
  | arr items =>
    rw [record?] at hrecord
    split at hrecord
    · cases hrecord
      exact (List.of_mem_zip hmem).2
    · cases hrecord
  | _ => cases hrecord

theorem exists_of_optionalOrAbsent {names : List String} {r : Record} {name : String} {a : α}
    (hrecord : j.record? names = some r)
    (h : r.optionalOrAbsent name read = some (some a)) :
    ∃ v ∈ j.children, v ≠ .null ∧ read v = some a := by
  unfold Record.optionalOrAbsent at h
  split at h
  · cases h
  · cases h
  · rename_i v hnull hget
    obtain ⟨b, hread, hb⟩ := Option.map_eq_some_iff.mp h
    cases hb
    refine ⟨v, mem_children_of_get? hrecord hget, ?_, hread⟩
    rintro rfl
    exact hnull rfl

section MapM

variable {f : β → Option α} {l : List β} {items : List α}

/-- A list is read just when each of its members is, in order. -/
theorem mapM_eq_some_iff : l.mapM f = some items ↔ l.map f = items.map some := by
  induction l generalizing items with
  | nil => cases items <;> simp
  | cons b rest ih =>
    rw [List.mapM_cons, List.map_cons]
    cases items with
    | nil => cases f b <;> cases rest.mapM f <;> simp
    | cons a items =>
      rw [List.map_cons, List.cons.injEq, ← ih]
      cases f b <;> cases rest.mapM f <;> simp

theorem mem_of_mapM_eq_some {a : α} (h : l.mapM f = some items) (ha : a ∈ items) :
    ∃ b ∈ l, f b = some a := by
  rw [← List.mem_map, mapM_eq_some_iff.mp h]
  exact List.mem_map_of_mem ha

theorem exists_of_mapM_eq_some {b : β} (h : l.mapM f = some items) (hb : b ∈ l) :
    ∃ a ∈ items, f b = some a := by
  have hmem : f b ∈ l.map f := List.mem_map_of_mem hb
  rw [mapM_eq_some_iff.mp h, List.mem_map] at hmem
  obtain ⟨a, ha, hread⟩ := hmem
  exact ⟨a, ha, hread.symm⟩

/-- What is made of the members that were read is what is made of those they were read from. -/
theorem map_of_mapM_eq_some {γ : Type} {w : α → γ} {v : β → γ} (h : l.mapM f = some items)
    (hw : ∀ b ∈ l, ∀ a ∈ items, f b = some a → w a = v b) : items.map w = l.map v := by
  have hread : (l.map f).map (Option.map w) = (l.map v).map some := by
    rw [List.map_map, List.map_map]
    refine List.map_congr_left fun b hb => ?_
    obtain ⟨a, ha, hread⟩ := exists_of_mapM_eq_some h hb
    rw [Function.comp_apply, Function.comp_apply, hread, Option.map_some, hw b hb a ha hread]
  have hwritten : (items.map some).map (Option.map w) = (items.map w).map some := by
    rw [List.map_map, List.map_map]
    rfl
  rw [mapM_eq_some_iff.mp h, hwritten] at hread
  exact List.map_injective_iff.mpr (Option.some_injective γ) hread

end MapM

/-- **Every item of a list** was read from a value inside. -/
theorem exists_mem_of_list? {items : List α} {a : α} (h : j.list? read = some items)
    (ha : a ∈ items) : ∃ v ∈ j.children, read v = some a := by
  cases j with
  | arr vs => exact mem_of_mapM_eq_some h ha
  | _ => cases h

/-- A list is read when each of its items is. -/
theorem isSome_list?_iff {items : List Json} :
    (list? read (.arr items)).isSome ↔ ∀ i ∈ items, (read i).isSome := by
  rw [list?]
  induction items with
  | nil => simp
  | cons i rest ih =>
    rw [List.mapM_cons, List.forall_mem_cons, ← ih]
    cases read i with
    | none => simp
    | some a => cases rest.mapM read <;> simp

/-! ### Kept values -/

/-- **A value is kept:** what is written of it is read as that value, is writable and is nested at
most `k` deep. -/
structure Kept (read : Json → Option α) (write : α → Json) (k : Nat) (a : α) : Prop where
  reads : read (write a) = some a
  writable : (write a).Writable
  nesting_le : (write a).nesting ≤ k

theorem Kept.mono {a : α} {m : Nat} (h : Kept read write k a) (hle : k ≤ m) :
    Kept read write m a :=
  ⟨h.reads, h.writable, Nat.le_trans h.nesting_le hle⟩

/-- A list of kept items is kept, one level deeper. -/
theorem kept_ofList {items : List α} (h : ∀ a ∈ items, Kept read write k a) :
    Kept (list? read) (ofList write) (k + 1) items where
  reads := list?_ofList fun a ha => (h a ha).reads
  writable := by
    rw [ofList, writable_arr]
    intro v hv
    obtain ⟨a, ha, rfl⟩ := List.mem_map.mp hv
    exact (h a ha).writable
  nesting_le := nesting_ofList_le fun a ha => (h a ha).nesting_le

/-- **What is read is kept**, at the depth that it was read at. -/
def Keeps (read : Json → Option α) (write : α → Json) : Prop :=
  ∀ ⦃j a⦄, j.InRange → read j = some a → Kept read write j.nesting a

/-! ### Fields -/

/-- Fields with writable values that are nested less than `k` deep. -/
def Within (k : Nat) (fields : List (String × Json)) : Prop :=
  ∀ e ∈ fields, e.2.Writable ∧ e.2.nesting < k

theorem within_append {front back : List (String × Json)} :
    Within k (front ++ back) ↔ Within k front ∧ Within k back :=
  List.forall_mem_append

theorem within_cons {key : String} {v : Json} {rest : List (String × Json)} :
    Within k ((key, v) :: rest) ↔ (v.Writable ∧ v.nesting < k) ∧ Within k rest :=
  List.forall_mem_cons

theorem within_nil : Within k [] := fun _ he => absurd he List.not_mem_nil

theorem within_fieldOf {name : String} {o : Option α}
    (h : ∀ a ∈ o, (write a).Writable ∧ (write a).nesting < k) :
    Within k (fieldOf name write o) := by
  cases o with
  | none => exact within_nil
  | some a => exact within_cons.mpr ⟨h a rfl, within_nil⟩

theorem within_fieldOf_str (hk : 0 < k) (name : String) (o : Option String) :
    Within k (fieldOf name .str o) :=
  within_fieldOf fun s _ => ⟨writable_str s, hk⟩

theorem kept_obj {a : α} {fields : List (String × Json)} (hwrite : write a = .obj fields)
    (hreads : read (write a) = some a) (hk : 0 < k) (h : Within k fields) :
    Kept read write k a where
  reads := hreads
  writable := by
    rw [hwrite, writable_obj]
    exact fun e he => (h e he).1
  nesting_le := by
    have hfields : nestingFields fields ≤ k - 1 :=
      nestingFields_le_iff.mpr fun e he => Nat.le_sub_one_of_lt (h e he).2
    rw [hwrite, nesting]
    omega

theorem nesting_pos_of_record? {names : List String} {r : Record}
    (h : j.record? names = some r) : 0 < j.nesting := by
  cases j with
  | obj fields => exact Nat.succ_pos _
  | arr items => exact Nat.succ_pos _
  | _ => cases h

section ListField

variable {names : List String} {r : Record} {name : String} {items : List α}
  (hkeeps : Keeps read write) (hj : j.InRange) (hrecord : j.record? names = some r)
  (h : r.withDefault name [] (list? read) = some items)

include hkeeps hj hrecord h

/-- An item of a list field is kept, two levels below its record. -/
theorem Keeps.item {a : α} (ha : a ∈ items) : ∃ m, m + 2 ≤ j.nesting ∧ Kept read write m a := by
  unfold Record.withDefault at h
  split at h
  · rename_i v hv
    have hfield := mem_children_of_get? hrecord hv
    obtain ⟨w, hw, hread⟩ := exists_mem_of_list? h ha
    have houter := nesting_lt_of_mem_children hfield
    have hinner := nesting_lt_of_mem_children hw
    have hrange : w.InRange := (hj.of_mem_children hfield).of_mem_children hw
    exact ⟨w.nesting, by omega, hkeeps hrange hread⟩
  · cases h
    cases ha

/-- **A list field is kept** when what is read as an item is. -/
theorem Keeps.listField : list? read (ofList write items) = some items ∧
    ∀ key, Within j.nesting (listFieldOf key write items) := by
  have hlist : Kept (list? read) (ofList write) (j.nesting - 2 + 1) items := by
    refine kept_ofList fun a ha => ?_
    obtain ⟨m, hm, hkept⟩ := hkeeps.item hj hrecord h ha
    exact hkept.mono (by omega)
  refine ⟨hlist.reads, fun key => ?_⟩
  cases items with
  | nil => exact within_nil
  | cons a rest =>
    obtain ⟨m, hm, -⟩ := hkeeps.item hj hrecord h List.mem_cons_self
    have hnesting := hlist.nesting_le
    exact within_cons.mpr ⟨⟨hlist.writable, by omega⟩, within_nil⟩

end ListField

/-- A list that is written also when it is empty is nested twice with its record. -/
theorem within_ofList {items : List α} (h : ∀ key, Within k (listFieldOf key write items)) :
    (ofList write items).Writable ∧ (ofList write items).nesting < max 2 k := by
  cases items with
  | nil => exact ⟨writable_arr.mpr fun v hv => absurd hv List.not_mem_nil, Nat.le_max_left 2 k⟩
  | cons a rest =>
    obtain ⟨⟨hwritable, hnesting⟩, -⟩ := within_cons.mp (h "")
    exact ⟨hwritable, Nat.lt_of_lt_of_le hnesting (Nat.le_max_right 2 k)⟩

/-! ### Written records -/

theorem keys_fieldOf_sublist (name : String) (write : α → Json) (o : Option α) :
    ((fieldOf name write o).map Prod.fst).Sublist [name] := by
  cases o with
  | none => exact List.nil_sublist _
  | some a => exact List.Sublist.refl _

theorem keys_listFieldOf_sublist (name : String) (write : α → Json) (items : List α) :
    ((listFieldOf name write items).map Prod.fst).Sublist [name] := by
  cases items with
  | nil => exact List.nil_sublist _
  | cons a rest => exact List.Sublist.refl _

theorem lookup_fieldOf (key name : String) (write : α → Json) (o : Option α) :
    (fieldOf name write o).lookup key = if key = name then o.map write else none := by
  cases o with
  | none => exact (ite_self _).symm
  | some a => exact Dict.lookup_cons_eq _ _ _

theorem map_fieldOf (f : Json → Json) (name : String) (write : α → Json) (o : Option α) :
    (fieldOf name write o).map (fun e => (e.1, f e.2)) = fieldOf name (fun a => f (write a)) o := by
  cases o <;> rfl

theorem fieldOf_map (name : String) (write : β → Json) (f : α → β) (o : Option α) :
    fieldOf name write (o.map f) = fieldOf name (fun a => write (f a)) o := by
  cases o <;> rfl

/-- The value of a list field, which is left out when the list is empty. -/
def nonempty? (write : α → Json) : List α → Option Json
  | [] => none
  | items => some (ofList write items)

theorem lookup_listFieldOf (key name : String) (write : α → Json) (items : List α) :
    (listFieldOf name write items).lookup key =
      if key = name then nonempty? write items else none := by
  cases items with
  | nil => exact (ite_self _).symm
  | cons a rest => exact Dict.lookup_cons_eq _ _ _

namespace Record

variable {r : Record} {name : String}

theorem required_of_get? {v : Json} (h : r.get? name = some v) (read : Json → Option α) :
    r.required name read = read v := by
  rw [required, h, Option.bind_some]

theorem withDefault_of_nonempty? {items : List α} (h : r.get? name = nonempty? write items)
    (hread : list? read (ofList write items) = some items) :
    r.withDefault name [] (list? read) = some items := by
  unfold withDefault
  rw [h]
  cases items with
  | nil => rfl
  | cons a rest => exact hread

end Record

/-- What is read from an optional field, null being read as absent. -/
def orAbsent? (read : Json → Option α) : Json → Option (Option α)
  | .null => some none
  | j => (read j).map some

theorem Record.optionalOrAbsent_eq (r : Record) (name : String) (read : Json → Option α) :
    r.optionalOrAbsent name read = (r.get? name).elim (some none) (orAbsent? read) := by
  unfold optionalOrAbsent
  cases r.get? name with
  | none => rfl
  | some v => cases v <;> rfl

theorem Record.optionalOrAbsent_of_map {r : Record} {name : String} {o : Option β}
    {write : β → Json} {f : β → Option α} (h : r.get? name = o.map write)
    (hread : ∀ b ∈ o, orAbsent? read (write b) = some (f b)) :
    r.optionalOrAbsent name read = some (o.bind f) := by
  rw [optionalOrAbsent_eq, h]
  cases o with
  | none => rfl
  | some b => exact hread b rfl

theorem Record.optionalOrAbsent_of_map_str {r : Record} {name : String} {o : Option String}
    (h : r.get? name = o.map .str) : r.optionalOrAbsent name string? = some o := by
  rw [optionalOrAbsent_of_map h fun s _ => rfl, Option.bind_fun_some]

end Json

end Questline
