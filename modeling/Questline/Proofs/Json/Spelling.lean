import Questline.Proofs.Json.Fields

/-! # Spellings of values

A document may be spelled in several ways: the fields of an object stand in any order, and a record
may have keys that nobody reads.

* `Json.Reordered`: the fields of objects anywhere inside stand in another order.
* `Json.Reordered.sortKeys_eq`: such values are the same once their keys are in order.
* `Json.Respelled`: a record with its fields in another order, with more keys that are unknown, or
  with fields that are respelled themselves. `Json.ItemsRespelled`: a list of respelled items.
* `Json.Respelled.read_eq`: a reader of a record that only looks at its fields does not notice. -/

namespace Questline

namespace Dict

variable {α : Type} {entries entries' : List (String × α)}

theorem lookup_eq_head? (entries : List (String × α)) (key : String) :
    entries.lookup key = ((entries.filter (·.1 == key)).head?).map Prod.snd := by
  induction entries with
  | nil => rfl
  | cons e rest ih =>
    rw [lookup_cons_eq, List.filter_cons, ih]
    by_cases h : key = e.1
    · simp [h]
    · simp [h, Ne.symm h]

/-- A key that stands once is found wherever it stands. -/
theorem lookup_eq_of_perm {key : String} (hperm : entries.Perm entries')
    (honce : (entries.filter (·.1 == key)).length ≤ 1) :
    entries.lookup key = entries'.lookup key := by
  have hfilter := hperm.filter (·.1 == key)
  rw [lookup_eq_head?, lookup_eq_head?]
  cases hentries : entries.filter (·.1 == key) with
  | nil =>
    rw [hentries] at hfilter
    rw [List.nil_perm.mp hfilter]
  | cons e rest =>
    rw [hentries] at hfilter honce
    obtain rfl : rest = [] := List.eq_nil_of_length_eq_zero (by simpa using honce)
    rw [List.singleton_perm.mp hfilter]

/-- **The dictionary of entries with different keys** does not depend on their order. -/
theorem ofList_eq_of_perm (hnodup : (entries.map Prod.fst).Nodup)
    (hperm : entries.Perm entries') : ofList entries = ofList entries' := by
  refine ext_get? fun key => ?_
  have hreverse : entries.reverse.Perm entries'.reverse :=
    (List.reverse_perm entries).trans (hperm.trans (List.reverse_perm entries').symm)
  have hnodup : (entries.reverse.map Prod.fst).Nodup := by
    rwa [List.map_reverse, List.nodup_reverse]
  rw [get?_ofList, get?_ofList, lookup_eq_of_perm hreverse (length_filter_le_one hnodup key)]

end Dict

namespace Json

/-! ### Reordered values -/

/-- **Values that differ in the order of fields**, in any of the objects inside. -/
inductive Reordered : Json → Json → Prop where
  | refl (j : Json) : Reordered j j
  | trans {i j k : Json} (first : Reordered i j) (second : Reordered j k) : Reordered i k
  /-- The fields of an object without repeated keys stand in another order. -/
  | order {fields fields' : List (String × Json)} (hnodup : (fields.map Prod.fst).Nodup)
      (hperm : fields.Perm fields') : Reordered (.obj fields) (.obj fields')
  /-- An item of an array is reordered. -/
  | item (front back : List Json) {j j' : Json} (h : Reordered j j') :
      Reordered (.arr (front ++ j :: back)) (.arr (front ++ j' :: back))
  /-- The value of a field is reordered. -/
  | value (front back : List (String × Json)) (key : String) {j j' : Json} (h : Reordered j j') :
      Reordered (.obj (front ++ (key, j) :: back)) (.obj (front ++ (key, j') :: back))

namespace Reordered

variable {j j' : Json}

/-- **Once the keys are in order,** nothing is left of another order. -/
theorem sortKeys_eq (h : Reordered j j') : j.sortKeys = j'.sortKeys := by
  induction h with
  | refl j => rfl
  | trans _ _ ih ih' => exact ih.trans ih'
  | @order fields fields' hnodup hperm =>
    have hsorted : (sortKeysFields fields).Perm (sortKeysFields fields') := by
      rw [sortKeysFields_eq_map, sortKeysFields_eq_map]
      exact hperm.map _
    have hkeys : ((sortKeysFields fields).map Prod.fst).Nodup := by
      rwa [sortKeysFields_eq_map, List.map_map]
    rw [sortKeys, sortKeys, Dict.ofList_eq_of_perm hkeys hsorted]
  | item front back _ ih =>
    simp only [sortKeys, sortKeysItems_eq_map, List.map_append, List.map_cons, ih]
  | value front back key _ ih =>
    simp only [sortKeys, sortKeysFields_eq_map, List.map_append, List.map_cons, ih]

theorem readable_eq (h : Reordered j j') : j.readable = j'.readable := by
  induction h with
  | refl j => rfl
  | trans _ _ ih ih' => exact ih.trans ih'
  | @order fields fields' _ hperm =>
    rw [Bool.eq_iff_iff, readable, readable, readableFields_iff, readableFields_iff]
    exact forall_congr' fun e => by rw [hperm.mem_iff]
  | item front back _ ih =>
    rw [Bool.eq_iff_iff]
    simp only [readable, readableItems_iff, List.forall_mem_append, List.forall_mem_cons, ih]
  | value front back key _ ih =>
    rw [Bool.eq_iff_iff]
    simp only [readable, readableFields_iff, List.forall_mem_append, List.forall_mem_cons, ih]

theorem any?_eq (h : Reordered j j') : any? j = any? j' := by
  rw [any?, any?, h.readable_eq, h.sortKeys_eq]

/-- Only null is null in another order. -/
theorem eq_null_iff (h : Reordered j j') : j = .null ↔ j' = .null := by
  induction h with
  | refl j => rfl
  | trans _ _ ih ih' => exact ih.trans ih'
  | _ => simp

theorem orAbsent?_any?_eq (h : Reordered j j') : orAbsent? any? j = orAbsent? any? j' := by
  have horAbsent : ∀ v, v ≠ .null → orAbsent? any? v = (any? v).map some := by
    intro v hv
    cases v <;> first | rfl | exact absurd rfl hv
  by_cases hnull : j = .null
  · rw [hnull, h.eq_null_iff.mp hnull]
  · rw [horAbsent j hnull, horAbsent j' (mt h.eq_null_iff.mpr hnull), h.any?_eq]

theorem trimDepth (h : Reordered j j') (limit : Nat) :
    Reordered (j.trimDepth limit) (j'.trimDepth limit) := by
  induction h generalizing limit with
  | refl j => exact .refl _
  | trans _ _ ih ih' => exact (ih limit).trans (ih' limit)
  | @order fields fields' hnodup hperm =>
    cases limit with
    | zero => exact .refl _
    | succ limit =>
      simp only [Json.trimDepth, trimDepthFields_eq_map]
      refine .order ?_ (hperm.map _)
      rwa [List.map_map]
  | item front back _ ih =>
    cases limit with
    | zero => exact .refl _
    | succ limit =>
      simp only [Json.trimDepth, trimDepthItems_eq_map, List.map_append, List.map_cons]
      exact .item _ _ (ih limit)
  | value front back key _ ih =>
    cases limit with
    | zero => exact .refl _
    | succ limit =>
      simp only [Json.trimDepth, trimDepthFields_eq_map, List.map_append, List.map_cons]
      exact .value _ _ key (ih limit)

end Reordered

/-! ### Respelled records -/

/-- **A record that is respelled.** Its fields stand in another order, there are keys beside the
known ones, and the values of fields are respelled as `part` says. -/
inductive Respelled (names : List String) (part : String → Json → Json → Prop) :
    Json → Json → Prop where
  | refl (j : Json) : Respelled names part j j
  | trans {i j k : Json} (first : Respelled names part i j) (second : Respelled names part j k) :
      Respelled names part i k
  | order {fields fields' : List (String × Json)} (hperm : fields.Perm fields') :
      Respelled names part (.obj fields) (.obj fields')
  | unknown {key : String} (hunknown : key ∉ names) (v : Json) (fields : List (String × Json)) :
      Respelled names part (.obj fields) (.obj ((key, v) :: fields))
  | value (front back : List (String × Json)) {key : String} {v v' : Json} (h : part key v v') :
      Respelled names part (.obj (front ++ (key, v) :: back)) (.obj (front ++ (key, v') :: back))

/-- A list of which items are respelled. -/
inductive ItemsRespelled (item : Json → Json → Prop) : Json → Json → Prop where
  | refl (j : Json) : ItemsRespelled item j j
  | trans {i j k : Json} (first : ItemsRespelled item i j) (second : ItemsRespelled item j k) :
      ItemsRespelled item i k
  | item (front back : List Json) {v v' : Json} (h : item v v') :
      ItemsRespelled item (.arr (front ++ v :: back)) (.arr (front ++ v' :: back))

variable {names : List String} {part : String → Json → Json → Prop} {j j' : Json}

/-- Two records have the same known fields, up to their spelling. -/
def Record.Agrees (names : List String) (part : String → Json → Json → Prop) (r r' : Record) :
    Prop :=
  ∀ n ∈ names, Option.Rel (part n) (r.get? n) (r'.get? n)

namespace Record.Agrees

variable {α : Type} {read : Json → Option α} {r r' : Record} {n : String}
  (h : Record.Agrees names part r r') (hn : n ∈ names)

include h hn

theorem required (hread : ∀ v v', part n v v' → read v = read v') :
    r.required n read = r'.required n read := by
  have hrel := h n hn
  rw [Record.required, Record.required]
  generalize r.get? n = o, r'.get? n = o' at hrel
  cases hrel with
  | some hv => exact hread _ _ hv
  | none => rfl

theorem withDefault (default : α) (hread : ∀ v v', part n v v' → read v = read v') :
    r.withDefault n default read = r'.withDefault n default read := by
  have hrel := h n hn
  rw [Record.withDefault, Record.withDefault]
  generalize r.get? n = o, r'.get? n = o' at hrel
  cases hrel with
  | some hv => exact hread _ _ hv
  | none => rfl

theorem optionalOrAbsent (hread : ∀ v v', part n v v' → orAbsent? read v = orAbsent? read v') :
    r.optionalOrAbsent n read = r'.optionalOrAbsent n read := by
  have hrel := h n hn
  rw [Record.optionalOrAbsent_eq, Record.optionalOrAbsent_eq]
  generalize r.get? n = o, r'.get? n = o' at hrel
  cases hrel with
  | some hv => exact hread _ _ hv
  | none => rfl

end Record.Agrees

/-- Objects with each known key as often as the other, and with the same fields up to their
spelling, are the same records. -/
theorem record?_rel {fields fields' : List (String × Json)}
    (hcount : ∀ n ∈ names,
      (fields.filter (·.1 == n)).length = (fields'.filter (·.1 == n)).length)
    (hlookup : ∀ n ∈ names, (fields.filter (·.1 == n)).length ≤ 1 →
      Option.Rel (part n) (fields.lookup n) (fields'.lookup n)) :
    Option.Rel (Record.Agrees names part) (record? names (.obj fields))
      (record? names (.obj fields')) := by
  have honce : (names.all fun n => (fields'.filter (·.1 == n)).length ≤ 1) =
      names.all fun n => (fields.filter (·.1 == n)).length ≤ 1 := by
    rw [Bool.eq_iff_iff, List.all_eq_true, List.all_eq_true]
    exact forall₂_congr fun n hn => by rw [hcount n hn]
  rw [record?, record?, honce]
  split
  · rename_i h
    refine .some fun n hn => hlookup n hn ?_
    simpa using List.all_eq_true.mp h n hn
  · exact .none

namespace Respelled

variable (hrefl : ∀ n v, part n v v)

include hrefl

theorem rel_of_eq {o o' : Option Json} (n : String) (h : o = o') : Option.Rel (part n) o o' := by
  cases h
  cases o with
  | none => exact .none
  | some v => exact .some (hrefl n v)

theorem record?_rel_of_order {fields fields' : List (String × Json)}
    (hperm : fields.Perm fields') :
    Option.Rel (Record.Agrees names part) (record? names (.obj fields))
      (record? names (.obj fields')) :=
  record?_rel (fun _ _ => (hperm.filter _).length_eq)
    fun n _ honce => rel_of_eq hrefl n (Dict.lookup_eq_of_perm hperm honce)

theorem record?_rel_of_unknown {key : String} (hunknown : key ∉ names) (v : Json)
    (fields : List (String × Json)) :
    Option.Rel (Record.Agrees names part) (record? names (.obj fields))
      (record? names (.obj ((key, v) :: fields))) := by
  have hne : ∀ n ∈ names, n ≠ key := fun n hn h => hunknown (h ▸ hn)
  refine record?_rel (fun n hn => ?_) fun n hn _ => rel_of_eq hrefl n ?_
  · rw [List.filter_cons_of_neg (by simpa using (hne n hn).symm)]
  · rw [Dict.lookup_cons_eq, if_neg (hne n hn)]

theorem record?_rel_of_value (front back : List (String × Json)) {key : String} {v v' : Json}
    (h : part key v v') :
    Option.Rel (Record.Agrees names part) (record? names (.obj (front ++ (key, v) :: back)))
      (record? names (.obj (front ++ (key, v') :: back))) := by
  refine record?_rel (fun n _ => ?_) fun n _ _ => ?_
  · simp only [List.filter_append, List.filter_cons, List.length_append]
    split <;> rfl
  · rw [List.lookup_append, List.lookup_append, Dict.lookup_cons_eq, Dict.lookup_cons_eq]
    cases front.lookup n with
    | some w => exact rel_of_eq hrefl n rfl
    | none =>
      by_cases hn : n = key
      · rw [if_pos hn, if_pos hn, hn]
        exact .some h
      · rw [if_neg hn, if_neg hn]
        exact rel_of_eq hrefl n rfl

/-- **A reader that only looks at the known fields** reads the same from a respelled record. -/
theorem read_eq {α : Type} {read : Json → Option α} {From : Record → α → Prop}
    (hread : ∀ {j a}, read j = some a ↔ ∃ r, j.record? names = some r ∧ From r a)
    (hfrom : ∀ {r r' a}, Record.Agrees names part r r' → (From r a ↔ From r' a))
    (h : Respelled names part j j') : read j = read j' := by
  have hrel : ∀ {i k : Json},
      Option.Rel (Record.Agrees names part) (i.record? names) (k.record? names) →
      read i = read k := by
    intro i k hrecords
    refine Option.ext fun a => ?_
    rw [hread, hread]
    generalize i.record? names = o, k.record? names = o' at hrecords
    cases hrecords with
    | some hagrees => simp only [Option.some.injEq, exists_eq_left', hfrom hagrees]
    | none => rfl
  induction h with
  | refl j => rfl
  | trans _ _ ih ih' => exact ih.trans ih'
  | order hperm => exact hrel (record?_rel_of_order hrefl hperm)
  | unknown hunknown v fields => exact hrel (record?_rel_of_unknown hrefl hunknown v fields)
  | value front back h => exact hrel (record?_rel_of_value hrefl front back h)

omit hrefl in
theorem trimDepth
    (hpart : ∀ n v v' limit, part n v v' → part n (v.trimDepth limit) (v'.trimDepth limit))
    (h : Respelled names part j j') (limit : Nat) :
    Respelled names part (j.trimDepth limit) (j'.trimDepth limit) := by
  cases limit with
  | zero =>
    induction h with
    | trans _ _ ih ih' => exact ih.trans ih'
    | _ => exact .refl _
  | succ limit =>
    induction h with
    | refl j => exact .refl _
    | trans _ _ ih ih' => exact ih.trans ih'
    | order hperm =>
      simp only [Json.trimDepth, trimDepthFields_eq_map]
      exact .order (hperm.map _)
    | unknown hunknown v fields =>
      simp only [Json.trimDepth, trimDepthFields_eq_map, List.map_cons]
      exact .unknown hunknown _ _
    | value front back h =>
      simp only [Json.trimDepth, trimDepthFields_eq_map, List.map_append, List.map_cons]
      exact .value _ _ (hpart _ _ _ limit h)

end Respelled

namespace ItemsRespelled

variable {item : Json → Json → Prop}

theorem trimDepth (hitem : ∀ v v' limit, item v v' → item (v.trimDepth limit) (v'.trimDepth limit))
    (h : ItemsRespelled item j j') (limit : Nat) :
    ItemsRespelled item (j.trimDepth limit) (j'.trimDepth limit) := by
  induction h with
  | refl j => exact .refl _
  | trans _ _ ih ih' => exact ih.trans ih'
  | item front back h =>
    cases limit with
    | zero => exact .refl _
    | succ limit =>
      simp only [Json.trimDepth, trimDepthItems_eq_map, List.map_append, List.map_cons]
      exact .item _ _ (hitem _ _ limit h)

/-- A list of items that read the same is read as the same list. -/
theorem list?_eq {α : Type} {read : Json → Option α} (hitem : ∀ v v', item v v' → read v = read v')
    (h : ItemsRespelled item j j') : list? read j = list? read j' := by
  induction h with
  | refl j => rfl
  | trans _ _ ih ih' => exact ih.trans ih'
  | item front back h =>
    rw [list?, list?, List.mapM_append, List.mapM_append, List.mapM_cons, List.mapM_cons,
      hitem _ _ h]

end ItemsRespelled

end Json

end Questline
