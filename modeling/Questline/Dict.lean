/-! # Dictionaries

A dictionary holds its entries in increasing order of their keys, each key once; keys are ordered
by code point. The order is part of the type, so two dictionaries with the same look-ups are equal.

* `Dict.get?_insert`: the last value written to a key is read back, other keys are untouched.
* `Dict.ext_get?`: look-ups determine a dictionary.
* `Dict.ofList_entries`: a dictionary is rebuilt from its entries.
* `Table`: a dictionary of dictionaries, addressed by an outer and an inner key. -/

namespace Questline

/-- The entries of a dictionary after a write: a new key finds its place, a known one is
overwritten. -/
def insertEntry {α : Type} (key : String) (value : α) : List (String × α) → List (String × α)
  | [] => [(key, value)]
  | (k, v) :: rest =>
    if key < k then (key, value) :: (k, v) :: rest
    else if key = k then (key, value) :: rest
    else (k, v) :: insertEntry key value rest

theorem mem_insertEntry {α : Type} {key : String} {value : α} {e : String × α}
    {entries : List (String × α)} (h : e ∈ insertEntry key value entries) :
    e = (key, value) ∨ e ∈ entries := by
  induction entries with
  | nil => simpa [insertEntry] using h
  | cons hd tl ih => grind [insertEntry]

theorem pairwise_insertEntry {α : Type} (key : String) (value : α) {entries : List (String × α)}
    (h : entries.Pairwise (fun a b => a.1 < b.1)) :
    (insertEntry key value entries).Pairwise (fun a b => a.1 < b.1) := by
  induction entries with
  | nil => simp [insertEntry]
  | cons hd tl ih =>
    obtain ⟨k, v⟩ := hd
    rw [List.pairwise_cons] at h
    unfold insertEntry
    split
    · rename_i hlt
      refine List.pairwise_cons.2 ⟨fun e he => ?_, List.pairwise_cons.2 h⟩
      rcases List.mem_cons.1 he with rfl | he
      · exact hlt
      · exact String.lt_trans hlt (h.1 e he)
    · split
      · rename_i heq
        exact List.pairwise_cons.2 ⟨fun e he => heq ▸ h.1 e he, h.2⟩
      · rename_i hnlt hne
        refine List.pairwise_cons.2 ⟨fun e he => ?_, ih h.2⟩
        rcases mem_insertEntry he with rfl | he
        · rcases String.le_total k key with hle | hle
          · exact Classical.byContradiction fun hk =>
              hne (String.le_antisymm (String.not_lt.1 hk) hle)
          · exact absurd (String.le_antisymm hle (String.not_lt.1 hnlt)) hne
        · exact h.1 e he

/-- Entries by key, in increasing order of the keys. -/
structure Dict (α : Type) where
  entries : List (String × α)
  sorted : entries.Pairwise (fun a b => a.1 < b.1)
deriving DecidableEq

namespace Dict

variable {α : Type}

/-- The dictionary without entries. -/
def empty : Dict α := ⟨[], .nil⟩

instance : Inhabited (Dict α) := ⟨empty⟩

/-- The value of a key. -/
def get? (d : Dict α) (key : String) : Option α := d.entries.lookup key

/-- Writes the value of a key, in place of the one it had. -/
def insert (d : Dict α) (key : String) (value : α) : Dict α :=
  ⟨insertEntry key value d.entries, pairwise_insertEntry key value d.sorted⟩

/-- The dictionary of a list of entries; of two entries with one key the later stays. -/
def ofList (entries : List (String × α)) : Dict α :=
  entries.foldl (fun d e => d.insert e.1 e.2) empty

/-- The dictionary with a function applied to its values. -/
def map {β : Type} (f : α → β) (d : Dict α) : Dict β :=
  ⟨d.entries.map fun e => (e.1, f e.2), by
    rw [List.pairwise_map]
    exact d.sorted⟩

@[simp] theorem get?_empty (key : String) : (empty : Dict α).get? key = none := rfl

theorem lookup_cons_eq (k : String) (e : String × α) (entries : List (String × α)) :
    (e :: entries).lookup k = if k = e.1 then some e.2 else entries.lookup k := by
  obtain ⟨k', v⟩ := e
  by_cases h : k = k'
  · simp [h]
  · have : (k == k') = false := by simpa using h
    simp [List.lookup_cons, this, h]

theorem lookup_insertEntry (k key : String) (value : α) (entries : List (String × α)) :
    (insertEntry key value entries).lookup k =
      if k = key then some value else entries.lookup k := by
  induction entries with
  | nil => simp [insertEntry, lookup_cons_eq]
  | cons hd tl ih =>
    obtain ⟨k', v⟩ := hd
    unfold insertEntry
    grind [lookup_cons_eq]

/-- **Read over write.** -/
theorem get?_insert (d : Dict α) (k key : String) (value : α) :
    (d.insert key value).get? k = if k = key then some value else d.get? k :=
  lookup_insertEntry k key value d.entries

@[simp] theorem get?_insert_self (d : Dict α) (key : String) (value : α) :
    (d.insert key value).get? key = some value := by
  simp [get?_insert]

theorem get?_insert_of_ne (d : Dict α) {k key : String} (value : α) (h : k ≠ key) :
    (d.insert key value).get? k = d.get? k := by
  simp [get?_insert, h]

theorem lookup_map {β : Type} (f : α → β) (entries : List (String × α)) (k : String) :
    (entries.map fun e => (e.1, f e.2)).lookup k = (entries.lookup k).map f := by
  induction entries with
  | nil => rfl
  | cons hd tl ih =>
    rw [List.map_cons, lookup_cons_eq, lookup_cons_eq, ih]
    by_cases h : k = hd.1 <;> simp [h]

@[simp] theorem get?_map {β : Type} (f : α → β) (d : Dict α) (k : String) :
    (d.map f).get? k = (d.get? k).map f :=
  lookup_map f d.entries k

theorem lookup_eq_none_of_lt {k : String} {entries : List (String × α)}
    (h : ∀ e ∈ entries, k < e.1) : entries.lookup k = none := by
  induction entries with
  | nil => rfl
  | cons hd tl ih =>
    have hk : k ≠ hd.1 := fun he => String.lt_irrefl k (by simpa [← he] using h hd (by simp))
    rw [lookup_cons_eq, if_neg hk]
    exact ih fun e he => h e (List.mem_cons_of_mem _ he)

theorem lookup_eq_some_iff {entries : List (String × α)}
    (h : entries.Pairwise (fun a b => a.1 < b.1)) {k : String} {v : α} :
    entries.lookup k = some v ↔ (k, v) ∈ entries := by
  induction entries with
  | nil => simp
  | cons hd tl ih =>
    obtain ⟨k', v'⟩ := hd
    rw [List.pairwise_cons] at h
    rw [lookup_cons_eq, List.mem_cons, ← ih h.2, Prod.mk.injEq]
    by_cases hk : k = k'
    · subst hk
      simp [lookup_eq_none_of_lt h.1, eq_comm]
    · simp [hk]

/-- **The value of a key is that of its entry.** -/
theorem get?_eq_some_iff {d : Dict α} {k : String} {v : α} :
    d.get? k = some v ↔ (k, v) ∈ d.entries :=
  lookup_eq_some_iff d.sorted

theorem eq_of_lookup_eq {l m : List (String × α)} (hl : l.Pairwise (fun a b => a.1 < b.1))
    (hm : m.Pairwise (fun a b => a.1 < b.1)) (h : ∀ k, l.lookup k = m.lookup k) : l = m := by
  induction l generalizing m with
  | nil =>
    cases m with
    | nil => rfl
    | cons b m => simpa [lookup_cons_eq] using h b.1
  | cons a l ih =>
    rw [List.pairwise_cons] at hl
    cases m with
    | nil => simpa [lookup_cons_eq] using h a.1
    | cons b m =>
      rw [List.pairwise_cons] at hm
      have hab : a.1 = b.1 := by
        have ha := h a.1
        have hb := h b.1
        rw [lookup_cons_eq, lookup_cons_eq] at ha hb
        by_cases hab : a.1 = b.1
        · exact hab
        · exfalso
          rw [if_pos rfl, if_neg hab] at ha
          rw [if_neg fun he => hab he.symm, if_pos rfl] at hb
          have hlt : ¬ a.1 < b.1 := fun hlt => by
            rw [lookup_eq_none_of_lt fun e he => String.lt_trans hlt (hm.1 e he)] at ha
            cases ha
          have hgt : ¬ b.1 < a.1 := fun hlt => by
            rw [lookup_eq_none_of_lt fun e he => String.lt_trans hlt (hl.1 e he)] at hb
            cases hb
          exact hab (String.le_antisymm (String.not_lt.1 hgt) (String.not_lt.1 hlt))
      have hv : a = b := by
        have ha := h a.1
        rw [lookup_cons_eq, lookup_cons_eq, if_pos rfl, if_pos hab] at ha
        exact Prod.ext hab (Option.some.inj ha)
      subst hv
      congr 1
      refine ih hl.2 hm.2 fun k => ?_
      have hk := h k
      rw [lookup_cons_eq, lookup_cons_eq] at hk
      by_cases he : k = a.1
      · subst he
        rw [lookup_eq_none_of_lt hl.1, lookup_eq_none_of_lt hm.1]
      · simpa only [if_neg he] using hk

/-- **Look-ups determine a dictionary.** -/
theorem ext_get? {d e : Dict α} (h : ∀ k, d.get? k = e.get? k) : d = e := by
  obtain ⟨l, hl⟩ := d
  obtain ⟨m, hm⟩ := e
  have : l = m := eq_of_lookup_eq hl hm h
  subst this
  rfl

/-- Writing the value that is there already changes nothing. -/
theorem insert_eq_self {d : Dict α} {key : String} {value : α} (h : d.get? key = some value) :
    d.insert key value = d := by
  refine ext_get? fun k => ?_
  rw [get?_insert]
  by_cases hk : k = key
  · rw [if_pos hk, hk, h]
  · rw [if_neg hk]

theorem get?_foldl_insert (entries : List (String × α)) (d : Dict α) (k : String) :
    (entries.foldl (fun d e => d.insert e.1 e.2) d).get? k =
      (entries.reverse.lookup k).or (d.get? k) := by
  induction entries generalizing d with
  | nil => simp
  | cons hd tl ih =>
    rw [List.foldl_cons, ih, List.reverse_cons, List.lookup_append, get?_insert]
    cases tl.reverse.lookup k with
    | some v => simp
    | none => by_cases h : k = hd.1 <;> simp [lookup_cons_eq, h]

/-- **The last entry of a key counts.** -/
theorem get?_ofList (entries : List (String × α)) (k : String) :
    (ofList entries).get? k = entries.reverse.lookup k := by
  simp [ofList, get?_foldl_insert]

theorem lookup_reverse {entries : List (String × α)}
    (h : entries.Pairwise (fun a b => a.1 < b.1)) (k : String) :
    entries.reverse.lookup k = entries.lookup k := by
  induction entries with
  | nil => rfl
  | cons hd tl ih =>
    rw [List.pairwise_cons] at h
    rw [List.reverse_cons, List.lookup_append, ih h.2, lookup_cons_eq, lookup_cons_eq]
    by_cases hk : k = hd.1
    · subst hk
      rw [lookup_eq_none_of_lt h.1]
      simp
    · simp [hk]

/-- A dictionary is rebuilt from its entries. -/
@[simp] theorem ofList_entries (d : Dict α) : ofList d.entries = d :=
  ext_get? fun k => by rw [get?_ofList, lookup_reverse d.sorted]; rfl

end Dict

/-- A dictionary of dictionaries, with a value at an outer and an inner key. -/
abbrev Table (α : Type) := Dict (Dict α)

namespace Table

variable {α : Type}

/-- The value at an outer and an inner key. -/
def find? (t : Table α) (outer inner : String) : Option α :=
  (t.get? outer).bind (·.get? inner)

/-- Writes a value at an outer and an inner key, opening the outer one if it is new. -/
def put (t : Table α) (outer inner : String) (value : α) : Table α :=
  t.insert outer (((t.get? outer).getD .empty).insert inner value)

@[simp] theorem find?_empty (outer inner : String) :
    find? (Dict.empty : Table α) outer inner = none := rfl

/-- **Read over write** at two keys. -/
theorem find?_put (t : Table α) (o i outer inner : String) (value : α) :
    (put t outer inner value).find? o i =
      if o = outer ∧ i = inner then some value else t.find? o i := by
  unfold find? put
  rw [Dict.get?_insert]
  by_cases ho : o = outer
  · subst ho
    by_cases hi : i = inner
    · simp [hi]
    · cases t.get? o <;> simp [hi, Dict.get?_insert]
  · simp [ho]

end Table

end Questline
