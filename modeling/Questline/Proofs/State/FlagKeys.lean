import Mathlib.Data.List.TakeWhile
import Mathlib.Tactic.SplitIfs
import Questline.Guard.Verdict
import Questline.State.Basic

/-! # Flag keys and flags

A state stores flags by their keys, guards see them by namespace and name. A flag of the global
namespace has two keys, one with the namespace and one without, so two stored flags can stand for
one that guards see; then the last key in order counts.

* `otherSpelling?`: the other key of a flag. `splitFlagKey_eq_iff`: two keys stand for one flag just
  when they are equal or spellings of each other.
* `State.find?_flagTable`: a flag that guards see is that of the last of its keys.
* `State.flag_guards_after_write`: guards see a flag as it was written last just when its other key
  does not come later in order and hold the opposite. It may: `State.flag_write_hidden`. -/

namespace Questline

/-! ### The keys of a flag -/

/-- **The other spelling of a flag key**, with or without the global namespace. -/
def otherSpelling? (key : String) : Option String :=
  if '.' ∉ key.toList then some (globalSpace ++ "." ++ key)
  else if (splitFlagKey key).1 = globalSpace ∧ '.' ∉ (splitFlagKey key).2.toList then
    some (splitFlagKey key).2
  else none

theorem splitFlagKey_of_notMem {key : String} (h : '.' ∉ key.toList) :
    splitFlagKey key = (globalSpace, key) := by
  have hdrop : key.toList.dropWhile (· ≠ '.') = [] := by
    rw [List.dropWhile_eq_nil_iff]
    intro c hc
    simpa using fun heq : c = '.' => h (heq ▸ hc)
  rw [splitFlagKey, hdrop]

theorem splitFlagKey_append {space : String} (name : String) (h : '.' ∉ space.toList) :
    splitFlagKey (space ++ "." ++ name) = (space, name) := by
  have hchars : (space ++ "." ++ name).toList = space.toList ++ '.' :: name.toList := by simp
  have hspace : ∀ c ∈ space.toList, decide (c ≠ '.') = true := fun c hc => by
    simpa using fun heq : c = '.' => h (heq ▸ hc)
  rw [splitFlagKey, hchars, List.takeWhile_append_of_pos hspace,
    List.dropWhile_append_of_pos hspace]
  simp

/-- A key has no dot, or it is a namespace, a dot and a name. -/
theorem flagKey_cases (key : String) :
    '.' ∉ key.toList ∨ ∃ space name, '.' ∉ space.toList ∧ key = space ++ "." ++ name := by
  by_cases h : '.' ∈ key.toList
  · obtain ⟨front, back, hkey, hfront⟩ := List.eq_append_cons_of_mem h
    refine .inr ⟨String.ofList front, String.ofList back, by simpa using hfront, ?_⟩
    rw [← String.toList_inj, hkey]
    simp
  · exact .inl h

theorem otherSpelling?_of_notMem {key : String} (h : '.' ∉ key.toList) :
    otherSpelling? key = some (globalSpace ++ "." ++ key) := if_pos h

theorem otherSpelling?_append {space : String} (name : String) (h : '.' ∉ space.toList) :
    otherSpelling? (space ++ "." ++ name) =
      if space = globalSpace ∧ '.' ∉ name.toList then some name else none := by
  rw [otherSpelling?, if_neg (by simp), splitFlagKey_append name h]

/-- **Two keys stand for one flag** just when they are equal or spellings of each other. -/
theorem splitFlagKey_eq_iff {a b : String} :
    splitFlagKey a = splitFlagKey b ↔ a = b ∨ otherSpelling? b = some a := by
  have hglobal : '.' ∉ globalSpace.toList := by decide
  rcases flagKey_cases a with ha | ⟨space, name, hspace, rfl⟩ <;>
    rcases flagKey_cases b with hb | ⟨space', name', hspace', rfl⟩
  · rw [splitFlagKey_of_notMem ha, splitFlagKey_of_notMem hb, otherSpelling?_of_notMem hb]
    constructor
    · intro h
      exact .inl (Prod.mk.inj h).2
    · rintro (rfl | h)
      · rfl
      · rw [← Option.some.inj h] at ha
        simp at ha
  · rw [splitFlagKey_of_notMem ha, splitFlagKey_append name' hspace',
      otherSpelling?_append name' hspace']
    constructor
    · intro h
      obtain ⟨rfl, rfl⟩ := Prod.mk.inj h
      exact .inr (if_pos ⟨rfl, ha⟩)
    · rintro (rfl | h)
      · simp at ha
      · split_ifs at h with hname
        rw [hname.1, Option.some.inj h]
  · rw [splitFlagKey_of_notMem hb, splitFlagKey_append name hspace, otherSpelling?_of_notMem hb]
    constructor
    · intro h
      obtain ⟨rfl, rfl⟩ := Prod.mk.inj h
      exact .inr rfl
    · rintro (rfl | h)
      · simp at hb
      · rw [← splitFlagKey_append name hspace, ← Option.some.inj h, splitFlagKey_append b hglobal]
  · rw [splitFlagKey_append name hspace, splitFlagKey_append name' hspace',
      otherSpelling?_append name' hspace']
    constructor
    · intro h
      obtain ⟨rfl, rfl⟩ := Prod.mk.inj h
      exact .inl rfl
    · rintro (h | h)
      · rw [← splitFlagKey_append name hspace, h, splitFlagKey_append name' hspace']
      · split_ifs at h with hname
        rw [Option.some.inj h] at hname
        simp at hname

/-! ### Flags that guards see -/

theorem find?_foldl_put {α : Type} (key : String → String × String) (o i : String) :
    ∀ (entries : List (String × α)) (t : Table α),
      (entries.foldl (fun t e => t.put (key e.1).1 (key e.1).2 e.2) t).find? o i =
        ((entries.reverse.find? fun e => key e.1 == (o, i)).map Prod.snd).or (t.find? o i)
  | [], t => by simp
  | e :: entries, t => by
    rw [List.foldl_cons, find?_foldl_put key o i entries, Table.find?_put, List.reverse_cons,
      List.find?_append]
    cases entries.reverse.find? fun e => key e.1 == (o, i) with
    | some e' => simp
    | none =>
      by_cases h : key e.1 = (o, i)
      · simp [h]
      · have hne : ¬(o = (key e.1).1 ∧ i = (key e.1).2) := fun heq =>
          h (Prod.ext heq.1.symm heq.2.symm)
        simp [h, hne]

/-- Among entries in increasing order, the last that passes a test has the largest key. -/
theorem le_of_find?_reverse {α : Type} {p : String × α → Bool} {e e' : String × α} :
    ∀ {entries : List (String × α)}, entries.Pairwise (fun a b => a.1 < b.1) →
      entries.reverse.find? p = some e → e' ∈ entries → p e' = true → e'.1 ≤ e.1
  | [], _, h, _, _ => by simp at h
  | hd :: tl, hsorted, h, hmem, hp => by
    rw [List.pairwise_cons] at hsorted
    rw [List.reverse_cons, List.find?_append] at h
    cases hfind : tl.reverse.find? p with
    | some last =>
      rw [hfind, Option.some_or] at h
      rw [← Option.some.inj h] at *
      rcases List.mem_cons.mp hmem with rfl | hmem
      · have hlt := hsorted.1 last (by simpa using List.mem_of_find?_eq_some hfind)
        exact String.not_lt.mp (String.lt_asymm hlt)
      · exact le_of_find?_reverse hsorted.2 hfind hmem hp
    | none =>
      rw [hfind, Option.none_or] at h
      have hhd : e = hd := by simpa using List.mem_of_find?_eq_some h
      rcases List.mem_cons.mp hmem with rfl | hmem
      · exact hhd ▸ String.le_refl _
      · have := List.find?_eq_none.mp hfind e' (List.mem_reverse.mpr hmem)
        exact absurd hp this

/-- The guard that tests the flag of a key. -/
def Guard.ofFlagKey (key : String) (expected : Bool) : Guard :=
  .flag (splitFlagKey key).1 (splitFlagKey key).2 expected

namespace State

/-- **A flag that guards see is that of the last of its keys.** -/
theorem find?_flagTable {flags : Dict Bool} {key : String} {value : Bool}
    (h : flags.get? key = some value) :
    ∃ last v, flags.get? last = some v ∧ splitFlagKey last = splitFlagKey key ∧
      (∀ other w, flags.get? other = some w → splitFlagKey other = splitFlagKey key →
        other ≤ last) ∧
      (flagTable flags).find? (splitFlagKey key).1 (splitFlagKey key).2 = some v := by
  rw [Dict.get?_eq_some_iff] at h
  have hsome : (flags.entries.reverse.find? fun e => splitFlagKey e.1 == splitFlagKey key).isSome :=
    List.find?_isSome.mpr ⟨_, List.mem_reverse.mpr h, by simp⟩
  obtain ⟨⟨last, v⟩, hfind⟩ := Option.isSome_iff_exists.mp hsome
  refine ⟨last, v, ?_, ?_, fun other w hother hsame => ?_, ?_⟩
  · rw [Dict.get?_eq_some_iff]
    exact List.mem_reverse.mp (List.mem_of_find?_eq_some hfind)
  · simpa using List.find?_some hfind
  · exact le_of_find?_reverse flags.sorted hfind (Dict.get?_eq_some_iff.mp hother) (by simp [hsame])
  · rw [flagTable, find?_foldl_put splitFlagKey, hfind]
    rfl

/-- The flag that guards see at a namespace and a name: the last key that stands for it. -/
theorem find?_flagTable_eq_some_iff {flags : Dict Bool} {space name : String} {value : Bool} :
    (flagTable flags).find? space name = some value ↔
      ∃ last, flags.get? last = some value ∧ splitFlagKey last = (space, name) ∧
        ∀ other w, flags.get? other = some w → splitFlagKey other = (space, name) →
          other ≤ last := by
  constructor
  · intro h
    rw [flagTable, find?_foldl_put splitFlagKey, Table.find?_empty, Option.or_none,
      Option.map_eq_some_iff] at h
    obtain ⟨⟨last, v⟩, hfind, rfl⟩ := h
    have hlast : splitFlagKey last = (space, name) := by simpa using List.find?_some hfind
    refine ⟨last, ?_, hlast, fun other w hother hsame => ?_⟩
    · rw [Dict.get?_eq_some_iff]
      exact List.mem_reverse.mp (List.mem_of_find?_eq_some hfind)
    · exact le_of_find?_reverse flags.sorted hfind (Dict.get?_eq_some_iff.mp hother)
        (by simp [hsame])
  · rintro ⟨last, hget, hlast, hlargest⟩
    obtain ⟨last', v, hget', hsame, hlargest', hfind⟩ := find?_flagTable hget
    have heq : last' = last := String.le_antisymm (hlargest last' v hget' (hsame.trans hlast))
      (hlargest' last value hget rfl)
    subst heq
    rw [hlast] at hfind
    rw [hfind, ← hget', hget]

/-- Writing a key leaves what guards see of the other flags. -/
theorem find?_flagTable_insert_of_ne {key space name : String} (flags : Dict Bool) (value : Bool)
    (h : splitFlagKey key ≠ (space, name)) :
    (flagTable (flags.insert key value)).find? space name =
      (flagTable flags).find? space name := by
  have hget : ∀ other, splitFlagKey other = (space, name) →
      (flags.insert key value).get? other = flags.get? other := by
    rintro other hother
    exact Dict.get?_insert_of_ne _ _ (by rintro rfl; exact h hother)
  refine Option.ext fun v => ?_
  rw [find?_flagTable_eq_some_iff, find?_flagTable_eq_some_iff]
  refine exists_congr fun last => ?_
  constructor
  · rintro ⟨hlast, hsplit, hlargest⟩
    refine ⟨hget last hsplit ▸ hlast, hsplit, fun other w hother hsame => ?_⟩
    exact hlargest other w (by rw [hget other hsame, hother]) hsame
  · rintro ⟨hlast, hsplit, hlargest⟩
    refine ⟨(hget last hsplit).trans hlast, hsplit, fun other w hother hsame => ?_⟩
    exact hlargest other w (hget other hsame ▸ hother) hsame

theorem flagValue_withFlag_of_ne (s : State) (value : Bool) {key space name : String}
    (h : splitFlagKey key ≠ (space, name)) :
    (s.withFlag key value).facts.flagValue space name = s.facts.flagValue space name :=
  congrArg (Option.getD · false) (find?_flagTable_insert_of_ne s.flags value h)

/-- **A flag is seen as it was written last** just when its other spelling does not come later in
order and hold the opposite. -/
theorem flag_guards_after_write (s : State) (key : String) (value : Bool) :
    ((Guard.ofFlagKey key value).holds (s.apply (.setFlag key value)).facts = true ∧
        (Guard.ofFlagKey key (!value)).holds (s.apply (.setFlag key value)).facts = false) ↔
      ∀ other, otherSpelling? key = some other → key < other →
        s.flags.get? other ≠ some (!value) := by
  have hkey : (s.flags.insert key value).get? key = some value := Dict.get?_insert_self ..
  obtain ⟨last, v, hlast, hsame, hlargest, hfind⟩ := find?_flagTable hkey
  have hholds : ∀ expected, (Guard.ofFlagKey key expected).holds
      (s.apply (.setFlag key value)).facts = (v == expected) := fun expected =>
    congrArg (fun found => Option.getD found false == expected) hfind
  have hseen : ((v == value) = true ∧ (v == !value) = false) ↔ v = value := by
    cases v <;> cases value <;> decide
  rw [hholds, hholds, hseen]
  constructor
  · rintro rfl other hother hlt hhidden
    -- the other spelling is a later key of the same flag, so it is the last one
    have hne : other ≠ key := by rintro rfl; exact String.lt_irrefl _ hlt
    have hget : (s.flags.insert key v).get? other = some (!v) := by
      rw [Dict.get?_insert_of_ne _ _ hne, hhidden]
    have hle := hlargest other _ hget (splitFlagKey_eq_iff.mpr (.inr hother))
    rcases splitFlagKey_eq_iff.mp hsame with rfl | hother'
    · exact String.not_lt.mpr hle hlt
    · obtain rfl : other = last := Option.some.inj (hother.symm.trans hother')
      rw [hlast] at hget
      cases v <;> simp at hget
  · intro hopen
    by_cases hne : last = key
    · subst hne
      exact Option.some.inj (hlast.symm.trans hkey)
    · have hother := (splitFlagKey_eq_iff.mp hsame).resolve_left hne
      have hle := hlargest key value hkey rfl
      have hlt : key < last := Decidable.byContradiction fun hlt =>
        hne (String.le_antisymm (String.not_lt.mp hlt) hle)
      have hopposite : v ≠ !value := fun hv =>
        hopen last hother hlt (by rw [← hv, ← hlast, Dict.get?_insert_of_ne _ _ hne])
      simpa using hopposite

/-- A flag that was raised under its full key stays hidden behind a lowered one without the
namespace. -/
theorem flag_write_hidden :
    ¬ ∀ (s : State) (key : String) (value : Bool),
      (Guard.ofFlagKey key value).holds (s.apply (.setFlag key value)).facts = true ∧
        (Guard.ofFlagKey key (!value)).holds (s.apply (.setFlag key value)).facts = false := by
  intro h
  have hseen := (h (State.blank.withFlag "lamp" false) "global.lamp" true).1
  revert hseen
  decide

end State

end Questline
