import Questline.Guard.Facts

/-! # Segments of paths

A path and its segments determine each other.

* `intercalate_segments`: the segments, joined by dots, are the path.
* `segments_intercalate`: segments without dots, joined, are parted again. `notMem_of_mem_segments`:
  no segment has a dot.
* `segments_eq_iff`: when a path has given segments. `segments_injective`: two paths with the same
  segments are the same path.
* `firstSegment`: the part of a path before its first dot. -/

namespace Questline

theorem splitDots_eq_splitOn (cs : List Char) : splitDots cs = cs.splitOn '.' := by
  induction cs with
  | nil => rfl
  | cons c rest ih =>
    rw [splitDots, List.splitOn_cons_eq_if_modifyHead, ih]
    by_cases hc : c = '.'
    · simp [hc]
    · rw [if_neg hc, if_neg (by simpa using hc)]
      cases h : rest.splitOn '.' with
      | nil => exact absurd h (List.splitOn_ne_nil '.' rest)
      | cons part parts => rfl

/-- **The segments of a path, joined by dots, are the path.** -/
theorem intercalate_segments (path : String) : ".".intercalate (segments path) = path := by
  have hid : String.toList ∘ String.ofList = id := funext fun cs => String.toList_ofList
  rw [← String.toList_inj, String.toList_intercalate, segments, List.map_map, hid, List.map_id,
    splitDots_eq_splitOn]
  exact List.intercalate_splitOn '.'

/-- **Segments without dots, joined, are parted again.** -/
theorem segments_intercalate {parts : List String} (hdots : ∀ part ∈ parts, '.' ∉ part.toList)
    (hne : parts ≠ []) : segments (".".intercalate parts) = parts := by
  have hid : String.ofList ∘ String.toList = id := funext fun part => String.ofList_toList
  have hsplit : (['.'].intercalate (parts.map String.toList)).splitOn '.' =
      parts.map String.toList :=
    List.splitOn_intercalate '.' (by simpa using hdots) (by simpa using hne)
  rw [segments, splitDots_eq_splitOn, String.toList_intercalate]
  show List.map String.ofList ((['.'].intercalate (parts.map String.toList)).splitOn '.') = parts
  rw [hsplit, List.map_map, hid, List.map_id]

theorem notMem_of_mem_splitDots {cs part : List Char} (h : part ∈ splitDots cs) : '.' ∉ part := by
  induction cs generalizing part with
  | nil => simp_all [splitDots]
  | cons c rest ih =>
    rw [splitDots] at h
    split at h
    · rcases List.mem_cons.mp h with rfl | h
      · exact List.not_mem_nil
      · exact ih h
    · rename_i hc
      have hdot : '.' ≠ c := fun heq => hc heq.symm
      cases hrest : splitDots rest with
      | nil =>
        rw [hrest] at h
        rw [List.mem_singleton.mp h]
        exact fun hmem => hdot (List.mem_singleton.mp hmem)
      | cons first others =>
        rw [hrest] at h ih
        rcases List.mem_cons.mp h with rfl | h
        · exact fun hmem => ih List.mem_cons_self ((List.mem_cons.mp hmem).resolve_left hdot)
        · exact ih (List.mem_cons_of_mem _ h)

theorem notMem_of_mem_segments {path part : String} (h : part ∈ segments path) :
    '.' ∉ part.toList := by
  obtain ⟨cs, hcs, rfl⟩ := List.mem_map.mp h
  rw [String.toList_ofList]
  exact notMem_of_mem_splitDots hcs

/-- A path is known by its segments. -/
theorem segments_injective {p q : String} (h : segments p = segments q) : p = q := by
  rw [← intercalate_segments p, h, intercalate_segments]

/-- **A path has given segments** just when it is those segments joined and none of them has a
dot. -/
theorem segments_eq_iff {path : String} {parts : List String} (hne : parts ≠ []) :
    segments path = parts ↔
      path = ".".intercalate parts ∧ ∀ part ∈ parts, '.' ∉ part.toList := by
  constructor
  · rintro rfl
    exact ⟨(intercalate_segments path).symm, fun part hpart => notMem_of_mem_segments hpart⟩
  · rintro ⟨rfl, hdots⟩
    exact segments_intercalate hdots hne

/-! ### The first segment -/

/-- **The part of a path before its first dot.** -/
def firstSegment (path : String) : String := String.ofList (path.toList.takeWhile (· ≠ '.'))

theorem exists_splitDots_eq_cons (cs : List Char) :
    ∃ rest, splitDots cs = cs.takeWhile (· ≠ '.') :: rest := by
  induction cs with
  | nil => exact ⟨[], rfl⟩
  | cons c rest ih =>
    obtain ⟨parts, hparts⟩ := ih
    rw [splitDots]
    by_cases hc : c = '.'
    · exact ⟨splitDots rest, by simp [hc]⟩
    · exact ⟨parts, by simp [hc, hparts]⟩

/-- The segments of a path begin with the first one. -/
theorem exists_segments_eq_cons (path : String) :
    ∃ rest, segments path = firstSegment path :: rest := by
  obtain ⟨parts, hparts⟩ := exists_splitDots_eq_cons path.toList
  exact ⟨parts.map String.ofList, by rw [segments, hparts, List.map_cons, firstSegment]⟩

theorem firstSegment_eq_of_segments {path first : String} {rest : List String}
    (h : segments path = first :: rest) : firstSegment path = first := by
  obtain ⟨parts, hparts⟩ := exists_segments_eq_cons path
  exact (List.cons.inj (hparts.symm.trans h)).1

end Questline
