import Questline.Guard.Verdict
import Questline.Proofs.Guard.Path

/-! # Flags as paths

A flag can be tested in two forms: as a flag, by its namespace and its name, or by comparing its
path with a truth value. The path is parted at every dot, and a flag is found only at two keys. So
a dot within the namespace or the name leads the path astray: it is false whatever the flag.

* `flagPath`: the path of a flag. `segments_flagPath`: what it is parted into.
* `Facts.resolve_flagPath`: the value of the path.
* `Guard.flag_form_iff`: when the two forms agree. `Guard.flag_form_astray`: they may not. -/

namespace Questline

/-- The path of a flag. -/
def flagPath (space name : String) : String := "flag." ++ space ++ "." ++ name

/-! ### Segments of joined paths -/

/-- **A path of two paths has the segments of both.** -/
theorem segments_append (a b : String) : segments (a ++ "." ++ b) = segments a ++ segments b := by
  have hchars : (a ++ "." ++ b).toList = a.toList ++ '.' :: b.toList := by simp
  rw [segments, hchars, splitDots_eq_splitOn, List.splitOn_append_cons_self, List.map_append,
    ← splitDots_eq_splitOn, ← splitDots_eq_splitOn]
  rfl

theorem segments_of_notMem {path : String} (h : '.' ∉ path.toList) : segments path = [path] := by
  rw [segments, splitDots_eq_splitOn, List.splitOn_eq_singleton h, List.map_singleton,
    String.ofList_toList]

theorem length_segments_pos (path : String) : 0 < (segments path).length := by
  rw [segments, splitDots_eq_splitOn, List.length_map]
  exact List.length_pos_iff.mpr (List.splitOn_ne_nil '.' path.toList)

/-- A path with a dot has two segments at least. -/
theorem two_le_length_segments {path : String} (h : '.' ∈ path.toList) :
    2 ≤ (segments path).length := by
  obtain ⟨front, back, hchars⟩ := List.append_of_mem h
  have hpath : path = String.ofList front ++ "." ++ String.ofList back := by
    rw [← String.toList_inj, hchars]
    simp
  have hfront := length_segments_pos (String.ofList front)
  have hback := length_segments_pos (String.ofList back)
  rw [hpath, segments_append, List.length_append]
  omega

theorem segments_flagPath (space name : String) :
    segments (flagPath space name) = "flag" :: (segments space ++ segments name) := by
  have hpath : flagPath space name = "flag" ++ "." ++ (space ++ "." ++ name) := by
    rw [← String.toList_inj]
    simp [flagPath]
  have hflag : segments "flag" = ["flag"] := by decide
  rw [hpath, segments_append, segments_append, hflag, List.singleton_append]

/-! ### The value of the path -/

theorem Facts.atPair_of_two_lt {α : Type} (t : Table α) (default : α) {keys : List String}
    (h : 2 < keys.length) : atPair t default keys = default := by
  rcases keys with _ | ⟨a, _ | ⟨b, _ | ⟨c, rest⟩⟩⟩
  · rfl
  · rfl
  · simp at h
  · rfl

/-- **The path of a flag shows it** if neither its namespace nor its name has a dot; else it shows
false. -/
theorem Facts.resolve_flagPath (f : Facts) (space name : String) :
    f.resolve (flagPath space name) = some (.bool
      (if '.' ∈ space.toList ∨ '.' ∈ name.toList then false else f.flagValue space name)) := by
  have hvalue : f.resolve (flagPath space name) =
      some (.bool (atPair f.flag false (segments space ++ segments name))) := by
    rw [resolve, segments_flagPath]
    rfl
  have hspace := length_segments_pos space
  have hname := length_segments_pos name
  rw [hvalue]
  split
  · rename_i hdot
    have hlong : 2 < (segments space ++ segments name).length := by
      rw [List.length_append]
      rcases hdot with hdot | hdot
      · have := two_le_length_segments hdot
        omega
      · have := two_le_length_segments hdot
        omega
    rw [atPair_of_two_lt f.flag false hlong]
  · rename_i hdot
    obtain ⟨hspace, hname⟩ := not_or.mp hdot
    rw [segments_of_notMem hspace, segments_of_notMem hname]
    rfl

/-! ### The two forms -/

namespace Guard

theorem holds_compare_flagPath (f : Facts) (space name : String) (expected : Bool) :
    holds (.compare .eq (flagPath space name) (.bool expected)) f =
      ((if '.' ∈ space.toList ∨ '.' ∈ name.toList then false else f.flagValue space name) ==
        expected) := by
  rw [holds_compare, f.resolve_flagPath, Option.any_some]
  rfl

/-- **The two forms of a flag test agree** just when neither the namespace nor the name has a dot,
or the flag is not raised. -/
theorem flag_form_iff (f : Facts) (space name : String) (expected : Bool) :
    holds (.flag space name expected) f =
        holds (.compare .eq (flagPath space name) (.bool expected)) f ↔
      ('.' ∉ space.toList ∧ '.' ∉ name.toList) ∨ f.flagValue space name = false := by
  have hflag : holds (.flag space name expected) f = (f.flagValue space name == expected) := rfl
  rw [hflag, holds_compare_flagPath]
  by_cases hdot : '.' ∈ space.toList ∨ '.' ∈ name.toList
  · -- the path shows false, so the forms agree on a flag that is not raised only
    rw [if_pos hdot, ← not_or, or_iff_right fun h => h hdot]
    cases f.flagValue space name <;> cases expected <;> decide
  · rw [if_neg hdot]
    exact iff_of_true rfl (.inl (not_or.mp hdot))

/-- A raised flag whose name has a dot is lost on its path. -/
theorem flag_form_astray :
    ¬ ∀ (f : Facts) (space name : String) (expected : Bool),
      holds (.flag space name expected) f =
        holds (.compare .eq (flagPath space name) (.bool expected)) f := by
  intro h
  have hsame := h (Facts.empty.add (.flag "story" "chapter.met" true)) "story" "chapter.met" true
  revert hsame
  decide

end Guard

end Questline
