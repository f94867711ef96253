import Questline.Proofs.Guard.FlagPath
import Questline.Proofs.State.Reports

/-! # Where effects show

An effect writes one value, and guards have few ways to read it: the status of an objective and the
level of a resource under their paths, a flag by its namespace and name or under its path. A value
whose id or name has a dot shows under no path, since paths are parted at every dot. All other
readings are as before, so an effect turns a guard only if the guard reads what was written.

* `Effect.ShowsIn`: the readings in which an effect shows.
* `State.agrees_apply`: every other reading is as before.
* `State.exists_reads_of_holds_ne`: a guard that is turned reads what was written. -/

namespace Questline

/-- The path of the status of an objective. -/
def State.statusPath (id : String) : String := ".".intercalate ["state", "objectives", id]

open State in
/-- **The readings in which an effect shows.** -/
inductive Effect.ShowsIn : Effect → Reading → Prop
  | status {id status : String} (h : '.' ∉ id.toList) :
      ShowsIn (.setObjective id status) (.path (statusPath id))
  | level {key : String} {delta : Binary64} (h : '.' ∉ key.toList) :
      ShowsIn (.addResource key delta) (.path (levelPath key))
  | flag (key : String) (value : Bool) :
      ShowsIn (.setFlag key value) (.flag (splitFlagKey key).1 (splitFlagKey key).2)
  | flagPath {key : String} {value : Bool} (h : '.' ∉ (splitFlagKey key).2.toList) :
      ShowsIn (.setFlag key value) (.path (flagPath (splitFlagKey key).1 (splitFlagKey key).2))

namespace State

variable {s : State} {e : Effect} {g : Guard} {r : Reading}

/-- A path with three segments is known by them, and the last has no dot. -/
theorem eq_of_segments {path category outer inner : String}
    (h : segments path = [category, outer, inner]) :
    path = ".".intercalate [category, outer, inner] ∧ '.' ∉ inner.toList := by
  obtain ⟨hpath, hdots⟩ := (segments_eq_iff (List.cons_ne_nil _ _)).mp h
  exact ⟨hpath, hdots inner (by simp)⟩

/-- **Every reading in which an effect does not show** is as before. -/
theorem agrees_apply (h : ¬ e.ShowsIn r) : r.Agrees (s.apply e).facts s.facts := by
  cases e with
  | setObjective id status =>
    cases r with
    | flag space name => rfl
    | path path =>
      refine Facts.resolve_congr rfl rfl rfl (fun _ _ _ => rfl) fun space key hpath => ?_
      refine find?_scalarTable_congr (fun _ => rfl) (fun _ => rfl) fun hspace => ?_
      refine Dict.get?_insert_of_ne _ _ fun hkey => h ?_
      subst hspace hkey
      obtain ⟨rfl, hdot⟩ := eq_of_segments hpath
      exact .status hdot
  | setFlag key value =>
    cases r with
    | flag space name =>
      refine flagValue_withFlag_of_ne s value fun hkey => h ?_
      obtain ⟨rfl, rfl⟩ := Prod.mk.inj hkey
      exact .flag key value
    | path path =>
      refine Facts.resolve_congr rfl rfl rfl (fun space name hpath => ?_) (fun _ _ _ => rfl)
      refine flagValue_withFlag_of_ne s value fun hkey => h ?_
      obtain ⟨rfl, rfl⟩ := Prod.mk.inj hkey
      obtain ⟨rfl, hdot⟩ := eq_of_segments hpath
      exact .flagPath hdot
  | addResource key delta =>
    cases r with
    | flag space name => rfl
    | path path =>
      refine Facts.resolve_congr rfl rfl rfl (fun _ _ _ => rfl) fun space key hpath => ?_
      refine find?_scalarTable_congr (fun _ => rfl) (fun hspace => ?_) (fun _ => rfl)
      refine Dict.get?_insert_of_ne _ _ fun hkey => h ?_
      subst hspace hkey
      obtain ⟨rfl, hdot⟩ := eq_of_segments hpath
      exact .level hdot
  | malformed kind defect => cases r <;> rfl
  | unrecognized kind => cases r <;> rfl

/-- **A guard that an effect turns** reads what the effect wrote, within the bound of the depth
guard. -/
theorem exists_reads_of_holds_ne (h : g.holds (s.apply e).facts ≠ g.holds s.facts) :
    ∃ r, e.ShowsIn r ∧ g.Reads r := by
  by_contra hnone
  refine h (Guard.holds_congr fun r hr => agrees_apply fun hshows => ?_)
  exact hnone ⟨r, hshows, hr⟩

/-- A lamp that is lit turns a guard on its path, which names the namespace that its key leaves
out. -/
theorem exists_reads_of_holds_ne_lamp :
    let g : Guard := .all [.any [.not (.compare .eq (flagPath "global" "lamp") (.bool true))]]
    let e : Effect := .setFlag "lamp" true
    g.holds (blank.apply e).facts ≠ g.holds blank.facts ∧ ∃ r, e.ShowsIn r ∧ g.Reads r := by
  intro g e
  have hturned : g.holds (blank.apply e).facts ≠ g.holds blank.facts := by decide
  exact ⟨hturned, exists_reads_of_holds_ne hturned⟩

end State

end Questline
