import Questline.Proofs.State.Shown

/-! # What guards see of a state

Guards read a state through paths. Those of the category `state` show the status of an objective
and the level of a resource, if its id has no dot, the retries, and the current node if there is
one; no other path of the category has a value. The numbers of the other categories are those of the
relationships, the inventory and the balances, as if the state held nothing else.

* `State.Shows`: what a path of the category `state` shows.
* `State.belongings`: the numbers of a state alone.
* `State.shown_to_guards`: what guards see of these, and no more. -/

namespace Questline

/-- A path of the category `state` has the value of a scalar at two keys, or none. -/
theorem Facts.resolve_eq_some_iff_of_state {f : Facts} {path : String} {v : Literal}
    (h : firstSegment path = "state") :
    f.resolve path = some v ↔
      ∃ space key, segments path = ["state", space, key] ∧ f.state.find? space key = some v := by
  obtain ⟨keys, hsegments⟩ := exists_segments_eq_cons path
  rw [resolve, hsegments, h]
  rcases keys with _ | ⟨space, _ | ⟨key, _ | ⟨other, rest⟩⟩⟩
  case cons.cons.nil =>
    show f.state.find? space key = some v ↔ _
    constructor
    · intro hfind
      exact ⟨space, key, rfl, hfind⟩
    · rintro ⟨space', key', hkeys, hfind⟩
      cases hkeys
      exact hfind
  all_goals
    show (none : Option Literal) = some v ↔ _
    simp

namespace State

variable {s : State} {path : String} {v : Literal}

/-- The path of the retries. -/
def retriesPath : String := "state.progress.retries"

/-- **What a path of the category `state` shows of a state.** -/
inductive Shows (s : State) : String → Literal → Prop
  | status {id status : String} (hdot : '.' ∉ id.toList) (h : s.objective? id = some status) :
      Shows s (statusPath id) (.text status)
  | level {key : String} {level : Binary64} (hdot : '.' ∉ key.toList)
      (h : s.resource? key = some level) : Shows s (levelPath key) (.float level)
  | retries {count : Int64} (h : count.toInt = s.retries.toNat) : Shows s retriesPath (.int count)
  | position {id : String} (h : s.current = some id) : Shows s positionPath (.text id)

/-- The relationships, the inventory and the balances of a state, and nothing else of it. -/
def belongings (s : State) : Facts :=
  { Facts.empty with rel := s.relationships, inv := s.inventory, currency := s.currency }

theorem segments_retriesPath : segments retriesPath = ["state", "progress", "retries"] := by
  decide

theorem segments_statusPath {id : String} (h : '.' ∉ id.toList) :
    segments (statusPath id) = ["state", "objectives", id] := by
  refine (segments_eq_iff (List.cons_ne_nil _ _)).mpr ⟨rfl, ?_⟩
  simpa using h

/-- The retries fit into an integer of guards. -/
theorem toInt_retries (s : State) : (Int64.ofNat s.retries.toNat).toInt = s.retries.toNat :=
  Int64.toInt_ofNat_of_lt (s.retries.toNat_lt.trans (by decide))

/-- What is found at two keys is what a path shows. -/
theorem shows_of_find? {space key : String} (hsegments : segments path = ["state", space, key])
    (hfind : s.scalarTable.find? space key = some v) : s.Shows path v := by
  rw [find?_scalarTable] at hfind
  split_ifs at hfind with hprogress hresources hobjectives
  · subst hprogress
    rw [get?_progressFacts] at hfind
    split_ifs at hfind with hposition hretries
    · obtain ⟨id, hcurrent, rfl⟩ := Option.map_eq_some_iff.mp hfind
      subst hposition
      obtain rfl := segments_injective (hsegments.trans segments_positionPath.symm)
      exact .position hcurrent
    · obtain rfl := Option.some.inj hfind
      subst hretries
      obtain rfl := segments_injective (hsegments.trans segments_retriesPath.symm)
      exact .retries s.toInt_retries
  · subst hresources
    obtain ⟨level, hlevel, rfl⟩ := Option.map_eq_some_iff.mp hfind
    obtain ⟨rfl, hdot⟩ := eq_of_segments hsegments
    exact .level hdot hlevel
  · subst hobjectives
    obtain ⟨status, hstatus, rfl⟩ := Option.map_eq_some_iff.mp hfind
    obtain ⟨rfl, hdot⟩ := eq_of_segments hsegments
    exact .status hdot hstatus

theorem exists_find?_of_shows (h : s.Shows path v) :
    ∃ space key, segments path = ["state", space, key] ∧
      s.scalarTable.find? space key = some v := by
  cases h with
  | @status id status hdot hstatus =>
    refine ⟨"objectives", id, segments_statusPath hdot, ?_⟩
    rw [find?_scalarTable]
    exact congrArg (Option.map Literal.text) hstatus
  | @level key level hdot hlevel =>
    refine ⟨"resources", key, segments_levelPath hdot, ?_⟩
    rw [find?_scalarTable]
    exact congrArg (Option.map Literal.float) hlevel
  | @retries count hcount =>
    refine ⟨"progress", "retries", segments_retriesPath, ?_⟩
    have hsame : Int64.ofNat s.retries.toNat = count :=
      Int64.toInt_inj.mp (s.toInt_retries.trans hcount.symm)
    rw [find?_scalarTable, if_pos rfl, get?_progressFacts, hsame]
    rfl
  | @position id hcurrent =>
    refine ⟨"progress", "currentNodeId", segments_positionPath, ?_⟩
    rw [find?_scalarTable, if_pos rfl, get?_progressFacts, hcurrent]
    rfl

/-- **What guards see of a state.** A path of the category `state` has a value just when it shows
the status of an objective, the level of a resource, the retries or the current node. A path of the
other categories with numbers has the value that the belongings alone give it. -/
theorem shown_to_guards (s : State) (path : String) :
    (firstSegment path = "state" → ∀ v, s.facts.resolve path = some v ↔ s.Shows path v) ∧
    (firstSegment path ∈ ["rel", "inv", "currency"] →
      s.facts.resolve path = s.belongings.resolve path) := by
  constructor
  · intro hstate v
    rw [Facts.resolve_eq_some_iff_of_state hstate]
    constructor
    · rintro ⟨space, key, hsegments, hfind⟩
      exact shows_of_find? hsegments hfind
    · exact exists_find?_of_shows
  · intro hnumber
    refine Facts.resolve_congr rfl rfl rfl (fun space name hpath => ?_) fun space key hpath => ?_
    · rw [firstSegment_eq_of_segments hpath] at hnumber
      exact absurd hnumber (by decide)
    · rw [firstSegment_eq_of_segments hpath] at hnumber
      exact absurd hnumber (by decide)

/-- A path that ends in a dot belongs to the category `state`, and one of an item to the others. -/
theorem shown_to_guards_after_dot :
    let s := (blank.withObjective "a.b" "done").withObjective "" "open"
    (firstSegment "state.objectives." = "state" ∧
      firstSegment "inv.hero.rope" ∈ ["rel", "inv", "currency"]) ∧
    (∀ v, s.facts.resolve "state.objectives." = some v ↔ s.Shows "state.objectives." v) ∧
    s.facts.resolve "inv.hero.rope" = s.belongings.resolve "inv.hero.rope" := by
  intro s
  have hstate : firstSegment "state.objectives." = "state" := by decide
  have hitem : firstSegment "inv.hero.rope" ∈ ["rel", "inv", "currency"] := by decide
  exact ⟨⟨hstate, hitem⟩, (shown_to_guards s _).1 hstate, (shown_to_guards s _).2 hitem⟩

/-- An objective whose id has a dot shows under no path, one without an id under a path that ends in
a dot. -/
example :
    let s := (blank.withObjective "a.b" "done").withObjective "" "open"
    s.facts.resolve "state.objectives.a.b" = none ∧
      s.facts.resolve "state.objectives." = some (.text "open") := by
  decide

end State

end Questline
