import Questline.Proofs.Quest.Progress
import Questline.Proofs.Quest.Run
import Questline.Proofs.State.Saved

/-! # Saves of a run

Between two turns the state is saved as a text. Acts add to levels without limits, so a sum can grow
beyond the largest number, and from then on no save is read back. Up to there every save is.

* `Binary64.isFinite_of_add`: a finite sum has a finite first term.
* `Quest.levelsFinite_of_play`: levels that are finite after a turn were finite before it.
* `Quest.saved_stateAfter_iff`: which saves are read back. One of a sound quest may be lost:
  `Quest.save_lost`. -/

namespace Questline

theorem Binary64.isFinite_of_add {x y : Binary64} (h : (x.add y).isFinite = true) :
    x.isFinite = true := by
  unfold add at h
  split at h
  case h_1 => cases h
  case h_2 => cases h
  case h_3 m _ n _ =>
    split at h
    case h_1 hx _ => exact hx
    case h_2 hx _ => exact hx
    case h_3 =>
      -- the sum is the first term
      exact h
    case h_4 =>
      by_cases hsign : m = n
      · rwa [if_pos hsign] at h
      · rw [if_neg hsign] at h
        cases h

namespace State

variable {s : State}

/-- An effect adds to one level at most. -/
theorem levelsFinite_of_apply {e : Effect} (h : (s.apply e).LevelsFinite) : s.LevelsFinite := by
  cases e with
  | addResource key delta =>
    intro k level hlevel
    by_cases hk : k = key
    · subst hk
      have hsum : (s.apply (.addResource k delta)).resource? k = some (level.add delta) := by
        rw [apply, hlevel]
        exact Dict.get?_insert_self _ _ _
      exact Binary64.isFinite_of_add (h k _ hsum)
    · refine h k level ?_
      rw [← hlevel]
      exact Dict.get?_insert_of_ne s.resources _ hk
  | _ => exact h

end State

theorem levelsFinite_of_applyAll {s : State} {acts : List Act}
    (h : (applyAll s acts).1.LevelsFinite) : s.LevelsFinite := by
  induction acts generalizing s with
  | nil => exact h
  | cons a rest ih => exact State.levelsFinite_of_apply (ih h)

namespace Quest

variable {q : Quest} {s : State}

/-- **Levels that are finite after a turn were finite before it.** -/
theorem levelsFinite_of_play {acts : List Act} (h : (q.play s acts).state.LevelsFinite) :
    s.LevelsFinite := by
  obtain ⟨templates, _, _, _, _, hstate, -⟩ := exists_applyAll_play q s acts
  rw [hstate] at h
  exact levelsFinite_of_applyAll h

theorem levelsFinite_of_stateAfter {actLists : List (List Act)}
    (h : (q.stateAfter s actLists).LevelsFinite) : s.LevelsFinite := by
  induction actLists generalizing s with
  | nil => exact h
  | cons acts rest ih => exact levelsFinite_of_play (ih h)

/-- **Which saves are read back.** The save of the state that a run reaches is read back just when
all its levels are finite, else nothing is read; and it is read back only if all levels were finite
after every turn before. -/
theorem saved_stateAfter_iff (q : Quest) (s : State) (actLists : List (List Act))
    (hback : ∀ key level, (q.stateAfter s actLists).resource? key = some level →
      level.isFinite = true → Json.ReadsBack level) :
    let t := q.stateAfter s actLists
    (State.ofText? t.text = some t ↔ t.LevelsFinite) ∧
      (State.ofText? t.text = none ↔ ¬t.LevelsFinite) ∧
      (State.ofText? t.text = some t → ∀ i, (q.stateAfter s (actLists.take i)).LevelsFinite) := by
  intro t
  have hread : State.ofText? t.text = some t ↔ t.LevelsFinite :=
    State.ofText?_text_eq_some_iff hback
  refine ⟨hread, State.ofText?_text_eq_none_iff hback, ?_⟩
  intro hsaved i
  have hfinite : t.LevelsFinite := hread.mp hsaved
  have hsplit : t = q.stateAfter (q.stateAfter s (actLists.take i)) (actLists.drop i) := by
    rw [← stateAfter_append, List.take_append_drop]
  rw [hsplit] at hfinite
  exact levelsFinite_of_stateAfter hfinite

/-- A mint that strikes some gold with every turn. -/
def mint (gold : Binary64) : Quest where
  id := "mint"
  start := "press"
  nodes := [
    { id := "press", kind := .beat, synopsis := "Strike coins.", enterIf := []
      onSuccess := [.resource "gold" gold], onFail := [], hint := none }]
  edges := []

/-- The state at the press with some gold. -/
def atPress (gold : Binary64) : State :=
  (State.fresh .nil "press").withResource "gold" gold

theorem eq_of_only_level {gold level : Binary64} {key : String}
    (h : s.resources = Dict.empty.insert "gold" gold) (hlevel : s.resource? key = some level) :
    level = gold := by
  rw [State.resource?, h, Dict.get?_insert] at hlevel
  split at hlevel
  · exact (Option.some.inj hlevel).symm
  · cases hlevel

theorem ofText?_atPress {gold : Binary64} (hback : Json.ReadsBack gold)
    (hfinite : gold.isFinite = true) : State.ofText? (atPress gold).text = some (atPress gold) := by
  have hlevel : ∀ key level, (atPress gold).resource? key = some level → level = gold :=
    fun key level => eq_of_only_level rfl
  refine (State.ofText?_text_eq_some_iff ?_).mpr ?_
  · intro key level h _
    rwa [hlevel key level h]
  · intro key level h
    rwa [hlevel key level h]

theorem ofText?_mint {gold : Binary64} (hback : Json.ReadsBack gold)
    (hfinite : gold.isFinite = true) : ofText? (mint gold).toJson.text = some (mint gold) := by
  have hdelta : Json.ofBinary64 gold = .float gold := if_pos hfinite
  have hjson : (mint gold).toJson = .obj [("graphId", .str "mint"), ("start", .str "press"),
      ("nodes", .arr [.obj [("id", .str "press"), ("type", .str "beat"),
        ("synopsis", .str "Strike coins."),
        ("onSuccess", .arr [.obj [("type", .str "RESOURCE_UPDATE"), ("key", .str "gold"),
          ("delta", .float gold)]])]]),
      ("edges", .arr [])] := by
    rw [← hdelta]
    rfl
  have hprintable : Json.Printable (mint gold).toJson := by
    simp [hjson, Json.Printable, Json.PrintableItems, Json.PrintableFields, hback]
  have hnesting : Json.nesting (mint gold).toJson ≤ Json.nestingLimit := by
    rw [hjson]
    show 5 ≤ 127
    decide
  have hread : ofJson? (mint gold).toJson = some (mint gold) := by
    rw [hjson]
    rfl
  have hsound : (mint gold).check = none := rfl
  rw [ofText?, Json.ofDocument?_text _ hprintable hnesting, Option.bind_some, hread]
  simp [Option.filter, hsound]

/-- Ten coins on top of five. -/
theorem saved_after_strike :
    let q := mint (.ofNat 10)
    let s := atPress (.ofNat 5)
    let actLists := [[Act.ofKind resourceKind]]
    let t := q.stateAfter s actLists
    (∀ key level, t.resource? key = some level → level.isFinite = true → Json.ReadsBack level) ∧
      (State.ofText? t.text = some t ↔ t.LevelsFinite) ∧
      (State.ofText? t.text = none ↔ ¬t.LevelsFinite) ∧
      (State.ofText? t.text = some t → ∀ i, (q.stateAfter s (actLists.take i)).LevelsFinite) := by
  intro q s actLists t
  have hlevels : t.resources = Dict.empty.insert "gold" (.ofNat 15) := by decide +kernel
  have hfifteen : Json.ReadsBack (.ofNat 15) := by
    refine Json.readsBack_of_numeral ⟨false, 15, [0], none⟩ ?_ ?_ ?_ <;> decide +kernel
  have hback : ∀ key level, t.resource? key = some level → level.isFinite = true →
      Json.ReadsBack level := by
    intro key level hlevel _
    rwa [eq_of_only_level hlevels hlevel]
  exact ⟨hback, saved_stateAfter_iff q s actLists hback⟩

/-- **A save of a sound quest may be lost:** twice the largest power of ten is beyond all
numbers. -/
theorem save_lost :
    ¬ ∀ (source document : String) (s : State) (q : Quest) (actLists : List (List Act)),
      State.ofText? source = some s → ofText? document = some q →
        (∀ key level, (q.stateAfter s actLists).resource? key = some level →
          level.isFinite = true → Json.ReadsBack level) →
        State.ofText? (q.stateAfter s actLists).text = some (q.stateAfter s actLists) := by
  intro h
  let gold := Binary64.powerOfTen 308
  let t := (mint gold).stateAfter (atPress gold) [[.ofKind resourceKind]]
  have hfinite : gold.isFinite = true := by decide +kernel
  have hback : Json.ReadsBack gold := by
    refine Json.readsBack_of_numeral ⟨false, 1, [], some 308⟩ ?_ ?_ ?_ <;> decide +kernel
  have hlevels : t.resources = Dict.empty.insert "gold" (.infinity false) := by decide +kernel
  have hnone : ∀ key level, t.resource? key = some level → level.isFinite = true →
      Json.ReadsBack level := by
    intro key level hlevel hfinite
    rw [eq_of_only_level hlevels hlevel] at hfinite
    cases hfinite
  have hsource := ofText?_atPress hback hfinite
  have hdocument := ofText?_mint hback hfinite
  have hsaved := h _ _ _ _ [[.ofKind resourceKind]] hsource hdocument hnone
  have hinfinite := (State.ofText?_text_eq_some_iff hnone).mp hsaved "gold" (.infinity false)
  have hgold : t.resource? "gold" = some (.infinity false) := by
    rw [State.resource?, hlevels, Dict.get?_insert_self]
  exact Bool.false_ne_true (hinfinite hgold)

end Quest

end Questline
