import Questline.Proofs.Json.Reread
import Questline.Proofs.Quest.Written
import Questline.Proofs.State.Saved
import Questline.Proofs.State.Shown

/-! # What a saved state keeps

A state whose levels are finite is read back from its text with everything that it holds, but a
level may be taken for a neighbour or two. So a guard has the same verdict after a save, unless it
reads a level whose numeral is misread, and when all numerals are read as what they were written for
the state is the same.

* `State.reread`: a state as it is read back. `State.reread_toJson`: its fields are those that are
  read. `State.ofText?_text_eq_reread`: what is read from the text.
* `State.agrees_reread`: only a level that is misread shows.
* `State.saved_and_reread`: what a save keeps. -/

namespace Questline

theorem Json.rereadNumber_eq_self {x : Binary64} (h : ReadsBack x) : rereadNumber x = x := by
  rw [rereadNumber, reread_eq_self (.float x) h]

theorem Json.isFinite_of_readsBack {x : Binary64} (h : ReadsBack x) : x.isFinite = true := by
  by_contra hinfinite
  have hnull := reread_float_eq_null (Bool.eq_false_iff.mpr hinfinite)
  rw [reread_eq_self (.float x) h] at hnull
  cases hnull

theorem Json.reread_ofDict {α : Type} {write : α → Json} {f : α → α}
    (h : ∀ a, (write a).reread = write (f a)) (d : Dict α) :
    (ofDict write d).reread = ofDict write (d.map f) := by
  have hentries : (d.entries.map fun e => (e.1, (write e.2).reread)) =
      d.entries.map fun e => (e.1, write (f e.2)) :=
    List.map_congr_left fun e _ => congrArg (Prod.mk e.1) (h e.2)
  rw [ofDict, reread, rereadFields_eq_map]
  simp only [ofDict, Dict.map, List.map_map]
  exact congrArg Json.obj hentries

namespace State

variable {s : State} {r : Reading}

/-- **A state as it is read back:** its levels are read once more. -/
def reread (s : State) : State := { s with resources := s.resources.map Json.rereadNumber }

theorem resource?_reread (s : State) (key : String) :
    s.reread.resource? key = (s.resource? key).map Json.rereadNumber :=
  Dict.get?_map Json.rereadNumber s.resources key

theorem levelsFinite_reread (h : s.LevelsFinite) : s.reread.LevelsFinite := by
  intro key level hlevel
  rw [resource?_reread] at hlevel
  obtain ⟨x, hx, rfl⟩ := Option.map_eq_some_iff.mp hlevel
  exact (Json.reread_float (h key x hx)).2

theorem reread_eq_self (h : ∀ key level, s.resource? key = some level → Json.ReadsBack level) :
    s.reread = s := by
  have hlevels : s.resources.map Json.rereadNumber = s.resources := by
    refine Dict.ext_get? fun key => ?_
    rw [Dict.get?_map]
    cases hlevel : s.resources.get? key with
    | none => rfl
    | some level => exact congrArg some (Json.rereadNumber_eq_self (h key level hlevel))
  rw [reread, hlevels]

/-! ### Texts -/

/-- **The fields of a state are read back** as those of the state with its levels read once more. -/
theorem reread_toJson (s : State) : s.toJson.reread = s.reread.toJson := by
  have hlevels : (Json.ofDict .ofBinary64 s.resources).reread =
      .ofDict .ofBinary64 (s.resources.map Json.rereadNumber) :=
    Json.reread_ofDict Json.reread_ofBinary64 s.resources
  -- all but the levels is printable, as it is in a state without any
  have hprintable : Json.Printable { s with resources := .empty }.toJson :=
    printable_toJson fun key level hlevel => by cases hlevel
  obtain ⟨hid, hcurrent, hvisited, hfailures, hretries, hflags, hobjectives, -, hrelationships,
    hinventory, hcurrency, -⟩ := hprintable
  simp only [toJson, fields, reread, Json.reread, Json.rereadFields, hlevels,
    Json.ofNumeral_ofInt hretries, Json.reread_eq_self _ hid, Json.reread_eq_self _ hcurrent, Json.reread_eq_self _ hvisited,
    Json.reread_eq_self _ hfailures, Json.reread_eq_self _ hflags,
    Json.reread_eq_self _ hobjectives, Json.reread_eq_self _ hrelationships,
    Json.reread_eq_self _ hinventory, Json.reread_eq_self _ hcurrency]

/-- **What is read from the text** of a state with finite levels. -/
theorem ofText?_text_eq_reread (h : s.LevelsFinite) : ofText? s.text = some s.reread := by
  classical
  have hnesting : s.reread.toJson.nesting ≤ Json.nestingLimit :=
    (nesting_toJson_le s.reread).trans (by decide)
  rw [ofText?, text, Json.ofDocument?, Json.ofText?_text_eq_reread, Option.map_some, Json.document,
    reread_toJson, Json.trimDepth_eq_self _ hnesting, Option.bind_some, ofJson?_toJson,
    dict?_resources, if_pos (levelsFinite_reread h)]
  rfl

/-! ### Guards -/

/-- **Only a level that is misread shows.** -/
theorem agrees_reread
    (h : ∀ key level, s.resource? key = some level → r = .path (levelPath key) →
      Json.ReadsBack level) : r.Agrees s.reread.facts s.facts := by
  cases r with
  | flag space name => rfl
  | path path =>
    refine Facts.resolve_congr rfl rfl rfl (fun _ _ _ => rfl) fun space key hpath => ?_
    refine find?_scalarTable_congr (fun _ => rfl) (fun hspace => ?_) (fun _ => rfl)
    subst hspace
    obtain ⟨rfl, -⟩ := eq_of_segments hpath
    show (s.resources.map Json.rereadNumber).get? key = s.resources.get? key
    rw [Dict.get?_map]
    cases hlevel : s.resources.get? key with
    | none => rfl
    | some level => exact congrArg some (Json.rereadNumber_eq_self (h key level hlevel rfl))

/-- **What a save keeps** of a state with finite levels. The state is read back from its fields.
From its text it is read with its levels read once more. If every level is read as what it was
written for, that is the same state, and all guards have the same verdict. In any case those guards
have the same verdict that read no level which is misread. -/
theorem saved_and_reread (hfinite : s.LevelsFinite) :
    ofJson? s.toJson = some s ∧
    ∃ t, ofText? s.text = some t ∧
      t = { s with resources := s.resources.map Json.rereadNumber } ∧
      ((∀ key level, s.resource? key = some level → Json.ReadsBack level) →
        t = s ∧ ∀ g : Guard, g.holds t.facts = g.holds s.facts) ∧
      ∀ g : Guard,
        (∀ key level, s.resource? key = some level → g.Reads (.path (levelPath key)) →
          Json.ReadsBack level) →
        g.holds t.facts = g.holds s.facts := by
  classical
  refine ⟨?_, s.reread, ofText?_text_eq_reread hfinite, rfl, fun hback => ?_, fun g hback => ?_⟩
  · rw [ofJson?_toJson, dict?_resources, if_pos hfinite]
    rfl
  · have hsame : s.reread = s := reread_eq_self hback
    exact ⟨hsame, fun g => by rw [hsame]⟩
  · refine Guard.holds_congr fun r hr => agrees_reread fun key level hlevel hpath => ?_
    exact hback key level hlevel (hpath ▸ hr)

/-- A game with something in every field. -/
def afoot : State where
  gameId := ⟨0x67e5504410b1426f9247bb680e5fe0c8⟩
  current := some "ford"
  visited := ["gate", "ford"]
  failures := ["ford"]
  retries := 1
  flags := Dict.empty.insert "story.bridge" true
  objectives := Dict.empty.insert "cross" "open"
  resources := Dict.empty.insert "water" (.ofNat 2)
  relationships := Table.put .empty "kiera" "trust" (-8)
  inventory := (Table.put .empty "hero" "rope" ⟨3⟩).insert "kiera" .empty
  currency := Table.put .empty "hero" "gold" 9007199254740993

/-- All of it is kept, the id and the pockets without anything in them as well. -/
theorem saved_and_reread_afoot :
    (afoot.LevelsFinite ∧
      ∀ key level, afoot.resource? key = some level → Json.ReadsBack level) ∧
    ofJson? afoot.toJson = some afoot ∧ ofText? afoot.text = some afoot := by
  have hlevel : ∀ key level, afoot.resource? key = some level → level = .ofNat 2 := by
    intro key level hlevel
    rw [resource?, afoot, Dict.get?_insert] at hlevel
    split at hlevel
    · exact (Option.some.inj hlevel).symm
    · cases hlevel
  have hback : ∀ key level, afoot.resource? key = some level → Json.ReadsBack level :=
    fun key level h => hlevel key level h ▸ Quest.readsBack_two
  have hfinite : afoot.LevelsFinite :=
    fun key level h => Json.isFinite_of_readsBack (hback key level h)
  obtain ⟨hfields, t, htext, -, hkept, -⟩ := saved_and_reread hfinite
  obtain ⟨rfl, -⟩ := hkept hback
  exact ⟨⟨hfinite, hback⟩, hfields, htext⟩

end State

end Questline
