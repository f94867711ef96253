import Questline.Proofs.Decimal.Rounding
import Questline.Proofs.State.Effects
import Questline.Proofs.State.Facts
import Questline.Proofs.State.FlagKeys

/-! # Reports of changes

`State.changes` reports whether an effect changes anything that can be seen of a state: a flag, the
status of an objective, the level of a resource, or the verdict of a guard. Each kind of effect is
reported by a shortcut of its own, so the report is not exact in three places, and in no other:

* adding zero to a resource that is not there opens it, unreported (`State.Opens`); guards see that
  if the name of the resource has no dot;
* lowering a flag that is not there is unreported, but it masks the other spelling of the flag from
  guards if that one is raised and comes before (`State.Masks`);
* a difference that is lost to rounding is reported (`State.Absorbs`).

* `State.holds_withFlag_iff`, `State.holds_withResource_iff`: what guards notice of an unreported
  effect.
* `State.change_report`: what a report says. -/

namespace Questline

/-- The objective, the flag or the resource that an effect is about. -/
def Effect.subject? : Effect → Option String
  | .setObjective id _ => some id
  | .setFlag key _ => some key
  | .addResource key _ => some key
  | .malformed _ _ => none
  | .unrecognized _ => none

namespace State

variable {s s' : State} {key : String}

/-! ### What is seen of a state -/

/-- The level of a resource as a place on the number line. -/
def level? (s : State) (key : String) : Option (Option Int) := (s.resource? key).map Binary64.key

/-- Two states differ at a key: in a flag, in the status of an objective or in a level. -/
def DifferAt (s s' : State) (key : String) : Prop :=
  s'.flag key ≠ s.flag key ∨ s'.objective? key ≠ s.objective? key ∨ s'.level? key ≠ s.level? key

/-- The path of a resource level. -/
def levelPath (key : String) : String := ".".intercalate ["state", "resources", key]

theorem segments_levelPath (h : '.' ∉ key.toList) :
    segments (levelPath key) = ["state", "resources", key] := by
  refine (segments_eq_iff (List.cons_ne_nil _ _)).mpr ⟨rfl, ?_⟩
  simpa using h

theorem resolve_levelPath (s : State) (h : '.' ∉ key.toList) :
    s.facts.resolve (levelPath key) = (s.resource? key).map .float := by
  rw [Facts.resolve, segments_levelPath h]
  exact find?_scalarTable s "resources" key

/-! ### Where the report fails -/

/-- The effect opens a resource that is not there yet. -/
def Opens (s : State) : Effect → Prop
  | .addResource key _ => s.resource? key = none
  | _ => False

/-- The effect opens a resource that has a path. -/
def OpensPath (s : State) : Effect → Prop
  | .addResource key _ => s.resource? key = none ∧ '.' ∉ key.toList
  | _ => False

/-- The effect writes a flag that is not there yet, after its other spelling, which is raised. -/
def Masks (s : State) : Effect → Prop
  | .setFlag key _ => s.flags.get? key = none ∧
    ∃ other, otherSpelling? key = some other ∧ other < key ∧ s.flags.get? other = some true
  | _ => False

/-- The difference is lost when it is added to the level. -/
def Absorbs (s : State) : Effect → Prop
  | .addResource key delta =>
    ∃ level, s.resource? key = some level ∧ (level.add delta).key = level.key
  | _ => False

/-! ### Flags -/

/-- A flag that is not there under a key is seen by guards as it is under its other spelling. -/
theorem find?_flagTable_of_get?_eq_none (h : s.flags.get? key = none) :
    (flagTable s.flags).find? (splitFlagKey key).1 (splitFlagKey key).2 =
      (otherSpelling? key).bind s.flags.get? := by
  have hspelling : ∀ other w, s.flags.get? other = some w →
      splitFlagKey other = splitFlagKey key → otherSpelling? key = some other := by
    intro other w hother hsame
    refine (splitFlagKey_eq_iff.mp hsame).resolve_left ?_
    rintro rfl
    rw [h] at hother
    cases hother
  refine Option.ext fun v => ?_
  rw [find?_flagTable_eq_some_iff, Option.bind_eq_some_iff]
  constructor
  · rintro ⟨last, hlast, hsame, -⟩
    exact ⟨last, hspelling last v hlast hsame, hlast⟩
  · rintro ⟨other, hother, hget⟩
    refine ⟨other, hget, splitFlagKey_eq_iff.mpr (.inr hother), fun o w ho hsame => ?_⟩
    obtain rfl : other = o := Option.some.inj (hother.symm.trans (hspelling o w ho hsame))
    exact String.le_refl _

/-- **What guards see of a flag that is lowered where it was not:** it is another value just when it
masks its other spelling. -/
theorem flagValue_withFlag_ne_iff (h : s.flags.get? key = none) :
    (s.withFlag key false).facts.flagValue (splitFlagKey key).1 (splitFlagKey key).2 ≠
        s.facts.flagValue (splitFlagKey key).1 (splitFlagKey key).2 ↔
      ∃ other, otherSpelling? key = some other ∧ other < key ∧ s.flags.get? other = some true := by
  have hafter : (s.flags.insert key false).get? key = some false := Dict.get?_insert_self ..
  show (((flagTable (s.flags.insert key false)).find? _ _).getD false ≠
    ((flagTable s.flags).find? _ _).getD false) ↔ _
  obtain ⟨last, v, hlast, hsame, hlargest, hfind⟩ := find?_flagTable hafter
  rw [find?_flagTable_of_get?_eq_none h, hfind]
  by_cases hkey : last = key
  · -- the new key is the last one of the flag, which guards see lowered
    subst hkey
    obtain rfl : false = v := Option.some.inj (hafter.symm.trans hlast)
    constructor
    · intro hne
      cases hbefore : (otherSpelling? last).bind s.flags.get? with
      | none => simp [hbefore] at hne
      | some w =>
        obtain ⟨other, hother, hget⟩ := Option.bind_eq_some_iff.mp hbefore
        have hdistinct : other ≠ last := by
          rintro rfl
          rw [h] at hget
          cases hget
        have hkept : (s.flags.insert last false).get? other = some w := by
          rw [Dict.get?_insert_of_ne _ _ hdistinct, hget]
        have hle : other ≤ last := hlargest other w hkept (splitFlagKey_eq_iff.mpr (.inr hother))
        refine ⟨other, hother, ?_, ?_⟩
        · exact Decidable.byContradiction fun hlt =>
            hdistinct (String.le_antisymm hle (String.not_lt.mp hlt))
        · rw [hget, Option.some.injEq]
          simpa [hbefore] using hne
    · rintro ⟨other, hother, -, hraised⟩
      simp [hother, hraised]
  · -- the other spelling comes later and hides the new key
    have hother := (splitFlagKey_eq_iff.mp hsame).resolve_left hkey
    have hget : s.flags.get? last = some v := by
      rw [← hlast, Dict.get?_insert_of_ne _ _ hkey]
    rw [hother, Option.bind_some, hget]
    refine iff_of_false (fun hne => hne rfl) ?_
    rintro ⟨o, ho, hlt, -⟩
    obtain rfl : last = o := Option.some.inj ho
    exact hkey (String.le_antisymm (String.not_lt.mp (String.lt_asymm hlt))
      (hlargest key false hafter rfl))

/-- **Guards notice that a flag is lowered where it was not** just when it masks its other
spelling. -/
theorem holds_withFlag_iff (h : s.flags.get? key = none) :
    (∀ g : Guard, g.holds (s.withFlag key false).facts = g.holds s.facts) ↔
      ¬ s.Masks (.setFlag key false) := by
  have hmasks := flagValue_withFlag_ne_iff h
  constructor
  · rintro hsame ⟨-, hmasked⟩
    have hguard := hsame (.flag (splitFlagKey key).1 (splitFlagKey key).2 true)
    have hvalue :
        ((s.withFlag key false).facts.flagValue (splitFlagKey key).1 (splitFlagKey key).2 == true) =
          (s.facts.flagValue (splitFlagKey key).1 (splitFlagKey key).2 == true) := hguard
    simp only [beq_true] at hvalue
    exact hmasks.mpr hmasked hvalue
  · intro hopen g
    refine Guard.holds_congr_alike fun r _ => Facts.alike rfl rfl rfl (fun space name => ?_)
      (fun _ _ _ _ => Literal.Alike.rel_refl _)
    by_cases hkey : splitFlagKey key = (space, name)
    · obtain ⟨rfl, rfl⟩ := Prod.mk.inj hkey
      exact Decidable.byContradiction fun hne => hopen ⟨h, hmasks.mp hne⟩
    · exact flagValue_withFlag_of_ne s false hkey

/-! ### Levels -/

theorem level?_withResource (s : State) (key : String) (level : Binary64) (k : String) :
    (s.withResource key level).level? k = if k = key then some level.key else s.level? k := by
  rw [level?, resource?, withResource, Dict.get?_insert]
  split_ifs <;> rfl

/-- **Guards notice a level that is written at its old place** just when there was none and the
resource has a path. -/
theorem holds_withResource_iff {level : Binary64}
    (hlevel : level.key = ((s.resource? key).getD .zero).key) :
    (∀ g : Guard, g.holds (s.withResource key level).facts = g.holds s.facts) ↔
      ¬ (s.resource? key = none ∧ '.' ∉ key.toList) := by
  constructor
  · rintro hsame ⟨hnone, hdot⟩
    -- the level is at most zero now, and was not as long as there was none
    have hguard := hsame (.compare .lte (levelPath key) (.float .zero))
    have hafter : (s.withResource key level).resource? key = some level :=
      Dict.get?_insert_self ..
    have hle : level.le .zero = true := by
      rw [hnone] at hlevel
      rw [Binary64.le, hlevel]
      decide
    have hholds : Guard.holds (.compare .lte (levelPath key) (.float .zero))
        (s.withResource key level).facts = true := by
      show Guard.comparisonHolds _ .lte (levelPath key) (.float .zero) = true
      rw [Guard.comparisonHolds, resolve_levelPath _ hdot, hafter]
      exact hle
    have hfails : Guard.holds (.compare .lte (levelPath key) (.float .zero)) s.facts = false := by
      show Guard.comparisonHolds _ .lte (levelPath key) (.float .zero) = false
      rw [Guard.comparisonHolds, resolve_levelPath _ hdot, hnone]
      rfl
    rw [hholds, hfails] at hguard
    cases hguard
  · intro hknown g
    refine Guard.holds_congr_alike fun r _ => Facts.alike rfl rfl rfl (fun _ _ => rfl)
      (fun path space k hpath => ?_)
    show Option.Rel _ ((s.withResource key level).scalarTable.find? space k)
      (s.scalarTable.find? space k)
    rw [find?_scalarTable, find?_scalarTable]
    split_ifs with hprogress hresources hobjectives
    · exact Literal.Alike.rel_refl _
    · show Option.Rel _ (((s.resources.insert key level).get? k).map Literal.float) _
      rw [Dict.get?_insert]
      split_ifs with hk
      · subst hk
        have hmem : k ∈ segments path := by simp [hpath]
        have hdot := notMem_of_mem_segments hmem
        cases hold : s.resource? k with
        | none => exact absurd ⟨hold, hdot⟩ hknown
        | some old =>
          have hget : s.resources.get? k = some old := hold
          rw [hold] at hlevel
          rw [hget]
          exact .some (.float hlevel)
      · exact Literal.Alike.rel_refl _
    · exact Literal.Alike.rel_refl _
    · exact Literal.Alike.rel_refl _

/-! ### Reports -/

/-- What an unreported effect leaves of the levels and of the verdicts. -/
theorem seen_of_unreported {e : Effect} (h : s.changes e = false) :
    ((∀ key, (s.apply e).level? key = s.level? key) ↔ ¬ s.Opens e) ∧
      ((∀ g : Guard, g.holds (s.apply e).facts = g.holds s.facts) ↔
        ¬ s.OpensPath e ∧ ¬ s.Masks e) := by
  cases e with
  | setObjective id status =>
    have hstatus : s.objectives.get? id = some status := bne_eq_false_iff_eq.mp h
    have hsame : s.apply (.setObjective id status) = s := by
      have hobjectives : s.objectives.insert id status = s.objectives :=
        Dict.insert_eq_self hstatus
      rw [apply, withObjective, hobjectives]
    rw [hsame]
    simp [Opens, OpensPath, Masks]
  | setFlag key value =>
    have hvalue : s.flag key = value := bne_eq_false_iff_eq.mp h
    refine ⟨iff_of_true (fun _ => rfl) not_false, ?_⟩
    rw [and_iff_right (show ¬ s.OpensPath (.setFlag key value) from not_false)]
    cases hget : s.flags.get? key with
    | some held =>
      have hheld : held = value := by rw [← hvalue, flag, hget, Option.getD_some]
      have hsame : s.flags.insert key value = s.flags := Dict.insert_eq_self (hheld ▸ hget)
      rw [apply, withFlag, hsame]
      simp [Masks, hget]
    | none =>
      obtain rfl : false = value := by rw [← hvalue, flag, hget, Option.getD_none]
      exact holds_withFlag_iff hget
  | addResource key delta =>
    have hzero : delta.equals .zero = true := by simpa [changes] using h
    have hlevel := Binary64.key_add (x := (s.resource? key).getD .zero) hzero
    constructor
    · constructor
      · intro hsame hnone
        have hkey := hsame key
        rw [apply, level?_withResource, if_pos rfl, level?, show s.resource? key = none from hnone]
          at hkey
        cases hkey
      · intro hknown k
        rw [apply, level?_withResource, hlevel]
        split_ifs with hk
        · cases hold : s.resource? key with
          | none => exact absurd hold hknown
          | some old => rw [hk, level?, hold, Option.getD_some, Option.map_some]
        · rfl
    · rw [and_iff_left (show ¬ s.Masks (.addResource key delta) from not_false)]
      exact holds_withResource_iff hlevel
  | malformed kind defect => simp [apply, Opens, OpensPath, Masks]
  | unrecognized kind => simp [apply, Opens, OpensPath, Masks]

/-- **What a report of changes says.** An effect that is not reported leaves all flags and the
status of all objectives; it leaves all levels unless it opens a resource, and the verdicts of all
guards unless it opens a resource that has a path or masks a raised flag. An effect that is reported
makes a difference at its own key unless the level absorbs it. -/
theorem change_report (s : State) (e : Effect) :
    (s.changes e = false →
      (∀ key, (s.apply e).flag key = s.flag key) ∧
      (∀ id, (s.apply e).objective? id = s.objective? id) ∧
      ((∀ key, (s.apply e).level? key = s.level? key) ↔ ¬ s.Opens e) ∧
      ((∀ g : Guard, g.holds (s.apply e).facts = g.holds s.facts) ↔
        ¬ s.OpensPath e ∧ ¬ s.Masks e)) ∧
    (s.changes e = true →
      ((∃ key, e.subject? = some key ∧ s.DifferAt (s.apply e) key) ↔ ¬ s.Absorbs e)) := by
  constructor
  · intro h
    have hquiet : ¬ s.changes e = true := by simp [h]
    refine ⟨fun key => ?_, fun id => ?_, seen_of_unreported h⟩
    · exact Decidable.byContradiction fun hne => hquiet (tracked_flag key s e hne)
    · exact Decidable.byContradiction fun hne => hquiet (tracked_objective? id s e hne)
  · intro h
    cases e with
    | setObjective id status =>
      refine iff_of_true ⟨id, rfl, .inr (.inl ?_)⟩ not_false
      rw [objective?_apply_setObjective]
      exact (changes_setObjective_iff.mp h).symm
    | setFlag key value =>
      refine iff_of_true ⟨key, rfl, .inl ?_⟩ not_false
      rw [flag_apply_setFlag]
      exact (changes_setFlag_iff.mp h).symm
    | addResource key delta =>
      have hafter : (s.apply (.addResource key delta)).level? key =
          some (((s.resource? key).getD .zero).add delta).key := by
        rw [apply, level?_withResource, if_pos rfl]
      constructor
      · rintro ⟨k, hk, hdiffer⟩ ⟨level, hlevel, hlost⟩
        obtain rfl : key = k := Option.some.inj hk
        rcases hdiffer with hflag | hobjective | hdiffer
        · exact hflag rfl
        · exact hobjective rfl
        · rw [hafter, level?, hlevel, Option.getD_some, hlost] at hdiffer
          exact hdiffer rfl
      · intro hkept
        refine ⟨key, rfl, .inr (.inr ?_)⟩
        rw [hafter, level?]
        intro hsame
        cases hold : s.resource? key with
        | none =>
          rw [hold] at hsame
          cases hsame
        | some level =>
          rw [hold] at hsame
          exact hkept ⟨level, hold, Option.some.inj hsame⟩
    | malformed kind defect => cases h
    | unrecognized kind => cases h

/-- One is lost on a hundred quintillion. -/
example : (State.blank.withResource "gold" (.ofNat (10 ^ 20))).Absorbs
    (.addResource "gold" (.ofNat 1)) := by
  refine ⟨.ofNat (10 ^ 20), rfl, ?_⟩
  decide +kernel

/-- A report can be wrong: adding nothing to a mana that nobody has is not reported, but then there
is mana, none of it, and a guard on it holds. -/
theorem opening_unreported :
    ¬ ∀ (s : State) (e : Effect),
      (s.changes e = false →
        (∀ key, (s.apply e).flag key = s.flag key) ∧
        (∀ id, (s.apply e).objective? id = s.objective? id) ∧
        (∀ key, (s.apply e).level? key = s.level? key) ∧
        ∀ g : Guard, g.holds (s.apply e).facts = g.holds s.facts) ∧
      (s.changes e = true → ∃ key, e.subject? = some key ∧ s.DifferAt (s.apply e) key) := by
  intro h
  have hlevel := ((h State.blank (.addResource "mana" .zero)).1 (by decide)).2.2.1 "mana"
  revert hlevel
  decide

end State

end Questline
