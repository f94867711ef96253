import Mathlib.Data.List.Destutter
import Mathlib.Data.List.DropRight
import Questline.Proofs.Quest.Run
import Questline.Proofs.Quest.Selection

/-! # The books of a run

A turn writes down where it was played, what failed and how often in a row. The acts that are
applied leave these books alone, so over a run they sum up its turns: the nodes played with adjacent
repeats collapsed, the nodes of the failures in order, and the number of failures since the last
success.

* `applyAll_frame`: acts change flags, objectives and resources only.
* `Quest.exists_settle_eq`: what a turn writes down on each branch.
* `Quest.retries_play`, `Quest.retries_stateAfter`: the retries count the failures since the last
  success.
* `Quest.Booked`: the books of a state sum up a list of turns. `Quest.booked_play`: one more turn.
* `Quest.books_stateAfter`: the books after a run from empty books. -/

namespace Questline

namespace State

theorem apply_frame (s : State) (e : Effect) :
    ∃ flags objectives resources, s.apply e = { s with flags, objectives, resources } := by
  cases e with
  | setObjective id status => exact ⟨_, _, _, rfl⟩
  | setFlag key value => exact ⟨_, _, _, rfl⟩
  | addResource key delta => exact ⟨_, _, _, rfl⟩
  | malformed kind defect => exact ⟨_, _, _, rfl⟩
  | unrecognized kind => exact ⟨_, _, _, rfl⟩

end State

/-- **Acts change flags, objectives and resources only.** -/
theorem applyAll_frame (s : State) (acts : List Act) :
    ∃ flags objectives resources,
      (applyAll s acts).1 = { s with flags, objectives, resources } := by
  induction acts generalizing s with
  | nil => exact ⟨s.flags, s.objectives, s.resources, rfl⟩
  | cons a rest ih =>
    obtain ⟨_, _, _, hfirst⟩ := s.apply_frame a.effect
    obtain ⟨flags, objectives, resources, hrest⟩ := ih (s.apply a.effect)
    refine ⟨flags, objectives, resources, ?_⟩
    simp only [applyAll]
    rw [hrest, hfirst]

namespace Turn

/-- The turn took the branch of success. -/
def succeeded (t : Turn) : Bool := t.branch == some .success

/-- The turn took the branch of failure. -/
def failed (t : Turn) : Bool := t.branch == some .failure

end Turn

/-! ### Collapsing adjacent repeats -/

section Destutter

variable {α : Type} [DecidableEq α]

theorem destutter'_concat (l : List α) (a b : α) :
    (l ++ [a]).destutter' (· ≠ ·) b =
      if (l.destutter' (· ≠ ·) b).getLast? = some a then l.destutter' (· ≠ ·) b
      else l.destutter' (· ≠ ·) b ++ [a] := by
  induction l generalizing b with
  | nil => by_cases hb : b = a <;> simp [hb]
  | cons c l ih =>
    by_cases hb : b = c
    · subst hb
      simpa using ih b
    · have hkept : ∀ more : List α,
          (c :: more).destutter' (· ≠ ·) b = b :: more.destutter' (· ≠ ·) c :=
        fun more => List.destutter'_cons_pos more hb
      have hlast : (b :: l.destutter' (· ≠ ·) c).getLast? =
          (l.destutter' (· ≠ ·) c).getLast? := by
        obtain ⟨x, rest, hne⟩ :=
          List.exists_cons_of_ne_nil (List.destutter'_ne_nil l (· ≠ ·) (a := c))
        rw [hne, List.getLast?_cons_cons]
      rw [List.cons_append, hkept, hkept, hlast, ih c]
      split <;> rfl

/-- One more element after a list in which adjacent repeats collapse. -/
theorem destutter_concat (l : List α) (a : α) :
    (l ++ [a]).destutter (· ≠ ·) =
      if (l.destutter (· ≠ ·)).getLast? = some a then l.destutter (· ≠ ·)
      else l.destutter (· ≠ ·) ++ [a] := by
  cases l with
  | nil => rfl
  | cons b l => exact destutter'_concat l a b

end Destutter

namespace Quest

variable {q : Quest} {s : State} {turns : List Turn}

/-! ### One turn -/

theorem exists_advance_eq (q : Quest) (s : State) (id : String) :
    ∃ current, q.advance s id = { s with current, retries := 0 } := by
  rcases advance_cases q s id with ⟨-, hstay⟩ | ⟨target, -, hmove⟩
  · exact ⟨s.current, hstay⟩
  · exact ⟨some target.id, hmove⟩

/-- **What a turn writes down** on each branch. -/
theorem exists_settle_eq (q : Quest) (branch : Option Branch) (s : State) (id : String) :
    ∃ current, q.settle branch s id =
      { s with
        current
        visited := if s.visited.getLast? = some id then s.visited else s.visited ++ [id]
        failures := if branch = some .failure then s.failures ++ [id] else s.failures
        retries := if branch = some .success then 0
          else if branch = some .failure then s.retries + 1 else s.retries } := by
  rcases branch with _ | _ | _
  · exact ⟨some id, rfl⟩
  · exact exists_advance_eq q (s.arrive id) id
  · exact ⟨some id, rfl⟩

/-! ### Retries -/

/-- The number of turns that failed since the last success. -/
def failuresInARow (turns : List Turn) : Nat :=
  (turns.rtakeWhile fun t => !t.succeeded).countP Turn.failed

theorem retries_play (q : Quest) (s : State) (acts : List Act) :
    (q.play s acts).state.retries =
      if (q.play s acts).succeeded then 0
      else if (q.play s acts).failed then s.retries + 1 else s.retries := by
  cases hactive : q.active? s with
  | none =>
    rw [play_of_active?_eq_none hactive]
    rfl
  | some n =>
    obtain ⟨_, _, _, houtcome⟩ := applyAll_frame s (n.templates (n.branch? acts))
    have hstate : (n.outcome acts s).state = _ := houtcome
    obtain ⟨_, hsettle⟩ :=
      exists_settle_eq q (n.outcome acts s).branch (n.outcome acts s).state n.id
    rw [play_of_active? hactive, hsettle, hstate]
    generalize (n.outcome acts s).branch = branch
    rcases branch with _ | _ | _ <;> rfl

theorem retries_play_eq (h : s.retries = UInt32.ofNat (failuresInARow turns)) (acts : List Act) :
    (q.play s acts).state.retries =
      UInt32.ofNat (failuresInARow (turns ++ [q.play s acts])) := by
  rw [retries_play, failuresInARow, List.rtakeWhile_concat]
  rw [failuresInARow] at h
  cases hsucceeded : (q.play s acts).succeeded with
  | true => simp
  | false => cases hfailed : (q.play s acts).failed <;> simp [hfailed, h]

/-- The retries count the failures since the last success, over a run as before it. -/
theorem retries_stateAfter (h : s.retries = UInt32.ofNat (failuresInARow turns))
    (actLists : List (List Act)) :
    (q.stateAfter s actLists).retries =
      UInt32.ofNat (failuresInARow (turns ++ q.playAll s actLists)) := by
  induction actLists generalizing turns s with
  | nil => simpa [playAll] using h
  | cons acts rest ih =>
    have hrest := ih (retries_play_eq (q := q) h acts)
    rwa [List.append_assoc] at hrest

theorem failuresInARow_le (turns : List Turn) :
    failuresInARow turns ≤ turns.countP Turn.failed := by
  have hsuffix := List.rtakeWhile_suffix (fun t : Turn => !t.succeeded) turns
  exact hsuffix.sublist.countP_le

/-! ### Runs -/

/-- **The books of a state sum up a list of turns.** -/
structure Booked (turns : List Turn) (s : State) : Prop where
  visited : s.visited = (turns.filterMap Turn.active).destutter (· ≠ ·)
  failures : s.failures = (turns.filter Turn.failed).filterMap Turn.active
  retries : s.retries =
    UInt32.ofNat ((turns.rtakeWhile fun t => !t.succeeded).countP Turn.failed)

/-- One more turn is written down. -/
theorem booked_play (h : Booked turns s) (acts : List Act) :
    Booked (turns ++ [q.play s acts]) (q.play s acts).state := by
  have hretries := retries_play_eq (q := q) h.retries acts
  cases hactive : q.active? s with
  | none =>
    rw [play_of_active?_eq_none hactive] at hretries ⊢
    constructor
    · simp [h.visited]
    · simp [Turn.failed, h.failures]
    · exact hretries
  | some n =>
    obtain ⟨_, _, _, houtcome⟩ := applyAll_frame s (n.templates (n.branch? acts))
    have hstate : (n.outcome acts s).state = _ := houtcome
    obtain ⟨_, hsettle⟩ :=
      exists_settle_eq q (n.outcome acts s).branch (n.outcome acts s).state n.id
    rw [play_of_active? hactive, hsettle, hstate] at hretries ⊢
    generalize (n.outcome acts s).branch = branch at hretries ⊢
    constructor
    · simp only [List.filterMap_append, h.visited]
      exact (destutter_concat _ n.id).symm
    · rcases branch with _ | _ | _ <;> simp [Turn.failed, h.failures]
    · exact hretries

theorem booked_playAll (h : Booked turns s) (actLists : List (List Act)) :
    Booked (turns ++ q.playAll s actLists) (q.stateAfter s actLists) := by
  induction actLists generalizing turns s with
  | nil => simpa [playAll] using h
  | cons acts rest ih =>
    have hrest := ih (booked_play (q := q) h acts)
    rwa [List.append_assoc] at hrest

/-- **The books after a run.** From empty books, a run visits the nodes it is played on with
adjacent repeats collapsed, its failures are the nodes of the turns that failed, and it counts the
turns that failed since the last success. -/
theorem books_stateAfter (hvisited : s.visited = []) (hfailures : s.failures = [])
    (hretries : s.retries = 0) (actLists : List (List Act))
    (hcount : (q.playAll s actLists).countP Turn.failed < UInt32.size) :
    let turns := q.playAll s actLists
    (q.stateAfter s actLists).visited = (turns.filterMap Turn.active).destutter (· ≠ ·) ∧
      (q.stateAfter s actLists).failures = (turns.filter Turn.failed).filterMap Turn.active ∧
      (q.stateAfter s actLists).retries.toNat =
        (turns.rtakeWhile fun t => !t.succeeded).countP Turn.failed := by
  intro turns
  have hempty : Booked [] s := ⟨hvisited, hfailures, hretries⟩
  have hbooks : Booked turns (q.stateAfter s actLists) := booked_playAll hempty actLists
  have hle : (turns.rtakeWhile fun t => !t.succeeded).countP Turn.failed ≤
      turns.countP Turn.failed :=
    failuresInARow_le turns
  refine ⟨hbooks.visited, hbooks.failures, ?_⟩
  rw [hbooks.retries, UInt32.toNat_ofNat_of_lt' (hle.trans_lt hcount)]

/-- Rapids that can be crossed or slipped on. -/
def rapids : Quest where
  id := "rapids"
  start := "near"
  nodes := [
    { id := "near", kind := .objective, synopsis := "Cross the rapids.", enterIf := []
      onSuccess := [.objective "cross" "complete"], onFail := [.ofKind "SLIP"], hint := none },
    { id := "far", kind := .setpiece, synopsis := "The far bank.", enterIf := []
      onSuccess := [], onFail := [.ofKind "SLIP"], hint := none }]
  edges := [⟨"near", "far", []⟩]

/-- Two slips on the near bank, the crossing, and a slip on the far bank. -/
theorem books_after_rapids :
    let s := State.fresh .nil "near"
    let slip := [Act.ofKind "SLIP"]
    let actLists := [slip, slip, [.objective "cross" "complete"], [], slip]
    let turns := rapids.playAll s actLists
    (s.visited = [] ∧ s.failures = [] ∧ s.retries = 0 ∧
      turns.countP Turn.failed < UInt32.size) ∧
    (rapids.stateAfter s actLists).visited = (turns.filterMap Turn.active).destutter (· ≠ ·) ∧
      (rapids.stateAfter s actLists).failures = (turns.filter Turn.failed).filterMap Turn.active ∧
      (rapids.stateAfter s actLists).retries.toNat =
        (turns.rtakeWhile fun t => !t.succeeded).countP Turn.failed := by
  intro s slip actLists turns
  have hcount : turns.countP Turn.failed < UInt32.size := by decide +kernel
  exact ⟨⟨rfl, rfl, rfl, hcount⟩, books_stateAfter rfl rfl rfl actLists hcount⟩

end Quest

end Questline
