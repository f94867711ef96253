import Questline.Proofs.Quest.Books
import Questline.Proofs.Quest.Diagnosis
import Questline.Proofs.Quest.Place

/-! # Retries

The last reason for which a game counts as stuck is that too many turns failed in a row. The
retries count the failures since the last success, on whatever nodes. As long as the game stands on
open nodes it stays where it failed, so all of them are on the current node. A node that is closed
behind a failure drives the game elsewhere, and it takes its retries along.

* `Quest.stall?_eq_maxRetriesExceeded`: what is known when the limit is reported.
* `Quest.current_stateAfter_of_open`: on open nodes and without a success the game stays.
* `Quest.retries_of_maxRetriesExceeded`: which failures a report counts. They may lie elsewhere:
  `Quest.retries_taken_along`. -/

namespace Questline

namespace Quest

variable {q : Quest} {s : State} {history : List TurnRecord} {c : Settings} {r : UInt32}
  {id : String}

theorem stall?_eq_maxRetriesExceeded (h : q.stall? s history c = some (.maxRetriesExceeded r)) :
    r = s.retries ∧ c.maxRetries ≤ s.retries := by
  cases stall?_eq_iff.mp h with
  | maxRetriesExceeded _ _ _ hretries => exact ⟨rfl, hretries⟩

/-! ### Turns -/

/-- After a failure the game stands on the node of the turn. -/
theorem current_play_of_failed {acts : List Act} (h : (q.play s acts).failed = true) :
    ∃ id ∈ q.ids, (q.play s acts).active = some id ∧ (q.play s acts).state.current = some id := by
  cases hactive : q.active? s with
  | none =>
    rw [play_of_active?_eq_none hactive] at h
    cases h
  | some n =>
    have hbranch : (q.play s acts).branch = some .failure := beq_iff_eq.mp h
    have hstay : (q.play s acts).state.current = some n.id :=
      current_play_of_not_success hactive (by rw [hbranch]; decide)
    exact ⟨n.id, List.mem_map_of_mem (mem_nodes_of_active? hactive),
      by rw [play_of_active? hactive], hstay⟩

/-- **On an open node and without a success** the turn is played where the game stands, and the game
stays there. -/
theorem play_of_open (hid : id ∈ q.ids) (hs : s.current = some id) (hopen : q.closedNode? s = none)
    {acts : List Act} (hbranch : (q.play s acts).succeeded = false) :
    (q.play s acts).active = some id ∧ (q.play s acts).state.current = some id := by
  obtain ⟨n, hnode⟩ := Option.isSome_iff_exists.mp (node?_isSome_iff.mpr hid)
  obtain ⟨-, rfl⟩ := node?_eq_some hnode
  have hcurrent : q.currentNode? s = some n := by rw [currentNode?, hs, Option.bind_some, hnode]
  have henter : n.enterable s = true := by
    rw [closedNode?, hcurrent, Option.filter_eq_none_iff] at hopen
    simpa using hopen n rfl
  have hactive : q.active? s = some n := active?_of_enterable hcurrent henter
  have hmissed : (q.play s acts).branch ≠ some .success := fun hsuccess => by
    rw [Turn.succeeded, hsuccess] at hbranch
    cases hbranch
  exact ⟨by rw [play_of_active? hactive], current_play_of_not_success hactive hmissed⟩

/-! ### Runs -/

/-- **On open nodes and without a success the game stays.** -/
theorem current_stateAfter_of_open (hid : id ∈ q.ids) (hs : s.current = some id)
    {actLists : List (List Act)}
    (hopen : ∀ j < actLists.length, q.closedNode? (q.stateAfter s (actLists.take j)) = none)
    (hbranch : ∀ t ∈ q.playAll s actLists, t.succeeded = false) :
    (q.stateAfter s actLists).current = some id := by
  induction actLists generalizing s with
  | nil => exact hs
  | cons acts rest ih =>
    obtain ⟨hfirst, hrest⟩ := List.forall_mem_cons.mp hbranch
    have hstay := (play_of_open hid hs (hopen 0 (Nat.zero_lt_succ _)) hfirst).2
    refine ih hstay (fun j hj => ?_) hrest
    exact hopen (j + 1) (Nat.succ_lt_succ hj)

/-- A failure on another node than the one where the game stands, with no success since: the game
was driven off a closed node in between. -/
theorem exists_closed_of_failed_elsewhere {actLists : List (List Act)} {i : Nat} {t : Turn}
    (ht : (q.playAll s actLists)[i]? = some t) (hfailed : t.failed = true)
    (hbranch : ∀ t ∈ q.playAll (q.stateAfter s (actLists.take (i + 1))) (actLists.drop (i + 1)),
      t.succeeded = false)
    (helsewhere : t.active ≠ (q.stateAfter s actLists).current) :
    ∃ j, i < j ∧ j < actLists.length ∧
      q.closedNode? (q.stateAfter s (actLists.take j)) ≠ none := by
  by_contra hopen
  push Not at hopen
  rw [getElem?_playAll, Option.map_eq_some_iff] at ht
  obtain ⟨acts, hacts, rfl⟩ := ht
  obtain ⟨hi, rfl⟩ := List.getElem?_eq_some_iff.mp hacts
  obtain ⟨id, hid, hactive, hcurrent⟩ := current_play_of_failed hfailed
  rw [← stateAfter_take_succ q s hi] at hcurrent
  refine helsewhere (hactive.trans ?_)
  have hstay := current_stateAfter_of_open hid hcurrent (fun j hj => ?_) hbranch
  · rw [← hstay, ← stateAfter_append, List.take_append_drop]
  · rw [List.length_drop] at hj
    rw [← stateAfter_append, ← List.take_add]
    exact hopen (i + 1 + j) (by omega) (by omega)

/-- **Which failures a report of too many retries counts.** Those since the last success, on
whatever nodes. A failure elsewhere than on the current node lies before a moment at which the game
stood on a closed node. If there was no such moment, the limit is reached on the current node
alone. -/
theorem retries_of_maxRetriesExceeded (hretries : s.retries = 0) {actLists : List (List Act)}
    (hcount : (q.playAll s actLists).countP Turn.failed < UInt32.size)
    (h : (q.diagnose (q.stateAfter s actLists) history c).reason =
      some (.maxRetriesExceeded r)) :
    let turns := q.playAll s actLists
    let recent := turns.rtakeWhile fun t => !t.succeeded
    let here := (q.stateAfter s actLists).current
    (r.toNat = recent.countP Turn.failed ∧ c.maxRetries.toNat ≤ recent.countP Turn.failed) ∧
      (∀ i t, turns[i]? = some t → turns.length ≤ i + recent.length → t.failed = true →
        t.active ≠ here →
        ∃ j, i < j ∧ j < actLists.length ∧
          q.closedNode? (q.stateAfter s (actLists.take j)) ≠ none) ∧
      ((∀ j < actLists.length, turns.length < j + recent.length →
          q.closedNode? (q.stateAfter s (actLists.take j)) = none) →
        c.maxRetries.toNat ≤ recent.countP fun t => t.failed && t.active == here) := by
  intro turns recent here
  have hsuffix : recent <:+ turns := List.rtakeWhile_suffix _ turns
  have hrecent : ∀ t ∈ recent, t.succeeded = false := fun t ht => by
    simpa using List.mem_rtakeWhile_imp ht
  have hlimit : r.toNat = recent.countP Turn.failed ∧
      c.maxRetries.toNat ≤ recent.countP Turn.failed := by
    rw [reason_diagnose] at h
    obtain ⟨rfl, hle⟩ := stall?_eq_maxRetriesExceeded h
    have hempty : s.retries = UInt32.ofNat (failuresInARow []) := hretries
    have hbooks := retries_stateAfter (q := q) hempty actLists
    have hnumber : (q.stateAfter s actLists).retries.toNat = recent.countP Turn.failed := by
      rw [hbooks]
      exact UInt32.toNat_ofNat_of_lt' ((failuresInARow_le turns).trans_lt hcount)
    exact ⟨hnumber, hnumber ▸ UInt32.le_iff_toNat_le.mp hle⟩
  have helsewhere : ∀ i t, turns[i]? = some t → turns.length ≤ i + recent.length →
      t.failed = true → t.active ≠ here →
      ∃ j, i < j ∧ j < actLists.length ∧
        q.closedNode? (q.stateAfter s (actLists.take j)) ≠ none := by
    intro i t ht hi hfailed hne
    refine exists_closed_of_failed_elsewhere ht hfailed (fun t' ht' => hrecent t' ?_) hne
    -- the turns after place i are among the recent ones
    have hparts : turns = q.playAll s (actLists.take (i + 1)) ++
        q.playAll (q.stateAfter s (actLists.take (i + 1))) (actLists.drop (i + 1)) := by
      rw [← playAll_append, List.take_append_drop]
    have hlater : q.playAll (q.stateAfter s (actLists.take (i + 1))) (actLists.drop (i + 1)) <:+
        recent := by
      refine List.suffix_of_suffix_length_le (hparts ▸ List.suffix_append _ _) hsuffix ?_
      rw [length_playAll, List.length_drop]
      have hlength : turns.length = actLists.length := length_playAll q s actLists
      omega
    exact hlater.subset ht'
  refine ⟨hlimit, helsewhere, fun hopen => hlimit.2.trans ?_⟩
  refine List.countP_mono_left fun t ht hfailed => ?_
  rw [hfailed, Bool.true_and, beq_iff_eq]
  by_contra hne
  obtain ⟨front, hfront⟩ := hsuffix
  obtain ⟨k, hk, rfl⟩ := List.getElem_of_mem ht
  have hlength : turns.length = front.length + recent.length := by
    rw [← hfront, List.length_append]
  have hplace : turns[front.length + k]? = some recent[k] := by
    rw [← hfront, List.getElem?_append_right (by omega), Nat.add_sub_cancel_left,
      List.getElem?_eq_getElem hk]
  obtain ⟨j, hij, hj, hclosed⟩ := helsewhere _ _ hplace (by omega) hfailed hne
  exact hclosed (hopen j hj (by omega))

/-- Two slips on the near bank of the rapids reach a limit of two. -/
theorem retries_after_slips :
    let s := State.fresh .nil "near"
    let c := { Settings.standard with maxRetries := 2 }
    let actLists := [[Act.ofKind "SLIP"], [Act.ofKind "SLIP"]]
    let turns := rapids.playAll s actLists
    let recent := turns.rtakeWhile fun t => !t.succeeded
    let here := (rapids.stateAfter s actLists).current
    (s.retries = 0 ∧ turns.countP Turn.failed < UInt32.size ∧
      (rapids.diagnose (rapids.stateAfter s actLists) [] c).reason =
        some (.maxRetriesExceeded 2)) ∧
    ((2 : UInt32).toNat = recent.countP Turn.failed ∧
      c.maxRetries.toNat ≤ recent.countP Turn.failed) ∧
      (∀ i t, turns[i]? = some t → turns.length ≤ i + recent.length → t.failed = true →
        t.active ≠ here →
        ∃ j, i < j ∧ j < actLists.length ∧
          rapids.closedNode? (rapids.stateAfter s (actLists.take j)) ≠ none) ∧
      ((∀ j < actLists.length, turns.length < j + recent.length →
          rapids.closedNode? (rapids.stateAfter s (actLists.take j)) = none) →
        c.maxRetries.toNat ≤ recent.countP fun t => t.failed && t.active == here) := by
  intro s c actLists turns recent here
  have hcount : turns.countP Turn.failed < UInt32.size := by decide +kernel
  have hreport : (rapids.diagnose (rapids.stateAfter s actLists) [] c).reason =
      some (.maxRetriesExceeded 2) := by decide +kernel
  exact ⟨⟨rfl, hcount, hreport⟩, retries_of_maxRetriesExceeded rfl hcount hreport⟩

/-- Rapids whose near bank is closed to whoever is hurt, as one is after a slip on it. -/
def slipperyRapids : Quest where
  id := "rapids"
  start := "near"
  nodes := [
    { id := "near", kind := .objective, synopsis := "Wade in."
      enterIf := [.flag "global" "hurt" false], onSuccess := []
      onFail := [.ofKind "SLIP", .flag "hurt" true], hint := none },
    { id := "far", kind := .beat, synopsis := "Rest.", enterIf := [], onSuccess := []
      onFail := [.ofKind "SLIP"], hint := none }]
  edges := []

/-- A slip on the near bank drives the game to the far one, where a single slip reaches a limit of
two. -/
theorem retries_taken_along :
    ¬ ∀ (q : Quest) (s : State) (actLists : List (List Act)) (history : List TurnRecord)
      (c : Settings) (r : UInt32), s.retries = 0 → s.failures = [] →
      (q.playAll s actLists).countP Turn.failed < UInt32.size → 0 < c.maxRetries →
      (q.diagnose (q.stateAfter s actLists) history c).reason = some (.maxRetriesExceeded r) →
        c.maxRetries.toNat ≤ ((q.playAll s actLists).rtakeWhile fun t => !t.succeeded).countP
          fun t => t.failed && t.active == (q.stateAfter s actLists).current := by
  intro h
  have hlimit := h slipperyRapids (.fresh .nil "near") [[.ofKind "SLIP"], [.ofKind "SLIP"]] []
    { Settings.standard with maxRetries := 2 } 2 rfl rfl (by decide +kernel) (by decide)
    (by decide +kernel)
  revert hlimit
  decide +kernel

end Quest

end Questline
