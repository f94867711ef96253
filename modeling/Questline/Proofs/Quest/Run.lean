import Questline.Quest.Turn

/-! # Runs

A run plays one turn after the other. The turn at place `i` of a run is played from the state that
the first `i` act lists leave, so a statement on single turns carries over to a run place by place,
and what every turn keeps, a run keeps.

* `Quest.stateAfter_append`, `Quest.playAll_append`: a run in two parts.
* `Quest.getElem?_playAll`, `Quest.getElem?_historyOf`: the turn and the record at a place.
* `Quest.stateAfter_take_succ`: the states before and after the turn at a place.
* `Quest.stateAfter_keeps`: what every turn keeps, a run keeps. -/

namespace Questline

namespace Quest

variable {q : Quest} {s : State}

@[simp] theorem stateAfter_nil (q : Quest) (s : State) : q.stateAfter s [] = s := rfl

@[simp] theorem stateAfter_cons (q : Quest) (s : State) (acts : List Act)
    (rest : List (List Act)) :
    q.stateAfter s (acts :: rest) = q.stateAfter (q.play s acts).state rest := rfl

theorem stateAfter_append (q : Quest) (s : State) (front back : List (List Act)) :
    q.stateAfter s (front ++ back) = q.stateAfter (q.stateAfter s front) back :=
  List.foldl_append

theorem stateAfter_take_succ (q : Quest) (s : State) {actLists : List (List Act)} {i : Nat}
    (hi : i < actLists.length) :
    q.stateAfter s (actLists.take (i + 1)) =
      (q.play (q.stateAfter s (actLists.take i)) actLists[i]).state := by
  rw [List.take_succ_eq_append_getElem hi, stateAfter_append, stateAfter_cons, stateAfter_nil]

theorem playAll_append (q : Quest) (s : State) (front back : List (List Act)) :
    q.playAll s (front ++ back) = q.playAll s front ++ q.playAll (q.stateAfter s front) back := by
  induction front generalizing s with
  | nil => rfl
  | cons acts rest ih =>
    rw [List.cons_append, playAll, playAll, ih, stateAfter_cons, List.cons_append]

theorem getElem?_playAll (q : Quest) (s : State) (actLists : List (List Act)) (i : Nat) :
    (q.playAll s actLists)[i]? =
      actLists[i]?.map (q.play (q.stateAfter s (actLists.take i))) := by
  induction actLists generalizing s i with
  | nil => rfl
  | cons acts rest ih =>
    cases i with
    | zero => rfl
    | succ i =>
      rw [playAll, List.getElem?_cons_succ, List.getElem?_cons_succ, List.take_succ_cons,
        stateAfter_cons]
      exact ih (q.play s acts).state i

@[simp] theorem length_playAll (q : Quest) (s : State) (actLists : List (List Act)) :
    (q.playAll s actLists).length = actLists.length := by
  induction actLists generalizing s with
  | nil => rfl
  | cons acts rest ih => rw [playAll, List.length_cons, List.length_cons, ih]

@[simp] theorem length_historyOf (q : Quest) (s : State) (actLists : List (List Act)) :
    (q.historyOf s actLists).length = actLists.length := by
  rw [historyOf, List.length_map, length_playAll]

/-- The record at a place of the history is that of the turn played there. -/
theorem getElem?_historyOf (q : Quest) (s : State) {actLists : List (List Act)} {i : Nat}
    (hi : i < actLists.length) :
    (q.historyOf s actLists)[i]? =
      some (q.play (q.stateAfter s (actLists.take i)) actLists[i]).record := by
  rw [historyOf, List.getElem?_map, getElem?_playAll, List.getElem?_eq_getElem hi]
  rfl

/-- **What every turn keeps, a run keeps.** -/
theorem stateAfter_keeps {P : State → Prop} (hstep : ∀ s acts, P s → P (q.play s acts).state)
    (hs : P s) (actLists : List (List Act)) : P (q.stateAfter s actLists) := by
  induction actLists generalizing s with
  | nil => exact hs
  | cons acts rest ih => exact ih (hstep s acts hs)

end Quest

end Questline
