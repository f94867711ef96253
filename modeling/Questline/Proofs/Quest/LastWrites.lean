import Questline.Proofs.Quest.Books
import Questline.Proofs.State.Reports

/-! # What a branch writes

The templates of a branch are applied one after the other. What is left in the end can be told
without the states in between: an objective has the status of the last template that sets it, a flag
the value of the last template that sets it, and a resource has grown by the differences of the
templates that add to it, in their order. All else is as before.

* `Node.chosen`: the templates that acts choose.
* `writes`: what a list of acts writes in one place. `view_applyAll`: a view of the state that
  effects alter in one way only is altered by what is written, from the left to the right.
* `Outcome.Applies`: what an outcome leaves behind when it applies templates.
  `Node.applies_outcome`: every outcome applies the templates that are chosen. -/

namespace Questline

variable {β γ : Type}

namespace Effect

/-- The status that an effect gives an objective. -/
def status? (id : String) : Effect → Option String
  | .setObjective i status => if i = id then some status else none
  | _ => none

/-- The value that an effect gives a flag. -/
def value? (key : String) : Effect → Option Bool
  | .setFlag k value => if k = key then some value else none
  | _ => none

/-- The difference that an effect adds to a resource. -/
def delta? (key : String) : Effect → Option Binary64
  | .addResource k delta => if k = key then some delta else none
  | _ => none

end Effect

/-! ### Views of a state -/

/-- **What acts write in one place**, in their order. -/
def writes (written? : Effect → Option γ) (acts : List Act) : List γ :=
  acts.filterMap fun a => written? a.effect

theorem writes_cons (written? : Effect → Option γ) (a : Act) (rest : List Act) :
    writes written? (a :: rest) = (written? a.effect).toList ++ writes written? rest := by
  cases h : written? a.effect <;> simp [writes, h]

/-- **A view that effects alter in one way only** is altered, over a list of acts, by what they
write, from the left to the right. -/
theorem view_applyAll (view : State → β) {written? : Effect → Option γ} {write : β → γ → β}
    (h : ∀ s e, view (s.apply e) = (written? e).toList.foldl write (view s))
    (s : State) (acts : List Act) :
    view (applyAll s acts).1 = (writes written? acts).foldl write (view s) := by
  induction acts generalizing s with
  | nil => rfl
  | cons a rest ih => rw [writes_cons, List.foldl_append, ← h, ← ih, applyAll]

/-- A key of a dictionary is altered by what is written to it. -/
theorem get?_insert_eq_foldl {value : β} {written : γ} {write : Option β → γ → Option β}
    {d : Dict β} {k : String} (h : write (d.get? k) written = some value) (key : String) :
    (d.insert k value).get? key =
      (if k = key then some written else none).toList.foldl write (d.get? key) := by
  split
  · rename_i hk
    subst hk
    rw [Dict.get?_insert_self]
    exact h.symm
  · rename_i hk
    exact Dict.get?_insert_of_ne _ _ (Ne.symm hk)

namespace State

theorem objective?_apply (s : State) (e : Effect) (id : String) :
    (s.apply e).objective? id =
      (e.status? id).toList.foldl (fun _ status => some status) (s.objective? id) := by
  cases e with
  | setObjective i status => exact get?_insert_eq_foldl rfl id
  | _ => rfl

theorem flag?_apply (s : State) (e : Effect) (key : String) :
    (s.apply e).flags.get? key =
      (e.value? key).toList.foldl (fun _ value => some value) (s.flags.get? key) := by
  cases e with
  | setFlag k value => exact get?_insert_eq_foldl rfl key
  | _ => rfl

/-- A level that grows by a difference; one that is not there yet starts at zero. -/
def grow (level? : Option Binary64) (delta : Binary64) : Option Binary64 :=
  some ((level?.getD .zero).add delta)

theorem resource?_apply (s : State) (e : Effect) (key : String) :
    (s.apply e).resource? key = (e.delta? key).toList.foldl grow (s.resource? key) := by
  cases e with
  | addResource k delta => exact get?_insert_eq_foldl rfl key
  | _ => rfl

end State

/-- Of values that replace each other the last stays. -/
theorem foldl_replace (values : List β) (old : Option β) :
    values.foldl (fun _ value => some value) old = values.getLast?.or old := by
  induction values generalizing old with
  | nil => rfl
  | cons v rest ih =>
    rw [List.foldl_cons, ih, List.getLast?_cons]
    cases rest.getLast? <;> rfl

/-- Differences add up from the left to the right, from zero where nothing was. -/
theorem foldl_grow (deltas : List Binary64) (old : Option Binary64) :
    deltas.foldl State.grow old =
      if deltas = [] then old else some (deltas.foldl Binary64.add (old.getD .zero)) := by
  induction deltas generalizing old with
  | nil => rfl
  | cons d rest ih =>
    rw [List.foldl_cons, ih, if_neg (List.cons_ne_nil d rest), List.foldl_cons]
    split
    · rename_i hrest
      rw [hrest]
      rfl
    · rfl

/-! ### Lists of acts -/

theorem sublist_effective (s : State) (acts : List Act) : (applyAll s acts).2.Sublist acts := by
  induction acts generalizing s with
  | nil => exact .slnil
  | cons a rest ih =>
    simp only [applyAll]
    split
    · exact (ih _).cons_cons a
    · exact (ih _).cons a

theorem State.apply_of_subject?_eq_none {e : Effect} (h : e.subject? = none) (s : State) :
    s.apply e = s ∧ s.changes e = false := by
  cases e with
  | malformed kind defect => exact ⟨rfl, rfl⟩
  | unrecognized kind => exact ⟨rfl, rfl⟩
  | _ => cases h

/-- Acts without a subject do nothing. -/
theorem applyAll_filter_subject (s : State) (acts : List Act) :
    applyAll s (acts.filter fun a => a.effect.subject?.isSome) = applyAll s acts := by
  induction acts generalizing s with
  | nil => rfl
  | cons a rest ih =>
    cases hsubject : a.effect.subject? with
    | none =>
      obtain ⟨happly, hchanges⟩ := State.apply_of_subject?_eq_none hsubject s
      rw [List.filter_cons_of_neg (by simp [hsubject]), ih, applyAll, happly, hchanges]
      rfl
    | some subject =>
      rw [List.filter_cons_of_pos (by simp [hsubject]), applyAll, applyAll, ih]

/-! ### Outcomes -/

/-- **The templates that acts choose:** those of success if an act fits one of them, else those of
failure if an act fits one of them. -/
def Node.chosen (n : Node) (acts : List Act) : List Act :=
  if ∃ a ∈ acts, ∃ t ∈ n.onSuccess, a.fits t then n.onSuccess
  else if ∃ a ∈ acts, ∃ t ∈ n.onFail, a.fits t then n.onFail
  else []

theorem templates_branch? (n : Node) (acts : List Act) :
    n.templates (n.branch? acts) = n.chosen acts := by
  have hfits : ∀ templates, Node.anyFits acts templates = true ↔
      ∃ a ∈ acts, ∃ t ∈ templates, a.fits t = true := fun templates => by
    simp [Node.anyFits, List.any_eq_true]
  rw [Node.branch?, Node.chosen]
  simp only [hfits]
  split
  · rfl
  · split <;> rfl

/-- **An outcome applies templates** to a state: what it leaves behind. -/
structure Outcome.Applies (s : State) (templates : List Act) (o : Outcome) : Prop where
  applied : o.applied = templates
  effective : o.effective.Sublist templates
  /-- An objective has the status that was written last. -/
  objectives : ∀ id, o.state.objective? id =
    (writes (Effect.status? id) templates).getLast?.or (s.objective? id)
  /-- A flag has the value that was written last. -/
  flags : ∀ key, o.state.flags.get? key =
    (writes (Effect.value? key) templates).getLast?.or (s.flags.get? key)
  /-- A resource that is written is at its old level, or at zero, plus what is added to it. -/
  resources : ∀ key, o.state.resource? key =
    if writes (Effect.delta? key) templates = [] then s.resource? key
    else some ((writes (Effect.delta? key) templates).foldl Binary64.add
      ((s.resource? key).getD .zero))
  /-- All else is as before. -/
  frame : ∃ flags objectives resources, o.state = { s with flags, objectives, resources }
  /-- Malformed and unrecognized templates might as well be missing. -/
  idle : applyAll s (templates.filter fun a => a.effect.subject?.isSome) = (o.state, o.effective)

/-- **Every outcome applies the templates that are chosen.** -/
theorem Node.applies_outcome (n : Node) (acts : List Act) (s : State) :
    (n.outcome acts s).Applies s (n.chosen acts) := by
  have hstate : (n.outcome acts s).state = (applyAll s (n.chosen acts)).1 := by
    rw [← templates_branch?]
    rfl
  have heffective : (n.outcome acts s).effective = (applyAll s (n.chosen acts)).2 := by
    rw [← templates_branch?]
    rfl
  constructor
  case applied => exact templates_branch? n acts
  case effective => exact heffective ▸ sublist_effective s (n.chosen acts)
  case objectives =>
    intro id
    rw [hstate, ← foldl_replace]
    exact view_applyAll (·.objective? id) (fun s e => s.objective?_apply e id) s (n.chosen acts)
  case flags =>
    intro key
    rw [hstate, ← foldl_replace]
    exact view_applyAll (·.flags.get? key) (fun s e => s.flag?_apply e key) s (n.chosen acts)
  case resources =>
    intro key
    rw [hstate, ← foldl_grow]
    exact view_applyAll (·.resource? key) (fun s e => s.resource?_apply e key) s (n.chosen acts)
  case frame => exact hstate ▸ applyAll_frame s (n.chosen acts)
  case idle => rw [applyAll_filter_subject, hstate, heffective]

/-- A flag may be named by the id of an act, and an act without a value writes nothing. -/
example :
    writes (Effect.value? "lamp") [.flag "lamp" true,
      { Act.ofKind flagKind with id := some "lamp", val := some (.bool false) },
      { Act.ofKind flagKind with key := some "lamp" }] = [true, false] := by
  decide

end Questline
