import Mathlib.Tactic.SplitIfs
import Questline.Proofs.Guard.Path

/-! # Facts on record

A fact is recorded under two keys and read under a path. Paths are parted at every dot, so a fact
whose keys have no dot is addressed by the path of its category and its keys, an item by a second
path that ends in `qty`, and a fact with a dot in a key by no path at all. The value of a path is
that of the last fact on record that it addresses; a path that addresses none shows the zero of its
category.

* `Fact.AddressedBy`: the paths of a fact. `Fact.addressedBy_iff`: the same by segments.
* `absentValue?`: the value of a path without a fact.
* `Facts.resolve_add`: read over write, for one more fact.
* `Facts.resolve_ofList`: read over write, for any record. -/

namespace Questline

namespace Fact

/-- The first segment of the paths of a fact. -/
def category : Fact → String
  | .rel .. => "rel"
  | .item .. => "inv"
  | .currency .. => "currency"
  | .flag .. => "flag"
  | .state .. => "state"

/-- What may follow the category in the paths of a fact: its keys, and for an item also `qty`. -/
def routes : Fact → List (List String)
  | .rel entity stat _ => [[entity, stat]]
  | .item owner name _ => [[owner, name], [owner, name, "qty"]]
  | .currency owner name _ => [[owner, name]]
  | .flag space name _ => [[space, name]]
  | .state space key _ => [[space, key]]

/-- What guards read of a fact. -/
def value : Fact → Literal
  | .rel _ _ value => .int value
  | .item _ _ qty => .int qty
  | .currency _ _ amount => .int amount
  | .flag _ _ value => .bool value
  | .state _ _ value => value

/-- **A path addresses a fact:** it joins the category and the keys, and the keys have no dot. -/
def AddressedBy (fact : Fact) (path : String) : Prop :=
  ∃ keys ∈ fact.routes, (∀ key ∈ keys, '.' ∉ key.toList) ∧
    path = ".".intercalate (fact.category :: keys)

instance (fact : Fact) (path : String) : Decidable (fact.AddressedBy path) :=
  inferInstanceAs (Decidable (∃ keys ∈ fact.routes, (∀ key ∈ keys, '.' ∉ key.toList) ∧
    path = ".".intercalate (fact.category :: keys)))

theorem notMem_category (fact : Fact) : '.' ∉ fact.category.toList := by
  cases fact <;> simp [category]

/-- **The segments of the paths that address a fact.** -/
theorem addressedBy_iff {fact : Fact} {path : String} :
    fact.AddressedBy path ↔ ∃ keys ∈ fact.routes, segments path = fact.category :: keys := by
  refine exists_congr fun keys => and_congr_right fun _ => ?_
  rw [segments_eq_iff (List.cons_ne_nil _ _), List.forall_mem_cons, and_comm,
    and_iff_right fact.notMem_category]

end Fact

/-- **The value of a path without a fact:** zero for the numbers, false for flags, and none else. -/
def absentValue? (path : String) : Option Literal :=
  if firstSegment path ∈ ["rel", "inv", "currency"] then some (.int 0)
  else if firstSegment path = "flag" then some (.bool false)
  else none

namespace Facts

variable {α : Type} {f : Facts} {fact : Fact} {path : String}

/-! ### One more fact -/

theorem atPair_put (t : Table α) (default : α) (outer inner : String) (value : α)
    (keys : List String) :
    atPair (t.put outer inner value) default keys =
      if keys ∈ [[outer, inner]] then value else atPair t default keys := by
  unfold atPair
  split
  · simp only [Table.find?_put, List.mem_singleton, List.cons.injEq, and_true]
    split_ifs <;> rfl
  · rename_i hpair
    rw [if_neg fun hkeys => hpair outer inner (List.mem_singleton.mp hkeys)]

theorem quantity_put (f : Facts) (owner item : String) (qty : Int64) (keys : List String) :
    quantity { f with inv := f.inv.put owner item ⟨qty⟩ } keys =
      if keys ∈ [[owner, item], [owner, item, "qty"]] then qty else f.quantity keys := by
  unfold quantity
  split
  · rw [atPair_put]
    split_ifs <;> simp_all
  · rw [atPair_put]
    split_ifs <;> simp_all
  · rename_i hpair hnamed
    rw [if_neg]
    simpa using ⟨hpair owner item, hnamed owner item⟩

/-- A fact does not show under another category. -/
theorem resolveSegments_add_of_ne (f : Facts) {fact : Fact} {parts : List String}
    (h : parts.head? ≠ some fact.category) :
    (f.add fact).resolveSegments parts = f.resolveSegments parts := by
  unfold resolveSegments
  split <;> cases fact <;> first | rfl | simp [Fact.category] at h

/-- Under its own category a fact shows at its keys. -/
theorem resolveSegments_add_cons (f : Facts) (fact : Fact) (keys : List String) :
    (f.add fact).resolveSegments (fact.category :: keys) =
      if keys ∈ fact.routes then some fact.value
      else f.resolveSegments (fact.category :: keys) := by
  cases fact with
  | rel entity stat value =>
    show some (Literal.int (atPair (f.rel.put entity stat value) 0 keys)) = _
    rw [atPair_put]
    exact apply_ite (fun i => some (Literal.int i)) _ _ _
  | item owner name qty =>
    show some (Literal.int (quantity { f with inv := f.inv.put owner name ⟨qty⟩ } keys)) = _
    rw [quantity_put]
    exact apply_ite (fun i => some (Literal.int i)) _ _ _
  | currency owner name amount =>
    show some (Literal.int (atPair (f.currency.put owner name amount) 0 keys)) = _
    rw [atPair_put]
    exact apply_ite (fun i => some (Literal.int i)) _ _ _
  | flag space name value =>
    show some (Literal.bool (atPair (f.flag.put space name value) false keys)) = _
    rw [atPair_put]
    exact apply_ite (fun b => some (Literal.bool b)) _ _ _
  | state space key value =>
    -- a scalar has no default, so nothing shows at keys that are not two
    rcases keys with _ | ⟨o, _ | ⟨i, _ | ⟨k, rest⟩⟩⟩
    case cons.cons.nil =>
      show (f.state.put space key value).find? o i = _
      simp only [Table.find?_put, Fact.routes, List.mem_singleton, List.cons.injEq, and_true]
      split_ifs <;> rfl
    all_goals simp [Fact.routes]; rfl

/-- **Read over write:** a path shows the fact that was just recorded if it addresses it, and else
what it showed before. -/
theorem resolve_add (f : Facts) (fact : Fact) (path : String) :
    (f.add fact).resolve path =
      if fact.AddressedBy path then some fact.value else f.resolve path := by
  obtain ⟨keys, hsegments⟩ := exists_segments_eq_cons path
  simp only [resolve, Fact.addressedBy_iff, hsegments, List.cons.injEq]
  by_cases hcategory : firstSegment path = fact.category
  · rw [hcategory, resolveSegments_add_cons]
    simp
  · have hhead : (firstSegment path :: keys).head? ≠ some fact.category := by simpa using hcategory
    rw [resolveSegments_add_of_ne f hhead, if_neg]
    rintro ⟨_, -, heq, -⟩
    exact hcategory heq

/-! ### Any record -/

/-- Facts that are recorded one after the other: the last one that a path addresses shows. -/
theorem resolve_foldl_add (facts : List Fact) (f : Facts) (path : String) :
    (facts.foldl add f).resolve path =
      ((facts.filter (·.AddressedBy path)).getLast?.map Fact.value).or (f.resolve path) := by
  induction facts generalizing f with
  | nil => rfl
  | cons fact rest ih =>
    rw [List.foldl_cons, ih, resolve_add]
    by_cases haddressed : fact.AddressedBy path
    · rw [if_pos haddressed, List.filter_cons_of_pos (by simpa using haddressed),
        List.getLast?_cons]
      cases (rest.filter (·.AddressedBy path)).getLast? <;> rfl
    · rw [if_neg haddressed, List.filter_cons_of_neg (by simpa using haddressed)]

theorem atPair_empty (default : α) (keys : List String) :
    atPair (Dict.empty : Table α) default keys = default := by
  unfold atPair
  split <;> rfl

theorem quantity_empty (keys : List String) : empty.quantity keys = 0 := by
  unfold quantity
  split <;> rfl

/-- Where nothing is on record, a path shows the zero of its category. -/
theorem resolve_empty (path : String) : empty.resolve path = absentValue? path := by
  obtain ⟨keys, hsegments⟩ := exists_segments_eq_cons path
  rw [resolve, absentValue?, hsegments]
  generalize firstSegment path = first
  unfold resolveSegments
  split
  case h_1 rest hcons =>
    rw [(List.cons.inj hcons).1]
    exact congrArg (fun i => some (Literal.int i)) (atPair_empty 0 rest)
  case h_2 rest hcons =>
    rw [(List.cons.inj hcons).1]
    exact congrArg (fun i => some (Literal.int i)) (atPair_empty 0 rest)
  case h_3 rest hcons =>
    rw [(List.cons.inj hcons).1]
    exact congrArg (fun i => some (Literal.int i)) (quantity_empty rest)
  case h_4 rest hcons =>
    rw [(List.cons.inj hcons).1]
    exact congrArg (fun b => some (Literal.bool b)) (atPair_empty false rest)
  case h_5 hcons =>
    rw [(List.cons.inj hcons).1]
    rfl
  case h_6 hrel hcurrency hinv hflag _ =>
    have hnumber : first ∉ ["rel", "inv", "currency"] := by
      simp only [List.mem_cons, List.not_mem_nil, or_false]
      rintro (rfl | rfl | rfl)
      · exact hrel keys rfl
      · exact hinv keys rfl
      · exact hcurrency keys rfl
    have hother : first ≠ "flag" := by
      rintro rfl
      exact hflag keys rfl
    rw [if_neg hnumber, if_neg hother]

/-- **The value of a path on any record** is that of the last fact that the path addresses; without
one it is the zero of its category, or nothing. -/
theorem resolve_ofList (facts : List Fact) (path : String) :
    (ofList facts).resolve path =
      ((facts.filter (·.AddressedBy path)).getLast?.map Fact.value).or (absentValue? path) := by
  rw [ofList, resolve_foldl_add, resolve_empty]

/-- The last of two quantities counts, and the balance of an owner with a dot is lost. -/
example :
    let f := ofList [.item "hero" "rope" 2, .currency "hero.purse" "gold" 9, .item "hero" "rope" 3]
    f.resolve "inv.hero.rope.qty" = some (.int 3) ∧
      f.resolve "currency.hero.purse.gold" = some (.int 0) := by
  decide

end Facts

end Questline
