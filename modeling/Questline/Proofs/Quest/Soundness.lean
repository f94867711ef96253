import Questline.Proofs.Quest.Frontier

/-! # Sound quests

A quest is sound when its nodes have different ids, it starts at one of them and every edge joins
two of them. The check accepts just the sound quests, and in these every id can be looked up. Of a
quest that is not sound it names the first fault: the first node whose id an earlier node has, then
a start that is no node, then the first edge of which an end is missing, the source before the
target.

* `Quest.Sound`: a sound quest. `Quest.check_eq_none_iff`: the check accepts it.
* `Quest.FirstFault`: the first fault of a quest. `Quest.check_eq_some_iff`: the check names it.
* `Quest.check_exact`: what the check says, and what a sound quest promises. -/

namespace Questline

namespace Quest

variable {q : Quest} {e : Edge} {id : String} {fault : QuestFault}

/-- Both ends of an edge are nodes. -/
def Joins (q : Quest) (e : Edge) : Prop := e.source ∈ q.ids ∧ e.target ∈ q.ids

/-- **A sound quest.** -/
structure Sound (q : Quest) : Prop where
  nodup : q.ids.Nodup
  start_mem : q.start ∈ q.ids
  joins : ∀ e ∈ q.edges, q.Joins e

/-- **The missing end of an edge:** its source if that is no node, else its target. -/
inductive MissingEnd (q : Quest) (e : Edge) : String → Prop
  | source (h : e.source ∉ q.ids) : MissingEnd q e e.source
  | target (hsource : e.source ∈ q.ids) (h : e.target ∉ q.ids) : MissingEnd q e e.target

/-- **The first fault of a quest.** -/
inductive FirstFault (q : Quest) : QuestFault → Prop
  /-- The nodes before this one have different ids, and one of them has its id. -/
  | duplicateNode {front back : List Node} {n : Node} (hnodes : q.nodes = front ++ n :: back)
      (hnodup : (front.map Node.id).Nodup) (hrepeat : n.id ∈ front.map Node.id) :
      FirstFault q (.duplicateNode q.id n.id)
  | unknownStart (hnodup : q.ids.Nodup) (hstart : q.start ∉ q.ids) :
      FirstFault q (.unknownStart q.id q.start)
  /-- The edges before this one join nodes. -/
  | danglingEdge {front back : List Edge} {e : Edge} {missing : String} (hnodup : q.ids.Nodup)
      (hstart : q.start ∈ q.ids) (hedges : q.edges = front ++ e :: back)
      (hjoins : ∀ e ∈ front, q.Joins e) (hmissing : q.MissingEnd e missing) :
      FirstFault q (.danglingEdge q.id e.source e.target missing)

/-! ### Ids -/

/-- **The first repeat in a list of ids:** those before it are different and new, and it is one of
them or was seen before. -/
theorem firstRepeat?_eq_some_iff {seen ids : List String} :
    firstRepeat? seen ids = some id ↔
      ∃ front back, ids = front ++ id :: back ∧ firstRepeat? seen front = none ∧
        (id ∈ seen ∨ id ∈ front) := by
  induction ids generalizing seen with
  | nil => simp [firstRepeat?]
  | cons first rest ih =>
    rw [firstRepeat?]
    by_cases hseen : first ∈ seen
    · rw [if_pos hseen]
      constructor
      · rintro ⟨⟩
        exact ⟨[], rest, rfl, rfl, .inl hseen⟩
      · rintro ⟨_ | ⟨other, front⟩, back, heq, hnone, -⟩
        · exact congrArg some (List.cons.inj heq).1
        · obtain rfl : first = other := (List.cons.inj heq).1
          rw [firstRepeat?, if_pos hseen] at hnone
          cases hnone
    · rw [if_neg hseen, ih]
      constructor
      · rintro ⟨front, back, rfl, hnone, hmem⟩
        refine ⟨first :: front, back, rfl, by rwa [firstRepeat?, if_neg hseen], ?_⟩
        rw [List.mem_cons] at hmem ⊢
        tauto
      · rintro ⟨_ | ⟨other, front⟩, back, heq, hnone, hmem⟩
        · obtain rfl : first = id := (List.cons.inj heq).1
          exact absurd hmem (by simpa using hseen)
        · obtain ⟨rfl, rfl⟩ := List.cons.inj heq
          rw [firstRepeat?, if_neg hseen] at hnone
          refine ⟨front, back, rfl, hnone, ?_⟩
          rw [List.mem_cons] at hmem ⊢
          tauto

theorem firstRepeat?_nil_eq_none_iff {ids : List String} :
    firstRepeat? [] ids = none ↔ ids.Nodup := by
  simp [firstRepeat?_eq_none_iff]

/-- An id is the first that is repeated just when it is that of the first node that repeats one. -/
theorem firstRepeat?_ids_eq_some_iff :
    firstRepeat? [] q.ids = some id ↔
      ∃ front n back, q.nodes = front ++ n :: back ∧ (front.map Node.id).Nodup ∧
        n.id ∈ front.map Node.id ∧ n.id = id := by
  rw [firstRepeat?_eq_some_iff]
  constructor
  · rintro ⟨front, back, hids, hnone, hmem⟩
    obtain ⟨frontNodes, rest, hnodes, rfl, hrest⟩ := List.map_eq_append_iff.mp hids
    obtain ⟨n, backNodes, rfl, rfl, -⟩ := List.map_eq_cons_iff.mp hrest
    exact ⟨frontNodes, n, backNodes, hnodes, firstRepeat?_nil_eq_none_iff.mp hnone,
      hmem.resolve_left List.not_mem_nil, rfl⟩
  · rintro ⟨front, n, back, hnodes, hnodup, hmem, rfl⟩
    refine ⟨front.map Node.id, back.map Node.id, ?_, firstRepeat?_nil_eq_none_iff.mpr hnodup,
      .inr hmem⟩
    rw [ids, hnodes, List.map_append, List.map_cons]

/-! ### Edges -/

theorem missingEnd?_eq_some_iff : missingEnd? q.ids e = some id ↔ q.MissingEnd e id := by
  constructor
  · intro h
    rcases List.find?_cons_eq_some.mp h with ⟨hsource, rfl⟩ | ⟨hsource, hrest⟩
    · exact .source (of_decide_eq_true hsource)
    · obtain ⟨htarget, rfl⟩ : e.target ∉ q.ids ∧ e.target = id := by
        simpa [List.find?_cons_eq_some] using hrest
      exact .target (by simpa using hsource) htarget
  · rintro (hsource | ⟨hsource, htarget⟩)
    · simp [missingEnd?, hsource]
    · simp [missingEnd?, hsource, htarget]

theorem edgeFault?_eq_none_iff : q.edgeFault? e = none ↔ q.Joins e := by
  rw [edgeFault?, Option.map_eq_none_iff, missingEnd?, List.find?_eq_none]
  simp [Joins]

theorem edgeFault?_eq_some_iff :
    q.edgeFault? e = some fault ↔
      ∃ missing, q.MissingEnd e missing ∧ fault = .danglingEdge q.id e.source e.target missing := by
  rw [edgeFault?, Option.map_eq_some_iff]
  exact exists_congr fun missing => and_congr missingEnd?_eq_some_iff eq_comm

/-! ### The check -/

/-- **The check accepts just the sound quests.** -/
theorem check_eq_none_iff : q.check = none ↔ q.Sound := by
  constructor
  · intro h
    exact ⟨nodup_ids_of_check h, start_mem_ids_of_check h, fun e he => ends_mem_ids_of_check h he⟩
  · rintro ⟨hnodup, hstart, hjoins⟩
    rw [check, firstRepeat?_nil_eq_none_iff.mpr hnodup]
    dsimp only
    rw [if_neg (not_not.mpr hstart), List.findSome?_eq_none_iff]
    exact fun e he => edgeFault?_eq_none_iff.mpr (hjoins e he)

instance (q : Quest) : Decidable q.Sound := decidable_of_iff (q.check = none) check_eq_none_iff

/-- **The check names the first fault.** -/
theorem check_eq_some_iff : q.check = some fault ↔ q.FirstFault fault := by
  constructor
  · intro h
    unfold check at h
    split at h
    · rename_i id hrepeat
      obtain ⟨front, n, back, hnodes, hnodup, hmem, rfl⟩ := firstRepeat?_ids_eq_some_iff.mp hrepeat
      obtain rfl := Option.some.inj h
      exact .duplicateNode hnodes hnodup hmem
    · rename_i hrepeat
      have hnodup := firstRepeat?_nil_eq_none_iff.mp hrepeat
      split at h
      · rename_i hstart
        obtain rfl := Option.some.inj h
        exact .unknownStart hnodup hstart
      · rename_i hstart
        obtain ⟨front, e, back, hedges, hfault, hnone⟩ := List.findSome?_eq_some_iff.mp h
        obtain ⟨missing, hmissing, rfl⟩ := edgeFault?_eq_some_iff.mp hfault
        exact .danglingEdge hnodup (not_not.mp hstart) hedges
          (fun e he => edgeFault?_eq_none_iff.mp (hnone e he)) hmissing
  · intro h
    unfold check
    cases h with
    | duplicateNode hnodes hnodup hmem =>
      rw [firstRepeat?_ids_eq_some_iff.mpr ⟨_, _, _, hnodes, hnodup, hmem, rfl⟩]
    | unknownStart hnodup hstart =>
      rw [firstRepeat?_nil_eq_none_iff.mpr hnodup]
      exact if_pos hstart
    | danglingEdge hnodup hstart hedges hjoins hmissing =>
      rw [firstRepeat?_nil_eq_none_iff.mpr hnodup]
      dsimp only
      rw [if_neg (not_not.mpr hstart), List.findSome?_eq_some_iff]
      exact ⟨_, _, _, hedges, edgeFault?_eq_some_iff.mpr ⟨_, hmissing, rfl⟩,
        fun e he => edgeFault?_eq_none_iff.mpr (hjoins e he)⟩

/-- **What the check says.** It accepts just the quests that are sound, and there the id of a node
is looked up as that node, and both ends of an edge as some node. Else it names the first fault. -/
theorem check_exact (q : Quest) :
    (q.check = none ↔ q.Sound) ∧
    (q.check = none →
      (∀ n ∈ q.nodes, q.node? n.id = some n) ∧
      ∀ e ∈ q.edges, ∃ source target,
        q.node? e.source = some source ∧ q.node? e.target = some target) ∧
    ∀ fault, q.check = some fault ↔ q.FirstFault fault := by
  refine ⟨check_eq_none_iff, fun hq => ⟨fun n hn => node?_of_mem hq hn, fun e he => ?_⟩,
    fun fault => check_eq_some_iff⟩
  obtain ⟨hsource, htarget⟩ := ends_mem_ids_of_check hq he
  obtain ⟨source, hsource⟩ := Option.isSome_iff_exists.mp (node?_isSome_iff.mpr hsource)
  obtain ⟨target, htarget⟩ := Option.isSome_iff_exists.mp (node?_isSome_iff.mpr htarget)
  exact ⟨source, target, hsource, htarget⟩

/-- The ford with its nodes twice, the second time backwards, and a start that is no node. -/
def doubledFord : Quest :=
  { ford with start := "cave", nodes := ford.nodes ++ ford.nodes.reverse }

/-- The ford with two more edges, of which one comes from nowhere and leads nowhere. -/
def leakyFord : Quest :=
  { ford with edges := ford.edges ++ [⟨"cave", "lake", []⟩, ⟨"near", "cave", []⟩] }

/-- The ford is sound. With its nodes twice, the bridge is the first to come again, whatever the
start is. The edge from nowhere to nowhere is faulted for where it comes from. -/
theorem check_exact_of_ford :
    (ford.check = none ∧ ford.Sound ∧ (∀ n ∈ ford.nodes, ford.node? n.id = some n) ∧
      ∀ e ∈ ford.edges, ∃ source target,
        ford.node? e.source = some source ∧ ford.node? e.target = some target) ∧
    doubledFord.check = some (.duplicateNode "ford" "bridge") ∧
    leakyFord.check = some (.danglingEdge "ford" "cave" "lake" "cave") := by
  have hsound : ford.Sound := by decide
  have hcheck : ford.check = none := (check_exact ford).1.mpr hsound
  have hagain : doubledFord.FirstFault (.duplicateNode "ford" "bridge") :=
    .duplicateNode (q := doubledFord) (n := ford.nodes[2]) rfl hsound.nodup (by decide)
  have hnowhere : leakyFord.FirstFault (.danglingEdge "ford" "cave" "lake" "cave") :=
    .danglingEdge (q := leakyFord) (e := ⟨"cave", "lake", []⟩) hsound.nodup hsound.start_mem rfl
      hsound.joins (.source (by decide))
  exact ⟨⟨hcheck, hsound, (check_exact ford).2.1 hcheck⟩,
    ((check_exact doubledFord).2.2 _).mpr hagain, ((check_exact leakyFord).2.2 _).mpr hnowhere⟩

end Quest

end Questline
