import Questline.Document.Text
import Questline.Proofs.Guard.Written
import Questline.Proofs.Quest.Records
import Questline.Quest.Fingerprint

/-! # Written quests

What is read of a quest, a node, an edge or an act is kept: it is read back from what is written of
it. An act that was not read may hold what no text can, and is read back without it.

* `Act.stored`, `Act.ofJson?_toJson`: an act as it is read back. `Node.ofJson?_toJson`,
  `Edge.ofJson?_toJson`, `Quest.ofJson?_toJson`: the others are read back when their parts are.
* `Act.keeps`, `Node.keeps`, `Edge.keeps`, `Quest.kept_of_ofJson?`: what is read is kept.
* `Quest.survives_reload`: the text of a quest that was read is read as the same quest. -/

namespace Questline

variable {j : Json}

namespace Act

variable {a : Act}

/-- A value as it is read back: its keys are in order, and null is read as absent. -/
def storedValue? : Json → Option Json
  | .null => none
  | v => some v.sortKeys

/-- **An act as it is read back.** -/
def stored (a : Act) : Act :=
  { a with val := a.val.bind storedValue?, delta := a.delta.filter (·.isFinite) }

theorem orAbsent?_any? {v : Json} (h : v.readable = true) :
    Json.orAbsent? Json.any? v = some (storedValue? v) := by
  have hany : Json.any? v = some v.sortKeys := if_pos h
  cases v with
  | null => rfl
  | _ => simp only [Json.orAbsent?, hany, storedValue?, Option.map_some]

theorem orAbsent?_binary64? (x : Binary64) :
    Json.orAbsent? Json.binary64? (.ofBinary64 x) = some (Option.guard Binary64.isFinite x) := by
  unfold Json.ofBinary64 Option.guard
  split <;> rfl

theorem record?_toJson (a : Act) : a.toJson.record? fieldNames = some ⟨false, a.fields⟩ := by
  have hkeys : (a.fields.map Prod.fst).Sublist fieldNames := by
    simp only [fields, List.map_cons, List.map_append]
    exact .cons_cons _ (((((Json.keys_fieldOf_sublist _ _ _).append
      (Json.keys_fieldOf_sublist _ _ _)).append (Json.keys_fieldOf_sublist _ _ _)).append
      (Json.keys_fieldOf_sublist _ _ _)).append (Json.keys_fieldOf_sublist _ _ _))
  exact Json.record?_obj hkeys (by decide)

/-- **An act is read back** as far as its text can hold it. -/
theorem ofJson?_toJson (h : ∀ v ∈ a.val, v.readable = true) : ofJson? a.toJson = some a.stored := by
  let r : Json.Record := ⟨false, a.fields⟩
  obtain ⟨hkind, hid, hkey, hval, hstatus, hdelta⟩ :
      r.get? "type" = some (.str a.kind) ∧ r.get? "id" = a.id.map .str ∧
      r.get? "key" = a.key.map .str ∧ r.get? "val" = a.val.map (fun v => v) ∧
      r.get? "status" = a.status.map .str ∧ r.get? "delta" = a.delta.map .ofBinary64 := by
    simp [r, fields, Json.Record.get?, List.lookup_append, Json.lookup_fieldOf, Dict.lookup_cons_eq]
  refine ofJson?_eq_some_iff.mpr ⟨r, record?_toJson a, ?_⟩
  open Json.Record in
  exact {
    kind := required_of_get? hkind Json.string?
    id := optionalOrAbsent_of_map_str hid
    key := optionalOrAbsent_of_map_str hkey
    val := optionalOrAbsent_of_map hval fun v hv => orAbsent?_any? (h v hv)
    status := optionalOrAbsent_of_map_str hstatus
    delta := by
      rw [optionalOrAbsent_of_map hdelta fun x _ => orAbsent?_binary64? x]
      exact congrArg some (Option.bind_guard _ _) }

/-! ### Acts of documents -/

section Read

variable (hj : j.InRange) (h : ofJson? j = some a)

include hj h

/-- The value of an act that is read has its keys in order and is not null. -/
theorem val_of_ofJson? {v : Json} (hv : a.val = some v) :
    storedValue? v = some v ∧ v.Writable ∧ v.nesting < j.nesting := by
  obtain ⟨r, hrecord, hfields⟩ := ofJson?_eq_some_iff.mp h
  obtain ⟨w, hw, hnull, hread⟩ := Json.exists_of_optionalOrAbsent hrecord (hv ▸ hfields.val)
  unfold Json.any? at hread
  split at hread
  · rename_i hreadable
    obtain rfl := Option.some.inj hread
    have hwritable : w.Writable := Json.writable_iff.mpr ⟨hj.of_mem_children hw, hreadable⟩
    refine ⟨?_, hwritable.sortKeys,
      Nat.lt_of_le_of_lt w.nesting_sortKeys_le (Json.nesting_lt_of_mem_children hw)⟩
    cases w with
    | null => exact absurd rfl hnull
    | arr items => exact congrArg some (Json.sortKeys_sortKeys (.arr items))
    | obj fields => exact congrArg some (Json.sortKeys_sortKeys (.obj fields))
    | _ => rfl
  · cases hread

theorem delta_of_ofJson? {x : Binary64} (hx : a.delta = some x) : x.isFinite = true := by
  obtain ⟨r, hrecord, hfields⟩ := ofJson?_eq_some_iff.mp h
  obtain ⟨w, hw, -, hread⟩ := Json.exists_of_optionalOrAbsent hrecord (hx ▸ hfields.delta)
  have hrange := hj.of_mem_children hw
  unfold Json.binary64? at hread
  split at hread
  · rename_i i
    cases hread
    have hword := hrange (.int i) List.mem_cons_self
    simp only [Json.LeafInRange] at hword
    exact Binary64.isFinite_ofInt (by omega)
  · rename_i y
    cases hread
    exact hrange (.float x) List.mem_cons_self
  · cases hread

/-- **An act that is read** is read back whole. -/
theorem stored_of_ofJson? : a.stored = a := by
  have hval : a.val.bind storedValue? = a.val := by
    cases hv : a.val with
    | none => rfl
    | some v => exact (val_of_ofJson? hj h hv).1
  have hdelta : a.delta.filter (·.isFinite) = a.delta := by
    cases hx : a.delta with
    | none => rfl
    | some x => exact Option.filter_some_pos (delta_of_ofJson? hj h hx)
  rw [stored, hval, hdelta]

end Read

/-- **An act that is read is kept.** -/
theorem keeps : Json.Keeps ofJson? toJson := by
  intro j a hj h
  obtain ⟨r, hrecord, -⟩ := ofJson?_eq_some_iff.mp h
  have hpos : 0 < j.nesting := Json.nesting_pos_of_record? hrecord
  have hval : ∀ v ∈ a.val, v.Writable ∧ v.nesting < j.nesting :=
    fun v hv => (val_of_ofJson? hj h hv).2
  have hreads : ofJson? a.toJson = some a := by
    rw [ofJson?_toJson fun v hv => (Json.writable_iff.mp (hval v hv).1).2, stored_of_ofJson? hj h]
  have hdelta : ∀ x ∈ a.delta,
      (Json.ofBinary64 x).Writable ∧ (Json.ofBinary64 x).nesting < j.nesting :=
    fun x _ => ⟨Json.writable_ofBinary64 x, by rwa [Json.nesting_ofBinary64]⟩
  have hwithin : Json.Within j.nesting a.fields := by
    simp only [fields, Json.within_cons, Json.within_append, and_assoc]
    exact ⟨Json.writable_str a.kind, hpos, Json.within_fieldOf_str hpos "id" a.id,
      Json.within_fieldOf_str hpos "key" a.key, Json.within_fieldOf hval,
      Json.within_fieldOf_str hpos "status" a.status, Json.within_fieldOf hdelta⟩
  exact Json.kept_obj rfl hreads hpos hwithin

end Act

namespace Node

variable {n : Node}

theorem record?_toJson (n : Node) : n.toJson.record? fieldNames = some ⟨false, n.fields⟩ := by
  have hkeys : (n.fields.map Prod.fst).Sublist fieldNames := by
    simp only [fields, List.map_append]
    exact ((((List.Sublist.refl ["id", "type", "synopsis"]).append
      (Json.keys_listFieldOf_sublist _ _ _)).append (Json.keys_listFieldOf_sublist _ _ _)).append
      (Json.keys_listFieldOf_sublist _ _ _)).append (Json.keys_fieldOf_sublist _ _ _)
  exact Json.record?_obj hkeys (by decide)

/-- A node is read back when its guards and templates are. -/
theorem ofJson?_toJson
    (hguards : Json.list? Guard.ofJson? (.ofList Guard.toJson n.enterIf) = some n.enterIf)
    (hsuccess : Json.list? Act.ofJson? (.ofList Act.toJson n.onSuccess) = some n.onSuccess)
    (hfail : Json.list? Act.ofJson? (.ofList Act.toJson n.onFail) = some n.onFail) :
    ofJson? n.toJson = some n := by
  let r : Json.Record := ⟨false, n.fields⟩
  obtain ⟨hid, hkind, hsynopsis, henterIf, honSuccess, honFail, hhint⟩ :
      r.get? "id" = some (.str n.id) ∧ r.get? "type" = some n.kind.toJson ∧
      r.get? "synopsis" = some (.str n.synopsis) ∧
      r.get? "enterIf" = Json.nonempty? Guard.toJson n.enterIf ∧
      r.get? "onSuccess" = Json.nonempty? Act.toJson n.onSuccess ∧
      r.get? "onFail" = Json.nonempty? Act.toJson n.onFail ∧
      r.get? "hint" = n.hint.map .str := by
    simp [r, fields, Json.Record.get?, List.lookup_append, Json.lookup_fieldOf,
      Json.lookup_listFieldOf, Dict.lookup_cons_eq]
  refine ofJson?_eq_some_iff.mpr ⟨r, record?_toJson n, ?_⟩
  open Json.Record in
  exact {
    id := required_of_get? hid Json.string?
    kind := (required_of_get? hkind NodeKind.ofJson?).trans (NodeKind.ofName?_name n.kind)
    synopsis := required_of_get? hsynopsis Json.string?
    enterIf := withDefault_of_nonempty? henterIf hguards
    onSuccess := withDefault_of_nonempty? honSuccess hsuccess
    onFail := withDefault_of_nonempty? honFail hfail
    hint := optionalOrAbsent_of_map_str hhint }

/-- **A node that is read is kept.** -/
theorem keeps : Json.Keeps ofJson? toJson := by
  intro j n hj h
  obtain ⟨r, hrecord, hread⟩ := ofJson?_eq_some_iff.mp h
  have hpos : 0 < j.nesting := Json.nesting_pos_of_record? hrecord
  obtain ⟨hguards, hguardsWithin⟩ := Guard.keeps.listField hj hrecord hread.enterIf
  obtain ⟨hsuccess, hsuccessWithin⟩ := Act.keeps.listField hj hrecord hread.onSuccess
  obtain ⟨hfail, hfailWithin⟩ := Act.keeps.listField hj hrecord hread.onFail
  have hwithin : Json.Within j.nesting n.fields := by
    simp only [fields, Json.within_cons, Json.within_append, and_assoc]
    exact ⟨Json.writable_str n.id, hpos, Json.writable_str n.kind.name, hpos,
      Json.writable_str n.synopsis, hpos, Json.within_nil, hguardsWithin "enterIf",
      hsuccessWithin "onSuccess", hfailWithin "onFail", Json.within_fieldOf_str hpos "hint" n.hint⟩
  exact Json.kept_obj rfl (ofJson?_toJson hguards hsuccess hfail) hpos hwithin

end Node

namespace Edge

variable {e : Edge}

theorem record?_toJson (e : Edge) : e.toJson.record? fieldNames = some ⟨false, e.fields⟩ := by
  have hkeys : (e.fields.map Prod.fst).Sublist fieldNames := by
    rw [fields, List.map_append]
    exact (List.Sublist.refl ["from", "to"]).append (Json.keys_listFieldOf_sublist _ _ _)
  exact Json.record?_obj hkeys (by decide)

/-- An edge is read back when its guards are. -/
theorem ofJson?_toJson
    (hguards : Json.list? Guard.ofJson? (.ofList Guard.toJson e.guards) = some e.guards) :
    ofJson? e.toJson = some e := by
  let r : Json.Record := ⟨false, e.fields⟩
  obtain ⟨hsource, htarget, hguard⟩ :
      r.get? "from" = some (.str e.source) ∧ r.get? "to" = some (.str e.target) ∧
      r.get? "guard" = Json.nonempty? Guard.toJson e.guards := by
    simp [r, fields, Json.Record.get?, Json.lookup_listFieldOf, Dict.lookup_cons_eq]
  refine ofJson?_eq_some_iff.mpr ⟨r, record?_toJson e, ?_⟩
  open Json.Record in
  exact {
    source := required_of_get? hsource Json.string?
    target := required_of_get? htarget Json.string?
    guards := withDefault_of_nonempty? hguard hguards }

/-- **An edge that is read is kept.** -/
theorem keeps : Json.Keeps ofJson? toJson := by
  intro j e hj h
  obtain ⟨r, hrecord, hread⟩ := ofJson?_eq_some_iff.mp h
  have hpos : 0 < j.nesting := Json.nesting_pos_of_record? hrecord
  obtain ⟨hguards, hguardsWithin⟩ := Guard.keeps.listField hj hrecord hread.guards
  have hwithin : Json.Within j.nesting e.fields := by
    simp only [fields, Json.within_cons, Json.within_append, and_assoc]
    exact ⟨Json.writable_str e.source, hpos, Json.writable_str e.target, hpos, Json.within_nil,
      hguardsWithin "guard"⟩
  exact Json.kept_obj rfl (ofJson?_toJson hguards) hpos hwithin

end Edge

namespace Quest

variable {q : Quest}

theorem record?_toJson (q : Quest) : q.toJson.record? fieldNames = some ⟨false, q.fields⟩ :=
  Json.record?_obj (.refl fieldNames) (by decide)

/-- A quest is read back when its nodes and edges are. -/
theorem ofJson?_toJson
    (hnodes : Json.list? Node.ofJson? (.ofList Node.toJson q.nodes) = some q.nodes)
    (hedges : Json.list? Edge.ofJson? (.ofList Edge.toJson q.edges) = some q.edges) :
    ofJson? q.toJson = some q := by
  let r : Json.Record := ⟨false, q.fields⟩
  obtain ⟨hid, hstart, hnodeList, hedgeList⟩ :
      r.get? "graphId" = some (.str q.id) ∧ r.get? "start" = some (.str q.start) ∧
      r.get? "nodes" = some (.ofList Node.toJson q.nodes) ∧
      r.get? "edges" = some (.ofList Edge.toJson q.edges) := by
    simp [r, fields, Json.Record.get?, Dict.lookup_cons_eq]
  refine ofJson?_eq_some_iff.mpr ⟨r, record?_toJson q, ?_⟩
  open Json.Record in
  exact {
    id := required_of_get? hid Json.string?
    start := required_of_get? hstart Json.string?
    nodes := (withDefault_of_get? hnodeList [] _).trans hnodes
    edges := (withDefault_of_get? hedgeList [] _).trans hedges }

/-- A quest that is read is kept, and nested twice even when it has no nodes and edges. -/
theorem kept_of_ofJson? (hj : j.InRange) (h : ofJson? j = some q) :
    Json.Kept ofJson? toJson (max 2 j.nesting) q := by
  obtain ⟨r, hrecord, hread⟩ := ofJson?_eq_some_iff.mp h
  obtain ⟨hnodes, hnodesWithin⟩ := Node.keeps.listField hj hrecord hread.nodes
  obtain ⟨hedges, hedgesWithin⟩ := Edge.keeps.listField hj hrecord hread.edges
  have hpos : 0 < max 2 j.nesting := by omega
  have hwithin : Json.Within (max 2 j.nesting) q.fields := by
    rw [fields, Json.within_cons, Json.within_cons, Json.within_cons, Json.within_cons]
    exact ⟨⟨Json.writable_str q.id, hpos⟩, ⟨Json.writable_str q.start, hpos⟩,
      Json.within_ofList hnodesWithin, Json.within_ofList hedgesWithin, Json.within_nil⟩
  exact Json.kept_obj rfl (ofJson?_toJson hnodes hedges) hpos hwithin

/-- **A quest survives being saved and loaded.** The text of a quest that was read from a text is
read as the same quest, with the same canonical text and fingerprint. -/
theorem survives_reload {source : String} {q : Quest} (h : ofText? source = some q)
    (hback : ∀ x, .float x ∈ q.toJson.leaves → x.isFinite = true → Json.ReadsBack x) :
    ∃ q', ofText? q.toJson.text = some q' ∧ q' = q ∧ q'.canonicalText = q.canonicalText ∧
      q'.fingerprint = q.fingerprint := by
  obtain ⟨hdecoded, hsound⟩ := Option.filter_eq_some_iff.mp h
  obtain ⟨j, hj, hread⟩ := Option.bind_eq_some_iff.mp hdecoded
  have hkept := kept_of_ofJson? (Json.inRange_of_ofDocument? hj) hread
  have hprintable : Json.Printable q.toJson := Json.printable_of_writable hkept.writable hback
  have hnesting : q.toJson.nesting ≤ Json.nestingLimit := by
    obtain ⟨v, -, rfl⟩ := Option.map_eq_some_iff.mp hj
    have hlimit : Json.nesting (v.document) ≤ 127 := Json.nesting_trimDepth_le _ v
    exact hkept.nesting_le.trans (max_le (by decide) hlimit)
  have hagain : ofText? q.toJson.text = some q := by
    rw [ofText?, Json.ofDocument?_text _ hprintable hnesting, Option.bind_some, hkept.reads]
    exact Option.filter_eq_some_iff.mpr ⟨rfl, hsound⟩
  exact ⟨q, hagain, rfl, rfl, rfl⟩

/-- A crossing that asks for a fare, in an integer or in a number, and notes it down. -/
def crossing : Quest where
  id := "crossing"
  start := "dock"
  nodes := [
    { id := "dock", kind := .gate, synopsis := "Pay the boatman."
      enterIf := [.not (.oneOf "currency.gold" [.int 2, .float (.ofNat 2)])]
      onSuccess := [{ Act.resource "fare" (.ofNat 2) with
        val := some (.obj [("by", .null), ("coins", .int 2)]) }]
      onFail := [], hint := none }]
  edges := [⟨"dock", "dock", []⟩]

/-- The crossing as its author writes it: keys in any order, one that nobody reads, and null. -/
def crossingDocument : Json :=
  .obj [("start", .str "dock"), ("note", .str "draft"), ("graphId", .str "crossing"),
    ("edges", .arr [.obj [("to", .str "dock"), ("from", .str "dock")]]),
    ("nodes", .arr [.obj [("type", .str "gate"), ("id", .str "dock"),
      ("synopsis", .str "Pay the boatman."), ("hint", .null),
      ("enterIf", .arr [.obj [("not", .obj [("in", .arr [.str "currency.gold",
        .arr [.int 2, .float (.ofNat 2)]])])]]),
      ("onSuccess", .arr [.obj [("delta", .int 2), ("key", .str "fare"),
        ("val", .obj [("coins", .int 2), ("by", .null)]), ("type", .str "RESOURCE_UPDATE")]])]])]

theorem readsBack_two : Json.ReadsBack (.ofNat 2) := by
  refine Json.readsBack_of_numeral ⟨false, 2, [0], none⟩ ?_ ?_ ?_ <;> decide +kernel

theorem printable_crossingDocument : Json.Printable crossingDocument := by
  simp [crossingDocument, Json.Printable, Json.PrintableItems, Json.PrintableFields, readsBack_two]

theorem ofText?_crossingDocument : ofText? crossingDocument.text = some crossing := by
  have hnesting : Json.nesting crossingDocument ≤ Json.nestingLimit := by decide
  have hread : ofJson? crossingDocument = some crossing := by rfl
  have hsound : crossing.check = none := by rfl
  rw [ofText?, Json.ofDocument?_text _ printable_crossingDocument hnesting, Option.bind_some, hread]
  simp [Option.filter, hsound]

/-- The integer and the number of the fare stay apart, and so do 2 and 2.0 in the note. -/
theorem survives_reload_crossing :
    let source := crossingDocument.text
    let q := crossing
    (ofText? source = some q ∧
      ∀ x, .float x ∈ q.toJson.leaves → x.isFinite = true → Json.ReadsBack x) ∧
      ∃ q', ofText? q.toJson.text = some q' ∧ q' = q ∧ q'.canonicalText = q.canonicalText ∧
        q'.fingerprint = q.fingerprint := by
  intro source q
  have hback : ∀ x, .float x ∈ q.toJson.leaves → x.isFinite = true → Json.ReadsBack x := by
    intro x hx _
    have hwritten : Json.ofBinary64 (.ofNat 2) = .float (.ofNat 2) := if_pos (by decide +kernel)
    simp only [q, crossing, toJson, fields, Json.ofList, Node.toJson, Node.fields, NodeKind.toJson,
      Json.listFieldOf, Json.fieldOf, Guard.toJson, Literal.toJson, Act.toJson, Act.fields,
      Act.resource, Act.ofKind, Edge.toJson, Edge.fields, List.map_cons, List.map_nil,
      List.append_nil, List.cons_append, List.nil_append, hwritten, Json.leaves, Json.leavesFields,
      Json.leavesItems] at hx
    -- what is left are the number of the fare in the guard and the one in the act
    simp only [List.mem_cons, reduceCtorEq, Json.float.injEq, List.not_mem_nil, false_or, or_false,
      or_self] at hx
    exact hx ▸ readsBack_two
  exact ⟨⟨ofText?_crossingDocument, hback⟩, survives_reload ofText?_crossingDocument hback⟩

end Quest

end Questline
