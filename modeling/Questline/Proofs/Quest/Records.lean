import Mathlib.Tactic.MkIffOfInductiveProp
import Questline.Document.Quest

/-! # The records of quests

Quests, nodes, edges and acts are records: each is read field by field, and a field does not depend
on the others.

* `Act.ReadFrom`, `Node.ReadFrom`, `Edge.ReadFrom`, `Quest.ReadFrom`: what each field gives.
* `Act.ofJson?_eq_some_iff`, `Node.ofJson?_eq_some_iff`, `Edge.ofJson?_eq_some_iff`,
  `Quest.ofJson?_eq_some_iff`: a record is read just when each of its fields is. -/

namespace Questline

variable {j : Json}

namespace Act

/-- The act that the fields of a record give. -/
@[mk_iff]
structure ReadFrom (r : Json.Record) (a : Act) : Prop where
  kind : r.required "type" Json.string? = some a.kind
  id : r.optionalOrAbsent "id" Json.string? = some a.id
  key : r.optionalOrAbsent "key" Json.string? = some a.key
  val : r.optionalOrAbsent "val" Json.any? = some a.val
  status : r.optionalOrAbsent "status" Json.string? = some a.status
  delta : r.optionalOrAbsent "delta" Json.binary64? = some a.delta

theorem ofJson?_eq_some_iff {a : Act} :
    ofJson? j = some a ↔ ∃ r, j.record? fieldNames = some r ∧ ReadFrom r a := by
  simp only [ofJson?, Option.bind_eq_bind, Option.bind_eq_some_iff, Option.pure_def,
    Option.some.injEq]
  constructor
  · rintro ⟨r, hrecord, kind, hkind, id, hid, key, hkey, val, hval, status, hstatus, delta, hdelta,
      rfl⟩
    exact ⟨r, hrecord, hkind, hid, hkey, hval, hstatus, hdelta⟩
  · rintro ⟨r, hrecord, h⟩
    exact ⟨r, hrecord, _, h.kind, _, h.id, _, h.key, _, h.val, _, h.status, _, h.delta, rfl⟩

end Act

namespace Node

/-- The node that the fields of a record give. -/
@[mk_iff]
structure ReadFrom (r : Json.Record) (n : Node) : Prop where
  id : r.required "id" Json.string? = some n.id
  kind : r.required "type" NodeKind.ofJson? = some n.kind
  synopsis : r.required "synopsis" Json.string? = some n.synopsis
  enterIf : r.withDefault "enterIf" [] (Json.list? Guard.ofJson?) = some n.enterIf
  onSuccess : r.withDefault "onSuccess" [] (Json.list? Act.ofJson?) = some n.onSuccess
  onFail : r.withDefault "onFail" [] (Json.list? Act.ofJson?) = some n.onFail
  hint : r.optionalOrAbsent "hint" Json.string? = some n.hint

theorem ofJson?_eq_some_iff {n : Node} :
    ofJson? j = some n ↔ ∃ r, j.record? fieldNames = some r ∧ ReadFrom r n := by
  simp only [ofJson?, Option.bind_eq_bind, Option.bind_eq_some_iff, Option.pure_def,
    Option.some.injEq]
  constructor
  · rintro ⟨r, hrecord, id, hid, kind, hkind, synopsis, hsynopsis, enterIf, henterIf, onSuccess,
      honSuccess, onFail, honFail, hint, hhint, rfl⟩
    exact ⟨r, hrecord, hid, hkind, hsynopsis, henterIf, honSuccess, honFail, hhint⟩
  · rintro ⟨r, hrecord, h⟩
    exact ⟨r, hrecord, _, h.id, _, h.kind, _, h.synopsis, _, h.enterIf, _, h.onSuccess, _, h.onFail,
      _, h.hint, rfl⟩

end Node

namespace Edge

/-- The edge that the fields of a record give. -/
@[mk_iff]
structure ReadFrom (r : Json.Record) (e : Edge) : Prop where
  source : r.required "from" Json.string? = some e.source
  target : r.required "to" Json.string? = some e.target
  guards : r.withDefault "guard" [] (Json.list? Guard.ofJson?) = some e.guards

theorem ofJson?_eq_some_iff {e : Edge} :
    ofJson? j = some e ↔ ∃ r, j.record? fieldNames = some r ∧ ReadFrom r e := by
  simp only [ofJson?, Option.bind_eq_bind, Option.bind_eq_some_iff, Option.pure_def,
    Option.some.injEq]
  constructor
  · rintro ⟨r, hrecord, source, hsource, target, htarget, guards, hguards, rfl⟩
    exact ⟨r, hrecord, hsource, htarget, hguards⟩
  · rintro ⟨r, hrecord, h⟩
    exact ⟨r, hrecord, _, h.source, _, h.target, _, h.guards, rfl⟩

end Edge

namespace Quest

/-- The quest that the fields of a record give. -/
@[mk_iff]
structure ReadFrom (r : Json.Record) (q : Quest) : Prop where
  id : r.required "graphId" Json.string? = some q.id
  start : r.required "start" Json.string? = some q.start
  nodes : r.withDefault "nodes" [] (Json.list? Node.ofJson?) = some q.nodes
  edges : r.withDefault "edges" [] (Json.list? Edge.ofJson?) = some q.edges

theorem ofJson?_eq_some_iff {q : Quest} :
    ofJson? j = some q ↔ ∃ r, j.record? fieldNames = some r ∧ ReadFrom r q := by
  simp only [ofJson?, Option.bind_eq_bind, Option.bind_eq_some_iff, Option.pure_def,
    Option.some.injEq]
  constructor
  · rintro ⟨r, hrecord, id, hid, start, hstart, nodes, hnodes, edges, hedges, rfl⟩
    exact ⟨r, hrecord, hid, hstart, hnodes, hedges⟩
  · rintro ⟨r, hrecord, h⟩
    exact ⟨r, hrecord, _, h.id, _, h.start, _, h.nodes, _, h.edges, rfl⟩

end Quest

end Questline
