import Questline.Proofs.Json.Spelling
import Questline.Proofs.Quest.Written

/-! # Spellings of quests

The fingerprint of a quest hashes what was read, not the text it was read from. So it stays when the
document is spelled in another way: when the keys of its objects stand in another order, at any
depth of the value of an act too, and when keys that nobody reads are added.

* `Act.Respelled`, `Node.Respelled`, `Edge.Respelled`, `Quest.Respelled`: other spellings.
* `Act.Respelled.ofJson?_eq`, `Node.Respelled.ofJson?_eq`, `Edge.Respelled.ofJson?_eq`,
  `Quest.Respelled.ofJson?_eq`: they are read as the same.
* `Quest.fingerprint_of_respelled`: so are their texts, and the fingerprint is the same. -/

namespace Questline

variable {j j' : Json}

namespace Act

/-- In the value of an act the keys of any object may stand in another order. -/
def PartRespelled : String → Json → Json → Prop
  | "val" => Json.Reordered
  | _ => Eq

/-- **Another spelling of an act.** -/
def Respelled : Json → Json → Prop := Json.Respelled fieldNames PartRespelled

theorem partRespelled_refl (n : String) (v : Json) : PartRespelled n v v := by
  unfold PartRespelled
  split
  · exact .refl v
  · rfl

theorem partRespelled_trimDepth (n : String) (v v' : Json) (limit : Nat)
    (h : PartRespelled n v v') : PartRespelled n (v.trimDepth limit) (v'.trimDepth limit) := by
  unfold PartRespelled at h ⊢
  split at h
  · exact Json.Reordered.trimDepth h limit
  · rw [h]

theorem readFrom_congr {r r' : Json.Record} {a : Act}
    (h : Json.Record.Agrees fieldNames PartRespelled r r') : ReadFrom r a ↔ ReadFrom r' a := by
  have hkind : r.required "type" Json.string? = r'.required "type" Json.string? :=
    h.required (by decide) fun v v' hv => congrArg _ hv
  have hid : r.optionalOrAbsent "id" Json.string? = r'.optionalOrAbsent "id" Json.string? :=
    h.optionalOrAbsent (by decide) fun v v' hv => congrArg _ hv
  have hkey : r.optionalOrAbsent "key" Json.string? = r'.optionalOrAbsent "key" Json.string? :=
    h.optionalOrAbsent (by decide) fun v v' hv => congrArg _ hv
  have hval : r.optionalOrAbsent "val" Json.any? = r'.optionalOrAbsent "val" Json.any? :=
    h.optionalOrAbsent (by decide) fun v v' hv => Json.Reordered.orAbsent?_any?_eq hv
  have hstatus : r.optionalOrAbsent "status" Json.string? =
      r'.optionalOrAbsent "status" Json.string? :=
    h.optionalOrAbsent (by decide) fun v v' hv => congrArg _ hv
  have hdelta : r.optionalOrAbsent "delta" Json.binary64? =
      r'.optionalOrAbsent "delta" Json.binary64? :=
    h.optionalOrAbsent (by decide) fun v v' hv => congrArg _ hv
  rw [readFrom_iff, readFrom_iff, hkind, hid, hkey, hval, hstatus, hdelta]

namespace Respelled

theorem ofJson?_eq (h : Respelled j j') : ofJson? j = ofJson? j' :=
  Json.Respelled.read_eq partRespelled_refl ofJson?_eq_some_iff readFrom_congr h

theorem trimDepth (h : Respelled j j') (limit : Nat) :
    Respelled (j.trimDepth limit) (j'.trimDepth limit) :=
  Json.Respelled.trimDepth partRespelled_trimDepth h limit

end Respelled

end Act

namespace Node

/-- Each of the templates of a node may be spelled in another way. -/
def PartRespelled : String → Json → Json → Prop
  | "onSuccess" => Json.ItemsRespelled Act.Respelled
  | "onFail" => Json.ItemsRespelled Act.Respelled
  | _ => Eq

/-- **Another spelling of a node.** -/
def Respelled : Json → Json → Prop := Json.Respelled fieldNames PartRespelled

theorem partRespelled_refl (n : String) (v : Json) : PartRespelled n v v := by
  unfold PartRespelled
  split
  · exact .refl v
  · exact .refl v
  · rfl

theorem partRespelled_trimDepth (n : String) (v v' : Json) (limit : Nat)
    (h : PartRespelled n v v') : PartRespelled n (v.trimDepth limit) (v'.trimDepth limit) := by
  have hacts : ∀ w w' limit, Act.Respelled w w' →
      Act.Respelled (w.trimDepth limit) (w'.trimDepth limit) :=
    fun _ _ limit hw => hw.trimDepth limit
  unfold PartRespelled at h ⊢
  split at h
  · exact Json.ItemsRespelled.trimDepth hacts h limit
  · exact Json.ItemsRespelled.trimDepth hacts h limit
  · rw [h]

theorem readFrom_congr {r r' : Json.Record} {n : Node}
    (h : Json.Record.Agrees fieldNames PartRespelled r r') : ReadFrom r n ↔ ReadFrom r' n := by
  have hid : r.required "id" Json.string? = r'.required "id" Json.string? :=
    h.required (by decide) fun v v' hv => congrArg _ hv
  have hkind : r.required "type" NodeKind.ofJson? = r'.required "type" NodeKind.ofJson? :=
    h.required (by decide) fun v v' hv => congrArg _ hv
  have hsynopsis : r.required "synopsis" Json.string? = r'.required "synopsis" Json.string? :=
    h.required (by decide) fun v v' hv => congrArg _ hv
  have henterIf : r.withDefault "enterIf" [] (Json.list? Guard.ofJson?) =
      r'.withDefault "enterIf" [] (Json.list? Guard.ofJson?) :=
    h.withDefault (by decide) [] fun v v' hv => congrArg _ hv
  have hacts : ∀ v v', Json.ItemsRespelled Act.Respelled v v' →
      Json.list? Act.ofJson? v = Json.list? Act.ofJson? v' :=
    fun v v' hv => hv.list?_eq fun _ _ hw => hw.ofJson?_eq
  have honSuccess : r.withDefault "onSuccess" [] (Json.list? Act.ofJson?) =
      r'.withDefault "onSuccess" [] (Json.list? Act.ofJson?) :=
    h.withDefault (by decide) [] hacts
  have honFail : r.withDefault "onFail" [] (Json.list? Act.ofJson?) =
      r'.withDefault "onFail" [] (Json.list? Act.ofJson?) :=
    h.withDefault (by decide) [] hacts
  have hhint : r.optionalOrAbsent "hint" Json.string? = r'.optionalOrAbsent "hint" Json.string? :=
    h.optionalOrAbsent (by decide) fun v v' hv => congrArg _ hv
  rw [readFrom_iff, readFrom_iff, hid, hkind, hsynopsis, henterIf, honSuccess, honFail, hhint]

namespace Respelled

theorem ofJson?_eq (h : Respelled j j') : ofJson? j = ofJson? j' :=
  Json.Respelled.read_eq partRespelled_refl ofJson?_eq_some_iff readFrom_congr h

theorem trimDepth (h : Respelled j j') (limit : Nat) :
    Respelled (j.trimDepth limit) (j'.trimDepth limit) :=
  Json.Respelled.trimDepth partRespelled_trimDepth h limit

end Respelled

end Node

namespace Edge

/-- **Another spelling of an edge**, of which no part is spelled in another way. -/
def Respelled : Json → Json → Prop := Json.Respelled fieldNames fun _ => Eq

theorem readFrom_congr {r r' : Json.Record} {e : Edge}
    (h : Json.Record.Agrees fieldNames (fun _ => Eq) r r') : ReadFrom r e ↔ ReadFrom r' e := by
  have hsource : r.required "from" Json.string? = r'.required "from" Json.string? :=
    h.required (by decide) fun v v' hv => congrArg _ hv
  have htarget : r.required "to" Json.string? = r'.required "to" Json.string? :=
    h.required (by decide) fun v v' hv => congrArg _ hv
  have hguards : r.withDefault "guard" [] (Json.list? Guard.ofJson?) =
      r'.withDefault "guard" [] (Json.list? Guard.ofJson?) :=
    h.withDefault (by decide) [] fun v v' hv => congrArg _ hv
  rw [readFrom_iff, readFrom_iff, hsource, htarget, hguards]

namespace Respelled

theorem ofJson?_eq (h : Respelled j j') : ofJson? j = ofJson? j' :=
  Json.Respelled.read_eq (fun _ _ => rfl) ofJson?_eq_some_iff readFrom_congr h

theorem trimDepth (h : Respelled j j') (limit : Nat) :
    Respelled (j.trimDepth limit) (j'.trimDepth limit) :=
  Json.Respelled.trimDepth (fun _ _ _ limit hv => congrArg (Json.trimDepth limit) hv) h limit

end Respelled

end Edge

namespace Quest

/-- Each of the nodes and edges of a quest may be spelled in another way. -/
def PartRespelled : String → Json → Json → Prop
  | "nodes" => Json.ItemsRespelled Node.Respelled
  | "edges" => Json.ItemsRespelled Edge.Respelled
  | _ => Eq

/-- **Another spelling of a quest.** -/
def Respelled : Json → Json → Prop := Json.Respelled fieldNames PartRespelled

theorem partRespelled_refl (n : String) (v : Json) : PartRespelled n v v := by
  unfold PartRespelled
  split
  · exact .refl v
  · exact .refl v
  · rfl

theorem partRespelled_trimDepth (n : String) (v v' : Json) (limit : Nat)
    (h : PartRespelled n v v') : PartRespelled n (v.trimDepth limit) (v'.trimDepth limit) := by
  unfold PartRespelled at h ⊢
  split at h
  · exact Json.ItemsRespelled.trimDepth (fun _ _ limit hw => hw.trimDepth limit) h limit
  · exact Json.ItemsRespelled.trimDepth (fun _ _ limit hw => hw.trimDepth limit) h limit
  · rw [h]

theorem readFrom_congr {r r' : Json.Record} {q : Quest}
    (h : Json.Record.Agrees fieldNames PartRespelled r r') : ReadFrom r q ↔ ReadFrom r' q := by
  have hid : r.required "graphId" Json.string? = r'.required "graphId" Json.string? :=
    h.required (by decide) fun v v' hv => congrArg _ hv
  have hstart : r.required "start" Json.string? = r'.required "start" Json.string? :=
    h.required (by decide) fun v v' hv => congrArg _ hv
  have hnodes : r.withDefault "nodes" [] (Json.list? Node.ofJson?) =
      r'.withDefault "nodes" [] (Json.list? Node.ofJson?) :=
    h.withDefault (by decide) [] fun v v' hv =>
      Json.ItemsRespelled.list?_eq (fun _ _ hw => hw.ofJson?_eq) hv
  have hedges : r.withDefault "edges" [] (Json.list? Edge.ofJson?) =
      r'.withDefault "edges" [] (Json.list? Edge.ofJson?) :=
    h.withDefault (by decide) [] fun v v' hv =>
      Json.ItemsRespelled.list?_eq (fun _ _ hw => hw.ofJson?_eq) hv
  rw [readFrom_iff, readFrom_iff, hid, hstart, hnodes, hedges]

namespace Respelled

theorem ofJson?_eq (h : Respelled j j') : ofJson? j = ofJson? j' :=
  Json.Respelled.read_eq partRespelled_refl ofJson?_eq_some_iff readFrom_congr h

theorem trimDepth (h : Respelled j j') (limit : Nat) :
    Respelled (j.trimDepth limit) (j'.trimDepth limit) :=
  Json.Respelled.trimDepth partRespelled_trimDepth h limit

end Respelled

/-- **The fingerprint ignores spelling.** From another spelling of the document of a quest the same
quest is read, with the same fingerprint, and it is accepted just when the quest was. -/
theorem fingerprint_of_respelled {source source' : String} (hj : Json.ofText? source = some j)
    (hj' : Json.ofText? source' = some j') (h : Respelled j j') {q : Quest}
    (hq : (Json.ofDocument? source).bind ofJson? = some q) :
    (∃ q', (Json.ofDocument? source').bind ofJson? = some q' ∧ q' = q ∧
      q'.fingerprint = q.fingerprint) ∧ ofText? source' = ofText? source := by
  have hread : ofJson? j.document = ofJson? j'.document :=
    (h.trimDepth Json.nestingLimit).ofJson?_eq
  have hsame : (Json.ofDocument? source').bind ofJson? =
      (Json.ofDocument? source).bind ofJson? := by
    rw [Json.ofDocument?, Json.ofDocument?, hj, hj', Option.map_some, Option.map_some,
      Option.bind_some, Option.bind_some, hread]
  refine ⟨⟨q, hsame.trans hq, rfl, rfl⟩, ?_⟩
  rw [ofText?, ofText?, hsame]

/-- The crossing as another author writes it. -/
def crossingDraft : Json :=
  .obj [("version", .int 3), ("graphId", .str "crossing"), ("start", .str "dock"),
    ("note", .str "draft"), ("edges", .arr [.obj [("from", .str "dock"), ("to", .str "dock")]]),
    ("nodes", .arr [.obj [("icon", .arr []), ("type", .str "gate"), ("id", .str "dock"),
      ("synopsis", .str "Pay the boatman."), ("hint", .null),
      ("enterIf", .arr [.obj [("not", .obj [("in", .arr [.str "currency.gold",
        .arr [.int 2, .float (.ofNat 2)]])])]]),
      ("onSuccess", .arr [.obj [("delta", .int 2), ("key", .str "fare"),
        ("val", .obj [("by", .null), ("coins", .int 2)]), ("type", .str "RESOURCE_UPDATE")]])]])]

theorem respelled_crossingDraft : Respelled crossingDocument crossingDraft := by
  have hval : Json.Reordered (.obj [("coins", .int 2), ("by", .null)])
      (.obj [("by", .null), ("coins", .int 2)]) := .order (by decide) (.swap _ _ _)
  have hact : ∀ delta key kind, Act.Respelled
      (.obj [delta, key, ("val", .obj [("coins", .int 2), ("by", .null)]), kind])
      (.obj [delta, key, ("val", .obj [("by", .null), ("coins", .int 2)]), kind]) :=
    fun delta key kind => .value [delta, key] [kind] hval
  have hicon : "icon" ∉ Node.fieldNames := by decide
  have hversion : "version" ∉ fieldNames := by decide
  -- the edge, the value inside the act, the node, and last the quest itself
  refine .trans (.value [_, _, _] [_] (.item [] [] (.order (.swap _ _ _)))) ?_
  refine .trans (.value [_, _, _, _] []
    (.item [] [] (.value [_, _, _, _, _] [] (.item [] [] (hact _ _ _))))) ?_
  refine .trans (.value [_, _, _, _] [] (.item [] [] (.unknown hicon (.arr []) _))) ?_
  refine .trans (.order (.trans (.cons _ (.swap _ _ _)) (.swap _ _ _))) ?_
  exact .unknown hversion (.int 3) _

/-- The draft of the crossing has its fingerprint. -/
theorem fingerprint_of_crossingDraft :
    let source := crossingDocument.text
    let source' := crossingDraft.text
    (Json.ofText? source = some crossingDocument ∧ Json.ofText? source' = some crossingDraft ∧
      Respelled crossingDocument crossingDraft ∧
      (Json.ofDocument? source).bind ofJson? = some crossing) ∧
      (∃ q', (Json.ofDocument? source').bind ofJson? = some q' ∧ q' = crossing ∧
        q'.fingerprint = crossing.fingerprint) ∧ ofText? source' = ofText? source := by
  intro source source'
  have hsource : Json.ofText? source = some crossingDocument :=
    Json.ofText?_text _ printable_crossingDocument
  have hsource' : Json.ofText? source' = some crossingDraft := by
    refine Json.ofText?_text _ ?_
    simp [crossingDraft, Json.Printable, Json.PrintableItems, Json.PrintableFields, readsBack_two]
  have hread : (Json.ofDocument? source).bind ofJson? = some crossing :=
    (Option.filter_eq_some_iff.mp ofText?_crossingDocument).1
  exact ⟨⟨hsource, hsource', respelled_crossingDraft, hread⟩,
    fingerprint_of_respelled hsource hsource' respelled_crossingDraft hread⟩

end Quest

end Questline
