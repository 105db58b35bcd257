import CodeAtlas.Report
import CodeAtlas.Proofs.JsonText

/-!
# Reports read back from documents

The documents of a report are read back here. The readers are written for this purpose and know
nothing of how documents are made.

## Records

The parts of a record are found by the names of its members, not by where these stand, and what has
no tag is told by what is there: a record with declared names is that of a component, a missing list
of exports is one that is not known, and a relation with the label of a dependency is one. The short
name and the qualified name of a record are read apart from each other (`headOfJson?`), so that a
record is read back whatever the two are.

## Round trips

Each kind of record is read back from its value (`Node.ofJson?_toJson` for the tree), from among the
members of other parts (`headOfJson?_recordHead`, `ComponentRecord.ofJson?_object`). Values are read
back from both of their texts, which is shown in `CodeAtlas.Proofs.JsonText`. So documents lose
nothing (`documents_lossless`). This is said of all reports, not only of those of an analysis.
-/

namespace CodeAtlas

/-! ### Parts of values -/

namespace Json

/-- The first member of an object with a key. -/
def field? (v : Json) (key : String) : Option Json :=
  match v with
  | object members => members.lookup key
  | null | number _ | text _ | array _ => none

/-- Reads the member of an object with a key. -/
def at? {α : Type} (v : Json) (key : String) (read : Json → Option α) : Option α :=
  (v.field? key).bind read

/-- Reads the member of an object with a key, which may be missing. -/
def optional? {α : Type} (v : Json) (key : String) (read : Json → Option α) : Option (Option α) :=
  match v.field? key with
  | none => some none
  | some w => (read w).map some

/-- The number that a value is. -/
def number? : Json → Option Nat
  | number n => some n
  | null | text _ | array _ | object _ => none

/-- The string that a value is. -/
def string? : Json → Option String
  | text s => some s
  | null | number _ | array _ | object _ => none

/-- Reads the elements of an array. -/
def listOf? {α : Type} (read : Json → Option α) : Json → Option (List α)
  | array items => items.mapM read
  | null | number _ | text _ | object _ => none

/-- Reads the members of an object. -/
def membersOf? {α : Type} (read : Json → Option α) : Json → Option (List (String × α))
  | object members => members.mapM fun m ↦ (read m.2).map (m.1, ·)
  | null | number _ | text _ | array _ => none

end Json

/-! ### Records -/

/-- The kind of dependency with a label. -/
def DependencyKind.ofLabel? (label : String) : Option DependencyKind :=
  [uses, refines].find? (·.label == label)

/-- The kind of association with a label. -/
def AssociationKind.ofLabel? (label : String) : Option AssociationKind :=
  [aggregation, composition].find? (·.label == label)

/-- The stereotype with a label. -/
def Stereotype.ofLabel? (label : String) : Option Stereotype :=
  [calls, instantiates, derives, realizes].find? (·.label == label)

/-- The kind with a label and perhaps a stereotype, which only dependencies have. -/
def RelationKind.ofLabels? (label : String) (stereotype : Option Stereotype) :
    Option RelationKind :=
  match DependencyKind.ofLabel? label, stereotype with
  | some kind, stereotype => some (.dependency kind stereotype)
  | none, none => (AssociationKind.ofLabel? label).map .association
  | none, some _ => none

/-- Reads a relation. -/
def Relation.ofJson? (v : Json) : Option Relation := do
  let source ← v.at? "source" Json.number?
  let target ← v.at? "target" Json.number?
  let weight ← v.at? "weight" Json.number?
  let label ← v.at? "type" Json.string?
  let stereotype ← v.optional? "stereotype" fun s ↦ s.string?.bind Stereotype.ofLabel?
  let kind ← RelationKind.ofLabels? label stereotype
  return ⟨⟨source, target, weight⟩, kind⟩

/-- Reads a table of names. -/
def NameTable.ofJson? (v : Json) : Option NameTable :=
  (v.membersOf? fun target ↦ target.string?.map QualName.mk).map fun names ↦
    Std.ExtTreeMap.ofList names

/-- Reads a parameter or attribute. -/
def Variable.ofJson? (v : Json) : Option Variable := do
  let name ← v.at? "name" Json.string?
  let label ← v.at? "type" Json.string?
  return ⟨name, label⟩

/-- Reads what every record begins with. The name need not be the last segment of the qualified
name. -/
def headOfJson? (v : Json) : Option (Id × RecordNames) := do
  let id ← v.at? "id" Json.number?
  let name ← v.at? "name" Json.string?
  let qualName ← v.at? "qual_name" Json.string?
  return (id, ⟨name, ⟨qualName⟩⟩)

/-- Reads the record of a function. -/
def FunctionRecord.ofJson? (v : Json) : Option FunctionRecord := do
  let (id, names) ← headOfJson? v
  let imported ← v.at? "imported_names" NameTable.ofJson?
  let params ← v.at? "params" (Json.listOf? Variable.ofJson?)
  return ⟨names, id, imported, params⟩

/-- Reads the record of a class. -/
def ClassRecord.ofJson? (v : Json) : Option ClassRecord := do
  let (id, names) ← headOfJson? v
  let imported ← v.at? "imported_names" NameTable.ofJson?
  let relations ← v.at? "relations" (Json.listOf? Relation.ofJson?)
  let attributes ← v.at? "inst_attrs" (Json.listOf? Variable.ofJson?)
  let methods ← v.at? "inst_meths" (Json.listOf? FunctionRecord.ofJson?)
  return ⟨names, id, imported, relations, attributes, methods⟩

/-- Reads what is declared in a component. -/
def ComponentRecord.ofJson? (v : Json) : Option ComponentRecord := do
  let exports ← v.optional? "all" (Json.listOf? Json.string?)
  let declared ← v.at? "declared_names" NameTable.ofJson?
  let imported ← v.at? "imported_names" NameTable.ofJson?
  let classes ← v.at? "classes" (Json.listOf? ClassRecord.ofJson?)
  let functions ← v.at? "functions" (Json.listOf? FunctionRecord.ofJson?)
  return ⟨exports, declared, imported, classes, functions⟩

mutual

/-- Reads the record of a package or component. -/
def Node.ofJson? : Json → Option Node
  | .object members => do
    let v := Json.object members
    let (id, names) ← headOfJson? v
    let relations ← v.at? "relations" (Json.listOf? Relation.ofJson?)
    let component ←
      if (v.field? "declared_names").isSome then (ComponentRecord.ofJson? v).map some else some none
    let packages ← Node.under? "packages" members
    let components ← Node.under? "components" members
    return .mk id names relations component packages components
  | .null | .number _ | .text _ | .array _ => none

/-- Reads the records in the first member with a key. -/
def Node.under? (key : String) : List (String × Json) → Option (List Node)
  | [] => none
  | (name, value) :: rest => if key == name then Node.arrayOfJson? value else Node.under? key rest

/-- Reads the records in an array. -/
def Node.arrayOfJson? : Json → Option (List Node)
  | .array items => Node.listOfJson? items
  | .null | .number _ | .text _ | .object _ => none

/-- Reads records one after another. -/
def Node.listOfJson? : List Json → Option (List Node)
  | [] => some []
  | item :: rest => do
    let node ← Node.ofJson? item
    let nodes ← Node.listOfJson? rest
    return node :: nodes

end

/-- Reads the document of the relations. -/
def Report.relationsOfJson? (v : Json) : Option (List Relation) :=
  Json.listOf? Relation.ofJson? v

/-- Reads the document of the tree. -/
def Report.treeOfJson? (v : Json) : Option (Option Node) :=
  match v with
  | .null => some none
  | v => (Node.ofJson? v).map some

/-! ### Round trips -/

section

variable {α β : Type}

@[simp]
theorem Json.field?_nil (key : String) : (object []).field? key = none :=
  rfl

@[simp]
theorem Json.field?_cons (name : String) (w : Json) (rest : List (String × Json)) (key : String) :
    (object ((name, w) :: rest)).field? key =
      if key = name then some w else (object rest).field? key := by
  show List.lookup key ((name, w) :: rest) = _
  rw [List.lookup_cons]
  by_cases h : key = name
  · rw [if_pos h, beq_iff_eq.2 h]
  · rw [if_neg h, beq_eq_false_iff_ne.2 h]
    rfl

/-- What is read back one by one is read back as a list. -/
theorem mapM_map_eq_some {read : β → Option α} {write : α → β} {l : List α}
    (h : ∀ a ∈ l, read (write a) = some a) : (l.map write).mapM read = some l := by
  induction l with
  | nil => rfl
  | cons a l ih =>
    obtain ⟨ha, hl⟩ := List.forall_mem_cons.1 h
    rw [List.map_cons, List.mapM_cons, ha, ih hl]
    rfl

/-- A list is read back from the array of its elements. -/
theorem Json.listOf?_map {read : Json → Option α} {write : α → Json}
    (h : ∀ a, read (write a) = some a) (l : List α) :
    listOf? read (array (l.map write)) = some l :=
  mapM_map_eq_some fun a _ ↦ h a

end

theorem Stereotype.ofLabel?_label (s : Stereotype) : ofLabel? s.label = some s := by
  rcases s with _ | _ | _ | _ <;> rfl

/-- The kind of a relation is read back from its labels. -/
theorem RelationKind.ofLabels?_label (kind : RelationKind) :
    ofLabels? kind.label kind.stereotype? = some kind := by
  rcases kind with ⟨_ | _, stereotype⟩ | _ | _ <;> rfl

/-- A relation is read back from its record. -/
theorem Relation.ofJson?_toJson (r : Relation) : ofJson? r.toJson = some r := by
  obtain ⟨⟨source, target, weight⟩, kind⟩ := r
  have hkind := RelationKind.ofLabels?_label kind
  rw [ofJson?, toJson]
  rcases hstereotype : kind.stereotype? with _ | s
  · rw [hstereotype] at hkind
    simp [Json.at?, Json.number?, Json.string?, Json.optional?, hkind]
  · rw [hstereotype] at hkind
    simp [Json.at?, Json.number?, Json.string?, Json.optional?, Stereotype.ofLabel?_label, hkind]

/-- A table of names is read back, as its keys are in order. -/
theorem NameTable.ofJson?_toJson (t : NameTable) : ofJson? (toJson t) = some t := by
  have hmembers : (toJson t).membersOf? (fun target ↦ target.string?.map QualName.mk) =
      some t.toList := mapM_map_eq_some fun _ _ ↦ rfl
  have hlist : Std.ExtTreeMap.ofList t.toList = t := by
    refine Std.ExtTreeMap.ext_getElem? fun name ↦ ?_
    rcases ht : t[name]? with _ | target
    · refine Std.ExtTreeMap.getElem?_ofList_of_contains_eq_false ?_
      rw [Std.ExtTreeMap.map_fst_toList_eq_keys, Std.ExtTreeMap.contains_keys,
        Std.ExtTreeMap.contains_eq_isSome_getElem?, ht, Option.isSome_none]
    · exact Std.ExtTreeMap.getElem?_ofList_of_mem Std.ReflCmp.compare_self
        Std.ExtTreeMap.distinct_keys_toList (Std.ExtTreeMap.mem_toList_iff_getElem?_eq_some.2 ht)
  rw [ofJson?, hmembers, Option.map_some, hlist]

theorem Variable.ofJson?_toJson (v : Variable) : ofJson? v.toJson = some v :=
  rfl

/-- The head of a record is read back from among the other members. -/
theorem headOfJson?_recordHead (id : Id) (names : RecordNames) (members : List (String × Json)) :
    headOfJson? (.object (recordHead id names ++ members)) = some (id, names) := by
  simp [headOfJson?, recordHead, Json.at?, Json.number?, Json.string?]

/-- The record of a function is read back. -/
theorem FunctionRecord.ofJson?_toJson (f : FunctionRecord) : ofJson? f.toJson = some f := by
  rw [ofJson?, toJson, headOfJson?_recordHead]
  simp [Json.at?, recordHead, NameTable.ofJson?_toJson, Json.listOf?_map Variable.ofJson?_toJson]

/-- The record of a class is read back. -/
theorem ClassRecord.ofJson?_toJson (c : ClassRecord) : ofJson? c.toJson = some c := by
  rw [ofJson?, toJson, headOfJson?_recordHead]
  simp [Json.at?, recordHead, relationsJson, NameTable.ofJson?_toJson,
    Json.listOf?_map Relation.ofJson?_toJson, Json.listOf?_map Variable.ofJson?_toJson,
    Json.listOf?_map FunctionRecord.ofJson?_toJson]

/-- The record of what is declared in a component is read back from among the other members. -/
theorem ComponentRecord.ofJson?_object (c : ComponentRecord) (id : Id) (names : RecordNames)
    (relations packages components : Json) :
    ofJson? (.object (recordHead id names ++ (c.names ++
      ([("relations", relations), ("packages", packages), ("components", components)] ++
        c.contents)))) = some c := by
  obtain ⟨exports, declared, imported, classes, functions⟩ := c
  rw [ofJson?, ComponentRecord.names, contents]
  rcases exports with _ | exports
  · simp [Json.at?, Json.optional?, recordHead, NameTable.ofJson?_toJson,
      Json.listOf?_map ClassRecord.ofJson?_toJson, Json.listOf?_map FunctionRecord.ofJson?_toJson]
  · have hexports : Json.listOf? Json.string? (.array (exports.map .text)) = some exports :=
      mapM_map_eq_some fun _ _ ↦ rfl
    simp [Json.at?, Json.optional?, recordHead, hexports, NameTable.ofJson?_toJson,
      Json.listOf?_map ClassRecord.ofJson?_toJson, Json.listOf?_map FunctionRecord.ofJson?_toJson]

/-- The names of a component do not hide the members after them. -/
theorem ComponentRecord.field?_names (c : ComponentRecord) {key : String}
    (h : key ∉ ["all", "declared_names", "imported_names"]) (rest : List (String × Json)) :
    (Json.object (c.names ++ rest)).field? key = (Json.object rest).field? key := by
  simp only [List.mem_cons, List.not_mem_nil, or_false, not_or] at h
  obtain ⟨hall, hdeclared, himported⟩ := h
  rw [names]
  rcases c.exports with _ | exports <;> simp [hall, hdeclared, himported]

/-- The record of a component is told by its declared names. -/
theorem ComponentRecord.isSome_field?_names (c : ComponentRecord) (rest : List (String × Json)) :
    ((Json.object (c.names ++ rest)).field? "declared_names").isSome := by
  rw [names]
  rcases c.exports with _ | exports <;> simp

theorem Node.under?_eq (key : String) (members : List (String × Json)) :
    under? key members = (Json.object members).at? key arrayOfJson? := by
  induction members with
  | nil => rfl
  | cons member members ih =>
    rw [under?, ih]
    show _ = ((Json.object ((member.1, member.2) :: members)).field? key).bind arrayOfJson?
    rw [Json.field?_cons]
    by_cases h : key = member.1
    · rw [if_pos h, if_pos (beq_iff_eq.2 h), Option.bind_some]
    · rw [if_neg h, if_neg (mt beq_iff_eq.1 h), Json.at?]

/-- The record of a package or component is an object, so the document of a tree tells whether there
is one. -/
theorem Node.toJson_ne_null (n : Node) : n.toJson ≠ .null := by
  intro h
  cases n with
  | mk =>
    rw [toJson] at h
    cases h

mutual

/-- The record of a package or component is read back, and of the right kind. -/
theorem Node.ofJson?_toJson : ∀ node : Node, ofJson? node.toJson = some node
  | .mk id names relations component packages components => by
    have hpackages : arrayOfJson? (.array (listToJson packages)) = some packages :=
      Node.listOfJson?_listToJson packages
    have hcomponents : arrayOfJson? (.array (listToJson components)) = some components :=
      Node.listOfJson?_listToJson components
    have hrelations : Json.listOf? Relation.ofJson? (relationsJson relations) = some relations :=
      Json.listOf?_map Relation.ofJson?_toJson relations
    rw [toJson, List.append_assoc, List.append_assoc, ofJson?, headOfJson?_recordHead, under?_eq,
      under?_eq]
    rcases component with _ | c
    · simp [Json.at?, recordHead, hrelations, hpackages, hcomponents]
    · rw [Option.map_some, Option.map_some, Option.getD_some, Option.getD_some,
        c.ofJson?_object id names]
      simp [Json.at?, recordHead, c.isSome_field?_names, c.field?_names, hrelations, hpackages,
        hcomponents]

/-- Records of packages and components are read back one after another. -/
theorem Node.listOfJson?_listToJson : ∀ nodes : List Node,
    listOfJson? (listToJson nodes) = some nodes
  | [] => rfl
  | node :: nodes => by
    rw [listToJson, listOfJson?, Node.ofJson?_toJson node, Node.listOfJson?_listToJson nodes]
    rfl

end

namespace Report

/-- The tree is read back from its document, and so is that there is none. -/
theorem treeOfJson?_treeJson (r : Report) : treeOfJson? r.treeJson = some r.tree := by
  rw [treeJson]
  rcases r.tree with _ | node
  · rfl
  · show treeOfJson? node.toJson = some (some node)
    rw [treeOfJson?, Node.ofJson?_toJson, Option.map_some]
    exact node.toJson_ne_null

/-- The relations are read back from their document. -/
theorem relationsOfJson?_relationsJson (relations : List Relation) :
    relationsOfJson? (relationsJson relations) = some relations :=
  Json.listOf?_map Relation.ofJson?_toJson relations

/-- **Documents lose nothing.** The pretty and the compact text of a document are read as the same
value, and the tree and the relations of the report are read back from the values of its documents.
-/
theorem documents_lossless (r : Report) :
    ∃ tree relations : Json,
      (∀ pretty, Json.read? (r.documents pretty).tree = some tree ∧
        Json.read? (r.documents pretty).relations = some relations) ∧
      treeOfJson? tree = some r.tree ∧ relationsOfJson? relations = some r.relations := by
  refine ⟨r.treeJson, relationsJson r.relations, fun pretty ↦ ⟨?_, ?_⟩,
    r.treeOfJson?_treeJson, relationsOfJson?_relationsJson r.relations⟩
  · exact Json.read?_render pretty r.treeJson
  · exact Json.read?_render pretty (relationsJson r.relations)

end Report

end CodeAtlas
