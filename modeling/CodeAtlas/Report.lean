import CodeAtlas.Json
import CodeAtlas.Namespace.Basic

/-!
# Reports

What an analysis found, as two documents: the tree of packages and components with the classes
and functions in them, and the list of relations.
-/

namespace CodeAtlas

/-- The names in a record. The short one is data of its own: a report may have any there. In a
report on a namespace it is the last segment of the qualified one (`Report.namesOf`). -/
structure RecordNames where
  name : String
  qualName : QualName

/-- The record of a function or method. -/
structure FunctionRecord extends RecordNames where
  id : Id
  imported : NameTable
  params : List Variable

/-- The record of a class. -/
structure ClassRecord extends RecordNames where
  id : Id
  imported : NameTable
  relations : List Relation
  attributes : List Variable
  methods : List FunctionRecord

/-- What the record of a component has besides what is inside it. -/
structure ComponentRecord where
  exports : Option (List String)
  declared : NameTable
  imported : NameTable
  classes : List ClassRecord
  functions : List FunctionRecord

/-- The record of a package or component; a component has more in it than other packages and
components. -/
inductive Node where
  | mk (id : Id) (names : RecordNames) (relations : List Relation)
      (component : Option ComponentRecord) (packages components : List Node)

/-- A report: the tree below the root, if anything was kept, and all relations. -/
structure Report where
  tree : Option Node
  relations : List Relation

namespace Report

/-! ### Records of entities -/

/-- The names in the record of an entity. -/
def namesOf (e : Entity) : RecordNames :=
  { name := e.name
    qualName := e.qualName }

/-- The record of a function. -/
def functionRecord? (e : Entity) : Option FunctionRecord :=
  match e.body with
  | .function f => some ⟨namesOf e, e.id, f.scope.imported, f.params⟩
  | _ => none

/-- The records of those entities of a set that are functions. -/
def functionRecords (ns : Namespace) (ids : IdSet) : List FunctionRecord :=
  (ids.toList.filterMap ns.get?).filterMap functionRecord?

/-- The record of a class. -/
def classRecord? (ns : Namespace) (e : Entity) : Option ClassRecord :=
  match e.body with
  | .cls c =>
    some ⟨namesOf e, e.id, c.scope.imported, c.relations.toList, c.attributes,
      functionRecords ns c.methods⟩
  | _ => none

/-- The record of what is declared in a component. -/
def componentRecord (ns : Namespace) (c : Component) : ComponentRecord :=
  { exports := c.exports
    declared := c.scope.declared
    imported := c.scope.imported
    classes := (c.classes.toList.filterMap ns.get?).filterMap (classRecord? ns)
    functions := functionRecords ns c.functions }

/-- The record of a package or component, with at most `levels` levels of them. -/
def node? (ns : Namespace) : (levels : Nat) → Entity → Option Node
  | 0, _ => none
  | levels + 1, e =>
    let nodes (ids : IdSet) := (ids.toList.filterMap ns.get?).filterMap (node? ns levels)
    match e.body with
    | .package p =>
      some (.mk e.id (namesOf e) p.relations.toList none
        (nodes p.children.packages) (nodes p.children.components))
    | .component c =>
      some (.mk e.id (namesOf e) c.relations.toList (some (componentRecord ns c))
        (nodes c.children.packages) (nodes c.children.components))
    | .cls _ | .function _ => none

/-- The report on a namespace. An entity is not inside itself, so there are no more levels than
entities. -/
def ofNamespace (ns : Namespace) : Report :=
  { tree := (ns.root.bind ns.get?).bind (node? ns ns.size)
    relations := ns.relations }

end Report

/-! ### Documents -/

def NameTable.toJson (t : NameTable) : Json :=
  .object (t.toList.map fun (name, target) ↦ (name, .text target.text))

def Variable.toJson (v : Variable) : Json :=
  .object [("name", .text v.name), ("type", .text v.label)]

def Relation.toJson (r : Relation) : Json :=
  .object <|
    [("source", .number r.source), ("target", .number r.target), ("weight", .number r.weight),
     ("type", .text r.kind.label)] ++
    r.kind.stereotype?.toList.map fun s ↦ ("stereotype", .text s.label)

/-- The members that every record begins with. -/
def recordHead (id : Id) (names : RecordNames) : List (String × Json) :=
  [("id", .number id), ("name", .text names.name), ("qual_name", .text names.qualName.text)]

def relationsJson (relations : List Relation) : Json :=
  .array (relations.map Relation.toJson)

def FunctionRecord.toJson (f : FunctionRecord) : Json :=
  .object <| recordHead f.id f.toRecordNames ++
    [("imported_names", NameTable.toJson f.imported),
     ("params", .array (f.params.map Variable.toJson))]

def ClassRecord.toJson (c : ClassRecord) : Json :=
  .object <| recordHead c.id c.toRecordNames ++
    [("imported_names", NameTable.toJson c.imported),
     ("relations", relationsJson c.relations),
     ("inst_attrs", .array (c.attributes.map Variable.toJson)),
     ("inst_meths", .array (c.methods.map FunctionRecord.toJson))]

/-- The members of a component before its relations. -/
def ComponentRecord.names (c : ComponentRecord) : List (String × Json) :=
  c.exports.toList.map (fun names ↦ ("all", .array (names.map .text))) ++
    [("declared_names", NameTable.toJson c.declared),
     ("imported_names", NameTable.toJson c.imported)]

/-- The members of a component after the packages and components in it. -/
def ComponentRecord.contents (c : ComponentRecord) : List (String × Json) :=
  [("classes", .array (c.classes.map ClassRecord.toJson)),
   ("functions", .array (c.functions.map FunctionRecord.toJson))]

mutual

def Node.toJson : Node → Json
  | .mk id names relations component packages components =>
    .object <| recordHead id names ++
      (component.map ComponentRecord.names).getD [] ++
      [("relations", relationsJson relations),
       ("packages", .array (Node.listToJson packages)),
       ("components", .array (Node.listToJson components))] ++
      (component.map ComponentRecord.contents).getD []

def Node.listToJson : List Node → List Json
  | [] => []
  | node :: rest => node.toJson :: Node.listToJson rest

end

namespace Report

/-- The document of the tree. -/
def treeJson (r : Report) : Json :=
  match r.tree with
  | some node => node.toJson
  | none => .null

/-- The texts of the two documents. -/
structure Documents where
  tree : String
  relations : String
deriving DecidableEq

/-- The documents of a report, pretty or compact. -/
def documents (r : Report) (pretty : Bool) : Documents :=
  { tree := r.treeJson.render pretty
    relations := (relationsJson r.relations).render pretty }

end Report

end CodeAtlas
