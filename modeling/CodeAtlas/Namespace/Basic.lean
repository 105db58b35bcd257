import CodeAtlas.Entity

/-!
# The namespace of a project

The store of a project's entities and of the relations between them. Entities are numbered in
the order they are created, and a number is never used twice. The table of names is the
inverse of the table of entities; both are only changed together, by `create` and `prune`.
-/

namespace CodeAtlas

/-- A file that is read again by every pass, and the component it belongs to. -/
structure SourceFile where
  path : List String
  component : Id
deriving DecidableEq

/-- The entities of a project and the relations between them. -/
structure Namespace where
  project : String
  nextId : Id := 0
  root : Option Id := none
  entities : Std.ExtTreeMap Id Entity := ∅
  ids : Std.ExtTreeMap QualName Id := ∅
  sources : List SourceFile := []
  dependencies : RelationSet := ∅
  associations : RelationSet := ∅
  condensed : RelationSet := ∅

namespace Namespace

/-! ### Look-up -/

/-- The entity with a number. -/
def get? (ns : Namespace) (id : Id) : Option Entity :=
  ns.entities[id]?

/-- The number of the entity with a qualified name. -/
def lookup (ns : Namespace) (name : QualName) : Option Id :=
  ns.ids[name]?

/-- The entity with a qualified name. -/
def find? (ns : Namespace) (name : QualName) : Option Entity :=
  (ns.lookup name).bind ns.get?

/-- The kind of an entity. -/
def kind? (ns : Namespace) (id : Id) : Option EntityKind :=
  (ns.get? id).map Entity.kind

/-- The names known in an entity. -/
def scope? (ns : Namespace) (id : Id) : Option Scope :=
  (ns.get? id).bind (·.body.scope?)

def component? (ns : Namespace) (id : Id) : Option Component :=
  (ns.get? id).bind (·.body.component?)

def class? (ns : Namespace) (id : Id) : Option Class :=
  (ns.get? id).bind (·.body.class?)

/-- The number of entities. -/
def size (ns : Namespace) : Nat :=
  ns.entities.size

/-- The entities in the order of their numbers. -/
def toList (ns : Namespace) : List Entity :=
  ns.entities.toList.map Prod.snd

/-! ### Creation and removal -/

/-- Adds an entity and gives it the next number; nothing happens if the name is taken. -/
def create (ns : Namespace) (name : QualName) (body : Body) : Option (Id × Namespace) :=
  if ns.ids.contains name then none
  else some (ns.nextId,
    { ns with
      nextId := ns.nextId + 1
      entities := ns.entities.insert ns.nextId ⟨ns.nextId, name, body⟩
      ids := ns.ids.insert name ns.nextId })

/-- Removes an entity and its name. -/
def prune (ns : Namespace) (id : Id) : Namespace :=
  match ns.get? id with
  | none => ns
  | some e => { ns with entities := ns.entities.erase id, ids := ns.ids.erase e.qualName }

/-- Changes what an entity holds. -/
def modify (ns : Namespace) (id : Id) (f : Body → Body) : Namespace :=
  match ns.get? id with
  | none => ns
  | some e => { ns with entities := ns.entities.insert id { e with body := f e.body } }

/-! ### Relations -/

/-- Records a dependency. -/
def addDependency (ns : Namespace) (r : Relation) : Namespace :=
  { ns with dependencies := ns.dependencies.insert r }

/-- Records an association. -/
def addAssociation (ns : Namespace) (r : Relation) : Namespace :=
  { ns with associations := ns.associations.insert r }

/-- All relations: dependencies, associations, and what they were condensed to. -/
def relations (ns : Namespace) : List Relation :=
  ns.dependencies.toList ++ ns.associations.toList ++ ns.condensed.toList

/-! ### Containment by name -/

/-- The entity that contains an entity by name. -/
def parent? (ns : Namespace) (id : Id) : Option Id := do
  let e ← ns.get? id
  ns.lookup (← e.qualName.parent)

/-- An entity and those that contain it, up to `levels` steps outward. -/
def climb (ns : Namespace) : (levels : Nat) → Id → List Id
  | 0, id => [id]
  | levels + 1, id =>
    match ns.parent? id with
    | none => [id]
    | some parent => id :: climb ns levels parent

/-- The number of segments in the name of an entity. -/
def depth (ns : Namespace) (id : Id) : Nat :=
  ((ns.get? id).map (·.qualName.depth)).getD 0

/-- An entity and those that contain it, innermost first. Each step drops a segment of the
name, so the number of segments bounds the steps. -/
def ancestors (ns : Namespace) (id : Id) : List Id :=
  ns.climb (ns.depth id) id

/-! ### Statistics -/

/-- The number of entities of each kind and of relations. -/
structure Stats where
  packages : Nat
  components : Nat
  classes : Nat
  functions : Nat
  dependencies : Nat
  associations : Nat
  condensed : Nat
deriving DecidableEq

/-- Counts the entities and relations. -/
def stats (ns : Namespace) : Stats :=
  let count (kind : EntityKind) := ns.toList.countP (·.kind == kind)
  { packages := count .package
    components := count .component
    classes := count .cls
    functions := count .function
    dependencies := ns.dependencies.size
    associations := ns.associations.size
    condensed := ns.condensed.size }

namespace Stats

/-- The number of entities. -/
def entities (s : Stats) : Nat :=
  s.packages + s.components + s.classes + s.functions

/-- The number of relations. -/
def relations (s : Stats) : Nat :=
  s.dependencies + s.associations + s.condensed

/-- The statistics as text. -/
def text (s : Stats) : String :=
  s!"Namespace Statistics:\n  Packages: {s.packages}  Components: {s.components}\n" ++
  s!"  Classes: {s.classes}  Functions: {s.functions}\n" ++
  s!"  Relations: {s.relations} (dependencies: {s.dependencies}, " ++
  s!"associations: {s.associations}, condensed: {s.condensed})\n"

end Stats

end Namespace

/-- A namespace that is being changed, and a count of something that happened on the way. -/
structure Progress where
  ns : Namespace
  count : Nat := 0

end CodeAtlas
