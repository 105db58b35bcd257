import Std.Data.ExtTreeSet
import CodeAtlas.QualName
import CodeAtlas.Relation

/-!
# Entities

What a project consists of: packages (directories), components (modules, and directories that
are themselves modules), classes, and functions. All but packages are scopes, in which names
are declared and imported.
-/

namespace CodeAtlas

/-- The kinds of entity. -/
inductive EntityKind where
  | package
  | component
  | cls
  | function
deriving DecidableEq, Repr

/-- The word for a kind of entity. -/
def EntityKind.label : EntityKind → String
  | package => "package"
  | component => "component"
  | cls => "class"
  | function => "function"

/-- A set of entities, in the order of their numbers. -/
abbrev IdSet := Std.ExtTreeSet Id

/-- A table from local names to what they refer to. -/
abbrev NameTable := Std.ExtTreeMap String QualName

/-- The packages and components inside an entity. -/
structure Containment where
  packages : IdSet := ∅
  components : IdSet := ∅

/-- Whether there is nothing inside. -/
def Containment.isEmpty (c : Containment) : Bool :=
  c.packages.isEmpty && c.components.isEmpty

/-- The names that a scope declares itself and those that it imports. -/
structure Scope where
  declared : NameTable := ∅
  imported : NameTable := ∅

/-- What a local name refers to; declared names come first. -/
def Scope.find? (s : Scope) (name : String) : Option QualName :=
  s.declared[name]? <|> s.imported[name]?

/-- A name with the label of what it holds; the label is empty if that is not known. -/
structure Variable where
  name : String
  label : String := ""
deriving DecidableEq, Repr

/-- A directory without a module of its own. -/
structure Package where
  children : Containment := {}
  relations : RelationSet := ∅

/-- A module, or a directory that is one. -/
structure Component where
  children : Containment := {}
  scope : Scope := {}
  relations : RelationSet := ∅
  /-- Whether the component is a directory with a marker file. -/
  isDirectory : Bool := false
  /-- The names the module exports, if it says so. -/
  exports : Option (List String) := none
  /-- Export lists of other modules, under the names they are imported as. -/
  exportAliases : Std.ExtTreeMap String (Option (List String)) := ∅
  classes : IdSet := ∅
  functions : IdSet := ∅

/-- Whether a component declares a class or a function. -/
def Component.declares (c : Component) : Bool :=
  !c.classes.isEmpty || !c.functions.isEmpty

/-- A class of a module. -/
structure Class where
  scope : Scope := {}
  /-- The attributes of its instances, in the order they were found. -/
  attributes : List Variable := []
  methods : IdSet := ∅
  relations : RelationSet := ∅

/-- Adds an attribute unless there is one of that name. -/
def Class.addAttribute (c : Class) (v : Variable) : Class :=
  if c.attributes.any (·.name == v.name) then c
  else { c with attributes := c.attributes ++ [v] }

/-- A function of a module or a method of a class. -/
structure Function where
  scope : Scope := {}
  params : List Variable := []

/-- What an entity holds, by its kind. -/
inductive Body where
  | package (p : Package)
  | component (c : Component)
  | cls (c : Class)
  | function (f : Function)

/-- An entity: its number, its qualified name and what it holds. -/
structure Entity where
  id : Id
  qualName : QualName
  body : Body

namespace Body

def kind : Body → EntityKind
  | package _ => .package
  | component _ => .component
  | cls _ => .cls
  | function _ => .function

/-- The packages and components inside; classes and functions have none. -/
def children? : Body → Option Containment
  | package p => some p.children
  | component c => some c.children
  | cls _ | function _ => none

/-- The names known inside; a package knows none. -/
def scope? : Body → Option Scope
  | package _ => none
  | component c => some c.scope
  | cls c => some c.scope
  | function f => some f.scope

/-- The relations kept with an entity; a function keeps none. -/
def relations? : Body → Option RelationSet
  | package p => some p.relations
  | component c => some c.relations
  | cls c => some c.relations
  | function _ => none

def component? : Body → Option Component
  | component c => some c
  | package _ | cls _ | function _ => none

def class? : Body → Option Class
  | cls c => some c
  | package _ | component _ | function _ => none

def function? : Body → Option Function
  | function f => some f
  | package _ | component _ | cls _ => none

/-! ### Changes to one part, which leave a body without that part as it is -/

def mapChildren (f : Containment → Containment) : Body → Body
  | package p => package { p with children := f p.children }
  | component c => component { c with children := f c.children }
  | b => b

def mapScope (f : Scope → Scope) : Body → Body
  | component c => component { c with scope := f c.scope }
  | cls c => cls { c with scope := f c.scope }
  | function g => function { g with scope := f g.scope }
  | b => b

def mapRelations (f : RelationSet → RelationSet) : Body → Body
  | package p => package { p with relations := f p.relations }
  | component c => component { c with relations := f c.relations }
  | cls c => cls { c with relations := f c.relations }
  | b => b

def mapComponent (f : Component → Component) : Body → Body
  | component c => component (f c)
  | b => b

def mapClass (f : Class → Class) : Body → Body
  | cls c => cls (f c)
  | b => b

end Body

namespace Entity

def kind (e : Entity) : EntityKind :=
  e.body.kind

/-- The last segment of the qualified name. -/
def name (e : Entity) : String :=
  e.qualName.name

end Entity

end CodeAtlas
