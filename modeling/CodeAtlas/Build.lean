import CodeAtlas.Files.Walk
import CodeAtlas.Namespace.Declare
import CodeAtlas.Project

/-!
# Building the namespace of a project

The directories of a project are built in the order of the walk. A directory becomes a
component if it has a marker file, and else a package. Its modules become components below it,
and the directories inside, which were built before it, are attached to it. Modules that
declare nothing and directories that hold nothing are pruned again. What has a name that
belongs to something else already is skipped.
-/

namespace CodeAtlas

/-- The file that makes a directory a component. -/
def markerName : String := "__init__.py"

/-- The extension of the files of modules. -/
def moduleExtension : String := "py"

/-- What is in a directory and not ignored. -/
structure Listing where
  marker : Option ByteArray
  modules : List (String × ByteArray)
  subdirectories : List String

/-- Lists a directory. -/
def Directory.listing (filter : Filter) (d : Directory) : Listing :=
  let kept := d.entries.filter fun e ↦ !filter.ignores (d.path ++ [e.name]) e.isDirectory
  { marker := kept.findSome? fun
      | .file name bytes => if name = markerName then some bytes else none
      | .directory .. => none
    modules := kept.filterMap fun
      | .file name bytes =>
        if name ≠ markerName && Path.extension? name = some moduleExtension then
          some (name, bytes)
        else none
      | .directory .. => none
    subdirectories := kept.filterMap fun
      | .file .. => none
      | .directory name _ => some name }

namespace Namespace

/-- Puts an entity among the packages inside another if it is one, and else among the
components. -/
def attach (ns : Namespace) (owner child : Id) (kind : EntityKind) : Namespace :=
  ns.modify owner (·.mapChildren fun c ↦
    match kind with
    | .package => { c with packages := c.packages.insert child }
    | _ => { c with components := c.components.insert child })

/-- Whether an entity is a component that declares a class or a function. -/
def declares (ns : Namespace) (id : Id) : Bool :=
  match ns.component? id with
  | some c => c.declares
  | none => false

end Namespace

/-- A directory that is being built: the namespace, the files of the directory that are kept,
and whether something was attached to it. -/
structure Draft where
  ns : Namespace
  sources : List SourceFile := []
  hasChildren : Bool := false

namespace Draft

variable (project : Project) (directory : Directory) (owner : Id)

/-- Enters the declarations of a file below its component. -/
def scan (draft : Draft) (component : Id) (file : String) (bytes : ByteArray) :
    Except Failure Draft := do
  let statements ← project.parse (directory.path ++ [file]) bytes
  return { draft with ns := draft.ns.declareAll component (Declaration.ofStmts statements) }

/-- Records a file that is kept. -/
def keep (draft : Draft) (component : Id) (file : String) : Draft :=
  { draft with sources := draft.sources ++ [⟨directory.path ++ [file], component⟩] }

/-- Enters the marker of the directory, if it has one. -/
def addMarker (draft : Draft) : Option ByteArray → Except Failure Draft
  | none => return draft
  | some bytes => do
    let draft ← scan project directory draft owner markerName bytes
    return keep directory draft owner markerName

/-- Builds a module of the directory. -/
def addModule (draft : Draft) (file : String × ByteArray) : Except Failure Draft :=
  match draft.ns.create (.ofPath project.name directory.path (some file.1)) (.component {}) with
  | none => return draft
  | some (id, ns) => do
    let draft ← scan project directory { draft with ns } id file.1 file.2
    if draft.ns.declares id then
      let draft := keep directory draft id file.1
      return { draft with ns := draft.ns.attach owner id .component, hasChildren := true }
    else
      return { draft with ns := draft.ns.prune id }

/-- Attaches a directory inside if its name is known. -/
def addSubdirectory (draft : Draft) (name : String) : Draft :=
  let known := draft.ns.find? (.ofPath project.name (directory.path ++ [name]) none)
  match known with
  | none => draft
  | some e => { draft with ns := draft.ns.attach owner e.id e.kind, hasChildren := true }

/-- Ends the directory. It is kept, with its files, if something was attached to it or it declares
something. -/
def finish (draft : Draft) : Namespace × Option Id :=
  if draft.hasChildren || draft.ns.declares owner then
    ({ draft.ns with sources := draft.ns.sources ++ draft.sources }, some owner)
  else
    (draft.ns.prune owner, none)

end Draft

/-- The body of the entity of a directory. -/
def Listing.body (l : Listing) : Body :=
  if l.marker.isSome then .component { isDirectory := true } else .package {}

/-- Builds a directory: the namespace after it, and its entity if it is kept. -/
def Namespace.buildDirectory (project : Project) (ns : Namespace) (directory : Directory) :
    Except Failure (Namespace × Option Id) :=
  let listing := directory.listing project.filter
  match ns.create (.ofPath project.name directory.path none) listing.body with
  | none => return (ns, none)
  | some (id, ns) => do
    let draft ← Draft.addMarker project directory id { ns } listing.marker
    let draft ← listing.modules.foldlM (Draft.addModule project directory id) draft
    let draft := listing.subdirectories.foldl (Draft.addSubdirectory project directory id) draft
    return draft.finish id

/-- Builds a directory and notes the entity of the root. -/
def Namespace.addDirectory (project : Project) (ns : Namespace) (directory : Directory) :
    Except Failure Namespace := do
  let (ns, kept) ← ns.buildDirectory project directory
  return if directory.path.isEmpty then { ns with root := kept } else ns

/-- The directories of a project in the order they are built. -/
def Project.directories (p : Project) : List Directory :=
  Directory.walk (p.filter.ignores · true) p.entries

/-- Builds the namespace of a project. -/
def Project.build (p : Project) : Except Failure Namespace :=
  p.directories.foldlM (Namespace.addDirectory p) { project := p.name }

end CodeAtlas
