import CodeAtlas.Visit

/-!
# Passes

A pass goes through the files of a project and changes the namespace on the way, counting
something as it goes: references it could not resolve, or relations it added.
-/

namespace CodeAtlas

/-- A pass over the file of a component. -/
abbrev Pass := (component : Id) → (file : List Stmt) → Progress → Progress

/-- The variable that lists what a module exports. -/
def exportVariable : String := "__all__"

/-- The qualified name of the module that names are imported from. A relative import starts at
the component itself if it is a directory, else at what contains it, and each dot after the
first goes one level further out. There is none if that leaves the project. -/
def Namespace.importSource (ns : Namespace) (component : Id) (path : Option String)
    (level : Nat) : Option QualName :=
  match level with
  | 0 => path.map QualName.mk
  | outward + 1 => do
    let e ← ns.get? component
    let isDirectory := (e.body.component?.map Component.isDirectory).getD false
    let base ← if isDirectory then some e.qualName else e.qualName.parent
    let base ← base.ancestor outward
    return match path with
      | some path => base.child path
      | none => base

end CodeAtlas
