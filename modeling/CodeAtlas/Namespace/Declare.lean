import CodeAtlas.Namespace.Basic
import CodeAtlas.Source.Declaration

/-!
# Entering declarations

The classes, methods and functions that a module declares become entities below its component.
The first declaration of a name wins: a later one of the same name, with all that is in it,
adds nothing. So does one whose qualified name belongs to something else already.
-/

namespace CodeAtlas

namespace Namespace

/-- The body of a declared function. -/
def functionBody (f : FunctionDecl) : Body :=
  .function { params := f.params.map fun p ↦ { name := p.text } }

/-- Enters a method of a class. -/
def declareMethod (ns : Namespace) (owner : Id) (ownerName : QualName) (f : FunctionDecl) :
    Namespace :=
  let name := ownerName.child f.name.text
  match ns.create name (functionBody f) with
  | none => ns
  | some (id, ns) =>
    ns.modify owner (·.mapClass fun c ↦
      { c with
        methods := c.methods.insert id
        scope := { c.scope with declared := c.scope.declared.insert f.name.text name } })

/-- Enters what a module declares below its component. -/
def declare (ns : Namespace) (owner : Id) (ownerName : QualName) : Declaration → Namespace
  | .classDecl className methods =>
    let name := ownerName.child className.text
    match ns.create name (.cls {}) with
    | none => ns
    | some (id, ns) =>
      let ns := ns.modify owner (·.mapComponent fun c ↦
        { c with
          classes := c.classes.insert id
          scope := { c.scope with declared := c.scope.declared.insert className.text name } })
      methods.foldl (·.declareMethod id name ·) ns
  | .functionDecl f =>
    let name := ownerName.child f.name.text
    match ns.create name (functionBody f) with
    | none => ns
    | some (id, ns) =>
      ns.modify owner (·.mapComponent fun c ↦
        { c with
          functions := c.functions.insert id
          scope := { c.scope with declared := c.scope.declared.insert f.name.text name } })

/-- Enters all declarations of a module, in order. -/
def declareAll (ns : Namespace) (owner : Id) (declarations : List Declaration) : Namespace :=
  match ns.get? owner with
  | none => ns
  | some e => declarations.foldl (·.declare owner e.qualName ·) ns

end Namespace

end CodeAtlas
